import PromptHarness.Proofs.Conversation

/-!
# What stays true of a process

Some things are true of a process, whatever it does next, once they are true of it: that it ends in
a certain way, say, or that it leaves some files alone.  Such a thing stays true along the whole
course of a process at its terminal, also where answers are typed (`Conversed.inherits`), and while
nobody takes its output (`elapse`).
-/

namespace PromptHarness

variable {such : Process Ending → Files → Prop}

/-- What is true of a process and the files it finds stays true whatever it does next. -/
structure Process.IsHereditary (such : Process Ending → Files → Prop) : Prop where
  print : ∀ {bytes next files}, such (.print bytes next) files → such next files
  warn : ∀ {bytes next files}, such (.warn bytes next) files → such next files
  ask : ∀ {portion next files}, such (.ask portion next) files → ∀ input, such (next input) files
  pause : ∀ {span next files}, such (.pause span next) files → such next files
  hangUp : ∀ {next files}, such (.hangUp next) files → such next files
  arrange : ∀ {signal arrangement next files},
    such (.arrange signal arrangement next) files → such next files
  collect : ∀ {next files}, such (.collect next) files → ∀ signals, such (next signals) files
  change : ∀ {effect next files}, such (.change effect next) files → such next (effect files)
  look : ∀ {next files}, such (.look next) files → such (next files) files
  /-- It makes no difference how much of a pause is over or of an output written. -/
  paused : ∀ {span next files}, such (.pause span next) files → ∀ rest, such (.pause rest next) files
  printed : ∀ {bytes next files},
    such (.print bytes next) files → ∀ rest, such (.print rest next) files

namespace Process.IsHereditary

/-- It stays true of a process that goes on without anybody to take its output. -/
theorem elapse (hsuch : IsHereditary such) {process : Process Ending} {files : Files}
    (hholds : such process files) (time : Nat) (signals : Signals) (room : Nat) :
    such (process.elapse time signals room files).1.process
      (process.elapse time signals room files).2 := by
  induction process generalizing time signals room files with
  | finished ending => exact hholds
  | print bytes next ih =>
      rw [Process.elapse]
      split
      · exact ih (hsuch.print hholds) _ _ _
      · exact hsuch.printed hholds _
  | warn bytes next ih => exact ih (hsuch.warn hholds) _ _ _
  | ask portion next ih => exact ih none (hsuch.ask hholds none) _ _ _
  | pause span next ih =>
      rw [Process.elapse]
      split
      · exact ih (hsuch.pause hholds) _ _ _
      · exact hsuch.paused hholds _
  | hangUp next ih => exact ih (hsuch.hangUp hholds) _ _ _
  | arrange signal arrangement next ih => exact ih (hsuch.arrange hholds) _ _ _
  | collect next ih => exact ih _ (hsuch.collect hholds _) _ _ _
  | change effect next ih => exact ih (hsuch.change hholds) _ _ _
  | look next ih => exact ih _ (hsuch.look hholds) _ _ _

end Process.IsHereditary

namespace Position

open Process

variable {position later : Position}

/-- What is true of the process at a position and of the files that it finds there. -/
def Bears (such : Process Ending → Files → Prop) (position : Position) : Prop :=
  such position.process position.link.files

theorem Bears.step? (hsuch : IsHereditary such) (hbears : position.Bears such)
    (hstep : position.step? = some later) : later.Bears such := by
  obtain ⟨⟨process, link, transcript⟩, written, heard, typed⟩ := position
  -- Only a process that changes the files finds others at the next position.
  cases process with
  | finished ending =>
      simp only [Position.step?] at hstep
      split at hstep
      · cases hstep
      · cases hstep
        exact hbears
  | print bytes next =>
      simp only [Position.step?] at hstep
      split at hstep
      · cases hstep
        exact hsuch.print hbears
      · split at hstep
        · cases hstep
          exact hbears
        · cases hstep
          obtain ⟨more, hmore⟩ := link.print_eq_receive bytes
          rw [hmore]
          exact hsuch.print hbears
  | warn bytes next =>
      simp only [Position.step?] at hstep
      split at hstep
      · cases hstep
        exact hsuch.warn hbears
      · split at hstep
        · cases hstep
          exact hbears
        · cases hstep
          obtain ⟨more, hmore⟩ := link.warn_eq_receive bytes
          rw [hmore]
          exact hsuch.warn hbears
  | ask portion next =>
      simp only [Position.step?] at hstep
      split at hstep
      · cases hstep
        exact hsuch.ask hbears none
      · split at hstep
        · next hinput =>
          cases hstep
          rw [Link.eq_of_input hinput]
          exact hsuch.ask hbears _
        · cases hstep
          exact hbears
  | pause span next =>
      cases span with
      | zero =>
          cases hstep
          exact hsuch.pause hbears
      | succ span =>
          cases hstep
          exact hsuch.paused hbears span
  | hangUp next =>
      cases hstep
      exact hsuch.hangUp hbears
  | arrange signal arrangement next =>
      cases hstep
      exact hsuch.arrange hbears
  | collect next =>
      cases hstep
      exact hsuch.collect hbears _
  | change effect next =>
      cases hstep
      exact hsuch.change hbears
  | look next =>
      cases hstep
      exact hsuch.look hbears

theorem Reaches.inherits (hreaches : position.Reaches later) (hsuch : IsHereditary such)
    (hbears : position.Bears such) : later.Bears such := by
  induction hreaches with
  | refl => exact hbears
  | tail _ hstep ih => exact ih.step? hsuch hstep

/-- Answers can only change a process by killing it. -/
theorem Conversed.inherits {time : Nat} {exchanges : List Exchange}
    (hconversed : Conversed time position exchanges later) (hsuch : IsHereditary such)
    (hkilled : ∀ process files signal, such process files → such (.finished (.signaled signal)) files)
    (hbears : position.Bears such) : later.Bears such := by
  induction hconversed with
  | done => exact hbears
  | @answered position found last exchange rest before after hfinds _ _ ih =>
      apply ih
      have hfound := hfinds.reaches.inherits hsuch hbears
      obtain ⟨terminal, signals, htype⟩ :=
        (found.link.take after).exists_type_eq exchange.response
      rw [Bears, link_answer, htype]
      simp only [answer, Talk.answer]
      cases found.link.deadlySignal? exchange.response with
      | some signal => exact hkilled _ _ signal hfound
      | none => exact hfound

end Position

end PromptHarness
