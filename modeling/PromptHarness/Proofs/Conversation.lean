import PromptHarness.Proofs.Waiting

/-!
# Going through the prompts

What it means that exchanges have been answered in order is said here about the course of the
process alone: each cue is found in what no earlier cue has used up, in time, and only then is its
answer typed (`Conversed`).  There is at most one way in which that can happen.  `Talk.converse`
goes exactly that way, and it is stuck exactly where the next cue is not shown in time
(`converse_conversation`).
-/

namespace PromptHarness

def Cue.needle (cue : Cue) : Bytes := Text.encode cue.literal

namespace Link

/-- Typing changes nothing but what the terminal holds and the signals that have come. -/
theorem exists_type_eq (link : Link) (text : String) :
    ∃ terminal signals,
      link.type text = { link with terminal := terminal, signals := signals } := by
  unfold Link.type
  split
  · exact ⟨link.terminal, link.signals, rfl⟩
  · exact ⟨_, _, rfl⟩

@[simp]
theorem wiring_type (link : Link) (text : String) : (link.type text).wiring = link.wiring := by
  obtain ⟨terminal, signals, htype⟩ := link.exists_type_eq text
  rw [htype]

@[simp]
theorem shown_type (link : Link) (text : String) : (link.type text).shown = link.shown := by
  obtain ⟨terminal, signals, htype⟩ := link.exists_type_eq text
  rw [htype]

@[simp]
theorem unread_type (link : Link) (text : String) : (link.type text).unread = link.unread := by
  obtain ⟨terminal, signals, htype⟩ := link.exists_type_eq text
  rw [htype]

@[simp]
theorem closed_type (link : Link) (text : String) : (link.type text).closed = link.closed := by
  obtain ⟨terminal, signals, htype⟩ := link.exists_type_eq text
  rw [htype]

@[simp]
theorem wiring_take (link : Link) (rest : Bytes) : (link.take rest).wiring = link.wiring := rfl

@[simp]
theorem shown_take (link : Link) (rest : Bytes) : (link.take rest).shown = link.shown := rfl

@[simp]
theorem unread_take (link : Link) (rest : Bytes) : (link.take rest).unread = rest := rfl

@[simp]
theorem closed_take (link : Link) (rest : Bytes) : (link.take rest).closed = link.closed := rfl

end Link

namespace Position

/-- The answer to an exchange is typed, with all up to the end of its cue taken. -/
def answer (position : Position) (exchange : Exchange) (before after : Bytes) : Position :=
  { position with
    toTalk := position.toTalk.answer exchange before after
    typed := position.typed ++ [exchange.response] }

@[simp]
theorem link_answer (position : Position) (exchange : Exchange) (before after : Bytes) :
    (position.answer exchange before after).link =
      (position.link.take after).type exchange.response := rfl

/-- Whoever waits for the needle finds it at `found`: at once where it is there already, or else
where the process first rests with it, if that is in time. -/
inductive Finds (time : Nat) (needle : Bytes) (position : Position) : Position → Prop
  | here (hholds : Text.holds needle position.link.unread = true) :
      Finds time needle position position
  | later {found : Position} (hlacking : Text.holds needle position.link.unread = false)
      (hwaits : WaitsOn (Text.holds needle) position found)
      (hready : found.IsReady (Text.holds needle))
      (hearly : found.link.elapsed < position.link.elapsed + time) :
      Finds time needle position found

namespace Finds

variable {time : Nat} {needle : Bytes} {position found other : Position}

theorem reaches (hfinds : Finds time needle position found) : position.Reaches found := by
  cases hfinds with
  | here => exact .refl
  | later _ hwaits => exact hwaits.reaches

theorem holds (hfinds : Finds time needle position found) :
    Text.holds needle found.link.unread = true := by
  cases hfinds with
  | here hholds => exact hholds
  | later _ _ hready => exact hready.2

theorem shows (hfinds : Finds time needle position found) : position.Shows time needle := by
  cases hfinds with
  | here hholds => exact .inl hholds
  | later _ hwaits hready hearly => exact .inr ⟨found, ⟨hwaits.reaches, hearly⟩, hready.2⟩

theorem unique (hfirst : Finds time needle position found)
    (hsecond : Finds time needle position other) : found = other := by
  cases hfirst with
  | here hholds =>
      cases hsecond with
      | here => rfl
      | later hlacking => exact absurd (hlacking.symm.trans hholds) Bool.false_ne_true
  | later hlacking hwaits hready =>
      cases hsecond with
      | here hholds => exact absurd (hlacking.symm.trans hholds) Bool.false_ne_true
      | later _ hwaits' hready' => exact hwaits.unique hready hwaits' hready'

end Finds

theorem Waited.finds {needle : Bytes} {time : Nat} {position later : Position}
    (hwaited : Waited (Text.holds needle) time position .satisfied later)
    (hterminal : position.link.wiring = .terminal) : Finds time needle position later := by
  cases hwaited with
  | here henough => exact .here henough
  | found hlacking hwaits henough hearly hrest =>
      exact .later hlacking hwaits ⟨hrest hterminal, henough⟩ hearly

/-! ## Several exchanges -/

/-- The exchanges are gone through in order, which brings the process from the first position to the
last: each cue is found, leftmost in what is left behind the cue before it, and then the answer is
typed. -/
inductive Conversed (time : Nat) : Position → List Exchange → Position → Prop
  | done (position : Position) : Conversed time position [] position
  | answered {position found last : Position} {exchange : Exchange} {later : List Exchange}
      {before after : Bytes} (hfinds : Finds time exchange.cue.needle position found)
      (hleft : Text.IsLeftmost exchange.cue.needle found.link.unread before after)
      (hlater : Conversed time (found.answer exchange before after) later last) :
      Conversed time position (exchange :: later) last

namespace Conversed

variable {time : Nat} {position last : Position} {exchanges : List Exchange}

theorem unique {other : Position} (hfirst : Conversed time position exchanges last)
    (hsecond : Conversed time position exchanges other) : last = other := by
  induction hfirst with
  | done position =>
      cases hsecond
      rfl
  | answered hfinds hleft _ ih =>
      cases hsecond with
      | answered hfinds' hleft' hlater' =>
          obtain rfl := hfinds.unique hfinds'
          obtain ⟨rfl, rfl⟩ := hleft.unique hleft'
          exact ih hlater'

/-- Who has gone through several exchanges has gone through the first of them. -/
theorem of_append {first second : List Exchange}
    (hconversed : Conversed time position (first ++ second) last) :
    ∃ middle, Conversed time position first middle ∧ Conversed time middle second last := by
  induction first generalizing position with
  | nil => exact ⟨position, .done position, hconversed⟩
  | cons exchange first ih =>
      cases hconversed with
      | answered hfinds hleft hlater =>
          obtain ⟨middle, hfirst, hsecond⟩ := ih hlater
          exact ⟨middle, .answered hfinds hleft hfirst, hsecond⟩

/-- The cue of an exchange that has been gone through was shown in time. -/
theorem shows {exchange : Exchange} {later : List Exchange}
    (hconversed : Conversed time position (exchange :: later) last) :
    position.Shows time exchange.cue.needle := by
  cases hconversed with
  | answered hfinds => exact hfinds.shows

theorem wiring (hconversed : Conversed time position exchanges last) :
    last.link.wiring = position.link.wiring := by
  induction hconversed with
  | done => rfl
  | answered hfinds _ _ ih => simp [ih, hfinds.reaches.precedes.wiring]

/-- Exactly the answers to the exchanges have been typed, in their order. -/
theorem typed (hconversed : Conversed time position exchanges last) :
    last.typed = position.typed ++ exchanges.map (·.response) := by
  induction hconversed with
  | done => simp
  | answered hfinds _ _ ih => simp [ih, answer, hfinds.reaches.precedes.typed]

/-- The cues stand in what the terminal has shown, each leftmost behind the one before it, and what
has not been taken is what stands behind the last. -/
theorem matched {needles : List Bytes} (hconversed : Conversed time position exchanges last)
    (hmatched : Text.Matched needles position.link.shown position.link.unread) :
    Text.Matched (needles ++ exchanges.map (·.cue.needle)) last.link.shown last.link.unread := by
  induction hconversed generalizing needles with
  | done => simpa using hmatched
  | @answered position found last exchange later before after hfinds hleft _ ih =>
      obtain ⟨more, hshown, hunread, -⟩ := hfinds.reaches.precedes.shown
      have hfound : Text.Matched needles found.link.shown found.link.unread := by
        rw [hshown, hunread]
        exact hmatched.append more
      have hnext : Text.Matched (needles ++ [exchange.cue.needle])
          (found.answer exchange before after).link.shown
          (found.answer exchange before after).link.unread := by
        simpa using hfound.snoc hleft
      have hlast := ih hnext
      simpa using hlast

/-- What stands behind the last cue goes on growing while the process goes on. -/
theorem matched_reaches {process : Process Ending} {files : Files} {final : Position}
    (hconversed : Conversed time (.start process files) exchanges last)
    (hreaches : last.Reaches final) :
    Text.Matched (exchanges.map (·.cue.needle)) final.link.shown final.link.unread := by
  have hmatched := @matched _ _ _ _ [] hconversed (.done _)
  obtain ⟨more, hshown, hunread, -⟩ := hreaches.precedes.shown
  rw [hshown, hunread]
  exact hmatched.append more

end Conversed

/-! ## What the harness does -/

def prompts (step count : Nat) : List Phase := (List.range' step count).map .consumingPrompt

/-- What going through exchanges can come to: either all of them have been answered, or one is stuck
at whose cue does not show up. -/
inductive Conversation (time step : Nat) (position : Position) (exchanges : List Exchange) :
    List Phase × Option (Nat × Cue × CueFailure) × Talk → Prop
  | through {last : Position} (hconversed : Conversed time position exchanges last) :
      Conversation time step position exchanges (prompts step exchanges.length, none, last.toTalk)
  | stuck {done rest : List Exchange} {exchange : Exchange} {last final : Position} {halt : Halt}
      (hexchanges : exchanges = done ++ exchange :: rest)
      (hconversed : Conversed time position done last)
      (hwaited : Waited (Text.holds exchange.cue.needle) time last halt final)
      (hmissed : halt ≠ .satisfied) :
      Conversation time step position exchanges
        (prompts step (done.length + 1),
          some (step + done.length, exchange.cue, Talk.cueFailure halt time), final.toTalk)

/-- An exchange that is answered goes before the others. -/
theorem Conversation.cons {time step : Nat} {position found : Position} {exchange : Exchange}
    {later : List Exchange} {before after : Bytes}
    {result : List Phase × Option (Nat × Cue × CueFailure) × Talk}
    (hfinds : Finds time exchange.cue.needle position found)
    (hleft : Text.IsLeftmost exchange.cue.needle found.link.unread before after)
    (hlater : Conversation time (step + 1) (found.answer exchange before after) later result) :
    Conversation time step position (exchange :: later)
      (.consumingPrompt step :: result.1, result.2) := by
  cases hlater with
  | through hconversed => exact .through (.answered hfinds hleft hconversed)
  | @stuck done rest missing last final halt hexchanges hconversed hwaited hmissed =>
      have hnumber : step + 1 + done.length = step + (exchange :: done).length := by
        simp only [List.length_cons]
        omega
      rw [hnumber]
      exact .stuck (by rw [hexchanges]; rfl) (.answered hfinds hleft hconversed) hwaited hmissed

/-- Where the wait for the first cue fails, nothing is answered. -/
theorem Conversation.stuck_at_once {time step : Nat} {position final : Position}
    {exchange : Exchange} {later : List Exchange} {halt : Halt}
    (hwaited : Waited (Text.holds exchange.cue.needle) time position halt final)
    (hmissed : halt ≠ .satisfied) :
    Conversation time step position (exchange :: later)
      ([.consumingPrompt step], some (step, exchange.cue, Talk.cueFailure halt time),
        final.toTalk) :=
  @Conversation.stuck _ _ _ _ [] later _ _ _ _ rfl (.done position) hwaited hmissed

theorem converse_conversation (time step : Nat) (exchanges : List Exchange) (position : Position)
    (hterminal : position.link.wiring = .terminal) :
    Conversation time step position exchanges
      (Talk.converse time step exchanges position.toTalk) := by
  induction exchanges generalizing step position with
  | nil => exact .through (.done position)
  | cons exchange later ih =>
      obtain ⟨found, htalk, hwaited⟩ := exists_waited (Text.holds exchange.cue.needle) time position
      generalize hresult : position.toTalk.await (Text.holds exchange.cue.needle) time = result
        at htalk hwaited
      obtain ⟨halt, talk⟩ := result
      obtain rfl := htalk
      have hawait : position.toTalk.await (Text.holds (Text.encode exchange.cue.literal)) time =
          (halt, found.toTalk) := hresult
      simp only [Talk.converse, hawait]
      by_cases hhalt : halt = .satisfied
      · subst hhalt
        have hfinds := hwaited.finds hterminal
        have hwiring : found.link.wiring = .terminal :=
          hfinds.reaches.precedes.wiring.trans hterminal
        obtain ⟨⟨before, after⟩, hcut⟩ := Option.isSome_iff_exists.mp hfinds.holds
        rw [Cue.needle] at hcut
        rw [hcut]
        exact .cons hfinds (Text.isLeftmost_of_cut? hcut)
          (ih (step + 1) (found.answer exchange before after) (by simp [hwiring]))
      · have hcut : Text.cut? (Text.encode exchange.cue.literal) found.link.unread = none := by
          have hlacking := hwaited.lacking hhalt
          simpa [Text.holds, Cue.needle] using hlacking
        rw [hcut]
        exact .stuck_at_once hwaited hhalt

end Position

end PromptHarness
