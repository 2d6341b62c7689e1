import Mathlib.Logic.Relation
import PromptHarness.Runner

/-!
# What a process does at its terminal

A process at its terminal goes from one position to the next by single steps (`step?`), whether or
not anybody waits for it.  A process that has to wait lets time pass, a millisecond at a time.  Once
it has closed the terminal, what it writes is lost and its input is at its end.  A position also
keeps a record of what has been written, read and typed so far, which no step looks at.

`Change` lists all that a step can do to a position.  What holds along every course of a process,
such as that nothing disappears from the terminal, follows from it (`Precedes`).
-/

namespace PromptHarness

namespace Link

def close (link : Link) : Link := { link with closed := true }

@[simp]
theorem closed_pass (link : Link) (span : Nat) : (link.pass span).closed = link.closed := rfl

@[simp]
theorem isHeld_pass (link : Link) (span : Nat) : (link.pass span).isHeld = link.isHeld := rfl

@[simp]
theorem pass_pass (link : Link) (first second : Nat) :
    (link.pass first).pass second = link.pass (first + second) := by
  simp [pass, Nat.add_assoc]

/-- Time passes without a change of what can be read. -/
theorem input_pass (link : Link) (span : Nat) (portion : Portion) :
    (link.pass span).input portion =
      (link.input portion).map fun (input, later) => (input, later.pass span) := by
  unfold input pass
  cases hwiring : link.wiring with
  | pipe => simp [hwiring]
  | terminal => simp [Option.map_map, Function.comp_def]

/-- Whatever is written to standard output, some bytes come of it. -/
theorem print_eq_receive (link : Link) (bytes : Bytes) :
    ∃ more, link.print bytes = link.receive more := by
  unfold print
  split
  · exact ⟨_, rfl⟩
  · exact ⟨_, rfl⟩

theorem warn_eq_receive (link : Link) (bytes : Bytes) :
    ∃ more, link.warn bytes = link.receive more := by
  unfold warn
  split
  · exact ⟨_, rfl⟩
  · exact ⟨[], by simp [receive]⟩

/-- Reading changes nothing but what the terminal holds. -/
theorem eq_of_input {link later : Link} {portion : Portion} {input : Option Bytes}
    (hinput : link.input portion = some (input, later)) :
    later = { link with terminal := later.terminal } := by
  unfold Link.input at hinput
  split at hinput
  · cases hinput
    rfl
  · obtain ⟨⟨bytes, terminal⟩, -, hsame⟩ := Option.map_eq_some_iff.mp hinput
    cases hsame
    rfl

end Link

/-- A process at its terminal, with a record of what it has written there, of the pieces of input it
has read, and of the answers typed. -/
structure Position extends Talk where
  written : Bytes
  heard : List Bytes
  typed : List String

namespace Position

def start (process : Process Ending) (files : Files) : Position :=
  ⟨⟨process, .start .terminal files, ""⟩, [], [], []⟩

def move (position : Position) (next : Process Ending) (link : Link) : Position :=
  { position with process := next, link := link }

/-- The single step that the process makes, unless it is over. -/
def step? (position : Position) : Option Position :=
  let link := position.link
  match position.process with
  | .finished ending =>
      if link.closed then none else some (position.move (.finished ending) link.close)
  | .print bytes next =>
      if link.closed then some (position.move next link)
      else if link.isHeld ∧ bytes ≠ [] then some (position.move (.print bytes next) (link.pass 1))
      else some { position.move next (link.print bytes) with written := position.written ++ bytes }
  | .warn bytes next =>
      if link.closed then some (position.move next link)
      else if link.isHeld ∧ bytes ≠ [] then some (position.move (.warn bytes next) (link.pass 1))
      else some { position.move next (link.warn bytes) with written := position.written ++ bytes }
  | .ask portion next =>
      if link.closed then some (position.move (next none) link)
      else match link.input portion with
        | some (input, link) =>
            some { position.move (next input) link with heard := position.heard ++ input.toList }
        | none => some (position.move (.ask portion next) (link.pass 1))
  | .pause 0 next => some (position.move next link)
  | .pause (span + 1) next => some (position.move (.pause span next) (link.pass 1))
  | .hangUp next => some (position.move next link.close)
  | .arrange signal arrangement next =>
      some (position.move next
        { link with signals := link.signals.arrange signal arrangement })
  | .collect next =>
      some (position.move (next link.signals.waiting)
        { link with signals := link.signals.emptied })
  | .change effect next => some (position.move next { link with files := effect link.files })
  | .look next => some (position.move (next link.files) link)

/-- All that a step can do to a position. -/
inductive Change (position : Position) : Position → Prop
  | quiet (next : Process Ending) (signals : Signals) (files : Files) :
      Change position
        (position.move next { position.link with signals := signals, files := files })
  | tick (next : Process Ending) : Change position (position.move next (position.link.pass 1))
  | prints (bytes : Bytes) (next : Process Ending) (hopen : position.link.closed = false) :
      Change position
        { position.move next (position.link.print bytes) with written := position.written ++ bytes }
  | warns (bytes : Bytes) (next : Process Ending) (hopen : position.link.closed = false) :
      Change position
        { position.move next (position.link.warn bytes) with written := position.written ++ bytes }
  | reads (portion : Portion) (next : Process Ending) (input : Option Bytes) (link : Link)
      (hopen : position.link.closed = false)
      (hinput : position.link.input portion = some (input, link)) :
      Change position { position.move next link with heard := position.heard ++ input.toList }
  | closes (next : Process Ending) : Change position (position.move next position.link.close)

theorem change_of_step? {position later : Position} (hstep : position.step? = some later) :
    Change position later := by
  obtain ⟨⟨process, link, transcript⟩, written, heard, typed⟩ := position
  cases process with
  | finished ending =>
      simp only [step?] at hstep
      split at hstep
      · cases hstep
      · cases hstep
        exact .closes _
  | print bytes next =>
      simp only [step?] at hstep
      split at hstep
      · cases hstep
        exact .quiet next link.signals link.files
      · next hopen =>
        split at hstep
        · cases hstep
          exact .tick _
        · cases hstep
          exact .prints bytes next (by simpa using hopen)
  | warn bytes next =>
      simp only [step?] at hstep
      split at hstep
      · cases hstep
        exact .quiet next link.signals link.files
      · next hopen =>
        split at hstep
        · cases hstep
          exact .tick _
        · cases hstep
          exact .warns bytes next (by simpa using hopen)
  | ask portion next =>
      simp only [step?] at hstep
      split at hstep
      · cases hstep
        exact .quiet (next none) link.signals link.files
      · next hopen =>
        split at hstep
        · next input later hinput =>
          cases hstep
          exact .reads portion (next input) input later (by simpa using hopen) hinput
        · cases hstep
          exact .tick _
  | pause span next =>
      cases span with
      | zero =>
          cases hstep
          exact .quiet next link.signals link.files
      | succ span =>
          cases hstep
          exact .tick _
  | hangUp next =>
      cases hstep
      exact .closes next
  | arrange signal arrangement next =>
      cases hstep
      exact .quiet next _ link.files
  | collect next =>
      cases hstep
      exact .quiet _ _ link.files
  | change effect next =>
      cases hstep
      exact .quiet next link.signals _
  | look next =>
      cases hstep
      exact .quiet _ link.signals link.files

/-! ## Along a course -/

/-- What never goes back: time passes, the terminal stays closed once it is, and what it shows is
only added to, by nothing at all once it is closed. -/
structure Precedes (position later : Position) : Prop where
  wiring : later.link.wiring = position.link.wiring
  transcript : later.transcript = position.transcript
  typed : later.typed = position.typed
  closed : position.link.closed = true → later.link.closed = true
  elapsed : position.link.elapsed ≤ later.link.elapsed
  shown : ∃ more, later.link.shown = position.link.shown ++ more ∧
    later.link.unread = position.link.unread ++ more ∧ (position.link.closed = true → more = [])

theorem Precedes.refl (position : Position) : Precedes position position :=
  ⟨rfl, rfl, rfl, id, Nat.le_refl _, [], by simp⟩

theorem Precedes.trans {first second third : Position} (hfirst : Precedes first second)
    (hsecond : Precedes second third) : Precedes first third where
  wiring := hsecond.wiring.trans hfirst.wiring
  transcript := hsecond.transcript.trans hfirst.transcript
  typed := hsecond.typed.trans hfirst.typed
  closed := hsecond.closed ∘ hfirst.closed
  elapsed := Nat.le_trans hfirst.elapsed hsecond.elapsed
  shown := by
    obtain ⟨more, hshown, hunread, hnone⟩ := hfirst.shown
    obtain ⟨more', hshown', hunread', hnone'⟩ := hsecond.shown
    refine ⟨more ++ more', by simp [hshown', hshown], by simp [hunread', hunread], ?_⟩
    intro hclosed
    simp [hnone hclosed, hnone' (hfirst.closed hclosed)]

theorem Change.precedes {position later : Position} (hchange : Change position later) :
    Precedes position later := by
  cases hchange with
  | quiet next signals files => exact ⟨rfl, rfl, rfl, id, Nat.le_refl _, [], by simp [move]⟩
  | tick next => exact ⟨rfl, rfl, rfl, id, Nat.le_add_right _ _, [], by simp [move, Link.pass]⟩
  | prints bytes next hopen =>
      obtain ⟨more, hmore⟩ := position.link.print_eq_receive bytes
      rw [hmore]
      exact ⟨rfl, rfl, rfl, id, Nat.le_refl _, more, rfl, rfl, by simp [hopen]⟩
  | warns bytes next hopen =>
      obtain ⟨more, hmore⟩ := position.link.warn_eq_receive bytes
      rw [hmore]
      exact ⟨rfl, rfl, rfl, id, Nat.le_refl _, more, rfl, rfl, by simp [hopen]⟩
  | reads portion next input link hopen hinput =>
      rw [Link.eq_of_input hinput]
      exact ⟨rfl, rfl, rfl, id, Nat.le_refl _, [], by simp [move]⟩
  | closes next =>
      exact ⟨rfl, rfl, rfl, fun _ => rfl, Nat.le_refl _, [], by simp [move, Link.close]⟩

/-- `later` is the position after `position`. -/
def Steps (position later : Position) : Prop := position.step? = some later

/-- The process comes from `position` to `later` by steps of its own, with nothing typed. -/
abbrev Reaches : Position → Position → Prop := Relation.ReflTransGen Steps

theorem Reaches.precedes {position later : Position} (hreaches : position.Reaches later) :
    Precedes position later := by
  induction hreaches with
  | refl => exact .refl position
  | tail _ hstep ih => exact ih.trans (change_of_step? hstep).precedes

/-- A process has one course: of two positions that it comes to, one comes before the other. -/
theorem Reaches.total {position first second : Position} (hfirst : position.Reaches first)
    (hsecond : position.Reaches second) : first.Reaches second ∨ second.Reaches first := by
  apply Relation.ReflTransGen.total_of_right_unique _ hfirst hsecond
  intro start left right hleft hright
  exact Option.some.inj (hleft.symm.trans hright)

/-- What has ended stays so. -/
theorem Reaches.finished {position later : Position} {ending : Ending}
    (hreaches : position.Reaches later) (hfinished : position.process = .finished ending) :
    later.process = .finished ending := by
  induction hreaches with
  | refl => exact hfinished
  | @tail middle later _ hstep ih =>
      simp only [Steps, step?, ih] at hstep
      split at hstep
      · cases hstep
      · cases hstep
        rfl

/-- Nothing comes to the terminal of a process that has ended. -/
theorem Reaches.unread_of_finished {position later : Position} {ending : Ending}
    (hreaches : position.Reaches later) (hfinished : position.process = .finished ending) :
    later.link.unread = position.link.unread := by
  induction hreaches with
  | refl => rfl
  | @tail middle later hmiddle hstep ih =>
      have hended : middle.process = .finished ending := Reaches.finished hmiddle hfinished
      simp only [Steps, step?, hended] at hstep
      split at hstep
      · cases hstep
      · cases hstep
        exact ih

theorem Reaches.ending_unique {position first second : Position} {ending other : Ending}
    (hfirst : position.Reaches first) (hsecond : position.Reaches second)
    (hending : first.process = .finished ending) (hother : second.process = .finished other) :
    ending = other := by
  rcases hfirst.total hsecond with hbefore | hbehind
  · exact Process.finished.inj ((hbefore.finished hending).symm.trans hother)
  · exact Process.finished.inj (hending.symm.trans (hbehind.finished hother))

/-! ## In time -/

/-- The process comes from `position` to `later` before `time` milliseconds are over. -/
def Within (time : Nat) (position later : Position) : Prop :=
  position.Reaches later ∧ later.link.elapsed < position.link.elapsed + time

/-- The needle is among the bytes that nobody has taken, or it comes to be in time. -/
def Shows (time : Nat) (needle : Bytes) (position : Position) : Prop :=
  Text.holds needle position.link.unread = true ∨
    ∃ later, Within time position later ∧ Text.holds needle later.link.unread = true

/-- The terminal is closed already, or the process closes it in time, by itself or by its end. -/
def Closes (time : Nat) (position : Position) : Prop :=
  position.link.closed = true ∨ ∃ later, Within time position later ∧ later.link.closed = true

/-- The process is still alive when the time is over. -/
def Outlives (time : Nat) (position : Position) : Prop :=
  ∀ later, Within time position later → ∀ ending, later.process ≠ .finished ending

/-- A process that keeps its terminal open is alive. -/
theorem outlives_of_not_closes {time : Nat} {position : Position}
    (hopen : ¬position.Closes time) : position.Outlives time := by
  intro later hwithin ending hfinished
  cases hclosed : later.link.closed with
  | true => exact absurd (.inr ⟨later, hwithin, hclosed⟩) hopen
  | false =>
      have hstep : Steps later (later.move (.finished ending) later.link.close) := by
        simp [Steps, step?, hfinished, hclosed]
      exact absurd (.inr ⟨_, ⟨hwithin.1.tail hstep, hwithin.2⟩, rfl⟩) hopen

end Position

end PromptHarness
