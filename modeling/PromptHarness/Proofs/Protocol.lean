import PromptHarness.Proofs.Runs
import PromptHarness.Proofs.Typing

/-!
# The protocol of a run

A run answers its prompts in order, each only once its cue has been shown behind the cue before it,
and the process can read nothing but the lines of these answers.  Where all cues are shown in time,
the run gets past the prompts; where one is not, the run fails at the first such cue and tells why.
-/

namespace PromptHarness

open Position

def answerLines (exchanges : List Exchange) : List Bytes :=
  exchanges.map fun exchange => Link.keystrokes exchange.response

theorem Talk.cueFailure_eq_closed_iff (halt : Halt) (time : Nat) :
    cueFailure halt time = .closed ↔ halt = .closed := by
  cases halt <;> simp [cueFailure]

theorem Talk.cueFailure_eq_unseen_iff (halt : Halt) (time : Nat) :
    cueFailure halt time = .unseen time ↔ halt ≠ .closed := by
  cases halt <;> simp [cueFailure]

/-- What it means that a run keeps to the protocol of its exchanges.  The process begins at `start`,
and `link` is the link to it when the run is over. -/
structure KeepsProtocol (time : Nat) (command : String) (exchanges : List Exchange)
    (start : Position) (run : Run) (link : Link) : Prop where
  /-- When exchanges have been answered, exactly their answers have been typed. -/
  typed : ∀ done last, done <+: exchanges → Conversed time start done last →
    last.typed = done.map (·.response)
  /-- By then each of their cues has been shown, leftmost behind the one before it. -/
  shown : ∀ done last, done <+: exchanges → Conversed time start done last →
    Text.Matched (done.map (·.cue.needle)) last.link.shown last.link.unread
  /-- What the process has read from then on are the first of their lines in order; with those that
  it can still read they are all of them, unless it has closed the terminal. -/
  lines : ∀ done last later, done <+: exchanges → Conversed time start done last →
    last.Reaches later →
      later.heard <+: answerLines done ∧
        (later.link.closed = false →
          later.heard ++ later.link.terminal.sent = answerLines done)
  /-- All exchanges are answered exactly where every cue is shown in time behind those before it. -/
  through : (∃ last, Conversed time start exchanges last) ↔
    ∀ done exchange rest last, exchanges = done ++ exchange :: rest →
      Conversed time start done last → last.Shows time exchange.cue.needle
  /-- That is where the run gets past the prompts. -/
  past : (∃ last, Conversed time start exchanges last) ↔
    ∀ other step cue failure transcript,
      run.outcome ≠ .error (.protocolViolation other step cue failure transcript)
  /-- A run that gets past the prompts leaves the process with all answers typed. -/
  left : ∀ last, Conversed time start exchanges last →
    ∃ final signals, last.Reaches final ∧ final.typed = exchanges.map (·.response) ∧
      link = { final.link with signals := signals }
  /-- A result tells that all answers were sent. -/
  result : ∀ result, run.outcome = .ok result → result.responsesSent = exchanges.length
  /-- At the first cue that is missed the run fails.  It tells which that was and whether the
  terminal was closed in time, and leaves the process with only the answers before it typed. -/
  missed : ∀ done exchange last, FirstMissed time start exchanges done exchange last →
    ∃ failure transcript final signals,
      run.outcome =
        .error (.protocolViolation command done.length exchange.cue failure transcript) ∧
      (failure = .closed ↔ last.Closes time) ∧ (failure = .unseen time ↔ ¬last.Closes time) ∧
      last.Reaches final ∧ final.typed = done.map (·.response) ∧
      link = { final.link with signals := signals }

theorem typed_of_conversed {time : Nat} {process : Process Ending} {files : Files}
    {done : List Exchange} {last later : Position}
    (hconversed : Conversed time (.start process files) done last) (hreaches : last.Reaches later) :
    later.typed = done.map (·.response) := by
  rw [hreaches.precedes.typed, hconversed.typed]
  rfl

/-- The process reads the lines of what has been answered, and no others. -/
theorem lines_of_conversed {time : Nat} {process : Process Ending} {files : Files}
    {done : List Exchange} {last later : Position}
    (htypable : ∀ exchange ∈ done, IsTypable exchange.response)
    (hconversed : Conversed time (.start process files) done last) (hreaches : last.Reaches later) :
    later.heard <+: answerLines done ∧
      (later.link.closed = false →
        later.heard ++ later.link.terminal.sent = answerLines done) := by
  have horderly : Orderly later :=
    ((Orderly.start process files).conversed htypable hconversed).reaches hreaches
  have hlines : later.typed.map Link.keystrokes = answerLines done := by
    simp [typed_of_conversed hconversed hreaches, answerLines]
  rw [← hlines]
  exact ⟨horderly.heard, horderly.readable⟩

/-- Every run keeps to the protocol, if its answers are lines that can be typed. -/
theorem run_keepsProtocol (runner : Runner) (test : String) (invocation : Invocation)
    (machine : Machine) (process : Process Ending)
    (hstarts : runner.Starts test invocation machine process)
    (htypable : ∀ exchange ∈ invocation.plan.exchanges, IsTypable exchange.response) :
    KeepsProtocol runner.promptTimeout (runner.command test invocation) invocation.plan.exchanges
      (.start process machine.files) (runner.run test invocation machine).1
      (runner.lastLink test invocation machine process) := by
  obtain ⟨final, signals, hcourse, hlink⟩ := Runner.run_course hstarts
  generalize (runner.run test invocation machine).1 = run at hcourse
  constructor
  case typed =>
    intro done last _ hconversed
    exact typed_of_conversed hconversed .refl
  case shown =>
    intro done last _ hconversed
    exact hconversed.matched_reaches .refl
  case lines =>
    intro done last later hfront hconversed hreaches
    have hdone : ∀ exchange ∈ done, IsTypable exchange.response :=
      fun exchange hexchange => htypable exchange (hfront.subset hexchange)
    exact lines_of_conversed hdone hconversed hreaches
  case through => exact exists_conversed_iff runner.promptTimeout _ _ rfl
  case past => exact hcourse.past_iff
  case left =>
    intro last hconversed
    have hreaches := hcourse.reaches hconversed
    exact ⟨final, signals, hreaches, typed_of_conversed hconversed hreaches, hlink⟩
  case result =>
    intro result hresult
    cases hcourse with
    | stuck => cases hresult
    | overdue => cases hresult
    | ended => rw [(judge_eq_ok_iff.mp hresult).2.2]
    | nameless => cases hresult
  case missed =>
    intro done exchange last hmissed
    cases hcourse with
    | @stuck done' exchange' last' halt hmissed' hwaited =>
        obtain ⟨rfl, rfl, rfl⟩ := hmissed.unique hmissed'
        have hhalt : halt ≠ .satisfied := fun hsatisfied =>
          hmissed.missed (hwaited.satisfied_iff_shows.mp hsatisfied)
        have hcloses := hwaited.closed_iff_closes hhalt
        refine ⟨_, _, final, signals, rfl, ?_, ?_, hwaited.reaches,
          typed_of_conversed hmissed.answered hwaited.reaches, hlink⟩
        · rw [Talk.cueFailure_eq_closed_iff, hcloses]
        · rw [Talk.cueFailure_eq_unseen_iff, Ne, hcloses]
    | overdue hconversed => exact absurd hconversed hmissed.not_conversed
    | ended hended => exact absurd hended.conversed hmissed.not_conversed
    | nameless hended => exact absurd hended.conversed hmissed.not_conversed

/-- A process that asks for a password and greets whoever gives one. -/
def greeter : Process Ending :=
  .print (Text.encode "password: ") <| .ask .line fun _ =>
    .print (Text.encode "welcome\n") <| .finished (.exited 0)

theorem run_keepsProtocol_greeter :
    let runner : Runner := ⟨5000, 5000, none, "."⟩
    let invocation : Invocation := .lone ⟨[.password .master "secret" false]⟩ 0
    runner.Starts "greets" invocation (.lone greeter) greeter ∧
      (∀ exchange ∈ invocation.plan.exchanges, IsTypable exchange.response) ∧
      KeepsProtocol 5000 (runner.command "greets" invocation) [⟨.password .master, "secret"⟩]
        (.start greeter (Machine.lone greeter).files)
        (runner.run "greets" invocation (.lone greeter)).1
        (runner.lastLink "greets" invocation (.lone greeter) greeter) := by
  intro runner invocation
  have hstarts : runner.Starts "greets" invocation (.lone greeter) greeter :=
    runner.starts_lone rfl "greets" _ 0 greeter
  have htypable : ∀ exchange ∈ invocation.plan.exchanges, IsTypable exchange.response := by
    intro exchange hexchange
    obtain rfl := List.mem_singleton.mp hexchange
    decide
  exact ⟨hstarts, htypable, run_keepsProtocol runner "greets" invocation _ greeter hstarts htypable⟩

end PromptHarness
