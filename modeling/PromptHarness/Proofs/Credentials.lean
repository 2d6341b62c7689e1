import Mathlib.Data.List.Forall2
import PromptHarness.Proofs.PlanPrefixes

/-!
# Which password is meant

Both passwords are asked for with the same words, and a run looks at nothing of its plan but those
words and the answers.  So two plans that differ only in which of their passwords are the master's
and which are secrets are gone through in lock-step: each exchange finds the same talk and leaves
the same talk behind.  Only where a cue is missed does the run tell the cue as its plan has it, and
there the one may tell the master's password and the other the secret.
-/

namespace PromptHarness

/-- Only the two passwords are asked for with the same words. -/
theorem Cue.literal_eq_iff {cue other : Cue} : cue.literal = other.literal ↔
    cue = other ∨ ∃ credential credential', cue = .password credential ∧
      other = .password credential' := by
  constructor
  · intro hliteral
    cases cue with
    | password credential =>
        cases other with
        | password credential' => exact .inr ⟨credential, credential', rfl, rfl⟩
        | confirm => simp [literal] at hliteral
        | yesNo => simp [literal] at hliteral
    | confirm => cases other <;> simp [literal] at hliteral ⊢
    | yesNo => cases other <;> simp [literal] at hliteral ⊢
  · rintro (rfl | ⟨credential, credential', rfl, rfl⟩)
    · rfl
    · rfl

/-- Both exchanges wait for the same words and answer them alike. -/
structure Exchange.Matches (exchange other : Exchange) : Prop where
  literal : exchange.cue.literal = other.cue.literal
  response : exchange.response = other.response

namespace Talk

/-- Either both conversations go through, or both are stuck at the same step for the same reason, at
cues with the same words. -/
inductive StuckAlike :
    Option (Nat × Cue × CueFailure) → Option (Nat × Cue × CueFailure) → Prop
  | through : StuckAlike none none
  | stuck {cue other : Cue} (step : Nat) (failure : CueFailure)
      (hliteral : cue.literal = other.literal) :
      StuckAlike (some (step, cue, failure)) (some (step, other, failure))

theorem answer_of_matches {exchange other : Exchange} (hmatches : exchange.Matches other)
    (talk : Talk) (before after : Bytes) :
    talk.answer exchange before after = talk.answer other before after := by
  simp only [answer, hmatches.literal, hmatches.response]

/-- Exchanges that match pairwise lead through the same phases and leave the same talk behind. -/
theorem converse_of_matches (time : Nat) {exchanges others : List Exchange}
    (hmatches : List.Forall₂ Exchange.Matches exchanges others) (step : Nat) (talk : Talk) :
    ∃ phases missed missed' last,
      converse time step exchanges talk = (phases, missed, last) ∧
        converse time step others talk = (phases, missed', last) ∧ StuckAlike missed missed' := by
  induction hmatches generalizing step talk with
  | nil => exact ⟨[], none, none, talk, rfl, rfl, .through⟩
  | @cons exchange other later later' hmatch _ ih =>
      simp only [converse, ← hmatch.literal]
      generalize talk.await (Text.holds (Text.encode exchange.cue.literal)) time = waited
      obtain ⟨halt, held⟩ := waited
      simp only
      cases Text.cut? (Text.encode exchange.cue.literal) held.link.unread with
      | none => exact ⟨_, _, _, held, rfl, rfl, .stuck step _ hmatch.literal⟩
      | some parts =>
          obtain ⟨phases, missed, missed', last, hfirst, hsecond, halike⟩ :=
            ih (step + 1) (held.answer exchange parts.1 parts.2)
          simp only [← answer_of_matches hmatch, hfirst, hsecond]
          exact ⟨_, missed, missed', last, rfl, rfl, halike⟩

end Talk

/-- Two outcomes are the same in every field, but that a violation of the protocol may name the other
of the two passwords. -/
inductive Agree : Except Fault CommandResult → Except Fault CommandResult → Prop
  | same (outcome : Except Fault CommandResult) : Agree outcome outcome
  | password (command : String) (step : Nat) (credential other : Credential)
      (failure : CueFailure) (transcript : String) :
      Agree
        (.error (.protocolViolation command step (.password credential) failure transcript))
        (.error (.protocolViolation command step (.password other) failure transcript))

theorem agree_of_literal {cue other : Cue} (hliteral : cue.literal = other.literal)
    (command : String) (step : Nat) (failure : CueFailure) (transcript : String) :
    Agree (.error (.protocolViolation command step cue failure transcript))
      (.error (.protocolViolation command step other failure transcript)) := by
  rcases Cue.literal_eq_iff.mp hliteral with rfl | ⟨credential, credential', rfl, rfl⟩
  · exact .same _
  · exact .password command step credential credential' failure transcript

namespace Runner

variable (runner : Runner) {invocation : Invocation} {plan : Plan}

/-- A process that is attended with a plan that matches does all the same. -/
theorem attend_of_matches
    (hmatches : List.Forall₂ Exchange.Matches invocation.plan.exchanges plan.exchanges)
    (command : String) (reserved : Option (Int × String)) (process : Process Ending)
    (files : Files) :
    ∃ phases outcome outcome' link,
      runner.attend command reserved invocation process files = (⟨phases, outcome⟩, link) ∧
        runner.attend command reserved { invocation with plan := plan } process files =
          (⟨phases, outcome'⟩, link) ∧ Agree outcome outcome' := by
  obtain ⟨phases, missed, missed', talk, hfirst, hsecond, halike⟩ :=
    Talk.converse_of_matches runner.promptTimeout hmatches 0 ⟨process, .start .terminal files, ""⟩
  simp only [attend, hfirst, hsecond, ← hmatches.length_eq]
  cases halike with
  | stuck step failure hliteral =>
      exact ⟨_, _, _, _, rfl, rfl, agree_of_literal hliteral command step failure _⟩
  | through =>
      -- Behind the prompts only the number of the answers is told of a plan.
      exact ⟨_, _, _, _, rfl, rfl, .same _⟩

/-- So does a run, whether its program can be started or not. -/
theorem run_of_matches
    (hmatches : List.Forall₂ Exchange.Matches invocation.plan.exchanges plan.exchanges)
    (test : String) (machine : Machine) :
    ∃ phases outcome outcome' later,
      runner.run test invocation machine = (⟨phases, outcome⟩, later) ∧
        runner.run test { invocation with plan := plan } machine = (⟨phases, outcome'⟩, later) ∧
        Agree outcome outcome' := by
  have hdressed : runner.dressed test { invocation with plan := plan } =
      runner.dressed test invocation := rfl
  simp only [run, hdressed]
  rcases runner.dressed test invocation with ⟨program, arguments, reserved⟩
  simp only
  cases machine.start program arguments invocation.environment with
  | error error => exact ⟨_, _, _, _, rfl, rfl, .same _⟩
  | ok started =>
      obtain ⟨number, process, machine⟩ := started
      obtain ⟨phases, outcome, outcome', link, hfirst, hsecond, hagree⟩ :=
        attend_of_matches runner hmatches (commandLine program arguments) reserved process
          machine.files
      simp only [hfirst, hsecond]
      exact ⟨_, _, _, _, rfl, rfl, hagree⟩

/-- A violation of the protocol names the cue that the plan has at its step. -/
theorem cue_of_violation {test command' : String} {machine : Machine} {step : Nat} {cue : Cue}
    {failure : CueFailure} {transcript : String}
    (hviolation : (runner.run test invocation machine).1.outcome =
      .error (.protocolViolation command' step cue failure transcript)) :
    invocation.plan.exchanges[step]?.map (·.cue) = some cue := by
  rcases runner.starts_or_error test invocation machine with ⟨process, hstarts⟩ | ⟨error, herror⟩
  · obtain ⟨final, signals, hcourse, -⟩ := run_course hstarts
    generalize (runner.run test invocation machine).1 = run at hcourse hviolation
    cases hcourse with
    | stuck hmissed =>
        obtain ⟨rest, hexchanges⟩ := hmissed.next
        obtain ⟨-, rfl, rfl, -⟩ := by simpa using hviolation
        simp [hexchanges]
    | overdue => cases hviolation
    | ended => exact absurd hviolation judge_ne_protocolViolation
    | nameless => cases hviolation
  · rw [run_of_error herror] at hviolation
    cases hviolation

end Runner

/-- What it means that two runs by the plans `first` and `second` cannot be told apart but by the
passwords that they name. -/
structure Indistinct (first second : Plan) (run other : Run × Machine) : Prop where
  phases : run.1.phases = other.1.phases
  outcome : Agree run.1.outcome other.1.outcome
  /-- Nor does the machine show which of the two plans it was. -/
  machine : run.2 = other.2
  /-- Where a cue is missed, each run names the cue of its own plan. -/
  named : ∀ command step cue failure transcript,
    run.1.outcome = .error (.protocolViolation command step cue failure transcript) →
      first.exchanges[step]?.map (·.cue) = some cue ∧
        ∃ cue', second.exchanges[step]?.map (·.cue) = some cue' ∧
          other.1.outcome = .error (.protocolViolation command step cue' failure transcript)

/-- Two plans whose exchanges wait for the same words and answer them alike make runs that cannot be
told apart but by the password that a violation of the protocol names. -/
theorem run_indistinct (runner : Runner) (test : String) (invocation : Invocation) (plan : Plan)
    (machine : Machine)
    (hmatches : List.Forall₂ Exchange.Matches invocation.plan.exchanges plan.exchanges) :
    Indistinct invocation.plan plan (runner.run test invocation machine)
      (runner.run test { invocation with plan := plan } machine) := by
  obtain ⟨phases, outcome, outcome', later, hfirst, hsecond, hagree⟩ :=
    Runner.run_of_matches runner hmatches test machine
  have hnamed : ∀ command step cue failure transcript,
      outcome = .error (.protocolViolation command step cue failure transcript) →
        invocation.plan.exchanges[step]?.map (·.cue) = some cue := by
    intro command step cue failure transcript hviolation
    exact Runner.cue_of_violation runner ((congrArg (·.1.outcome) hfirst).trans hviolation)
  have hnamed' : ∀ command step cue failure transcript,
      outcome' = .error (.protocolViolation command step cue failure transcript) →
        plan.exchanges[step]?.map (·.cue) = some cue := by
    intro command step cue failure transcript hviolation
    exact Runner.cue_of_violation runner ((congrArg (·.1.outcome) hsecond).trans hviolation)
  rw [hfirst, hsecond]
  refine ⟨rfl, hagree, rfl, fun command step cue failure transcript hviolation => ?_⟩
  refine ⟨hnamed _ _ _ _ _ hviolation, ?_⟩
  cases hagree with
  | same => exact ⟨cue, hnamed' _ _ _ _ _ hviolation, hviolation⟩
  | password =>
      cases hviolation
      exact ⟨_, hnamed' _ _ _ _ _ rfl, rfl⟩

/-- A process that asks for one password only is run by two plans with two passwords each, which
differ in their order: both runs miss the second password, and each names its own. -/
theorem run_indistinct_inquirer :
    let runner : Runner := ⟨5000, 5000, none, "."⟩
    let plan : Plan := ⟨[.password .master "open" false, .password .secret "new" true]⟩
    let other : Plan := ⟨[.password .secret "open" false, .password .master "new" true]⟩
    let run := runner.run "asks" (.lone plan 0) (.lone Runner.inquirer)
    let run' := runner.run "asks" (.lone other 0) (.lone Runner.inquirer)
    List.Forall₂ Exchange.Matches plan.exchanges other.exchanges ∧
      Indistinct plan other run run' ∧
      run.1.outcome = .error (.protocolViolation "/run" 1 (.password .secret) (.unseen 5000)
        "password: sure? (y/n) ") ∧
      run'.1.outcome = .error (.protocolViolation "/run" 1 (.password .master) (.unseen 5000)
        "password: sure? (y/n) ") := by
  intro runner plan other run run'
  have hmatches : List.Forall₂ Exchange.Matches plan.exchanges other.exchanges :=
    .cons ⟨rfl, rfl⟩ <| .cons ⟨rfl, rfl⟩ <| .cons ⟨rfl, rfl⟩ .nil
  refine ⟨hmatches, run_indistinct runner "asks" (.lone plan 0) other (.lone Runner.inquirer)
    hmatches, ?_, ?_⟩
  · simp only [run]
    rw [Runner.run_of_starts (runner.starts_lone rfl "asks" plan 0 Runner.inquirer)]
    rfl
  · simp only [run']
    rw [Runner.run_of_starts (runner.starts_lone rfl "asks" other 0 Runner.inquirer)]
    rfl

end PromptHarness
