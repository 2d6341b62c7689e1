import PromptHarness.Proofs.Runs

/-!
# What the expected exit code decides

Which exit code is expected of a command has no part in its run: without a memory checker the command
is called alike, talked to alike and left to end alike.  Only when it has ended is its exit code held
against the expected one (`Reckons`).  So a run that fails before fails whatever is expected, and a
run that comes to an exit code has one result, which is handed out where that code is expected and
refused everywhere else.
-/

namespace PromptHarness

def Invocation.expecting (invocation : Invocation) (code : Int) : Invocation :=
  { invocation with expected := code }

def Fault.isVerdict : Fault → Bool
  | unexpectedExitCode .. => true
  | memoryDefect .. => true
  | _ => false

/-- How the outcome of a run may depend on the exit code that is expected. -/
inductive Reckons (command : String) : (Int → Except Fault CommandResult) → Prop
  /-- The run does not come to a verdict. -/
  | fails (fault : Fault) (hfault : fault.isVerdict = false) :
      Reckons command fun _ => .error fault
  | judges (result : CommandResult) :
      Reckons command fun expected => judge command none expected result.exitCode result

namespace Runner

variable {runner : Runner}

/-- A process that is talked to goes through the same phases and leaves the same link, whatever is
expected of it. -/
theorem attend_reckons (runner : Runner) (command : String) (invocation : Invocation)
    (process : Process Ending) (files : Files) :
    ∃ phases link outcome, Reckons command outcome ∧ ∀ expected,
      runner.attend command none (invocation.expecting expected) process files =
        (⟨phases, outcome expected⟩, link) := by
  rcases hconversation : Talk.converse runner.promptTimeout 0 invocation.plan.exchanges
    ⟨process, .start .terminal files, ""⟩ with ⟨phases, missed, talk⟩
  simp only [attend, Invocation.expecting, hconversation]
  cases missed with
  | some missed => exact ⟨_, _, _, .fails _ rfl, fun _ => rfl⟩
  | none =>
      rcases hwaited : talk.await (fun _ => false) runner.exitTimeout with ⟨halt, held⟩
      cases halt with
      | satisfied => exact ⟨_, _, _, .fails _ rfl, fun _ => rfl⟩
      | late => exact ⟨_, _, _, .fails _ rfl, fun _ => rfl⟩
      | closed =>
          simp only
          split
          · exact ⟨_, _, _, .judges ⟨held.rest, held.transcript ++ held.rest, _, _⟩, fun _ => rfl⟩
          · exact ⟨_, _, _, .fails _ rfl, fun _ => rfl⟩

/-- Without a memory checker a run goes through the same phases and leaves the machine alike, whatever
is expected of its command. -/
theorem run_reckons (hchecker : runner.checker = none) (test : String) (invocation : Invocation)
    (machine : Machine) :
    ∃ phases later outcome, Reckons (runner.command test invocation) outcome ∧ ∀ expected,
      runner.run test (invocation.expecting expected) machine =
        (⟨phases, outcome expected⟩, later) := by
  have hdressed : ∀ expected, runner.dressed test (invocation.expecting expected) =
      (invocation.program, invocation.arguments, none) := by
    intro expected
    simp only [dressed, hchecker, Invocation.expecting]
  have henvironment : ∀ expected, (invocation.expecting expected).environment =
      invocation.environment := fun _ => rfl
  have hcommand : runner.command test invocation =
      commandLine invocation.program invocation.arguments := by
    simp only [command, dressed, hchecker]
  rw [hcommand]
  cases hstart : machine.start invocation.program invocation.arguments invocation.environment with
  | error error =>
      refine ⟨[], machine, _, .fails (.spawn (commandLine invocation.program invocation.arguments)
        (.terminal error)) rfl, fun expected => ?_⟩
      simp only [run, hdressed, henvironment, hstart]
  | ok result =>
      obtain ⟨number, process, started⟩ := result
      obtain ⟨phases, link, outcome, hreckons, hattend⟩ := runner.attend_reckons
        (commandLine invocation.program invocation.arguments) invocation process started.files
      refine ⟨phases, ({ started with files := link.files }.reap number).pass link.elapsed,
        outcome, hreckons, fun expected => ?_⟩
      simp only [run, hdressed, henvironment, hstart, hattend]

end Runner

/-- What it means that the expected exit code decides the verdict of a run and nothing else.  `run` is
the run by the code that is expected. -/
structure OnlyJudges (command : String) (run : Int → Run × Machine) : Prop where
  phases : ∀ code other, (run code).1.phases = (run other).1.phases
  /-- Nor does it show on the machine what was expected. -/
  machine : ∀ code other, (run code).2 = (run other).2
  /-- Where the program cannot be started, a prompt fails, the time is up or nothing can be made of
  the ending, no code that is declared excuses it. -/
  failed : ∀ code other fault, fault.isVerdict = false →
    ((run code).1.outcome = .error fault ↔ (run other).1.outcome = .error fault)
  /-- A run that is refused for its exit code is accepted where that code is expected. -/
  refused : ∀ code command' expected actual output,
    (run code).1.outcome = .error (.unexpectedExitCode command' expected actual output) →
      command' = command ∧ expected = code ∧ actual ≠ code ∧
        ∃ result, (run actual).1.outcome = .ok result ∧ result.exitCode = actual ∧
          result.output = output
  /-- A run that is accepted is refused wherever another code is expected. -/
  accepted : ∀ code result, (run code).1.outcome = .ok result →
    result.exitCode = code ∧ ∀ other, other ≠ code → (run other).1.outcome =
      .error (.unexpectedExitCode command other code result.output)
  /-- There are no other verdicts. -/
  clean : ∀ code command' other logFile,
    (run code).1.outcome ≠ .error (.memoryDefect command' other logFile)

theorem Reckons.onlyJudges {command : String} {outcome : Int → Except Fault CommandResult}
    (hreckons : Reckons command outcome) (phases : List Phase) (later : Machine) :
    OnlyJudges command fun expected => (⟨phases, outcome expected⟩, later) := by
  refine ⟨fun _ _ => rfl, fun _ _ => rfl, ?failed, ?refused, ?accepted, ?clean⟩
  case failed =>
    intro code other fault hfault
    cases hreckons with
    | fails => exact Iff.rfl
    | judges result =>
        have hnever : ∀ expected,
            judge command none expected result.exitCode result ≠ .error fault := by
          intro expected
          apply judge_ne
          · rintro _ _ _ rfl
            cases hfault
          · rintro _ _ _ _ rfl
            cases hfault
        exact iff_of_false (hnever code) (hnever other)
  case refused =>
    intro code command' expected actual output hrefused
    cases hreckons with
    | fails fault hfault =>
        cases hrefused
        cases hfault
    | judges result =>
        change judge command none code result.exitCode result = _ at hrefused
        obtain ⟨-, hcode, rfl, rfl, rfl, rfl⟩ := judge_eq_unexpectedExitCode_iff.mp hrefused
        exact ⟨rfl, rfl, hcode, result, if_pos rfl, rfl, rfl⟩
  case accepted =>
    intro code result haccepted
    cases hreckons with
    | fails => cases haccepted
    | judges result =>
        change judge command none code _ _ = _ at haccepted
        obtain ⟨-, rfl, rfl⟩ := judge_eq_ok_iff.mp haccepted
        exact ⟨rfl, fun other hother => if_neg hother.symm⟩
  case clean =>
    intro code command' other logFile
    cases hreckons with
    | fails fault hfault =>
        rintro ⟨⟩
        cases hfault
    | judges result =>
        intro hdefect
        change judge command none code _ _ = _ at hdefect
        obtain ⟨hreserved, -⟩ := judge_eq_memoryDefect_iff.mp hdefect
        cases hreserved

/-- Without a memory checker the expected exit code decides the verdict of a run and nothing else. -/
theorem run_onlyJudges (runner : Runner) (hchecker : runner.checker = none) (test : String)
    (invocation : Invocation) (machine : Machine) :
    OnlyJudges (runner.command test invocation) fun expected =>
      runner.run test (invocation.expecting expected) machine := by
  obtain ⟨phases, later, outcome, hreckons, hrun⟩ :=
    Runner.run_reckons hchecker test invocation machine
  simp only [hrun]
  exact hreckons.onlyJudges phases later

/-- A command that refuses with a message is refused where success is expected, and accepted where its
refusal is. -/
theorem run_onlyJudges_refuser :
    let refuser : Process Ending := .warn (Text.encode "no\n") (.finished (.exited 3))
    let runner : Runner := ⟨5000, 5000, none, "."⟩
    let run := fun expected =>
      runner.run "refuses" ((Invocation.lone .empty 0).expecting expected) (.lone refuser)
    runner.checker = none ∧
      OnlyJudges (runner.command "refuses" (.lone .empty 0)) run ∧
      (run 0).1.outcome = .error (.unexpectedExitCode "/run" 0 3 "no\r\n") ∧
      (run 3).1.outcome = .ok ⟨"no\r\n", "no\r\n", 3, 0⟩ := by
  intro refuser runner run
  have houtcome : ∀ expected, (run expected).1.outcome =
      (runner.attend "/run" none (.lone .empty expected) refuser
        (Machine.lone refuser).files).1.outcome := by
    intro expected
    exact congrArg Run.outcome
      (Runner.run_of_starts (runner.starts_lone rfl "refuses" .empty expected refuser))
  refine ⟨rfl, run_onlyJudges runner rfl "refuses" (.lone .empty 0) (.lone refuser), ?_, ?_⟩
  · rw [houtcome]
    rfl
  · rw [houtcome]
    rfl

end PromptHarness
