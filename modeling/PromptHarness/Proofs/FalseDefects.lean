import PromptHarness.Proofs.Defects

/-!
# When a memory checker finds nothing

A memory checker that has found no defect ends with the code of the command that it has run, and the
run is judged by that code alone.  So the command is judged as it would be without a checker, unless
it ends with the very code that is reserved for defects: then it is taken for defective although
nobody has found anything (`JudgesClean`).
-/

namespace PromptHarness

open Position

theorem Fault.isMemoryDefect_iff {fault : Fault} : fault.isMemoryDefect = true ↔
    ∃ command code logFile, fault = .memoryDefect command code logFile := by
  cases fault <;> simp [isMemoryDefect]

/-- What is assumed of a memory checker that has found nothing.  `left launch files call final code`
says that the command which the checker was called with, when the files were these, has ended with
the code by the time the checker has come to `final`. -/
structure Relays (tool : Program) (found : Call → Position → Prop)
    (left : Launcher → Files → Call → Position → Nat → Prop) : Prop where
  exits : ∀ launch call files time exchanges last final ending code,
    Conversed time (.start (tool launch call) files) exchanges last → last.Reaches final →
    final.process = .finished ending → ¬found call final → left launch files call final code →
    ending = .exited code

/-- The verdict on a command that has come to a result under a checker that has found nothing, and
the one that is given where no code is reserved. -/
structure JudgesClean (reserved expected : Int) (command logFile : String) (result : CommandResult)
    (plain outcome : Except Fault CommandResult) : Prop where
  /-- The command is taken for defective exactly where it ends with the reserved code. -/
  defect : (∃ fault, outcome = .error fault ∧ fault.isMemoryDefect = true) ↔
    result.exitCode = reserved
  reported : result.exitCode = reserved →
    outcome = .error (.memoryDefect command reserved logFile)
  /-- Otherwise the checker makes no difference. -/
  same : result.exitCode ≠ reserved → outcome = plain
  accepted : result.exitCode = expected → plain = .ok result
  unexpected : result.exitCode ≠ expected →
    plain = .error (.unexpectedExitCode command expected result.exitCode result.output)

theorem judge_judgesClean {reserved expected : Int} (hne : reserved ≠ expected)
    (command logFile : String) (result : CommandResult) :
    JudgesClean reserved expected command logFile result
      (judge command none expected result.exitCode result)
      (judge command (some (reserved, logFile)) expected result.exitCode result) where
  defect := by
    constructor
    · rintro ⟨fault, houtcome, hdefect⟩
      obtain ⟨command', code, logFile', rfl⟩ := Fault.isMemoryDefect_iff.mp hdefect
      obtain ⟨hreserved, -, -⟩ := judge_eq_memoryDefect_iff.mp houtcome
      cases hreserved
      rfl
    · intro hcode
      exact ⟨_, (judge_reserved hne).1.mpr hcode, rfl⟩
  reported := (judge_reserved hne).1.mpr
  same := fun hcode => if_neg hcode
  accepted := fun hcode => judge_eq_ok_iff.mpr ⟨by simp, hcode, rfl⟩
  unexpected := fun hcode =>
    judge_eq_unexpectedExitCode_iff.mpr ⟨by simp, hcode, rfl, rfl, rfl, rfl⟩

/-! ## A checker that finds nothing unless it is told to -/

namespace Checker

/-- However the command goes on, it ends with the code, and the checker has not been killed. -/
def hasLeft (launch : Launcher) (files : Files) (call : Call) (final : Position) (code : Nat) :
    Prop :=
  (inspected launch call).Ends (·.status = code) files ∧
    ∃ other, final.process = .finished (.exited other)

theorem flagging_relays : Relays flagging hasFlagged hasLeft where
  exits := by
    rintro launch call files time exchanges last final ending code hconversed hreaches hfinished
      hclean ⟨hinspected, other, hexited⟩
    have hunflagged : isFlagged call = false := by
      cases hflagged : isFlagged call with
      | false => rfl
      | true => exact absurd ⟨hflagged, other, hexited⟩ hclean
    have hends : (flagging launch call).Ends
        (fun ending => ∀ other, ending = .exited other → other = code) files := by
      refine hinspected.bind ?_
      rintro value later hstatus other ⟨⟩
      simpa [hunflagged] using hstatus
    have hfinal := hconversed.ends hreaches (by simp) hends
    rw [hexited] at hfinal hfinished
    cases hfinished
    rw [hfinal other rfl]

def workshop (code : Nat) : Machine :=
  { bench with installed := [(["run"], fun _ _ => .finished (.exited code)), (["check"], flagging)] }

def workshopLaunch (code : Nat) : Launcher := Executable.launch (workshop code).installed 63

def workshopCall : Call :=
  ⟨"/check", ((benchRunner []).dressed "case" (.lone .empty 0)).2.1, []⟩

theorem workshop_starts (code : Nat) :
    (benchRunner []).Starts "case" (.lone .empty 0) (workshop code)
      (flagging (workshopLaunch code) workshopCall) := by
  have hresolve : Executable.resolve (workshop code).files workshopCall.environment "/check" =
      .ok "/check" := if_pos (by decide +kernel)
  have hinspect : Executable.inspect (workshop code).files "/check" = .ok (["check"], []) := by
    change Executable.inspect bench.files "/check" = _
    decide +kernel
  have hlaunch := @Executable.launch_installed (workshop code).installed 63 (workshop code).files
    workshopCall "/check" ["check"] [] flagging (by decide +kernel) hresolve hinspect
    (by decide +kernel) rfl
  obtain ⟨started, hstart⟩ := @Machine.start_of_launch (workshop code) _ _ _ _ hlaunch
  exact ⟨1, started, hstart⟩

theorem launch_workshop (code : Nat) :
    workshopLaunch code bench.files ⟨"/run", [], []⟩ = .ok (.finished (.exited code)) :=
  @Executable.launch_installed (workshop code).installed 62 bench.files ⟨"/run", [], []⟩
    "/run" ["run"] [] (fun _ _ => .finished (.exited code)) (by decide +kernel)
    (if_pos (by decide +kernel)) (by decide +kernel) (by decide +kernel) rfl

theorem inspected_workshop (code : Nat) :
    inspected (workshopLaunch code) workshopCall = .look fun files =>
      (workshopLaunch code files ⟨"/run", [], []⟩).toOption.getD (.finished (.exited 127)) := by
  have hcommand : workshopCall.arguments.dropWhile isOption = ["/run"] := by decide +kernel
  rw [inspected, hcommand]
  rfl

/-- The checker finds nothing, and the program ends with its code. -/
theorem workshop_ended (code : Nat) :
    ∃ last final, (benchRunner []).Ended (Invocation.lone .empty 0).plan.exchanges
        (.start (flagging (workshopLaunch code) workshopCall) bench.files) last final
        (.exited code) ∧
      ¬hasFlagged workshopCall final ∧
      hasLeft (workshopLaunch code) bench.files workshopCall final code := by
  have hunflagged : isFlagged workshopCall = false := by decide +kernel
  let start := Position.start (flagging (workshopLaunch code) workshopCall) bench.files
  let told := start.move (.finished (.exited code)) start.link
  have hlook : Steps start told := by
    have hnext : start.step? = some (start.move (((workshopLaunch code bench.files
        ⟨"/run", [], []⟩).toOption.getD (.finished (.exited 127))).bind
          fun ending => .finished (.exited ending.status)) start.link) := by
      simp only [start, flagging, inspected_workshop, hunflagged]
      rfl
    rw [Steps, hnext, launch_workshop]
    rfl
  have hclose : Steps told (told.move (.finished (.exited code)) told.link.close) := rfl
  have hreaches := (Relation.ReflTransGen.single hlook).tail hclose
  have hearly : told.link.close.elapsed < start.link.elapsed + (benchRunner []).exitTimeout :=
    Nat.lt_add_of_pos_right (Nat.zero_lt_succ 4999)
  have hinspected : (inspected (workshopLaunch code) workshopCall).Ends (·.status = code)
      bench.files := by
    rw [inspected_workshop]
    change ((workshopLaunch code bench.files ⟨"/run", [], []⟩).toOption.getD
      (.finished (.exited 127))).Ends (·.status = code) bench.files
    rw [launch_workshop]
    rfl
  refine ⟨start, _, ⟨.done start, .inr ⟨_, ⟨hreaches, hearly⟩, rfl⟩, hreaches, rfl⟩, ?_, hinspected,
    code, rfl⟩
  rintro ⟨hflagged, -⟩
  rw [hunflagged] at hflagged
  cases hflagged

end Checker

/-! ## The verdict where nothing is found -/

section Verdict

variable {runner : Runner} {test : String} {invocation : Invocation} {machine : Machine}
  {checker : Checker} {tool : Program} {launch : Launcher} {call : Call}
  {found : Call → Position → Prop} {left : Launcher → Files → Call → Position → Nat → Prop}
  {last final : Position} {ending : Ending} {code : Nat}

theorem reserved_of_checker (hchecker : runner.checker = some checker) :
    runner.reserved test invocation = some (Checker.reservedCode invocation.expected,
      Checker.logFile runner.logDirectory test) := by
  simp only [Runner.reserved, Runner.dressed, hchecker]
  rfl

theorem Relays.judgesClean (hrelays : Relays tool found left)
    (hchecker : runner.checker = some checker)
    (hstarts : runner.Starts test invocation machine (tool launch call))
    (hended : runner.Ended invocation.plan.exchanges (.start (tool launch call) machine.files) last
      final ending)
    (hclean : ¬found call final) (hleft : left launch machine.files call final code) :
    JudgesClean (Checker.reservedCode invocation.expected) invocation.expected
      (runner.command test invocation) (Checker.logFile runner.logDirectory test)
      ⟨final.rest, final.transcript ++ final.rest, code, invocation.plan.exchanges.length⟩
      (runner.attend (runner.command test invocation) none invocation (tool launch call)
        machine.files).1.outcome
      (runner.run test invocation machine).1.outcome := by
  have hcode := hrelays.exits _ _ _ _ _ _ _ _ _ hended.conversed hended.reaches hended.finished
    hclean hleft
  subst hcode
  rw [Runner.run_of_starts hstarts, hended.attend rfl, hended.attend rfl,
    reserved_of_checker hchecker]
  exact judge_judgesClean (Checker.reservedCode_ne invocation.expected) _ _ _

/-- A run under a checker that finds nothing is judged like one without a checker, but for a command
that ends with the reserved code; and every run that tells of a defect has a checker that has found
one or such a command. -/
theorem run_judgesClean (hchecker : runner.checker = some checker)
    (hstarts : runner.Starts test invocation machine
      (tool launch (runner.call test invocation machine)))
    (hrelays : Relays tool found left) :
    let call := runner.call test invocation machine
    let start := Position.start (tool launch call) machine.files
    let reserved := Checker.reservedCode invocation.expected
    let outcome := (runner.run test invocation machine).1.outcome
    (∀ last final ending code,
      runner.Ended invocation.plan.exchanges start last final ending → ¬found call final →
      left launch machine.files call final code →
      JudgesClean reserved invocation.expected (runner.command test invocation)
        (Checker.logFile runner.logDirectory test)
        ⟨final.rest, final.transcript ++ final.rest, code, invocation.plan.exchanges.length⟩
        (runner.attend (runner.command test invocation) none invocation (tool launch call)
          machine.files).1.outcome outcome) ∧
    ∀ fault, outcome = .error fault → fault.isMemoryDefect = true →
      ∃ last final ending, runner.Ended invocation.plan.exchanges start last final ending ∧
        (found call final ∨ ∀ code, left launch machine.files call final code → code = reserved) := by
  intro call start reserved outcome
  constructor
  · intro last final ending code hended hclean hleft
    exact hrelays.judgesClean hchecker hstarts hended hclean hleft
  · intro fault houtcome hdefect
    obtain ⟨final, signals, hcourse, -⟩ := Runner.run_course hstarts
    have hkept : (runner.run test invocation machine).1.outcome = outcome := rfl
    generalize (runner.run test invocation machine).1 = run at hcourse hkept
    rw [← hkept] at houtcome
    cases hcourse with
    | stuck =>
        cases houtcome
        cases hdefect
    | overdue =>
        cases houtcome
        cases hdefect
    | nameless =>
        cases houtcome
        cases hdefect
    | @ended last ending hended =>
        refine ⟨last, final, ending, hended, ?_⟩
        by_cases hfound : found call final
        · exact .inl hfound
        · refine .inr fun code hleft => ?_
          have hclean := hrelays.judgesClean hchecker hstarts hended hfound hleft
          exact hclean.defect.mp ⟨fault, hkept.symm.trans houtcome, hdefect⟩

end Verdict

theorem run_judgesClean_workshop :
    let runner := Checker.benchRunner []
    let invocation : Invocation := .lone .empty 0
    let machine := Checker.workshop 3
    let tool := Checker.flagging (Checker.workshopLaunch 3) Checker.workshopCall
    runner.checker = some ⟨"/check", []⟩ ∧
      runner.Starts "case" invocation machine tool ∧
      Relays Checker.flagging Checker.hasFlagged Checker.hasLeft ∧
      ∃ last final,
        runner.Ended invocation.plan.exchanges (.start tool machine.files) last final (.exited 3) ∧
        ¬Checker.hasFlagged Checker.workshopCall final ∧
        Checker.hasLeft (Checker.workshopLaunch 3) machine.files Checker.workshopCall final 3 ∧
        (runner.run "case" invocation machine).1.outcome =
          .error (.unexpectedExitCode (runner.command "case" invocation) 0 3 final.rest) := by
  intro runner invocation machine tool
  have hstarts : runner.Starts "case" invocation machine tool := Checker.workshop_starts 3
  obtain ⟨last, final, hended, hclean, hleft⟩ := Checker.workshop_ended 3
  obtain ⟨hjudged, -⟩ := @run_judgesClean runner "case" invocation machine ⟨"/check", []⟩
    Checker.flagging (Checker.workshopLaunch 3) _ _ rfl hstarts Checker.flagging_relays
  have hverdict := hjudged last final (.exited 3) 3 hended hclean hleft
  refine ⟨rfl, hstarts, Checker.flagging_relays, last, final, hended, hclean, hleft, ?_⟩
  rw [hverdict.same (by decide : (3 : Int) ≠ 1), hverdict.unexpected (by decide : (3 : Int) ≠ 0)]
  rfl

/-- A command that fails with the very code that is reserved is taken for defective, although the
checker has found nothing; without a checker it is just a command that fails. -/
theorem defect_reported_of_failure :
    let runner := Checker.benchRunner []
    let invocation : Invocation := .lone .empty 0
    let machine := Checker.workshop 1
    let tool := Checker.flagging (Checker.workshopLaunch 1) Checker.workshopCall
    let command := runner.command "case" invocation
    runner.Starts "case" invocation machine tool ∧
      Relays Checker.flagging Checker.hasFlagged Checker.hasLeft ∧
      ∃ last final,
        runner.Ended invocation.plan.exchanges (.start tool machine.files) last final (.exited 1) ∧
        ¬Checker.hasFlagged Checker.workshopCall final ∧
        Checker.hasLeft (Checker.workshopLaunch 1) machine.files Checker.workshopCall final 1 ∧
        (runner.run "case" invocation machine).1.outcome =
          .error (.memoryDefect command 1 (Checker.logFile runner.logDirectory "case")) ∧
        (runner.attend command none invocation tool machine.files).1.outcome =
          .error (.unexpectedExitCode command 0 1 final.rest) := by
  intro runner invocation machine tool command
  have hstarts : runner.Starts "case" invocation machine tool := Checker.workshop_starts 1
  obtain ⟨last, final, hended, hclean, hleft⟩ := Checker.workshop_ended 1
  have hverdict := Checker.flagging_relays.judgesClean rfl hstarts
    hended hclean hleft
  refine ⟨hstarts, Checker.flagging_relays, last, final, hended, hclean, hleft, ?_, ?_⟩
  · exact hverdict.reported rfl
  · exact hverdict.unexpected (by decide : (1 : Int) ≠ 0)

end PromptHarness
