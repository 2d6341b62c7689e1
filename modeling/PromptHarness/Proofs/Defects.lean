import PromptHarness.Proofs.ProcessInvariants
import PromptHarness.Proofs.Runs

/-!
# Defects that a memory checker finds

A memory checker takes the options in front of the command for itself, and of several codes it is
told there the last one counts.  The code that is reserved for it comes first, so an option of its
own that tells a code has the last word.  Without such an option every defect that the checker
reports is taken for one (`JudgesDefect.caught`); otherwise only where the code happens to be the
reserved one.
-/

namespace PromptHarness

open Position

/-! ## The endings of a process -/

namespace Process

variable {α β : Type}

/-- However the process goes on from these files, what comes out in the end is such. -/
def Ends (such : α → Prop) : Process α → Files → Prop
  | finished value, _ => such value
  | print _ next, files => next.Ends such files
  | warn _ next, files => next.Ends such files
  | ask _ next, files => ∀ input, (next input).Ends such files
  | pause _ next, files => next.Ends such files
  | hangUp next, files => next.Ends such files
  | arrange _ _ next, files => next.Ends such files
  | collect next, files => ∀ signals, (next signals).Ends such files
  | change effect next, files => next.Ends such (effect files)
  | look next, files => (next files).Ends such files

theorem ends_of_forall {such : α → Prop} (process : Process α) (hsuch : ∀ value, such value)
    (files : Files) : process.Ends such files := by
  induction process generalizing files with
  | finished value => exact hsuch value
  | print bytes rest ih => exact ih files
  | warn bytes rest ih => exact ih files
  | ask portion rest ih => exact fun input => ih input files
  | pause span rest ih => exact ih files
  | hangUp rest ih => exact ih files
  | arrange signal arrangement rest ih => exact ih files
  | collect rest ih => exact fun signals => ih signals files
  | change effect rest ih => exact ih (effect files)
  | look rest ih => exact ih files files

theorem Ends.bind {such : α → Prop} {such' : β → Prop} {process : Process α} {files : Files}
    {next : α → Process β} (hends : process.Ends such files)
    (hnext : ∀ value files, such value → (next value).Ends such' files) :
    (process.bind next).Ends such' files := by
  induction process generalizing files with
  | finished value => exact hnext value files hends
  | print bytes rest ih => exact ih hends
  | warn bytes rest ih => exact ih hends
  | ask portion rest ih => exact fun input => ih input (hends input)
  | pause span rest ih => exact ih hends
  | hangUp rest ih => exact ih hends
  | arrange signal arrangement rest ih => exact ih hends
  | collect rest ih => exact fun signals => ih signals (hends signals)
  | change effect rest ih => exact ih hends
  | look rest ih => exact ih files hends

theorem isHereditary_ends (such : Ending → Prop) :
    IsHereditary fun process files => process.Ends such files where
  print hends := hends
  warn hends := hends
  ask hends := hends
  pause hends := hends
  hangUp hends := hends
  arrange hends := hends
  collect hends := hends
  change hends := hends
  look hends := hends
  paused hends _ := hends
  printed hends _ := hends

end Process

/-- Answers can only bring other endings about by killing the process. -/
theorem Position.Conversed.ends {such : Ending → Prop} {position last final : Position} {time : Nat}
    {exchanges : List Exchange} (hconversed : Conversed time position exchanges last)
    (hreaches : last.Reaches final) (hsignaled : ∀ signal : Nat, such (.signaled signal))
    (hends : position.process.Ends such position.link.files) :
    final.process.Ends such final.link.files :=
  hreaches.inherits (Process.isHereditary_ends such)
    (hconversed.inherits (Process.isHereditary_ends such) (fun _ _ signal _ => hsignaled signal)
      hends)

/-! ## What a checker is told -/

namespace Checker

/-- Whether a checker takes an argument for itself. -/
def isOption (argument : String) : Bool := ['-', '-'].isPrefixOf argument.toList

def ownArguments (arguments : List String) : List String := arguments.takeWhile isOption

def codeOption : String := "--error-exitcode="

def toldText? (option : String) : Option String :=
  if codeOption.toList.isPrefixOf option.toList then
    some (String.ofList (option.toList.drop codeOption.toList.length))
  else none

def told? (options : List String) : Option String := (options.filterMap toldText?).getLast?

theorem toldText?_code (text : String) : toldText? (codeOption ++ text) = some text := by
  have hprefix : codeOption.toList.isPrefixOf (codeOption ++ text).toList = true := by
    rw [String.toList_append, List.isPrefixOf_iff_prefix]
    exact List.prefix_append _ _
  rw [toldText?, if_pos hprefix, String.toList_append, List.drop_left, String.ofList_toList]

theorem toldText?_logFile (file : String) : toldText? ("--log-file=" ++ file) = none := by
  rw [toldText?, if_neg]
  rw [String.toList_append]
  simp [codeOption, List.isPrefixOf]

section Wrap

variable {checker : Checker} {program : String} {arguments : List String} {logFile : String}
  {expected : Int}

/-- A checker takes what it was wrapped with for itself, and the program for the command. -/
theorem ownArguments_wrap (hoptions : ∀ option ∈ checker.options, isOption option = true)
    (hprogram : isOption program = false) :
    ownArguments (checker.wrap program arguments logFile expected).arguments =
      ["--log-file=" ++ logFile, codeOption ++ toString (reservedCode expected)] ++
        checker.options := by
  have hlog : isOption ("--log-file=" ++ logFile) = true := by
    simp [isOption, List.isPrefixOf]
  have hcode : isOption ("--error-exitcode=" ++ toString (reservedCode expected)) = true := by
    simp [isOption, List.isPrefixOf]
  rw [ownArguments, wrap, List.takeWhile_append_of_pos]
  · -- The program ends what the checker takes, so its arguments may be options too.
    rw [List.takeWhile_cons_of_neg (by simp [hprogram]), List.append_nil]
    rfl
  · intro option hoption
    rcases List.mem_append.mp hoption with hfirst | hfurther
    · simp only [List.mem_cons, List.not_mem_nil, or_false] at hfirst
      rcases hfirst with rfl | rfl
      · exact hlog
      · exact hcode
    · exact hoptions option hfurther

theorem dropWhile_wrap (hoptions : ∀ option ∈ checker.options, isOption option = true)
    (hprogram : isOption program = false) :
    (checker.wrap program arguments logFile expected).arguments.dropWhile isOption =
      program :: arguments := by
  have hwhole := @List.takeWhile_append_dropWhile _ isOption
    (checker.wrap program arguments logFile expected).arguments
  have hown := @ownArguments_wrap checker program arguments logFile expected hoptions hprogram
  rw [ownArguments] at hown
  rw [hown] at hwhole
  exact List.append_cancel_left hwhole

/-- The code that is reserved is told first, and so only counts where no option tells another. -/
theorem told?_wrap (hoptions : ∀ option ∈ checker.options, isOption option = true)
    (hprogram : isOption program = false) :
    told? (ownArguments (checker.wrap program arguments logFile expected).arguments) =
      (told? checker.options).or (some (toString (reservedCode expected))) := by
  rw [ownArguments_wrap hoptions hprogram, told?, List.filterMap_append, List.getLast?_append]
  simp [toldText?_logFile, toldText?_code, told?]

end Wrap

theorem toString_reservedCode (expected : Int) : ∃ code : Nat, code < 256 ∧
    reservedCode expected = code ∧ toString (reservedCode expected) = toString code := by
  unfold reservedCode
  split
  · exact ⟨2, by decide, rfl, rfl⟩
  · exact ⟨1, by decide, rfl, rfl⟩

end Checker

/-! ## Runs of a checker -/

/-- A run whose process ends with a code is judged by that code. -/
theorem Runner.Ended.judged {runner : Runner} {test : String} {invocation : Invocation}
    {machine : Machine} {process : Process Ending} {last final : Position} {code : Nat}
    (hstarts : runner.Starts test invocation machine process)
    (hended : runner.Ended invocation.plan.exchanges (.start process machine.files) last final
      (.exited code)) :
    ∃ result, (runner.run test invocation machine).1.outcome =
      judge (runner.command test invocation) (runner.reserved test invocation) invocation.expected
        code result := by
  rw [Runner.run_of_starts hstarts, hended.attend rfl]
  exact ⟨_, rfl⟩

/-- What is assumed of a memory checker.  A code is read by `reads`, and `found call final` says
that the checker, called so, has found a defect when it has come to `final`. -/
structure Reports (tool : Program) (reads : String → Option Nat) (found : Call → Position → Prop) :
    Prop where
  numeral : ∀ code < 256, reads (toString code) = some code
  /-- The code it was told last is what it exits with once it has found a defect. -/
  exits : ∀ launch call files time exchanges last final ending code,
    Conversed time (.start (tool launch call) files) exchanges last → last.Reaches final →
    final.process = .finished ending → found call final →
    (Checker.told? (Checker.ownArguments call.arguments)).bind reads = some code →
    ending = .exited code

/-- The run starts a program under a checker, which is the `tool`. -/
structure Checks (runner : Runner) (test : String) (invocation : Invocation) (machine : Machine)
    (checker : Checker) (tool : Program) (process : Process Ending) : Prop where
  instrumented : runner.checker = some checker
  options : ∀ option ∈ checker.options, Checker.isOption option = true
  program : Checker.isOption invocation.program = false
  starts : runner.Starts test invocation machine process
  called : ∃ launch, process = tool launch (runner.call test invocation machine)

section Checks

variable {runner : Runner} {test : String} {invocation : Invocation} {machine : Machine}
  {checker : Checker} {tool : Program} {process : Process Ending} {last final : Position}
  {ending : Ending} {reads : String → Option Nat} {found : Call → Position → Prop} {code : Nat}

theorem Checks.told?_call
    (hchecks : Checks runner test invocation machine checker tool process) :
    Checker.told? (Checker.ownArguments (runner.call test invocation machine).arguments) =
      (Checker.told? checker.options).or
        (some (toString (Checker.reservedCode invocation.expected))) := by
  simp only [Runner.call, Runner.dressed, hchecks.instrumented]
  exact Checker.told?_wrap hchecks.options hchecks.program

theorem Checks.reserved (hchecks : Checks runner test invocation machine checker tool process) :
    runner.reserved test invocation = some (Checker.reservedCode invocation.expected,
      Checker.logFile runner.logDirectory test) := by
  simp only [Runner.reserved, Runner.dressed, hchecks.instrumented]
  rfl

/-- A run whose checker has found a defect is judged by the code that the checker was told last. -/
theorem Checks.judged (hchecks : Checks runner test invocation machine checker tool process)
    (hreports : Reports tool reads found)
    (hended : runner.Ended invocation.plan.exchanges (.start process machine.files) last final
      ending)
    (hfound : found (runner.call test invocation machine) final)
    (htold : ((Checker.told? checker.options).or
      (some (toString (Checker.reservedCode invocation.expected)))).bind reads = some code) :
    ∃ result, (runner.run test invocation machine).1.outcome =
      judge (runner.command test invocation)
        (some (Checker.reservedCode invocation.expected, Checker.logFile runner.logDirectory test))
        invocation.expected code result := by
  obtain ⟨launch, hprocess⟩ := hchecks.called
  have hstart := hended.conversed
  rw [hprocess] at hstart
  rw [← hchecks.told?_call] at htold
  have hcode := hreports.exits launch _ _ _ _ last final ending code hstart hended.reaches
    hended.finished hfound htold
  subst hcode
  rw [← hchecks.reserved]
  exact hended.judged hchecks.starts

end Checks

/-! ## A checker that finds a defect where it is told to -/

namespace Checker

def flagName : String := "FAKE_DEFECT"

def isFlagged (call : Call) : Bool := (call.environment.value? flagName).getD "" != ""

def readCode (text : String) : Option Nat :=
  let code := Nat.ofDigitChars 10 text.toList 0
  if code < 256 ∧ toString code = text then some code else none

def inspected (launch : Launcher) (call : Call) : Process Ending :=
  match call.arguments.dropWhile isOption with
  | [] => .finished (.exited 0)
  | program :: arguments =>
      .look fun files =>
        (launch files ⟨program, arguments, call.environment⟩).toOption.getD (.finished (.exited 127))

/-- Runs the command and ends like it, but for a defect, which it tells by its code. -/
def flagging : Program := fun launch call =>
  (inspected launch call).bind fun ending =>
    .finished <| .exited <|
      if isFlagged call then ((told? (ownArguments call.arguments)).bind readCode).getD 0
      else ending.status

theorem flagging_eq {launch : Launcher} {call : Call} {code : Nat}
    (hflagged : isFlagged call = true)
    (htold : (told? (ownArguments call.arguments)).bind readCode = some code) :
    flagging launch call = (inspected launch call).bind fun _ => .finished (.exited code) := by
  simp only [flagging, hflagged, htold, if_true, Option.getD_some]

/-- The checker has found a defect and not been killed. -/
def hasFlagged (call : Call) (final : Position) : Prop :=
  isFlagged call = true ∧ ∃ code, final.process = .finished (.exited code)

theorem readCode_toString (code : Nat) (hcode : code < 256) :
    readCode (toString code) = some code := by
  have hdigits : Nat.ofDigitChars 10 (toString code).toList 0 = code := by
    change Nat.ofDigitChars 10 (String.ofList (Nat.toDigits 10 code)).toList 0 = code
    rw [String.toList_ofList, Nat.ofDigitChars_toDigits (by decide) (by decide)]
  simp only [readCode, hdigits, hcode, true_and, if_true]

theorem flagging_reports : Reports flagging readCode hasFlagged where
  numeral := readCode_toString
  exits := by
    intro launch call files time exchanges last final ending code hconversed hreaches hfinished
      hfound htold
    -- Signals are let pass here; a checker that died by one has not exited with any code.
    have hends : (flagging launch call).Ends
        (fun ending => ∀ other, ending = .exited other → other = code) files := by
      rw [flagging_eq hfound.1 htold]
      have hinspected := (inspected launch call).ends_of_forall (fun _ => trivial) files
      refine hinspected.bind ?_
      rintro value later - other ⟨⟩
      rfl
    have hfinal := hconversed.ends hreaches (by simp) hends
    obtain ⟨other, hexited⟩ := hfound.2
    rw [hexited] at hfinal hfinished
    cases hfinished
    rw [hfinal other rfl]

def bench : Machine where
  files := ⟨[(["run"], .file [] Files.programMode), (["check"], .file [] Files.programMode)], []⟩
  installed := [(["run"], fun _ _ => .finished (.exited 0)), (["check"], flagging)]
  environment := []
  children := []
  nextNumber := 1

def benchRunner (options : List String) : Runner := ⟨5000, 5000, some ⟨"/check", options⟩, "."⟩

def flagged (expected : Int) : Invocation := ⟨"/run", [], [(flagName, "1")], .empty, expected⟩

theorem isOption_flagged (expected : Int) : isOption (flagged expected).program = false := by
  change isOption "/run" = false
  decide +kernel

def benchCall (options : List String) (expected : Int) : Call :=
  ⟨"/check", ((benchRunner options).dressed "case" (flagged expected)).2.1, [(flagName, "1")]⟩

theorem call_bench (options : List String) (expected : Int) :
    (benchRunner options).call "case" (flagged expected) bench = benchCall options expected := by
  have hreceived : [(flagName, "1")].map Environment.received = [(flagName, "1")] := by
    decide +kernel
  exact congrArg (Call.mk _ _) hreceived

def benchLaunch : Launcher := Executable.launch bench.installed 63

def benchProcess (options : List String) (expected : Int) : Process Ending :=
  flagging benchLaunch (benchCall options expected)

theorem bench_checks {options : List String} {expected : Int}
    (hoptions : ∀ option ∈ options, isOption option = true)
    (hnul : (Executable.texts (benchCall options expected)).any Executable.holdsNul = false)
    (hfits : Executable.overflows (benchCall options expected) = false) :
    Checks (benchRunner options) "case" (flagged expected) bench ⟨"/check", options⟩ flagging
      (benchProcess options expected) where
  instrumented := rfl
  options := hoptions
  program := isOption_flagged expected
  starts := by
    have hresolve : Executable.resolve bench.files (benchCall options expected).environment
        "/check" = .ok "/check" := if_pos (by decide +kernel)
    have hlaunch := @Executable.launch_installed bench.installed 63 bench.files
      (benchCall options expected) "/check" ["check"] [] flagging hnul hresolve
      (by decide +kernel) hfits rfl
    obtain ⟨started, hstart⟩ := @Machine.start_of_launch bench _ _ _ _ hlaunch
    rw [benchProcess, ← call_bench]
    exact ⟨1, started, hstart⟩
  called := by
    rw [call_bench]
    exact ⟨_, rfl⟩

theorem isFlagged_bench (options : List String) (expected : Int) :
    isFlagged (benchCall options expected) = true := by
  change ((Environment.value? [(flagName, "1")] flagName).getD "" != "") = true
  decide +kernel

theorem launch_bench : benchLaunch bench.files ⟨"/run", [], [(flagName, "1")]⟩ =
    .ok (.finished (.exited 0)) :=
  @Executable.launch_installed bench.installed 62 bench.files ⟨"/run", [], [(flagName, "1")]⟩
    "/run" ["run"] [] (fun _ _ => .finished (.exited 0)) (by decide +kernel)
    (if_pos (by decide +kernel)) (by decide +kernel) (by decide +kernel) rfl

section Bench

variable {options : List String} {expected : Int} {code : Nat}

theorem benchProcess_eq (hoptions : ∀ option ∈ options, isOption option = true)
    (htold : ((told? options).or (some (toString (reservedCode expected)))).bind readCode =
      some code) :
    benchProcess options expected = .look fun files =>
      ((benchLaunch files ⟨"/run", [], [(flagName, "1")]⟩).toOption.getD
        (.finished (.exited 127))).bind fun _ => .finished (.exited code) := by
  have hprogram := isOption_flagged expected
  have hcommand : (benchCall options expected).arguments.dropWhile isOption = ["/run"] :=
    dropWhile_wrap hoptions hprogram
  have hown : told? (ownArguments (benchCall options expected).arguments) =
      (told? options).or (some (toString (reservedCode expected))) :=
    @told?_wrap ⟨"/check", options⟩ "/run" [] (logFile "." "case") expected hoptions hprogram
  rw [benchProcess, flagging_eq (isFlagged_bench options expected) (by rw [hown, htold]),
    inspected, hcommand]
  rfl

/-- The checker finds a defect and ends with the code that it was told last. -/
theorem bench_ended (hoptions : ∀ option ∈ options, isOption option = true)
    (htold : ((told? options).or (some (toString (reservedCode expected)))).bind readCode =
      some code) :
    ∃ last final, (benchRunner options).Ended (flagged expected).plan.exchanges
        (.start (benchProcess options expected) bench.files) last final (.exited code) ∧
      hasFlagged ((benchRunner options).call "case" (flagged expected) bench) final := by
  let start := Position.start (benchProcess options expected) bench.files
  let told := start.move (.finished (.exited code)) start.link
  have hlook : Steps start told := by
    have hnext : start.step? = some (start.move (((benchLaunch bench.files
        ⟨"/run", [], [(flagName, "1")]⟩).toOption.getD (.finished (.exited 127))).bind
          fun _ => .finished (.exited code)) start.link) := by
      simp only [start, benchProcess_eq hoptions htold]
      rfl
    rw [Steps, hnext, launch_bench]
    rfl
  have hclose : Steps told (told.move (.finished (.exited code)) told.link.close) := rfl
  have hreaches := (Relation.ReflTransGen.single hlook).tail hclose
  have hearly : told.link.close.elapsed < start.link.elapsed + (benchRunner options).exitTimeout :=
    Nat.lt_add_of_pos_right (Nat.zero_lt_succ 4999)
  rw [call_bench]
  exact ⟨start, _, ⟨.done start, .inr ⟨_, ⟨hreaches, hearly⟩, rfl⟩, hreaches, rfl⟩,
    isFlagged_bench options expected, code, rfl⟩

end Bench

end Checker

/-! ## The verdict on a defect -/

/-- The verdict on a run whose checker has found a defect. -/
structure JudgesDefect (reserved expected : Int) (options : List String)
    (reads : String → Option Nat) (command logFile : String)
    (outcome : Except Fault CommandResult) : Prop where
  /-- Where no option tells a code of its own, the defect is reported. -/
  caught : Checker.told? options = none →
    outcome = .error (.memoryDefect command reserved logFile)
  /-- Otherwise that depends on the code. -/
  told : ∀ text code, Checker.told? options = some text → reads text = some code →
    (outcome = .error (.memoryDefect command reserved logFile) ↔ (code : Int) = reserved) ∧
    ((∃ result, outcome = .ok result) ↔ (code : Int) = expected) ∧
    ((∃ output, outcome = .error (.unexpectedExitCode command expected code output)) ↔
      (code : Int) ≠ reserved ∧ (code : Int) ≠ expected)

/-- The verdict on a defect, whatever the options of the checker, the program and its arguments. -/
theorem run_judgesDefect {runner : Runner} {test : String} {invocation : Invocation}
    {machine : Machine} {checker : Checker} {tool : Program} {process : Process Ending}
    {last final : Position} {ending : Ending} {reads : String → Option Nat}
    {found : Call → Position → Prop}
    (hchecks : Checks runner test invocation machine checker tool process)
    (hreports : Reports tool reads found)
    (hended : runner.Ended invocation.plan.exchanges (.start process machine.files) last final
      ending)
    (hfound : found (runner.call test invocation machine) final) :
    JudgesDefect (Checker.reservedCode invocation.expected) invocation.expected checker.options
      reads (runner.command test invocation) (Checker.logFile runner.logDirectory test)
      (runner.run test invocation machine).1.outcome := by
  constructor
  case caught =>
    intro hnone
    obtain ⟨code, hcode, hreserved, htext⟩ := Checker.toString_reservedCode invocation.expected
    obtain ⟨result, houtcome⟩ := hchecks.judged hreports hended hfound (by
      rw [hnone, Option.none_or, Option.bind_some, htext]
      exact hreports.numeral code hcode)
    rw [houtcome, ← hreserved]
    exact judge_eq_memoryDefect_iff.mpr ⟨rfl, rfl, rfl⟩
  case told =>
    intro text code htext hreads
    obtain ⟨result, houtcome⟩ := hchecks.judged hreports hended hfound (by
      rw [htext, Option.some_or, Option.bind_some]
      exact hreads)
    rw [houtcome]
    exact judge_reserved (Checker.reservedCode_ne invocation.expected)

theorem run_judgesDefect_flagging :
    let runner := Checker.benchRunner ["--quiet"]
    let invocation := Checker.flagged 5
    ∃ last final,
      Checks runner "case" invocation Checker.bench ⟨"/check", ["--quiet"]⟩ Checker.flagging
        (Checker.benchProcess ["--quiet"] 5) ∧
      Reports Checker.flagging Checker.readCode Checker.hasFlagged ∧
      runner.Ended invocation.plan.exchanges
        (.start (Checker.benchProcess ["--quiet"] 5) Checker.bench.files) last final (.exited 1) ∧
      Checker.hasFlagged (runner.call "case" invocation Checker.bench) final ∧
      JudgesDefect (Checker.reservedCode invocation.expected) invocation.expected ["--quiet"]
        Checker.readCode (runner.command "case" invocation)
        (Checker.logFile runner.logDirectory "case")
        (runner.run "case" invocation Checker.bench).1.outcome := by
  intro runner invocation
  have hoptions : ∀ option ∈ ["--quiet"], Checker.isOption option = true := by decide +kernel
  have hchecks : Checks runner "case" invocation Checker.bench ⟨"/check", ["--quiet"]⟩
      Checker.flagging (Checker.benchProcess ["--quiet"] 5) :=
    Checker.bench_checks hoptions (by decide +kernel) (by decide +kernel)
  obtain ⟨last, final, hended, hfound⟩ :=
    @Checker.bench_ended ["--quiet"] 5 1 hoptions (by decide +kernel)
  exact ⟨last, final, hchecks, Checker.flagging_reports, hended, hfound,
    run_judgesDefect hchecks Checker.flagging_reports hended hfound⟩

/-- Under an option that tells a code of its own, a defect is taken for what the command itself has
done: for success where the code is expected, and else for a failure. -/
theorem defect_missed_of_option :
    let options := ["--error-exitcode=7"]
    let runner := Checker.benchRunner options
    (∀ option ∈ options, Checker.isOption option = true) ∧
      (∀ expected ∈ [0, 7], ∃ last final,
        runner.Starts "case" (Checker.flagged expected) Checker.bench
          (Checker.benchProcess options expected) ∧
        runner.Ended (Checker.flagged expected).plan.exchanges
          (.start (Checker.benchProcess options expected) Checker.bench.files) last final
          (.exited 7) ∧
        Checker.hasFlagged (runner.call "case" (Checker.flagged expected) Checker.bench) final) ∧
      (∃ result, (runner.run "case" (Checker.flagged 7) Checker.bench).1.outcome = .ok result) ∧
      ∃ output, (runner.run "case" (Checker.flagged 0) Checker.bench).1.outcome =
        .error (.unexpectedExitCode (runner.command "case" (Checker.flagged 0)) 0 7 output) := by
  intro options runner
  have hoptions : ∀ option ∈ options, Checker.isOption option = true := by decide +kernel
  have hchecks : ∀ expected ∈ [0, 7], Checks runner "case" (Checker.flagged expected) Checker.bench
      ⟨"/check", options⟩ Checker.flagging (Checker.benchProcess options expected) := by
    simp only [List.mem_cons, List.not_mem_nil, or_false]
    rintro expected (rfl | rfl)
    · exact Checker.bench_checks hoptions (by decide +kernel) (by decide +kernel)
    · exact Checker.bench_checks hoptions (by decide +kernel) (by decide +kernel)
  have htold : ∀ expected, ((Checker.told? options).or
      (some (toString (Checker.reservedCode expected)))).bind Checker.readCode = some 7 := by
    intro expected
    have htext : Checker.told? options = some "7" := by decide +kernel
    rw [htext]
    change Checker.readCode "7" = some 7
    decide +kernel
  have hended := fun expected => @Checker.bench_ended options expected 7 hoptions (htold expected)
  have hjudged : ∀ expected ∈ [0, 7], ∃ result,
      (runner.run "case" (Checker.flagged expected) Checker.bench).1.outcome =
        judge (runner.command "case" (Checker.flagged expected))
          (some (Checker.reservedCode expected, Checker.logFile "." "case")) expected 7 result := by
    intro expected hexpected
    obtain ⟨last, final, hended, hfound⟩ := hended expected
    exact (hchecks expected hexpected).judged Checker.flagging_reports hended hfound
      (htold expected)
  refine ⟨hoptions, ?_, ?_, ?_⟩
  · intro expected hexpected
    obtain ⟨last, final, hended, hfound⟩ := hended expected
    exact ⟨last, final, (hchecks expected hexpected).starts, hended, hfound⟩
  · obtain ⟨result, houtcome⟩ := hjudged 7 (by simp)
    exact ⟨result, houtcome⟩
  · obtain ⟨result, houtcome⟩ := hjudged 0 (by simp)
    exact ⟨_, houtcome⟩

end PromptHarness
