import PromptHarness.Checker
import PromptHarness.Fault
import PromptHarness.Machine
import PromptHarness.Process.Link
import PromptHarness.Text.Search

/-!
# Running a command

One command runs on a terminal of its own.  The exchanges of its plan are gone through in order:
each cue is looked for only behind the one before it, and an answer is typed only once its cue has
shown up.  Then the command is left to end, and its exit code decides the verdict.  Whatever comes
of it, the process is reaped before the run is over.
-/

namespace PromptHarness

/-- What to run: a program, its arguments, variables to set, the prompts to answer and the exit code
to end with. -/
structure Invocation where
  program : String
  arguments : List String
  environment : Environment
  plan : Plan
  expected : Int

structure CommandResult where
  /-- What came after the last answer. -/
  output : String
  /-- All that came, prompts included. -/
  transcript : String
  exitCode : Int
  responsesSent : Nat
  deriving Repr, DecidableEq

/-- Where a run is, once its process has been started. -/
inductive Phase where
  | consumingPrompt (step : Nat)
  | drainingOutput
  | exited (code : Int)
  | failed
  deriving Repr, DecidableEq

/-- A run that is over: the phases it went through and what came of it. -/
structure Run where
  phases : List Phase
  outcome : Except Fault CommandResult

structure Runner where
  promptTimeout : Nat
  exitTimeout : Nat
  checker : Option Checker
  logDirectory : String

/-! ## Talking to the process -/

/-- A process, the link to it, and the text of all that has been taken from the link. -/
structure Talk where
  process : Process Ending
  link : Link
  transcript : String

namespace Talk

def await (talk : Talk) (enough : Bytes → Bool) (time : Nat) : Halt × Talk :=
  let (halt, process, link) := talk.link.await enough time talk.process
  (halt, { talk with process := process, link := link })

/-- The text of what has come and not been taken. -/
def rest (talk : Talk) : String := Text.lossy talk.link.unread

/-- Takes all up to the end of a cue, with `before` in front of it and `after` behind, and types the
answer.  An answer may hold keys that kill the process. -/
def answer (talk : Talk) (exchange : Exchange) (before after : Bytes) : Talk :=
  { process := match talk.link.deadlySignal? exchange.response with
      | some signal => .finished (.signaled signal)
      | none => talk.process
    link := (talk.link.take after).type exchange.response
    transcript := talk.transcript ++ Text.lossy before ++ exchange.cue.literal }

/-- Why a cue has not shown up, by how the wait for it ended. -/
def cueFailure (halt : Halt) (time : Nat) : CueFailure :=
  match halt with
  | .closed => .closed
  | _ => .unseen time

/-- Answers the exchanges from step number `step` on.  Where a cue does not show up, the step, its
cue and the reason come back. -/
def converse (time : Nat) : Nat → List Exchange → Talk →
    List Phase × Option (Nat × Cue × CueFailure) × Talk
  | _, [], talk => ([], none, talk)
  | step, exchange :: later, talk =>
    let cue := Text.encode exchange.cue.literal
    let (halt, talk) := talk.await (Text.holds cue) time
    match Text.cut? cue talk.link.unread with
    | none => ([.consumingPrompt step], some (step, exchange.cue, cueFailure halt time), talk)
    | some (before, after) =>
      let (phases, failure, talk) := converse time (step + 1) later
        (talk.answer exchange before after)
      (.consumingPrompt step :: phases, failure, talk)

end Talk

/-! ## The verdict -/

/-- What an exit code means.  `reserved` is the code by which a memory checker reports a defect,
with its log file; it is looked at first. -/
def judge (command : String) (reserved : Option (Int × String)) (expected code : Int)
    (result : CommandResult) : Except Fault CommandResult :=
  match reserved with
  | some (reservedCode, logFile) =>
    if code = reservedCode then .error (.memoryDefect command code logFile) else plain
  | none => plain
where
  plain : Except Fault CommandResult :=
    if code = expected then .ok result
    else .error (.unexpectedExitCode command expected code result.output)

def commandLine (program : String) (arguments : List String) : String :=
  arguments.foldl (fun line argument => line ++ " " ++ argument) program

namespace Runner

/-- The command as it is started, under the memory checker if there is one, and the code reserved
for that checker with its log file. -/
def dressed (runner : Runner) (test : String) (invocation : Invocation) :
    String × List String × Option (Int × String) :=
  match runner.checker with
  | none => (invocation.program, invocation.arguments, none)
  | some checker =>
    let checked := checker.wrap invocation.program invocation.arguments
      (Checker.logFile runner.logDirectory test) invocation.expected
    (checked.program, checked.arguments, some (checked.reserved, checked.logFile))

/-- The run of a process that has just been started. -/
def attend (runner : Runner) (command : String) (reserved : Option (Int × String))
    (invocation : Invocation) (process : Process Ending) (files : Files) : Run × Link :=
  let (phases, failure, talk) := Talk.converse runner.promptTimeout 0 invocation.plan.exchanges
    ⟨process, .start .terminal files, ""⟩
  match failure with
  | some (step, cue, failure) =>
    (⟨phases ++ [.failed],
      .error (.protocolViolation command step cue failure (talk.transcript ++ talk.rest))⟩,
      talk.link)
  | none =>
    let (halt, talk) := talk.await (fun _ => false) runner.exitTimeout
    match halt with
    | .closed =>
      let waiting := talk.link.signals.waiting
      let (ending, files) := talk.process.complete waiting talk.link.files
      let link :=
        { talk.link.pass (talk.process.lifetime waiting talk.link.files) with files := files }
      let code := ending.code
      let result : CommandResult :=
        ⟨talk.rest, talk.transcript ++ talk.rest, code, invocation.plan.exchanges.length⟩
      if ending.isNamed then
        (⟨phases ++ [.drainingOutput, .exited code],
          judge command reserved invocation.expected code result⟩, link)
      else (⟨phases ++ [.drainingOutput, .failed], .error (.io .unknownSignal)⟩, link)
    | _ =>
      (⟨phases ++ [.drainingOutput, .failed],
        .error (.exitTimeout command runner.exitTimeout talk.rest)⟩, talk.link)

/-- Runs a command to its end and reaps it.  `test` names the test it runs for. -/
def run (runner : Runner) (test : String) (invocation : Invocation) (machine : Machine) :
    Run × Machine :=
  let (program, arguments, reserved) := runner.dressed test invocation
  let command := commandLine program arguments
  match machine.start program arguments invocation.environment with
  | .error error => (⟨[], .error (.spawn command (.terminal error))⟩, machine)
  | .ok (number, process, machine) =>
    let (run, link) := runner.attend command reserved invocation process machine.files
    (run, ({ machine with files := link.files }.reap number).pass link.elapsed)

end Runner

end PromptHarness
