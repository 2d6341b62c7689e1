import PromptHarness.Agent
import PromptHarness.Assertion
import PromptHarness.Command
import PromptHarness.Home
import PromptHarness.Settings

/-!
# Sessions

A session is all that one test needs: a home of its own, a way to run commands, at most one agent,
and the result of the last command.  Closing it kills the agent and removes the home.
-/

namespace PromptHarness

/-- A test that is going on: its settings, its home, its agent and the last result. -/
structure Session where
  settings : Settings
  /-- The program under test. -/
  program : String
  home : Home
  agent : Agent
  /-- The result of the last command, if that succeeded. -/
  last : Option CommandResult
  /-- What the test is called. -/
  test : String

namespace Session

def runner (session : Session) : Runner where
  promptTimeout := session.settings.promptTimeout
  exitTimeout := session.settings.exitTimeout
  checker := session.settings.checker
  logDirectory := session.settings.logDirectory

/-! ## Commands -/

/-- The variables that a command is given: those of the home, then what the agent announced. -/
def environment (session : Session) : Environment :=
  session.home.environment ++ (session.agent.binding?.map Binding.entry).toList

def invocation (session : Session) (command : Command) (options : List String)
    (prompts : Prompts) : Invocation where
  program := session.program
  arguments := command.arguments options
    (session.settings.memoryLimit, session.settings.operationsLimit)
  environment := session.environment
  plan := command.plan options prompts
  expected := prompts.expected

/-- Runs a command.  Its result is kept if it succeeded; otherwise no result is kept. -/
def run (session : Session) (command : Command) (options : List String) (prompts : Prompts)
    (machine : Machine) : Run × Session × Machine :=
  let (run, machine) :=
    session.runner.run session.test (session.invocation command options prompts) machine
  (run, { session with last := run.outcome.toOption }, machine)

/-- Runs a command without options and with the usual answers. -/
def runUsual (session : Session) (command : Command) (machine : Machine) : Run × Session × Machine :=
  session.run command [] .default machine

def stdout (session : Session) : String := session.last.elim "" (·.output)

def stdoutLines (session : Session) : List String := session.last.elim [] (·.lines)

/-! ## The agent -/

def startAgent (session : Session) (machine : Machine) :
    Except Fault Binding × Session × Machine :=
  let (outcome, agent, machine) := session.agent.start machine
  (outcome, { session with agent := agent }, machine)

def stopAgent (session : Session) (machine : Machine) : Except Fault Unit × Session × Machine :=
  let (outcome, agent, machine) := session.agent.stop machine
  (outcome, { session with agent := agent }, machine)

/-- Which of two outcomes counts: the first fault, or else the value. -/
def firstFault {α : Type} (outcome : Except Fault α) (ending : Except Fault Unit) :
    Except Fault α :=
  match outcome, ending with
  | .error fault, _ => .error fault
  | .ok _, .error fault => .error fault
  | .ok value, .ok () => .ok value

/-- Runs a body with an agent started for it.  The agent is stopped behind the body even if that
fails.  The body leaves a record of what it did, also where it fails; `blank` is the record of doing
nothing. -/
def withAgent {α ρ : Type} (session : Session) (machine : Machine) (blank : ρ)
    (body : Session → Machine → ρ × Except Fault α × Session × Machine) :
    ρ × Except Fault α × Session × Machine :=
  match session.startAgent machine with
  | (.error fault, session, machine) => (blank, .error fault, session, machine)
  | (.ok _, session, machine) =>
    let (record, outcome, session, machine) := body session machine
    let (stopped, session, machine) := session.stopAgent machine
    (record, firstFault outcome stopped, session, machine)

/-! ## Opening and closing -/

/-- Kills the agent, if one is running, and removes the home.  It may be done again. -/
def teardown (session : Session) (machine : Machine) : Except Fault Unit × Session × Machine :=
  let (agent, machine) := session.agent.kill machine
  let (outcome, home, files) := session.home.teardown machine.files
  (outcome, { session with agent := agent, home := home }, { machine with files := files })

/-- A session with an empty home at a root that is free. -/
def begin (settings : Settings) (root test : String) (machine : Machine) :
    Except Fault Session × Machine :=
  match settings.program? with
  | .error fault => (.error fault, machine)
  | .ok program =>
    match Home.setup root settings.editorDirectory machine.files with
    | (.error fault, files) => (.error fault, { machine with files := files })
    | (.ok home, files) =>
      let agent := { Agent.ofProgram program settings.agentTimeout with
        environment := [("HOME", home.root)] }
      (.ok ⟨settings, program, home, agent, none, test⟩, { machine with files := files })

/-- A session whose store has been made.  Where that fails the session is closed again.  The phases
are those of the command that makes the store. -/
def openStore (settings : Settings) (root test : String) (machine : Machine) :
    List Phase × Except Fault Session × Machine :=
  match begin settings root test machine with
  | (.error fault, machine) => ([], .error fault, machine)
  | (.ok session, machine) =>
    let (run, session, machine) := session.run (.init none) [] .default machine
    match run.outcome with
    | .ok _ => (run.phases, .ok session, machine)
    | .error fault => (run.phases, .error fault, (session.teardown machine).2.2)

/-- A session that takes its settings from the environment, in which some variables are set until it
has been opened. -/
def openHere (given : Environment) (root test : String) (machine : Machine) :
    List Phase × Except Fault Session × Machine :=
  let inside := { machine with environment := machine.environment ++ given }
  match Settings.load machine.files.read inside.environment with
  | .error fault => ([], .error fault, machine)
  | .ok settings =>
    let (phases, outcome, after) := openStore settings root test inside
    (phases, outcome, { after with environment := machine.environment })

/-! ## Assertions -/

/-- The smallest size that a safe that was just written has to exceed. -/
def smallestSafe : Nat := 20

/-- What a test may claim about the last result and the files. -/
inductive Assertion where
  | stdoutEquals (expected : List String)
  | stdoutContains (expected : List String)
  | outputContains (text : String)
  | noPasswordPrompt
  | safeExists (name : String)
  | safeDoesntExist (name : String)
  | safeIsBigEnough (name : String)
  | safeBiggerThan (name : String) (size : Nat)
  | clearTextExists
  | clearTextEquals (expected : List String)
  | storeExists (sub : Option String)
  deriving Repr, DecidableEq

/-- An assertion on the result of the last command, which has to be there. -/
def judgeLast (session : Session) (assertion : CommandResult → Verdict) : Verdict :=
  match session.last with
  | some result => assertion result
  | none => some "no successful command to assert on"

def judgeSize (session : Session) (name : String) (size : Nat) (files : Files) : Verdict :=
  match session.home.safeSize name files with
  | .ok actual =>
    .require (size < actual)
      ("safe " ++ name ++ " is " ++ toString actual ++ " bytes, expected more than " ++
        toString size)
  | .error fault => some ("cannot stat safe " ++ name ++ ": " ++ fault.message)

def readText (files : Files) (path : String) : Except IoFailure String :=
  match files.read path with
  | .error error => .error (.file error)
  | .ok bytes =>
    match Text.strict? bytes with
    | some text => .ok text
    | none => .error .notText

def judgeClearText (session : Session) (expected : List String) (files : Files) : Verdict :=
  let path := session.home.clearTextPath
  match readText files path with
  | .error failure => some ("cannot read " ++ path ++ ": " ++ failure.message)
  | .ok text =>
    .require (Text.lines text == expected)
      (inequality ("plaintext in " ++ path ++ " differs") ++ twoSides (Text.lines text) expected)

def assert (session : Session) (files : Files) : Assertion → Verdict
  | .stdoutEquals expected => session.judgeLast (·.assertLines expected)
  | .stdoutContains expected => session.judgeLast (·.assertLinesUnordered expected)
  | .outputContains text => session.judgeLast (·.assertContains text)
  | .noPasswordPrompt => session.judgeLast (·.assertNoPasswordPrompt)
  | .safeExists name =>
    .require (session.home.safeExists name files)
      ("safe " ++ name ++ " does not exist in " ++ session.home.store)
  | .safeDoesntExist name =>
    .require (!session.home.safeExists name files)
      ("safe " ++ name ++ " still exists in " ++ session.home.store)
  | .safeIsBigEnough name => session.judgeSize name smallestSafe files
  | .safeBiggerThan name size => session.judgeSize name size files
  | .clearTextExists =>
    .require (files.isFile session.home.clearTextPath)
      (session.home.clearTextPath ++ " does not exist")
  | .clearTextEquals expected => session.judgeClearText expected files
  | .storeExists sub =>
    let path := sub.elim session.home.store (Path.join session.home.store)
    .require (files.isDirectory path) (path ++ " is not a directory")

end Session

end PromptHarness
