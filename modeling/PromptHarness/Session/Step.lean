import PromptHarness.Session

/-!
# Steps of a session

What a test does with its session, one step after the other.  Steps may be bracketed by an agent of
their own; inside such a bracket the first command that fails ends the bracket, while outside every
step is performed.
-/

namespace PromptHarness

namespace Session

/-- One step.  `child` is what the program under test does in it. -/
inductive Step where
  | command (child : Program) (command : Command) (options : List String) (prompts : Prompts)
  | selectEditor (editor : Editor) (payload : Option String)
  | startAgent (child : Program)
  | stopAgent
  | waitDead
  | teardown
  | withAgent (child : Program) (steps : List Step)
  | assert (assertion : Assertion)
  | showLast
  | showSettings
  | showEnvironment
  | showTree
  | showAgent

inductive Report where
  | ran (run : Run)
  | done
  | started (outcome : Except Fault Binding)
  | stopped (outcome : Except Fault Unit)
  | toreDown (outcome : Except Fault Unit)
  /-- How a bracket ended, the reports from inside it, and the agent behind it. -/
  | bracketed (outcome : Except Fault Nat) (inner : List Report) (agent : Agent)
  | judged (verdict : Verdict)
  | last (result : Option CommandResult)
  | settings (settings : Settings)
  | environment (entries : Environment)
  /-- Whether the home is there, and what is in it. -/
  | tree (present : Bool) (lines : List String)
  | agent (agent : Agent)

def Report.commandFault? : Report → Option Fault
  | .ran run =>
    match run.outcome with
    | .error fault => some fault
    | .ok _ => none
  | _ => none

/-- The home without the editors in it. -/
def tree (session : Session) (files : Files) : Bool × List String :=
  let root := session.home.root
  let hidden := Home.editorsName ++ "/"
  (files.isDirectory root,
    (files.listing (files.placeOf root)).filter (!hidden.toList.isPrefixOf ·.toList))

mutual

def perform : Step → Session → Machine → Report × Session × Machine
  | .command child command options prompts, session, machine =>
    let (run, session, machine) := session.run command options prompts (machine.equip child)
    (.ran run, session, machine)
  | .selectEditor editor payload, session, machine =>
    (.done, { session with home := session.home.selectEditor editor payload }, machine)
  | .startAgent child, session, machine =>
    let (outcome, session, machine) := session.startAgent (machine.equip child)
    (.started outcome, session, machine)
  | .stopAgent, session, machine =>
    let (outcome, session, machine) := session.stopAgent machine
    (.stopped outcome, session, machine)
  | .waitDead, session, machine => (.done, session, session.agent.waitDead machine)
  | .teardown, session, machine =>
    let (outcome, session, machine) := session.teardown machine
    (.toreDown outcome, session, machine)
  | .withAgent child steps, session, machine =>
    let (inner, outcome, session, machine) :=
      session.withAgent (machine.equip child) [] fun session machine =>
        performInside steps session machine
    (.bracketed outcome inner session.agent, session, machine)
  | .assert assertion, session, machine =>
    (.judged (session.assert machine.files assertion), session, machine)
  | .showLast, session, machine => (.last session.last, session, machine)
  | .showSettings, session, machine => (.settings session.settings, session, machine)
  | .showEnvironment, session, machine =>
    (.environment session.home.environment, session, machine)
  | .showTree, session, machine =>
    let (present, lines) := session.tree machine.files
    (.tree present lines, session, machine)
  | .showAgent, session, machine => (.agent session.agent, session, machine)

/-- Performs steps until a command fails; gives the reports in front of that, and how many steps
there were if none failed. -/
def performInside : List Step → Session → Machine →
    List Report × Except Fault Nat × Session × Machine
  | [], session, machine => ([], .ok 0, session, machine)
  | step :: rest, session, machine =>
    let (report, session, machine) := perform step session machine
    match report.commandFault? with
    | some fault => ([], .error fault, session, machine)
    | none =>
      let (reports, outcome, session, machine) := performInside rest session machine
      (report :: reports, outcome.map (· + 1), session, machine)

end

def performAll : List Step → Session → Machine → List Report × Session × Machine
  | [], session, machine => ([], session, machine)
  | step :: rest, session, machine =>
    let (report, session, machine) := perform step session machine
    let (reports, session, machine) := performAll rest session machine
    (report :: reports, session, machine)

end Session

end PromptHarness
