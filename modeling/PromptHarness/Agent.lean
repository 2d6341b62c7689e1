import PromptHarness.Announcement
import PromptHarness.Machine
import PromptHarness.Process.Link

/-!
# The agent

An agent is a process that lives on beside the commands.  At most one runs at a time.  It is started
with its output on a pipe and is running once its first line has been read as an announcement; from
then on nobody reads the pipe.  It is forgotten, and its process reaped, as soon as it is stopped or
killed, whatever comes of that.
-/

namespace PromptHarness

/-- An agent that has announced itself. -/
structure RunningAgent where
  /-- The number of its process. -/
  number : Nat
  binding : Binding
  deriving Repr, DecidableEq

/-- What starts and stops agents. -/
structure Agent where
  program : String
  arguments : List String
  environment : Environment
  /-- The longest wait for an announcement, and for the end of an agent that was told to stop. -/
  timeout : Nat
  running : Option RunningAgent

namespace Agent

def usualArguments : List String := ["agent", "-d"]

def ofProgram (program : String) (timeout : Nat) : Agent :=
  ⟨program, usualArguments, [], timeout, none⟩

def binding? (agent : Agent) : Option Binding := agent.running.map (·.binding)

def isRunning (agent : Agent) : Bool := agent.running.isSome

def number? (agent : Agent) : Option Nat := agent.running.map (·.number)

/-- The bytes up to the first newline, that included, or all of them. -/
def firstLine (bytes : Bytes) : Bytes :=
  match Text.cut? [Terminal.newline] bytes with
  | some (before, _) => before ++ [Terminal.newline]
  | none => bytes

/-- How many bytes are taken out of a pipe at a time. -/
def bufferSize : Nat := 8192

/-- What is left in the pipe once the first line of it has been read. -/
def leftover (bytes : Bytes) : Bytes :=
  bytes.drop (((firstLine bytes).length + bufferSize - 1) / bufferSize * bufferSize)

/-- The announcement in what an agent wrote before the wait for it ended. -/
def announcement (halt : Halt) (timeout : Nat) (bytes : Bytes) : Except Fault Binding :=
  match halt with
  | .late => .error (.agentAnnouncement (.late timeout))
  | _ =>
    let line := firstLine bytes
    if line.isEmpty then .error (.agentAnnouncement .silent)
    else match Text.strict? line with
      | none => .error (.io .notText)
      | some text => (Binding.parse text).mapError .agentAnnouncement

/-- Starts an agent and waits for its announcement.  An agent that does not announce itself is
killed and reaped. -/
def start (agent : Agent) (machine : Machine) :
    Except Fault Binding × Agent × Machine :=
  match agent.running with
  | some running => (.error (.agentAlreadyRunning running.binding.key), agent, machine)
  | none =>
    let command := agent.program ++ " " ++ " ".intercalate agent.arguments
    match machine.start agent.program agent.arguments agent.environment with
    | .error error => (.error (.spawn command (.pipe error)), agent, machine)
    | .ok (number, process, machine) =>
      let (halt, process, link) := (Link.start .pipe machine.files).await
        (Text.holds [Terminal.newline]) agent.timeout process
      let machine := { machine with files := link.files }
      match announcement halt agent.timeout link.unread with
      | .error fault => (.error fault, agent, machine.reap number)
      | .ok binding =>
        (.ok binding, { agent with running := some ⟨number, binding⟩ },
          (machine.update number
            ⟨.print (leftover link.unread) process, link.signals, Machine.pipeRoom⟩).advance
            number 0)

def terminationSignal : Nat := 15

def told (child : Child) : Child :=
  if child.signals.isDeadly terminationSignal then
    { child with process := .finished (.signaled terminationSignal) }
  else { child with signals := child.signals.send terminationSignal }

/-- How long a process that was asked to terminate is to be left alone between two looks at it. -/
def pollInterval : Nat := 20

/-- Looks at a process again and again, until it has ended or a look finds no time left.  The sleeps
in between are as late as `lateness` has it; what that says of later sleeps comes back. -/
def watch (time : Nat) (lateness : Nat → Nat) (child : Child) (files : Files) :
    Option Ending × (Nat → Nat) × Files :=
  match child.ending? with
  | some ending => (some ending, lateness, files)
  | none =>
    if time = 0 then (none, lateness, files)
    else
      let nap := pollInterval + lateness 0
      let (child, files) := child.elapse nap files
      watch (time - nap) (fun later => lateness (later + 1)) child files
termination_by time
decreasing_by
  simp only [pollInterval]
  omega

/-- Stops the agent.  It has to be alive still, and to end within the timeout once it has been asked
to; in any case it is forgotten and its process is gone.  Where none is running nothing happens. -/
def stop (agent : Agent) (machine : Machine) : Except Fault Unit × Agent × Machine :=
  match agent.running with
  | none => (.ok (), agent, machine)
  | some running =>
    let stopped := { agent with running := none }
    match (machine.advance running.number 0).child? running.number with
    | none => (.ok (), stopped, machine)
    | some child =>
      let machine := machine.advance running.number 0
      match child.ending? with
      | some ending =>
        (.error (.agentLiveness (.died ending)), stopped, machine.reap running.number)
      | none =>
        let (ending, lateness, files) :=
          watch agent.timeout machine.lateness (told child) machine.files
        let machine := { machine with files := files, lateness := lateness }.reap running.number
        match ending with
        | some _ => (.ok (), stopped, machine)
        | none => (.error (.agentLiveness (.survived agent.timeout)), stopped, machine)

def kill (agent : Agent) (machine : Machine) : Agent × Machine :=
  match agent.running with
  | none => (agent, machine)
  | some running => ({ agent with running := none }, machine.reap running.number)

/-- What becomes of the processes once the agent is let go of for good: one that is still alive is
killed, and it is reaped in any case. -/
def release (agent : Agent) (machine : Machine) : Machine :=
  match agent.running with
  | none => machine
  | some running => (machine.advance running.number 0).reap running.number

def waitDead (agent : Agent) (machine : Machine) : Machine :=
  match agent.running with
  | none => machine
  | some running =>
    match machine.child? running.number with
    | none => machine
    | some child =>
      machine.pass (child.process.lifetime child.signals.waiting machine.files)

end Agent

end PromptHarness
