import PromptHarness.Process.Executable

/-!
# The machine

Where the harness runs: the files, the programs put there, the variables that every process
inherits, and the processes that have been started and not yet reaped.  Starting a process adds
exactly one child, and reaping it takes that child away again.  A sleep of the harness lasts at
least as long as was asked for, and it is up to the machine how much longer.
-/

namespace PromptHarness

/-- A process that has been started and whose output nobody takes. -/
structure Child where
  process : Process Ending
  signals : Signals
  /-- How many bytes it can still write before it has to wait. -/
  room : Nat

/-- Lets a process that has no input go on for some time.  A write that does not fit stays where it
is. -/
def Process.elapse : Process Ending → Nat → Signals → Nat → Files → Child × Files
  | .finished ending, _, signals, room, files => (⟨.finished ending, signals, room⟩, files)
  | .print bytes next, time, signals, room, files =>
    if bytes.length ≤ room then next.elapse time signals (room - bytes.length) files
    else (⟨.print (bytes.drop room) next, signals, 0⟩, files)
  | .warn _ next, time, signals, room, files => next.elapse time signals room files
  | .ask _ next, time, signals, room, files => (next none).elapse time signals room files
  | .pause span next, time, signals, room, files =>
    if span ≤ time then next.elapse (time - span) signals room files
    else (⟨.pause (span - time) next, signals, room⟩, files)
  | .hangUp next, time, signals, room, files => next.elapse time signals room files
  | .arrange signal arrangement next, time, signals, room, files =>
    next.elapse time (signals.arrange signal arrangement) room files
  | .collect next, time, signals, room, files =>
    (next signals.waiting).elapse time signals.emptied room files
  | .change effect next, time, signals, room, files => next.elapse time signals room (effect files)
  | .look next, time, signals, room, files => (next files).elapse time signals room files

def Child.elapse (child : Child) (time : Nat) (files : Files) : Child × Files :=
  child.process.elapse time child.signals child.room files

def Child.ending? (child : Child) : Option Ending :=
  match child.process with
  | .finished ending => some ending
  | _ => none

/-- The files, the programs and the processes of a machine, and how exact its clock is. -/
structure Machine where
  files : Files
  installed : List (Place × Program)
  /-- The variables that a process has unless it is given others. -/
  environment : Environment
  /-- The processes that have been started and not reaped, by number. -/
  children : List (Nat × Child)
  nextNumber : Nat
  /-- By how many milliseconds the next sleeps of the harness outlast what was asked for. -/
  lateness : Nat → Nat := fun _ => 1

namespace Machine

def pipeRoom : Nat := 65536

/-- All installed programs behave alike from here on. -/
def equip (machine : Machine) (program : Program) : Machine :=
  { machine with installed := machine.installed.map fun entry => (entry.1, program) }

/-- Starts a program with the variables of the machine and those given, which count before them.
What comes back is the number of the new process, the process, and the machine with it. -/
def start (machine : Machine) (program : String) (arguments : List String)
    (given : Environment) : Except FileError (Nat × Process Ending × Machine) := do
  let process ← Executable.launch machine.installed Executable.deepest machine.files
    ⟨program, arguments, machine.environment ++ given⟩
  return (machine.nextNumber, process,
    { machine with
      children := (machine.nextNumber, ⟨process, .fresh, pipeRoom⟩) :: machine.children
      nextNumber := machine.nextNumber + 1 })

def child? (machine : Machine) (number : Nat) : Option Child :=
  machine.children.lookup number

def reap (machine : Machine) (number : Nat) : Machine :=
  { machine with children := machine.children.filter (·.1 != number) }

def update (machine : Machine) (number : Nat) (child : Child) : Machine :=
  { machine with
    children := machine.children.map fun entry =>
      if entry.1 = number then (number, child) else entry }

def advance (machine : Machine) (number time : Nat) : Machine :=
  match machine.child? number with
  | some child =>
    let (child, files) := child.elapse time machine.files
    { machine.update number child with files := files }
  | none => machine

/-- Lets all processes go on for some time. -/
def pass (machine : Machine) (time : Nat) : Machine :=
  machine.children.foldl (fun machine entry => machine.advance entry.1 time) machine

end Machine

end PromptHarness
