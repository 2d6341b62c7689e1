import PromptHarness.Process.Basic
import PromptHarness.Shell.Pattern

/-!
# The state of a shell

What a shell knows while it performs commands, and the monad in which it does so: a task changes the
scope, has effects as a process, and may be left early.  Whatever a task writes or reads goes
through a descriptor, which is how redirections, pipelines and the output of commands inside words
all work.
-/

namespace PromptHarness.Shell

/-- Where the bytes of a descriptor go, or come from. -/
inductive Stream where
  /-- What the shell itself was started with. -/
  | input
  | output
  | errors
  /-- The end of a file. -/
  | file (place : Place)
  /-- Bytes that wait to be read. -/
  | store (number : Nat)
  | nowhere
  deriving Repr, DecidableEq

structure Variable where
  name : List Char
  value : Option (List Char)
  /-- Programs are given it. -/
  exported : Bool
  /-- It may not be changed. -/
  fixed : Bool
  deriving Repr, DecidableEq

/-- A command that goes on while the shell does other things.  It may end with a signal to the
shell. -/
structure Job where
  /-- How many jobs there have been up to this one. -/
  number : Nat
  /-- The number by which it is spoken of. -/
  slot : Nat
  process : Process (Ending × Option Nat)
  /-- The shell has found out that it has ended. -/
  noticed : Bool
  /-- The script has waited for it. -/
  awaited : Bool

structure Scope where
  launch : Launcher
  /-- What the shell was called. -/
  name : List Char
  arguments : List (List Char)
  known : List Variable
  functions : List (List Char × Command)
  /-- What stands for words at the front of commands. -/
  aliases : List (List Char × List Char)
  descriptors : List (Nat × Stream)
  /-- The bytes of the stores, by number. -/
  stores : List Bytes
  /-- The letters of the options that are on. -/
  options : List Char
  /-- The code of the last command. -/
  status : Nat
  /-- The code of the last command inside a word, once there was one. -/
  wordStatus : Option Nat
  /-- The line of the command being performed. -/
  line : Nat
  /-- The command of the shell that complaints are about, if any. -/
  speaker : List Char
  working : Place
  /-- The permissions that new files do not have. -/
  mask : Nat
  /-- What to do on a signal, where number 0 is the end of the shell; an empty text stands for
  nothing at all. -/
  traps : List (Nat × List Char)
  /-- The signals that have come and wait for what is to be done about them. -/
  arrived : List Nat
  /-- How many loops and functions the command is in. -/
  loops : Nat
  calls : Nat
  /-- The variables as they were before functions made them their own, for each function. -/
  kept : List (List Variable)
  /-- This is a copy of a shell, which that one waits for. -/
  inner : Bool
  /-- The signals about which the shell that this is a copy of has been told what to do. -/
  guarded : List Nat
  /-- A signal by which a copy has killed the shell. -/
  doom : Option Nat
  jobs : List Job
  /-- The number of the last job. -/
  lastJob : Nat
  /-- How far into an argument the options have been taken. -/
  offset : Option Nat

/-- Why a task is left before its end. -/
inductive Leave where
  /-- The shell ends with the code reached. -/
  | exit
  | killed (signal : Nat)
  /-- The function ends. -/
  | back
  /-- So many loops end. -/
  | stop (loops : Nat)
  /-- So many loops but one end, and that one goes on. -/
  | again (loops : Nat)
  /-- A mistake, which ends the shell unless it is a command's own. -/
  | failure
  deriving Repr, DecidableEq

/-- What a shell does. -/
abbrev Task := ExceptT Leave (StateT Scope Process)

/-! ## Variables and arguments -/

/-- The letters of the options of a shell. -/
def optionLetters : List Char :=
  ['e', 'f', 'I', 'i', 'm', 'n', 's', 'x', 'v', 'V', 'E', 'C', 'a', 'b', 'u', 'p']

namespace Scope

def find? (scope : Scope) (name : List Char) : Option Variable :=
  scope.known.find? (·.name = name)

def value? (scope : Scope) (name : List Char) : Option (List Char) :=
  (scope.find? name).bind (·.value)

/-- Puts a variable in place of the one of its name, or behind all others. -/
def put (scope : Scope) (entry : Variable) : Scope :=
  if (scope.find? entry.name).isSome then
    { scope with
      known := scope.known.map fun other => if other.name = entry.name then entry else other }
  else { scope with known := scope.known ++ [entry] }

/-- The number by which the shell itself is known, from which those of its jobs go on. -/
def ownNumber : Nat := 4243

/-- The characters at which the values of variables fall apart. -/
def separators (scope : Scope) : List Char :=
  (scope.value? ['I', 'F', 'S']).getD [' ', '\t', '\n']

/-- What stands between the arguments where they are put together. -/
def separator (scope : Scope) : List Char :=
  match scope.value? ['I', 'F', 'S'] with
  | some chars => chars.take 1
  | none => [' ']

/-- The value of any parameter but those for all arguments. -/
def parameter? (scope : Scope) (name : List Char) : Option (List Char) :=
  let decimal (number : Nat) := (toString number).toList
  match name with
  | ['?'] => some (decimal scope.status)
  | ['#'] => some (decimal scope.arguments.length)
  | ['$'] => some (decimal ownNumber)
  | ['!'] => if scope.lastJob = 0 then none else some (decimal (ownNumber + scope.lastJob))
  | ['-'] => some (optionLetters.reverse.filter scope.options.contains)
  | name =>
    if name.all Char.isDigit then
      match (String.ofList name).toNat? with
      | some (index + 1) => scope.arguments[index]?
      | _ => some scope.name
    else scope.value? name

/-- The drawer that a variable of some name is kept in. -/
def drawer (name : List Char) : Nat :=
  name.foldl (fun sum char => sum + char.toNat) ((name.headD '\x00').toNat * 16) % 39

def environment (scope : Scope) : Environment :=
  let kept := scope.known.mergeSort fun left right => drawer left.name ≤ drawer right.name
  kept.filterMap fun entry =>
    if entry.exported then
      entry.value.map fun value => (Raw.text entry.name, Raw.text value)
    else none

/-- The files with paths beginning where the shell is. -/
def seen (scope : Scope) (files : Files) : Files := { files with working := scope.working }

def isOn (scope : Scope) (option : Char) : Bool := scope.options.contains option

end Scope

namespace Task

/-! ## Writing and reading -/

/-- Puts bytes behind those that a store holds. -/
def fill (stores : List Bytes) (number : Nat) (given : Bytes) : List Bytes :=
  stores.set number (stores.getD number [] ++ given)

def emit (descriptor : Nat) (given : Bytes) : Task Unit := do
  if given.isEmpty then return
  let scope ← get
  match scope.descriptors.lookup descriptor with
  | some .output | some .input => Process.say given
  | some .errors => Process.complain given
  | some (.file place) => Process.alter fun files => files.append place given
  | some (.store number) => set { scope with stores := fill scope.stores number given }
  | some .nowhere | none => return

/-- The front of some bytes, up to the end of a line. -/
def firstLine (given : Bytes) : Bytes :=
  given.takeWhile (· != 10) ++ (given.dropWhile (· != 10)).take 1

/-- Reads from a descriptor; nothing where there is no more. -/
def receive (descriptor : Nat) (portion : Portion) : Task (Option Bytes) := do
  let scope ← get
  match scope.descriptors.lookup descriptor with
  | some .input | some .output | some .errors => Process.read portion
  | some (.store number) =>
    let waiting := scope.stores.getD number []
    if waiting.isEmpty then return none
    let taken := match portion with
      | .piece => waiting
      | .line => firstLine waiting
    set { scope with stores := scope.stores.set number (waiting.drop taken.length) }
    return some taken
  | some (.file _) | some .nowhere | none => return none

/-- A descriptor's new store, which holds some bytes. -/
def store (given : Bytes) : Task Stream := do
  let scope ← get
  set { scope with stores := scope.stores ++ [given] }
  return .store scope.stores.length

/-- Makes a descriptor go somewhere, or nowhere at all. -/
def connect (descriptor : Nat) (stream : Option Stream) : Task Unit :=
  modify fun scope =>
    { scope with
      descriptors := (stream.map (descriptor, ·)).toList ++
        scope.descriptors.filter (·.1 ≠ descriptor) }

def files : Task Files := do
  let held ← (Process.files : Process Files)
  return (← get).seen held

/-- Changes the files, seen from where the shell is. -/
def alter (effect : Files → Files) : Task Unit := do
  let scope ← get
  Process.alter fun files => { effect (scope.seen files) with working := files.working }

/-! ## Mistakes -/

/-- A complaint with the name of the shell, the line and the command that it is about. -/
def remark (scope : Scope) (complaint : List Char) : List Char :=
  scope.name ++ raw ": " ++ (toString scope.line).toList ++ raw ": " ++
    (if scope.speaker.isEmpty then [] else scope.speaker ++ raw ": ") ++ complaint ++ ['\n']

def complain (complaint : List Char) : Task Unit := do
  emit 2 (Raw.bytes (remark (← get) complaint))

def setStatus (status : Nat) : Task Unit := modify fun scope => { scope with status := status }

/-- A mistake that leaves the command with a complaint and a code. -/
def failWith {α : Type} (status : Nat) (complaint : List Char) : Task α := do
  complain complaint
  setStatus status
  throw .failure

def fail {α : Type} (complaint : List Char) : Task α := failWith 2 complaint

def assign (name value : List Char) : Task Unit := do
  if name = raw "OPTIND" then modify fun scope => { scope with offset := none }
  let scope ← get
  match scope.find? name with
  | some entry =>
    if entry.fixed then fail (name ++ raw ": is read only")
    else set (scope.put { entry with value := some value })
  | none => set (scope.put ⟨name, some value, scope.isOn 'a', false⟩)

end Task

end PromptHarness.Shell
