import PromptHarness.Shell
import PromptHarness.Utility

/-!
# From a name to a process

A program is named by a path, or by a bare name that is searched for along `PATH`.  What a file does
when it is executed is decided by its place: some places hold programs that were put there, some the
small programs of the machine, and all other files are shell scripts.
-/

namespace PromptHarness

namespace Executable

def standardPath : String := "/bin:/usr/bin"

/-- The places of the machine's own programs. -/
def standardPlaces : List Place := [["bin"], ["usr", "bin"]]

def isProgramMode (mode : Nat) : Bool := mode &&& 0o111 != 0

/-- The place of an executable file and what the file holds. -/
def inspect (files : Files) (path : String) : Except FileError (Place × Bytes) := do
  let place ← files.locate path
  match files.find? place with
  | some (.file content mode) =>
    if isProgramMode mode then return (place, content) else throw .denied
  | some _ => throw .denied
  | none => throw .missing

/-- The first directory in which a program is found.  A file that may not be executed is passed
over, but it decides the error where there is no other; else the last directory does. -/
def search (files : Files) (program : String) : List String → FileError →
    Except FileError String
  | [], error => .error error
  | directory :: rest, error =>
    let path := Path.join directory program
    match inspect files path with
    | .ok _ => .ok path
    | .error .missing => search files program rest (if error = .denied then .denied else .missing)
    | .error .notDirectory =>
      search files program rest (if error = .denied then .denied else .notDirectory)
    | .error .denied => search files program rest .denied
    | .error other => .error other

/-- The path of the file that a program's name stands for. -/
def resolve (files : Files) (environment : Environment) (program : String) :
    Except FileError String :=
  if program.toList.contains '/' then .ok program
  else if program.isEmpty then .error .missing
  else
    let received := environment.map Environment.received
    let path := (Environment.value? received "PATH").getD standardPath
    search files program ((Text.stretches ':' path.toList).map String.ofList) .missing

/-- What the file at a place does.  A script is told the path it was found under. -/
def behaviour (installed : List (Place × Program)) (path : String) (place : Place)
    (content : Bytes) : Program :=
  match installed.lookup place with
  | some program => program
  | none =>
    match standardPlaces.contains place.dropLast, place.getLast? with
    | true, some name =>
      if name = "sh" then Shell.program
      else (Utility.all.lookup name).getD fun _ _ => Utility.succeed
    | _, _ => fun launch call =>
      Shell.script launch path (Shell.Raw.ofBytes content) call.arguments call.environment

/-- No text handed to a new process may hold a NUL. -/
def holdsNul (text : String) : Bool := text.toList.contains '\x00'

/-- How long a text handed to a new process may be, and how long all of them together, in bytes. -/
def longestText : Nat := 131071
def largestCall : Nat := 2097152

def texts (call : Call) : List String :=
  call.name :: call.arguments ++ call.environment.map fun entry => entry.1 ++ "=" ++ entry.2

/-- What a call hands over is too much.  Each text takes a byte for its end and eight for its
address. -/
def overflows (call : Call) : Bool :=
  (texts call).any (longestText < ·.utf8ByteSize) ||
    largestCall ≤ (texts call).foldl (fun sum text => sum + text.utf8ByteSize + 9) 0

/-- How many programs may start one another in a row. -/
def deepest : Nat := 64

/-- Starts programs, those installed and those of the machine; the programs started may start
others, up to some depth. -/
def launch (installed : List (Place × Program)) : Nat → Launcher
  | 0, _, _ => .error .denied
  | depth + 1, files, call => do
    if (texts call).any holdsNul then throw .nulInName
    let path ← resolve files call.environment call.name
    let (place, content) ← inspect files path
    if overflows call then throw .argumentsTooLong
    return behaviour installed path place content (launch installed depth)
      { call with environment := call.environment.map Environment.received }

end Executable

end PromptHarness
