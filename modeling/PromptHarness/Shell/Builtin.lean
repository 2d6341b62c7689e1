import PromptHarness.Shell.Builtin.Setting
import PromptHarness.Shell.Builtin.Signal

/-!
# The commands of the shell itself

The commands that a shell performs without starting a program, by name, except those that perform
other commands.
-/

namespace PromptHarness.Shell.Builtin

/-! ## Leaving -/

/-- The code that an argument asks for, or else the last one. -/
def codeOf (arguments : List Raw) : Task Nat := do
  match arguments with
  | [] => return (← get).status
  | first :: _ => return (← numberOf first) % 256

def leaveShell : Builtin := fun arguments => do
  Task.setStatus (← codeOf arguments)
  throw .exit

def leaveFunction : Builtin := fun arguments => do
  Task.setStatus (← codeOf arguments)
  throw .back

/-- Leaves some of the loops around. -/
def leaveLoops (leave : Nat → Leave) : Builtin := fun arguments => do
  let wanted ← match arguments with
    | [] => pure 1
    | first :: _ => numberOf first
  if wanted = 0 then Task.fail (raw "Illegal number: " ++ arguments.headD [])
  let loops := min wanted (← get).loops
  if loops = 0 then return 0
  Task.setStatus 0
  throw (leave loops)

/-! ## Programs and time -/

def hash : Builtin := fun arguments => do
  let (_, names) ← optionsOf "rv" "" arguments
  let files ← Task.files
  let scope ← get
  let codes ← names.mapM fun name => do
    if (Task.locate scope files name).isSome ∨ name.contains '/' then return 0
    Task.complain (name ++ raw ": not found")
    return 1
  return codes.foldl max 0

def times : Builtin := fun _ =>
  say (raw "0m0.000000s 0m0.000000s\n0m0.000000s 0m0.000000s\n")

def ulimit : Builtin := fun arguments => do
  let _ ← optionsOf "HSatfdscmlpnvwr" "" arguments
  say (raw "unlimited\n")

/-! ## All of them -/

def idle (code : Nat) : Builtin := fun _ => return code

def all : List (String × Builtin) :=
  [(":", idle 0), ("true", idle 0), ("false", idle 1), ("echo", echo), ("printf", printf),
    ("test", test), ("[", bracket), ("read", read), ("export", exportNames),
    ("readonly", readonly), ("local", localNames), ("unset", unset), ("shift", shift),
    ("set", setOptions), ("getopts", getopts), ("alias", setAliases), ("unalias", dropAliases),
    ("cd", cd), ("pwd", pwd), ("umask", umask), ("kill", kill), ("trap", trap), ("jobs", jobs),
    ("fg", moveJob), ("bg", moveJob), ("wait", wait), ("exit", leaveShell),
    ("return", leaveFunction), ("break", leaveLoops .stop), ("continue", leaveLoops .again),
    ("hash", hash), ("times", times), ("ulimit", ulimit)]

end PromptHarness.Shell.Builtin
