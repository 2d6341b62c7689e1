import PromptHarness.Plan

/-!
# The commands of the program under test

Each command knows the arguments it makes and the prompts it will be asked.  A password that is
generated is never asked for, and neither is one that an edit leaves alone.
-/

namespace PromptHarness

/-- The answers and the exit code that a command is given.  An answer that is absent belongs to a
prompt that is not expected, unlike an empty one. -/
structure Prompts where
  master : Option String
  password : Option String
  yesNo : Option String
  expected : Int
  deriving Repr, DecidableEq

namespace Prompts

def defaultMaster : String := "test master password"
def defaultPassword : String := "test password"

def default : Prompts := ⟨some defaultMaster, some defaultPassword, none, 0⟩

end Prompts

inductive Command where
  /-- Arguments and a plan as they are. -/
  | raw (arguments : List String) (plan : Plan)
  | init (path : Option String)
  | create (name : String)
  | edit (name : String)
  | rename (old new : String)
  | cat (name : String)
  | delete (name : String)
  | openSafe (name : String)
  | list (prefixes : List String)
  deriving Repr, DecidableEq

namespace Command

/-- The options by which a password is generated, and by which parts of a safe are chosen. -/
def generateOption : String := "-g"
def metadataOption : String := "-m"
def passwordOption : String := "-p"

def createPassword (options : List String) (prompts : Prompts) : Option String :=
  if options.contains generateOption then none else prompts.password

def editPassword (options : List String) (prompts : Prompts) : Option String :=
  let metadataOnly := options.contains metadataOption && !options.contains passwordOption
  if options.contains generateOption || metadataOnly then none else prompts.password

def plan (options : List String) (prompts : Prompts) : Command → Plan
  | raw _ plan => plan
  | init _ => .forInit prompts.master
  | create _ =>
    .forCreate prompts.master (createPassword options prompts) (options.contains generateOption)
  | edit _ =>
    .forEdit prompts.master (editPassword options prompts) (options.contains generateOption)
      prompts.yesNo
  | rename .. | cat _ | delete _ | openSafe _ => .forOpening prompts.master
  | list _ => .forListing

/-- The arguments of a command.  `limits` are those of the key derivation of a new store. -/
def arguments (options : List String) (limits : Nat × Nat) : Command → List String
  | raw arguments _ => arguments
  | init path =>
    ["init", "--memlimit", toString limits.1, "--opslimit", toString limits.2] ++ path.toList
  | create name => "create" :: options ++ [name]
  | edit name => "edit" :: options ++ [name]
  | rename old new => "rename" :: options ++ [old, new]
  | cat name => "cat" :: options ++ [name]
  | delete name => "delete" :: options ++ [name]
  | openSafe name => "open" :: options ++ [name]
  | list prefixes => "ls" :: prefixes

end Command

end PromptHarness
