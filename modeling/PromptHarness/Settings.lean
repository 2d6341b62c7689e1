import PromptHarness.Checker
import PromptHarness.Fault
import PromptHarness.Text.Words
import PromptHarness.Toml.Document

/-!
# Settings

Where the program under test is, which editors and which memory checker to use, and how long to
wait.  Settings come in three layers: the defaults, a TOML document, and the environment; later
layers win.  A variable that is set to the empty text counts as not set, save the one that names the
document.
-/

namespace PromptHarness

/-- What a harness is told before it begins. -/
structure Settings where
  /-- The program under test. -/
  program : Option String
  /-- A directory of editors to use instead of the built-in ones. -/
  editorDirectory : Option String
  checker : Option Checker
  /-- The directory for the logs of the memory checker. -/
  logDirectory : String
  promptTimeout : Nat
  exitTimeout : Nat
  agentTimeout : Nat
  /-- The limits on the key derivation of a new store. -/
  memoryLimit : Nat
  operationsLimit : Nat
  deriving Repr, DecidableEq

namespace Settings

def default : Settings where
  program := none
  editorDirectory := none
  checker := none
  logDirectory := "."
  promptTimeout := 10000
  exitTimeout := 30000
  agentTimeout := 5000
  memoryLimit := 16777216
  operationsLimit := 32768

/-- The program under test, which has to be set. -/
def program? (settings : Settings) : Except Fault String :=
  match settings.program with
  | some program => .ok program
  | none => .error (.settings .noProgram)

/-! ## Documents -/

def text? : Toml.Value → Option String
  | .text chars => some (String.ofList chars)
  | _ => none

/-- A number that 64 bits hold. -/
def number? : Toml.Value → Option Nat
  | .integer number => if 0 ≤ number ∧ number < Nat.pow 2 64 then some number.toNat else none
  | _ => none

def texts? : Toml.Value → Option (List String)
  | .array _ items => items.mapM text?
  | _ => none

/-- A memory checker: a table with a command and perhaps options, or an array of the two in that
order. -/
def checker? : Toml.Value → Option Checker
  | .table _ entries => do
    let command ← text? (← entries.lookup "command")
    let options ← (entries.lookup "options").elim (some []) texts?
    return ⟨command, options⟩
  | .array _ (command :: rest) => do
    let command ← text? command
    let options ← rest.head?.elim (some []) texts?
    return ⟨command, options⟩
  | _ => none

/-- Reads one entry of a document; entries of other names mean nothing. -/
def assign (settings : Settings) (key : String) (value : Toml.Value) : Option Settings :=
  match key with
  | "kp" => (text? value).map fun text => { settings with program := some text }
  | "editor_dir" => (text? value).map fun text => { settings with editorDirectory := some text }
  | "instrumentation" => (checker? value).map fun found => { settings with checker := some found }
  | "instrumentation_log_dir" =>
    (text? value).map fun text => { settings with logDirectory := text }
  | "prompt_timeout_ms" => (number? value).map fun time => { settings with promptTimeout := time }
  | "exit_timeout_ms" => (number? value).map fun time => { settings with exitTimeout := time }
  | "agent_timeout_ms" => (number? value).map fun time => { settings with agentTimeout := time }
  | "init_memlimit" => (number? value).map fun limit => { settings with memoryLimit := limit }
  | "init_opslimit" => (number? value).map fun limit => { settings with operationsLimit := limit }
  | _ => some settings

/-- The settings of a document, with the default for all that it does not give. -/
def ofDocument? (document : String) : Option Settings := do
  (← Toml.parse? document.toList).entries.foldlM
    (fun settings entry => settings.assign entry.1 entry.2) default

def ofDocument (document : String) : Except Fault Settings :=
  match ofDocument? document with
  | some settings => .ok settings
  | none => .error (.settings .malformed)

def ofFile (path : String) (content : Except FileError Bytes) : Except Fault Settings :=
  match content with
  | .error error => .error (.settings (.unreadable path (.file error)))
  | .ok bytes =>
    match Text.strict? bytes with
    | none => .error (.settings (.unreadable path .notText))
    | some document => ofDocument document

/-! ## The environment -/

/-- The value of a variable, unless it is empty. -/
def given? (environment : Environment) (name : String) : Option String :=
  (environment.value? name).filter (!·.isEmpty)

/-- The memory checker that the environment names, if any. -/
def checkerOf (environment : Environment) : Except Fault (Option Checker) :=
  match given? environment "VALGRIND_COMMAND" with
  | none => .ok none
  | some command =>
    match given? environment "VALGRIND_OPTIONS" with
    | none => .ok (some ⟨command, []⟩)
    | some options =>
      match Text.words? options with
      | some words => .ok (some ⟨command, words⟩)
      | none => .error (.settings .unsplittableOptions)

/-- What the environment says, over what the settings say. -/
def override (settings : Settings) (environment : Environment) : Except Fault Settings := do
  let checker ← checkerOf environment
  return { settings with
    program := (given? environment "KP").or settings.program
    editorDirectory := (given? environment "EDITOR_PATH").or settings.editorDirectory
    logDirectory := (given? environment "KP_HARNESS_LOG_DIR").getD settings.logDirectory
    checker := checker.or settings.checker }

/-- The settings that the environment and the document it names make.  `read` gives what a file
holds. -/
def load (read : String → Except FileError Bytes) (environment : Environment) :
    Except Fault Settings := do
  let settings ← match environment.value? "KP_HARNESS_CONFIG" with
    | some path => ofFile path (read path)
    | none => .ok default
  settings.override environment

end Settings

end PromptHarness
