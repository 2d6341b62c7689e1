import PromptHarness.Shell.Evaluation

/-!
# The shell

The shell as a program: it performs a text, the commands in a file, or what it is told on its input.
Whatever it performs, values of variables and arguments are data and never read as commands.
-/

namespace PromptHarness.Shell

/-- How many steps a shell may take. -/
def longestRun : Nat := 200000

/-- The variables that a shell begins with beside those that it is given. -/
def usual : List (Raw × Raw) :=
  [(raw "IFS", [' ', '\t', '\n']), (raw "OPTIND", ['1']), (raw "PS1", raw "# "),
    (raw "PS2", raw "> "), (raw "PS4", raw "+ "), (raw "PPID", raw "1"),
    (raw "PATH", raw "/usr/local/sbin:/usr/local/bin:/usr/sbin:/usr/bin:/sbin:/bin")]

/-- The scope in which a shell begins, seen from a place. -/
def Scope.start (launch : Launcher) (working : Place) (name : Raw) (arguments : List Raw)
    (environment : Environment) : Scope :=
  let begun : Scope :=
    { launch := launch
      name := name
      arguments := arguments
      known := usual.map fun entry => ⟨entry.1, some entry.2, false, false⟩
      functions := []
      aliases := []
      descriptors := [(0, .input), (1, .output), (2, .errors)]
      stores := []
      options := []
      status := 0
      wordStatus := none
      line := 0
      speaker := []
      working := working
      mask := 18
      traps := []
      arrived := []
      loops := 0
      calls := 0
      kept := []
      inner := false
      guarded := []
      doom := none
      jobs := []
      lastJob := 0
      offset := none }
  let given := environment.foldl
    (fun scope entry =>
      let name := raw entry.1
      if isName name ∧ name ≠ raw "IFS" then
        scope.put ⟨name, some (raw entry.2), true, false⟩
      else scope)
    begun
  given.put ⟨raw "PWD", some (Builtin.workingPath given), true, false⟩

def session (scope : Scope) (task : Task Unit) : Process Ending :=
  ((Task.whole task longestRun).run.run scope).bind fun outcome =>
    .finished (Task.ended outcome).1

def script (launch : Launcher) (name : String) (text : Raw) (arguments : List String)
    (environment : Environment) : Process Ending :=
  .look fun files =>
    session (.start launch files.working (raw name) (arguments.map raw) environment)
      (Task.perform false false (Source.start text) longestRun)

/-- Performs what comes on the input, one line after the other, and asks for each line.  A mistake
in one of them is no reason to stop. -/
def converse (pending : Raw) : Nat → Task Unit
  | 0 => Task.stuck
  | fuel + 1 => do
    let scope ← get
    let prompt := scope.value? (if pending.isEmpty then raw "PS1" else raw "PS2")
    Task.emit 2 (Raw.bytes (prompt.getD []))
    match ← Task.receive 0 .line with
    | none => Task.emit 2 [10]
    | some given =>
      let text := pending ++ Raw.ofBytes given
      match line.run { Source.start text with aliases := scope.aliases } with
      | .error mistake =>
        if mistake.unfinished then converse text fuel
        else
          Task.complain (raw ("Syntax error: " ++ mistake.complaint))
          Task.setStatus 2
          converse [] fuel
      | .ok (command, _) =>
        match command with
        | some command =>
          Task.forgiving false (Task.evaluate false command fuel)
          converse [] fuel
        | none => converse [] fuel

structure Usage where
  /-- The first argument is what is to be performed. -/
  immediate : Bool
  /-- What is to be performed comes on the input, whatever the arguments are. -/
  conversing : Bool
  options : List Char
  rest : List Raw

def Usage.turn (usage : Usage) (on : Bool) (options : List Char) : Usage :=
  let others := usage.options.filter fun option => !options.contains option
  { usage with options := if on then others ++ options else others }

/-- Goes through the options in front, or names the one that is none. -/
def usage (found : Usage) : Nat → List Raw → Except Raw Usage
  | 0, arguments => .ok { found with rest := arguments }
  | fuel + 1, arguments =>
    match arguments with
    | ['-'] :: rest | ['-', '-'] :: rest => .ok { found with rest := rest }
    | (sign :: letters) :: rest =>
      if (sign = '-' ∨ sign = '+') ∧ ¬letters.isEmpty then
        let on := sign = '-'
        let options := letters.filter fun letter => !(['c', 'l', 'o', 's'].contains letter)
        match options.find? fun letter => !optionLetters.contains letter with
        | some letter => .error ['-', letter]
        | none =>
          let found := { found.turn on options with
            immediate := found.immediate || letters.contains 'c'
            conversing := found.conversing || letters.contains 's' }
          match letters.contains 'o', rest with
          | true, name :: behind =>
            match Builtin.optionNames.lookup (String.ofList name) with
            | some option => usage (found.turn on [option]) fuel behind
            | none => .error (raw "-o " ++ name)
          | _, rest => usage found fuel rest
      else .ok { found with rest := arguments }
    | arguments => .ok { found with rest := arguments }

def program : Program := fun launch call =>
  .look fun files =>
    let name := raw call.name
    let refuse (complaint : Raw) : Process Ending :=
      .warn (Raw.bytes (name ++ raw ": 0: " ++ complaint ++ ['\n'])) (.finished (.exited 2))
    let start (name : Raw) (arguments : List Raw) (options : List Char) (task : Task Unit) :
        Process Ending :=
      session
        { Scope.start launch files.working name arguments call.environment with
          options := options }
        task
    let perform (text : Raw) : Task Unit := Task.perform false false (Source.start text) longestRun
    match usage ⟨false, false, [], []⟩ (call.arguments.length + 1) (call.arguments.map raw) with
    | .error option => refuse (raw "Illegal option " ++ option)
    | .ok ⟨true, _, _, []⟩ => refuse (raw "-c requires an argument")
    | .ok ⟨true, _, options, text :: rest⟩ =>
      start (rest.headD name) rest.tail options (perform text)
    | .ok ⟨false, true, options, rest⟩ => start name rest options (converse [] longestRun)
    | .ok ⟨false, false, options, []⟩ => start name [] options (converse [] longestRun)
    | .ok ⟨false, false, options, path :: rest⟩ =>
      match files.read (Raw.text path) with
      | .ok content => start path rest options (perform (Raw.ofBytes content))
      | .error .isDirectory => start path rest options (perform [])
      | .error error => refuse (Task.openRefusal .forReading path error)

end PromptHarness.Shell
