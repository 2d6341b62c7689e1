import PromptHarness.Shell.Builtin
import PromptHarness.Shell.Expansion
import PromptHarness.Shell.Script

/-!
# Performing commands

What commands do.  A loop may go on for ever, so performing is bounded by a number of steps, and a
shell that has used them up stands still.  Subshells, the stages of pipelines and commands inside
words work on a copy of the scope, of which only what they wrote and how they ended comes back.
-/

namespace PromptHarness.Shell

namespace Task

/-! ## Around commands -/

/-- Restores part of the scope, however the task is left. -/
def restoring {α : Type} (restore : Scope → Scope) (task : Task α) : Task α :=
  tryCatch
    (do
      let value ← task
      modify restore
      return value)
    fun leave => do
      modify restore
      throw leave

def stuck {α : Type} : Task α := do
  Process.wait standstillTime
  throw .exit

/-- How many functions may be within one another. -/
def deepestCall : Nat := 1000

/-- The scope in which a copy of the shell begins. -/
def copied (scope : Scope) : Scope :=
  { scope with
    inner := true
    guarded := if scope.inner then scope.guarded else scope.traps.map (·.1)
    jobs := []
    traps := scope.traps.filter (·.2.isEmpty) }

/-- How a copy of the shell ended, and the signal that it has sent to the shell. -/
def ended (outcome : Except Leave Unit × Scope) : Ending × Option Nat :=
  match outcome with
  | (.error (.killed signal), scope) => (.signaled signal, scope.doom)
  | (_, scope) => (.exited scope.status, scope.doom)

/-- The scope after a copy of the shell has ended. -/
def rejoined (before after : Scope) : Scope :=
  { before with stores := after.stores, status := after.status, doom := after.doom }

/-- Ends the shell after a command that failed, where that is asked for. -/
def checkFailure (tested : Bool) : Task Unit := do
  let scope ← get
  if !tested ∧ scope.status ≠ 0 ∧ scope.isOn 'e' then throw .exit

/-- One round of a loop, which tells whether there may be another. -/
def round (task : Task Bool) : Task Bool :=
  tryCatch task fun
    | .stop 1 => return false
    | .stop (loops + 1) => throw (.stop loops)
    | .again 1 => return true
    | .again (loops + 1) => throw (.again loops)
    | leave => throw leave

/-- Performs a task as the loop around its rounds. -/
def asLoop (task : Task Unit) : Task Unit := do
  let loops := (← get).loops
  modify fun scope => { scope with loops := loops + 1 }
  restoring (fun scope => { scope with loops := loops }) task

def trace (settings : List (Raw × Raw)) (fields : List Raw) : Task Unit := do
  let scope ← get
  if scope.isOn 'x' then
    let words := (settings.map fun entry => entry.1 ++ '=' :: entry.2) ++ fields
    let mark := (scope.value? (raw "PS4")).getD (raw "+ ")
    emit 2 (Raw.bytes (mark ++ [' '].intercalate words ++ ['\n']))

/-- Traces a command to where complaints went before it was redirected. -/
def traced (descriptors : List (Nat × Stream)) (values : List (Raw × Raw)) (fields : List Raw) :
    Task Unit := do
  let current := (← get).descriptors
  modify fun scope => { scope with descriptors := descriptors }
  trace values fields
  modify fun scope => { scope with descriptors := current }

/-! ## Descriptors -/

/-- What has to be said where a file cannot be opened. -/
def openRefusal (opening : Opening) (name : Raw) (error : FileError) : Raw :=
  let absent := error = .missing ∨ error = .notDirectory
  if opening = .forReading then
    raw "cannot open " ++ name ++ raw (": " ++ if absent then "No such file" else error.description)
  else
    raw "cannot create " ++ name ++
      raw (": " ++ if absent then "Directory nonexistent" else error.description)

/-- The stream of a file that is opened for a descriptor. -/
def openFile (opening : Opening) (name : Raw) : Task (Except FileError Stream) := do
  let files ← files
  let scope ← get
  let path := Raw.text name
  if name = raw "/dev/tty" then return .ok .output
  if name = raw "/dev/stdin" then return .ok ((scope.descriptors.lookup 0).getD .nowhere)
  if name = raw "/dev/stdout" then return .ok ((scope.descriptors.lookup 1).getD .nowhere)
  if name = raw "/dev/stderr" then return .ok ((scope.descriptors.lookup 2).getD .nowhere)
  match opening, files.stat path with
  | _, .ok .sink => return .ok .nowhere
  | .forReading, .ok (.file content _) => return .ok (← store content)
  | .forReading, .ok .directory => return .ok (← store [])
  | .forReading, .error error => return .error error
  | .forBoth, .ok (.file content _) => return .ok (← store content)
  | .forAppending, .ok (.file ..) => return .ok (.file (files.placeOf path))
  | .forWriting, .ok (.file ..) =>
    if scope.isOn 'C' then return .error .alreadyThere
    alter fun files => (files.put path [] Files.plainMode).toOption.getD files
    return .ok (.file (files.placeOf path))
  | _, _ =>
    match files.put path [] Files.plainMode with
    | .error error => return .error error
    | .ok _ =>
      alter fun files => (files.put path [] Files.plainMode).toOption.getD files
      return .ok (.file (files.placeOf path))

/-- Does what a redirection says once its word is known; whether that was possible. -/
def redirectTo (redirection : Redirection) (word : Raw) : Task Bool := do
  match redirection with
  | .file descriptor opening _ =>
    match ← openFile opening word with
    | .ok stream =>
      connect descriptor (some stream)
      return true
    | .error error =>
      complain (openRefusal opening word error)
      setStatus 2
      return false
  | .copy descriptor _ =>
    match word with
    | ['-'] =>
      connect descriptor none
      return true
    | [digit] =>
      if !digit.isDigit then fail (raw "Syntax error: Bad fd number")
      match (← get).descriptors.lookup (digit.toNat - '0'.toNat) with
      | some stream =>
        connect descriptor (some stream)
        return true
      | none =>
        complain (digit :: raw ": Bad file descriptor")
        setStatus 2
        return false
    | _ => fail (raw "Syntax error: Bad fd number")
  | .document descriptor _ =>
    let stream ← store word.bytes
    connect descriptor (some stream)
    return true

def wordOf : Redirection → Word
  | .file _ _ name => name
  | .copy _ source => source
  | .document _ content => content

/-! ## What a name stands for -/

def governing : List String := [".", "command", "eval", "exec", "type"]

def isBuiltin (name : Raw) : Bool :=
  governing.contains (String.ofList name) || (Builtin.all.lookup (String.ofList name)).isSome

def isSpecialName (name : Raw) : Bool := specialNames.contains (String.ofList name)

/-- Says what a name stands for, at length or shortly. -/
def describe (long : Bool) (name : Raw) : Task Nat := do
  let scope ← get
  let files ← files
  let tell (description : String) : Task Nat :=
    Builtin.say (if long then name ++ raw (" is " ++ description ++ "\n") else name ++ ['\n'])
  if (Mark.keyword? name).isSome then tell "a shell keyword"
  else if isSpecialName name ∧ isBuiltin name then
    tell "a special shell builtin"
  else if (scope.functions.lookup name).isSome then tell "a shell function"
  else if isBuiltin name then tell "a shell builtin"
  else match locate scope files name with
    | some path =>
      Builtin.say (if long then name ++ raw " is " ++ path ++ ['\n'] else path ++ ['\n'])
    | none =>
      if long then
        let _ ← Builtin.say (name ++ raw ": not found\n")
      return 127

/-- The file that commands are read from. -/
def sourceFile (name : Raw) : Task (Raw × Raw) := do
  let scope ← get
  let files ← files
  match (if name.contains '/' then some name else locate scope files name) with
  | none => fail (name ++ raw ": not found")
  | some path =>
    match files.read (Raw.text path) with
    | .ok content => return (path, Raw.ofBytes content)
    | .error error => fail (openRefusal .forReading path error)

/-- Puts the variables back that a function had made its own. -/
def returned (before : Scope) (scope : Scope) : Scope :=
  let own := scope.kept.headD []
  { own.foldl Scope.put scope with
    arguments := before.arguments
    calls := before.calls
    loops := before.loops
    kept := before.kept }

/-- The variables of some names as they are. -/
def entries (names : List Raw) (scope : Scope) : List Variable :=
  names.map fun name => (scope.find? name).getD ⟨name, none, false, false⟩

/-- Performs a command of the shell itself, of which complaints are then about. -/
def asSpeaker {α : Type} (name : Raw) (task : Task α) : Task α := do
  let speaker := (← get).speaker
  modify fun scope => { scope with speaker := name }
  restoring (fun scope => { scope with speaker := speaker }) task

/-- A mistake of a command is its own, unless the command is special. -/
def forgiving (special : Bool) (task : Task Unit) : Task Unit :=
  tryCatch task fun
    | .failure => if special then throw .failure else return
    | leave => throw leave

/-! ## Performing -/

mutual

def perform (tested begun : Bool) (source : Source) : Nat → Task Unit
  | 0 => stuck
  | fuel + 1 => do
    match line.run { source with aliases := (← get).aliases } with
    | .error mistake =>
      modify fun scope => { scope with line := mistake.line }
      fail (raw ("Syntax error: " ++ mistake.complaint))
    | .ok (some command, rest) =>
      evaluate tested command fuel
      perform tested true rest fuel
    | .ok (none, rest) =>
      match rest.held with
      | some (.mark .ending) => if !begun then setStatus 0
      | _ => perform tested begun rest fuel

/-- Does what is to be done about the signals that have come. -/
def attend : Nat → Task Unit
  | 0 => stuck
  | fuel + 1 => do
    gather
    let scope ← get
    match scope.doom, scope.inner, scope.arrived with
    | some signal, false, _ =>
      set { scope with doom := none }
      receiveSignal signal
      attend fuel
    | _, _, [] => return
    | _, _, signal :: rest =>
      set { scope with arrived := rest }
      perform false true (Source.start ((scope.traps.lookup signal).getD [])) fuel
      setStatus scope.status
      attend fuel

/-- Does what is to be done at the end of the shell. -/
def finish : Nat → Task Unit
  | 0 => stuck
  | fuel + 1 => do
    let scope ← get
    match scope.traps.lookup 0 with
    | some action =>
      set { scope with traps := scope.traps.filter (·.1 ≠ 0) }
      perform false true (Source.start action) fuel
      setStatus scope.status
    | none => return

/-- Performs a task as a whole shell; how it ends is its code. -/
def whole (task : Task Unit) : Nat → Task Unit
  | 0 => stuck
  | fuel + 1 => do
    let ended ← tryCatch
      (do
        task
        return none)
      fun
        | .killed signal => return some signal
        | _ => return none
    match ended with
    | some signal => throw (.killed signal)
    | none =>
      tryCatch (finish fuel) fun
        | .killed signal => throw (.killed signal)
        | _ => return

def enclosed (tested : Bool) (command : Command) : Nat → Task Unit
  | 0 => stuck
  | fuel + 1 => do
    forget
    let before ← get
    set (copied before)
    tryCatch (whole (evaluate tested command fuel) fuel) fun
      | .killed signal => do setStatus (← statusOf (.signaled signal))
      | _ => return
    modify (rejoined before)
    notice

def capture (command : Command) : Nat → Task Raw
  | 0 => stuck
  | fuel + 1 => do
    let before ← get
    let stream ← store []
    connect 1 (some stream)
    enclosed false command fuel
    let after ← get
    let number := before.stores.length
    set
      { after with
        descriptors := before.descriptors
        stores := after.stores.set number []
        wordStatus := some after.status
        status := before.status }
    return Raw.ofBytes (after.stores.getD number [])

/-- The fields that words become; what is declared stays whole. -/
def fieldsOf (words : List Word) : Nat → Task (List Raw)
  | 0 => stuck
  | fuel + 1 => do
    let run (command : Command) : Task Raw := capture command fuel
    let declares : Bool := match words.head?.bind plain? with
      | some name => ["export", "readonly", "local"].contains (String.ofList name)
      | none => false
    let found ← words.mapM fun word => do
      if declares ∧ (assignment? word).isSome then
        return [unquoted (← expandWhole run true word)]
      else expand run word
    return found.flatten

def assignAll (settings : List (Raw × Word)) : Nat → Task (List (Raw × Raw))
  | 0 => stuck
  | fuel + 1 => settings.mapM fun entry => do
    let value := unquoted (← expandWhole (fun command => capture command fuel) true entry.2)
    assign entry.1 value
    return (entry.1, value)

/-- Redirects in order, up to the first redirection that is not possible. -/
def redirect : List Redirection → Nat → Task Bool
  | _, 0 => stuck
  | redirections, fuel + 1 => do
    match redirections with
    | [] => return true
    | first :: rest =>
      let found ← expandWhole (fun command => capture command fuel) false (wordOf first)
      if ← redirectTo first (unquoted found) then redirect rest fuel else return false

/-- Performs a command that is no special case of words. -/
def evaluate (tested : Bool) (command : Command) : Nat → Task Unit
  | 0 => stuck
  | fuel + 1 => do
    if (← get).isOn 'n' then return
    match command with
    | .nothing => setStatus 0
    | .simple line settings words redirections =>
      modify fun scope => { scope with line := line }
      simple tested settings words redirections fuel
      attend fuel
      checkFailure tested
    | .define name body =>
      modify fun scope =>
        { scope with
          functions := (name, body) :: scope.functions.filter (·.1 ≠ name)
          status := 0 }
    | .pipeline stages =>
      let descriptors := (← get).descriptors
      restoring (fun scope => { scope with descriptors := descriptors })
        (pipeline stages (descriptors.lookup 0) descriptors fuel)
      attend fuel
      checkFailure tested
    | .negation body =>
      evaluate true body fuel
      setStatus (if (← get).status = 0 then 1 else 0)
    | .both first second =>
      evaluate true first fuel
      if (← get).status = 0 then evaluate tested second fuel
    | .either first second =>
      evaluate true first fuel
      if (← get).status ≠ 0 then evaluate tested second fuel
    | .sequence first second =>
      evaluate tested first fuel
      evaluate tested second fuel
    | .background body =>
      let scope ← get
      match scope.descriptors.lookup 1 with
      | some (.store _) =>
        enclosed false body fuel
        setStatus 0
      | _ =>
        let inside := { copied scope with
          descriptors := (0, .nowhere) :: scope.descriptors.filter (·.1 ≠ 0) }
        let jobs := scope.jobs.filter fun job => !job.awaited
        let number := scope.lastJob + 1
        let slot := ((List.range (jobs.length + 1)).find? fun slot =>
          jobs.all fun job => job.slot ≠ slot + 1).getD jobs.length
        let work := (whole (evaluate false body fuel) fuel).run.run inside
        set
          { scope with
            jobs := jobs ++
              [Job.mk number (slot + 1)
                (work.bind fun outcome => .finished (ended outcome)) false false]
            lastJob := number
            status := 0 }
    | .subshell line body redirections =>
      modify fun scope => { scope with line := line }
      redirected redirections (enclosed tested body fuel) fuel
      attend fuel
      checkFailure tested
    | .redirected line body redirections =>
      modify fun scope => { scope with line := line }
      redirected redirections (evaluate tested body fuel) fuel
    | .conditional condition body otherwise =>
      evaluate true condition fuel
      if (← get).status = 0 then evaluate tested body fuel else evaluate tested otherwise fuel
    | .loop onSuccess condition body =>
      asLoop (loop tested onSuccess condition body 0 fuel)
    | .each line name words body =>
      modify fun scope => { scope with line := line }
      let fields ← fieldsOf words fuel
      setStatus 0
      asLoop (each tested name fields body fuel)
    | .choice line subject clauses =>
      modify fun scope => { scope with line := line }
      let found ← expandWhole (fun command => capture command fuel) false subject
      choose tested (unquoted found) clauses fuel

/-- Performs stages, each of which reads what the one before it wrote. -/
def pipeline (stages : List Command) (source : Option Stream) (outer : List (Nat × Stream)) :
    Nat → Task Unit
  | 0 => stuck
  | fuel + 1 => do
    match stages with
    | [] => return
    | [last] =>
      modify fun scope => { scope with descriptors := outer }
      connect 0 source
      enclosed true last fuel
    | stage :: rest =>
      let stream ← store []
      modify fun scope => { scope with descriptors := outer }
      connect 0 source
      connect 1 (some stream)
      enclosed true stage fuel
      pipeline rest (some stream) outer fuel

/-- Performs a task with redirections, if they are possible. -/
def redirected (redirections : List Redirection) (task : Task Unit) : Nat → Task Unit
  | 0 => stuck
  | fuel + 1 => do
    let descriptors := (← get).descriptors
    restoring (fun scope => { scope with descriptors := descriptors }) do
      if ← redirect redirections fuel then task

/-- Performs the rounds of a loop with a condition, of which the last one had a code. -/
def loop (tested onSuccess : Bool) (condition body : Command) (last : Nat) : Nat → Task Unit
  | 0 => stuck
  | fuel + 1 => do
    let _ ← files
    let goesOn ← round do
      evaluate true condition fuel
      if ((← get).status == 0) != onSuccess then
        setStatus last
        return false
      evaluate tested body fuel
      return true
    if goesOn then loop tested onSuccess condition body (← get).status fuel

/-- Performs a loop for some values. -/
def each (tested : Bool) (name : Raw) (values : List Raw) (body : Command) : Nat → Task Unit
  | 0 => stuck
  | fuel + 1 => do
    match values with
    | [] => return
    | value :: rest =>
      let _ ← files
      assign name value
      let goesOn ← round do
        evaluate tested body fuel
        return true
      if goesOn then each tested name rest body fuel

/-- Performs the first clause that has a pattern for a text. -/
def choose (tested : Bool) (subject : Raw) (clauses : List (List Word × Command)) :
    Nat → Task Unit
  | 0 => stuck
  | fuel + 1 => do
    match clauses with
    | [] => setStatus 0
    | (patterns, body) :: rest =>
      if ← fitsAny subject patterns fuel then evaluate tested body fuel
      else choose tested subject rest fuel

def fitsAny (subject : Raw) (patterns : List Word) : Nat → Task Bool
  | 0 => stuck
  | fuel + 1 => do
    match patterns with
    | [] => return false
    | first :: rest =>
      let found ← expandWhole (fun command => capture command fuel) false first
      if (pattern found).fits subject then return true else fitsAny subject rest fuel

def simple (tested : Bool) (settings : List (Raw × Word)) (words : List Word)
    (redirections : List Redirection) : Nat → Task Unit
  | 0 => stuck
  | fuel + 1 => do
    modify fun scope => { scope with wordStatus := none }
    let fields ← fieldsOf words fuel
    let before ← get
    let name := fields.headD []
    let isFunction := (before.functions.lookup name).isSome
    let special := isSpecialName name ∧ isBuiltin name
    let keeps := name = raw "exec" ∧ fields.length = 1
    restoring
      (fun scope => if keeps then scope else { scope with descriptors := before.descriptors }) do
      if !(← redirect redirections fuel) then
        if special then throw .failure else return
      let old := entries (settings.map (·.1)) before
      let passing := !fields.isEmpty ∧ (isFunction ∨ !special)
      restoring (fun scope => if passing then old.foldl Scope.put scope else scope) do
        let values ← assignAll settings fuel
        traced before.descriptors values fields
        match fields with
        | [] => setStatus ((← get).wordStatus.getD 0)
        | name :: arguments =>
          if passing then
            modify fun scope =>
              (entries (settings.map (·.1)) scope).foldl
                (fun scope entry => scope.put { entry with exported := true }) scope
          call tested true name arguments fuel

/-- Performs what a name stands for: a command that is special, a function, another command of the
shell, or a program. -/
def call (tested functions : Bool) (name : Raw) (arguments : List Raw) : Nat → Task Unit
  | 0 => stuck
  | fuel + 1 => do
    let special := isSpecialName name ∧ isBuiltin name
    let scope ← get
    let function? := if functions ∧ !special then scope.functions.lookup name else none
    match function?, Builtin.all.lookup (String.ofList name) with
    | some body, _ =>
      let before ← get
      if deepestCall ≤ before.calls then
        fail (raw ("Maximum function recursion depth (" ++ toString deepestCall ++ ") reached"))
      set
        { before with
          arguments := arguments
          calls := before.calls + 1
          loops := 0
          kept := [] :: before.kept }
      restoring (returned before) <|
        tryCatch (evaluate tested body fuel) fun
          | .back => return
          | leave => throw leave
    | none, some builtin =>
      forgiving (special ∧ functions) <| asSpeaker name do
        setStatus (← builtin arguments)
    | none, none =>
      if governing.contains (String.ofList name) then
        forgiving (special ∧ functions) <| govern tested name arguments fuel
      else setStatus (← launch name arguments)

/-- Performs a command that has others to perform. -/
def govern (tested : Bool) (name : Raw) (arguments : List Raw) : Nat → Task Unit
  | 0 => stuck
  | fuel + 1 => do
    match String.ofList name, arguments with
    | "eval", words =>
      asSpeaker name (perform tested false (Source.start ([' '].intercalate words)) fuel)
    | "type", names =>
      let codes ← names.mapM (describe true)
      setStatus (codes.foldl max 0)
    | ".", path :: _ =>
      let (path, content) ← asSpeaker name (sourceFile path)
      tryCatch (asSpeaker path (perform tested false (Source.start content) fuel)) fun
        | .back => return
        | leave => throw leave
    | "exec", command :: rest =>
      asSpeaker name do
        unguard
        let code ← launch command rest
        setStatus code
        throw .exit
    | "command", words =>
      match ← asSpeaker name (Builtin.optionsOf "pvV" "" words) with
      | (options, command :: rest) =>
        if (options.lookup 'V').isSome then setStatus (← describe true command)
        else if (options.lookup 'v').isSome then setStatus (← describe false command)
        else call tested false command rest fuel
      | (_, []) => setStatus 0
    | _, _ => setStatus 0

end

end Task

end PromptHarness.Shell
