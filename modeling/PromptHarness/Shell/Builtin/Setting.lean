import PromptHarness.Shell.Builtin.Text

/-!
# Commands about variables, arguments and options

What these commands change is the scope, which every later command finds as they left it.
-/

namespace PromptHarness.Shell.Builtin

/-! ## Variables -/

/-- The name and the value in an argument that may assign. -/
def assignmentIn (argument : Raw) : Raw × Option Raw :=
  match argument.dropWhile (· != '=') with
  | _ :: value => (argument.takeWhile (· != '='), some value)
  | [] => (argument, none)

def listing (lead : Raw) (kind : Variable → Bool) : Task Nat := do
  let listed := ((← get).known.filter kind).mergeSort fun left right =>
    !(String.ofList right.name < String.ofList left.name)
  say (listed.flatMap fun entry =>
    lead ++ entry.name ++ (entry.value.elim [] fun value => '=' :: singleQuote value) ++ ['\n'])

/-- Marks variables, and gives them the values that come with them; or lists those that are
marked. -/
def mark (name : Raw) (marked : Variable → Bool) (change : Variable → Variable) : Builtin :=
    fun arguments => do
  let (options, arguments) ← optionsOf "p" "" arguments
  if !options.isEmpty ∨ arguments.isEmpty then return ← listing (name ++ [' ']) marked
  arguments.forM fun argument => do
    let (name, value) := assignmentIn argument
    checkName name
    match value with
    | some value => Task.assign name value
    | none => pure ()
    modify fun scope =>
      scope.put (change ((scope.find? name).getD ⟨name, none, scope.isOn 'a', false⟩))
  return 0

def exportNames : Builtin :=
  mark (raw "export") (·.exported) fun entry => { entry with exported := true }

def readonly : Builtin :=
  mark (raw "readonly") (·.fixed) fun entry => { entry with fixed := true }

def localNames : Builtin := fun arguments => do
  if (← get).calls = 0 then Task.fail (raw "not in a function")
  arguments.forM fun argument => do
    let (name, value) := assignmentIn argument
    checkName name
    modify fun scope =>
      let entry := (scope.find? name).getD ⟨name, none, false, false⟩
      match scope.kept with
      | kept :: others =>
        if (kept.find? (·.name = name)).isSome then scope
        else { scope with kept := (entry :: kept) :: others }
      | [] => scope
    match value with
    | some value => Task.assign name value
    | none => pure ()
  return 0

def unset : Builtin := fun arguments => do
  let (options, names) ← optionsOf "vf" "" arguments
  names.forM fun name => do
    if (options.lookup 'f').isSome then
      modify fun scope => { scope with functions := scope.functions.filter (·.1 ≠ name) }
    else
      checkName name
      match (← get).find? name with
      | some entry =>
        if entry.fixed then Task.fail (name ++ raw ": is read only")
        modify fun scope => { scope with known := scope.known.filter (·.name ≠ name) }
      | none => pure ()
  return 0

def shift : Builtin := fun arguments => do
  let count ← match arguments with
    | [] => pure 1
    | first :: _ => numberOf first
  let scope ← get
  if scope.arguments.length < count then Task.fail (raw "can\x27t shift that many")
  set { scope with arguments := scope.arguments.drop count }
  return 0

/-- The options of the shell by name.  The last two have no letters to be asked for by. -/
def optionNames : List (String × Char) :=
  ["errexit", "noglob", "ignoreeof", "interactive", "monitor", "noexec", "stdin", "xtrace",
    "verbose", "vi", "emacs", "noclobber", "allexport", "notify", "nounset", "privileged", "nolog",
    "debug"].zip (optionLetters ++ ['\x01', '\x02'])

def turn (on : Bool) (option : Char) : Task Unit :=
  modify fun scope =>
    let others := scope.options.filter (· ≠ option)
    { scope with options := if on then others ++ [option] else others }

def turnLetter (on : Bool) (letter : Char) : Task Unit := do
  if !optionLetters.contains letter then Task.fail (raw "Illegal option -" ++ [letter])
  turn on letter

def listOptions (plainly : Bool) : Task Unit := do
  let scope ← get
  let row (name : String) (letter : Char) : String :=
    let on := scope.isOn letter
    if plainly then
      let gap := String.ofList (List.replicate (16 - name.length) ' ')
      name ++ gap ++ if on then "on\n" else "off\n"
    else "set " ++ (if on then "-o " else "+o ") ++ name ++ "\n"
  let _ ← say (raw ((if plainly then "Current option settings\n" else "") ++
    String.join (optionNames.map fun entry => row entry.1 entry.2)))

/-- Sets options and arguments. -/
def setAll : Nat → Builtin
  | 0, _ => return 0
  | fuel + 1, arguments => do
    match arguments with
    | [] => return 0
    | ['-', '-'] :: rest =>
      modify fun scope => { scope with arguments := rest }
      return 0
    | ['-'] :: rest =>
      turn false 'x'
      turn false 'v'
      if ¬rest.isEmpty then modify fun scope => { scope with arguments := rest }
      return 0
    | (sign :: letters) :: rest =>
      if (sign = '-' ∨ sign = '+') ∧ ¬letters.isEmpty then
        let named := letters.contains 'o'
        (letters.filter (· ≠ 'o')).forM (turnLetter (sign = '-'))
        match named, rest with
        | true, name :: behind =>
          match optionNames.lookup (String.ofList name) with
          | some option =>
            turn (sign = '-') option
            setAll fuel behind
          | none => Task.fail (raw ("Illegal option " ++ sign.toString ++ "o ") ++ name)
        | true, [] =>
          listOptions (sign = '-')
          return 0
        | false, rest => setAll fuel rest
      else
        modify fun scope => { scope with arguments := (sign :: letters) :: rest }
        return 0
    | arguments =>
      modify fun scope => { scope with arguments := arguments }
      return 0

def setOptions : Builtin := fun arguments =>
  if arguments.isEmpty then listing [] fun entry => entry.value.isSome
  else setAll (arguments.length + 1) arguments

/-- Takes the next option out of some arguments, one letter at a time. -/
def getopts : Builtin := fun arguments => do
  match arguments with
  | wanted :: name :: given =>
    let scope ← get
    let words := if given.isEmpty then scope.arguments else given
    let index := ((scope.value? (raw "OPTIND")).bind decimal?).getD 1 |>.toNat
    let quiet := wanted.head? = some ':'
    let finish (index : Nat) (offset : Option Nat) (letter : Char) (code : Nat) : Task Nat := do
      checkName name
      Task.assign (raw "OPTIND") (toString index).toList
      Task.assign name [letter]
      modify fun scope => { scope with offset := offset }
      return code
    let left := match scope.offset with
      | some offset => (words.getD (index - 2) []).drop offset
      | none => []
    let (letters, index) ← match left, words.drop (index - 1) with
      | [], ('-' :: letter :: more) :: _ => pure (letter :: more, index + 1)
      | [], _ => pure ([], index)
      | left, _ => pure (left, index)
    match letters with
    | [] => finish index none '?' 1
    | ['-'] =>
      if left.isEmpty then finish index none '?' 1
      else take wanted words quiet index '-' [] finish
    | letter :: more => take wanted words quiet index letter more finish
  | _ => Task.fail (raw "Usage: getopts optstring var [arg...]")
where
  /-- Takes one letter, behind which `more` letters are. -/
  take (wanted : Raw) (words : List Raw) (quiet : Bool) (index : Nat) (letter : Char) (more : Raw)
      (finish : Nat → Option Nat → Char → Nat → Task Nat) : Task Nat := do
    let word := words.getD (index - 2) []
    let offset := if more.isEmpty then none else some (word.length - more.length)
    match wanted.dropWhile (· ≠ letter), letter with
    | _, ':' | [], _ =>
      if quiet then Task.assign (raw "OPTARG") [letter]
      else
        Task.emit 2 (Raw.bytes (raw "Illegal option -" ++ [letter, '\n']))
        modify fun scope =>
          { scope with known := scope.known.filter (·.name ≠ raw "OPTARG") }
      finish index offset '?' 0
    | _ :: ':' :: _, _ =>
      if ¬more.isEmpty then
        Task.assign (raw "OPTARG") more
        finish index none letter 0
      else match words[index - 1]? with
        | some value =>
          Task.assign (raw "OPTARG") value
          finish (index + 1) none letter 0
        | none =>
          if quiet then
            Task.assign (raw "OPTARG") [letter]
            finish index none ':' 0
          else
            Task.emit 2 (Raw.bytes (raw "No arg for -" ++ letter :: raw " option\n"))
            modify fun scope =>
              { scope with known := scope.known.filter (·.name ≠ raw "OPTARG") }
            finish index none '?' 0
    | _, _ =>
      Task.assign (raw "OPTARG") []
      finish index offset letter 0

/-! ## Aliases -/

def setAliases : Builtin := fun arguments => do
  let row (entry : Raw × Raw) : Raw := entry.1 ++ '=' :: singleQuote entry.2 ++ ['\n']
  if arguments.isEmpty then return ← say ((← get).aliases.flatMap row)
  let codes ← arguments.mapM fun argument => do
    match assignmentIn argument with
    | (name, some value) =>
      modify fun scope =>
        { scope with aliases := (name, value) :: scope.aliases.filter (·.1 ≠ name) }
      return 0
    | (name, none) =>
      match (← get).aliases.lookup name with
      | some value => say (row (name, value))
      | none =>
        Task.emit 2 (Raw.bytes (raw "alias: " ++ name ++ raw " not found\n"))
        return 1
  return codes.foldl max 0

def dropAliases : Builtin := fun arguments => do
  let (options, names) ← optionsOf "a" "" arguments
  if !options.isEmpty then
    modify fun scope => { scope with aliases := [] }
    return 0
  let codes ← names.mapM fun name => do
    let aliases := (← get).aliases
    modify fun scope => { scope with aliases := aliases.filter (·.1 ≠ name) }
    if (aliases.lookup name).isSome then return 0
    Task.emit 2 (Raw.bytes (raw "unalias: " ++ name ++ raw " not found\n"))
    return 1
  return codes.foldl max 0

/-! ## Places -/

def workingPath (scope : Scope) : Raw :=
  '/' :: ['/'].intercalate (scope.working.map raw)

def cd : Builtin := fun arguments => do
  let (_, arguments) ← optionsOf "LP" "" arguments
  let scope ← get
  let (target, loud) := match arguments with
    | [] => ((scope.value? (raw "HOME")).getD [], false)
    | ['-'] :: _ => ((scope.value? (raw "OLDPWD")).getD (workingPath scope), true)
    | first :: _ => (first, false)
  let files ← Task.files
  if target.isEmpty then return 0
  let place := files.placeOf (Raw.text target)
  if !files.isDirectory (Raw.text target) ∨ files.find? place ≠ some .directory then
    Task.fail (raw "can\x27t cd to " ++ target)
  modify fun scope => { scope with working := place }
  let shown (name value : Raw) : Task Unit := do
    modify fun scope => scope.put ⟨name, some value, true, false⟩
  shown (raw "OLDPWD") (workingPath scope)
  shown (raw "PWD") (workingPath (← get))
  if loud then say (workingPath (← get) ++ ['\n']) else return 0

def pwd : Builtin := fun arguments => do
  let _ ← optionsOf "LP" "" arguments
  say (workingPath (← get) ++ ['\n'])

/-- Shows or sets the permissions that new files do not have. -/
def umask : Builtin := fun arguments => do
  let (options, modes) ← optionsOf "S" "" arguments
  let mask := (← get).mask
  match modes with
  | [] =>
    let digit (place : Nat) : Nat := mask / Nat.pow 8 place % 8
    if (options.lookup 'S').isSome then
      let allowed (name : String) (place : Nat) : String :=
        let has (letter : String) (bit : Nat) : String :=
          if (digit place).testBit bit then "" else letter
        name ++ "=" ++ has "r" 2 ++ has "w" 1 ++ has "x" 0
      say (raw (allowed "u" 2 ++ "," ++ allowed "g" 1 ++ "," ++ allowed "o" 0 ++ "\n"))
    else say (raw (String.join ([3, 2, 1, 0].map fun place => toString (digit place)) ++ "\n"))
  | mode :: _ =>
    if mode.all Char.isDigit then
      if !mode.all isOctal then Task.fail (raw "Illegal number: " ++ mode)
      modify fun scope => { scope with mask := (digits 8 mode).1 % 512 }
      return 0
    else return 0

end PromptHarness.Shell.Builtin
