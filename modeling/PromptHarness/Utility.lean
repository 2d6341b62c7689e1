import PromptHarness.Shell.Builtin
import PromptHarness.Utility.Named

/-!
# Small programs

The programs that every machine has and that short scripts use.  Each is a `Program`, which calls
itself what it was called when it complains.
-/

namespace PromptHarness.Utility

open Text (encode)

def exited (code : Nat) : Process Ending := .finished (.exited code)

def succeed : Process Ending := exited 0

def complain (call : Call) (text : String) : Process Unit :=
  .complain (encode (call.name ++ ": " ++ text ++ "\n"))

def fail (call : Call) (text : String) (code : Nat) : Process Ending := do
  complain call text
  exited code

def misuse (call : Call) (text : String) : Process Ending :=
  fail call (text ++ "\nTry " ++ quoted (call.name ++ " --help") ++ " for more information.") 1

/-! ## Options -/

/-- What the arguments of a program say. -/
structure Usage where
  /-- The letters in order, each with its value if it takes one. -/
  options : List (Char × String)
  operands : List String

def Usage.has (usage : Usage) (letter : Char) : Bool := (usage.options.lookup letter).isSome

def marked (text : String) : String := mark.toString ++ text ++ mark.toString

/-- The letter that a word behind two dashes stands for.  The word may be cut short where that
leaves only one name. -/
def longOption (long : List (String × Char)) (word : List Char) : Except String Char :=
  let whole := marked ("--" ++ String.ofList word)
  let name := word.takeWhile (· != '=')
  let fitting := long.filter fun entry => name.isPrefixOf entry.1.toList
  match (fitting.filter fun entry => entry.1.toList = name) ++ fitting with
  | [] => .error ("unrecognized option " ++ whole)
  | found :: others =>
    if found.1.toList ≠ name ∧ ¬others.isEmpty then
      .error ("option " ++ whole ++ " is ambiguous; possibilities:" ++
        String.join (fitting.map fun entry => " " ++ marked ("--" ++ entry.1)))
    else if word.contains '=' then
      .error ("option " ++ marked ("--" ++ found.1) ++ " doesn\x27t allow an argument")
    else .ok found.2

/-- The options among the arguments, which may stand anywhere before `--`. -/
def usage (long : List (String × Char)) (plain valued : List Char) :
    List String → Except String Usage
  | [] => .ok ⟨[], []⟩
  | argument :: rest =>
    match argument.toList with
    | ['-', '-'] => .ok ⟨[], rest⟩
    | '-' :: '-' :: word => do
      let letter ← longOption long word
      let found ← usage long plain valued rest
      return { found with options := (letter, "") :: found.options }
    | '-' :: first :: more => letters (first :: more) rest
    | _ => (usage long plain valued rest).map fun found =>
      { found with operands := argument :: found.operands }
where
  /-- The letters behind a dash, and the arguments behind them. -/
  letters (word : List Char) (rest : List String) : Except String Usage :=
    match word with
    | [] => usage long plain valued rest
    | letter :: more =>
      if valued.contains letter then
        match more, rest with
        | [], [] => .error ("option requires an argument -- " ++ marked letter.toString)
        | [], value :: behind =>
          (usage long plain valued behind).map fun found =>
            { found with options := (letter, value) :: found.options }
        | more, rest =>
          (usage long plain valued rest).map fun found =>
            { found with options := (letter, String.ofList more) :: found.options }
      else if plain.contains letter then
        (letters more rest).map fun found => { found with options := (letter, "") :: found.options }
      else .error ("invalid option -- " ++ marked letter.toString)

/-- A program with options, which are understood before anything else. -/
def withLongOptions (long : List (String × Char)) (plain valued : String)
    (body : Call → Usage → Process Ending) : Program :=
  fun _ call =>
    match usage long plain.toList valued.toList call.arguments with
    | .ok found => body call found
    | .error complaint => misuse call complaint

/-- A program whose options are single letters. -/
def withOptions (plain valued : String) (body : Call → Usage → Process Ending) : Program :=
  withLongOptions [] plain valued body

/-! ## Text -/

/-- The options in front of what `echo` is to write: whether the line is ended, and whether
backslashes are resolved. -/
def echoOptions (ending resolving : Bool) : List String → Bool × Bool × List String
  | [] => (ending, resolving, [])
  | argument :: rest =>
    match argument.toList with
    | '-' :: letter :: letters =>
      if (letter :: letters).all fun char => ['n', 'e', 'E'].contains char then
        let decisive := (letter :: letters).filter (· != 'n')
        echoOptions (ending && !(letter :: letters).contains 'n')
          ((decisive.getLast?.map (· == 'e')).getD resolving) rest
      else (ending, resolving, argument :: rest)
    | _ => (ending, resolving, argument :: rest)

def echo : Program := fun _ call =>
  let (ending, resolving, words) := echoOptions true false call.arguments
  let joined := Shell.raw (" ".intercalate words)
  let (text, ended) := if resolving then Shell.unescape (joined.length + 1) joined
    else (joined, false)
  .print (Shell.Raw.bytes text ++ if ending ∧ ¬ended then [10] else []) succeed

def printf : Program := fun _ call =>
  match call.arguments with
  | [] => misuse call "missing operand"
  | format :: rest =>
    let (printing, last) := Shell.printed (Shell.raw format) (rest.map Shell.raw)
    let complaints := printing.complaints ++ last.toList
    do
      .say (Shell.Raw.bytes printing.written)
      complaints.forM fun complaint => complain call (Shell.Raw.text complaint)
      exited (if complaints.isEmpty then 0 else 1)

def test (bracket : Bool) : Program := fun _ call =>
  .look fun files =>
    let words := call.arguments.map Shell.raw
    if bracket ∧ words.getLast? ≠ some [']'] then fail call ("missing " ++ quoted "]") 2
    else
      let condition := if bracket then words.dropLast else words
      match Shell.Condition.holds ⟨files, [0, 1, 2]⟩ condition with
      | .ok holds => exited (if holds then 0 else 1)
      | .error complaint => fail call (Shell.Raw.text complaint) 2

def basename : Program := fun _ call =>
  match call.arguments with
  | [] => misuse call "missing operand"
  | path :: rest =>
    let name := lastName path
    let short := match rest with
      | [ending] =>
        if ending.toList.isSuffixOf name.toList ∧ ending ≠ name then
          String.ofList (name.toList.take (name.length - ending.length))
        else name
      | _ => name
    .print (encode (short ++ "\n")) succeed
where
  /-- The last name along a path. -/
  lastName (path : String) : String :=
    match (Path.names path).filter (· ≠ "") with
    | [] => if path.isEmpty then "" else "/"
    | names => names.getLastD ""

def dirname : Program := fun _ call =>
  match call.arguments with
  | [] => misuse call "missing operand"
  | paths => .print (encode (String.join (paths.map fun path => above path ++ "\n"))) succeed
where
  /-- The path of the directory that a path leads into last. -/
  above (path : String) : String :=
    let kept := path.toList.reverse.dropWhile (· == '/') |>.dropWhile (· != '/')
    let kept := (kept.dropWhile (· == '/')).reverse
    if ¬kept.isEmpty then String.ofList kept else if Path.isAbsolute path then "/" else "."

def seq : Program := fun _ call =>
  let numbers := call.arguments.map String.toInt?
  let write (first step last : Int) : Process Ending :=
    if step = 0 then succeed
    else
      let count := if step < 0 then (first - last) / -step else (last - first) / step
      let values := if count < 0 then [] else
        (List.range (count.toNat + 1)).map fun (index : Nat) => first + step * (index : Int)
      .print (encode (String.join (values.map fun value => toString value ++ "\n"))) succeed
  match numbers with
  | [] => misuse call "missing operand"
  | [some last] => write 1 1 last
  | [some first, some last] => write first 1 last
  | [some first, some step, some last] => write first step last
  | _ => misuse call ("invalid floating point argument: " ++ quoted (call.arguments.headD ""))

/-! ## Reading -/

/-- More portions than one plan of prompts holds. -/
def manyPortions : Nat := 4096

/-- Goes through the input, with something that is handed on from portion to portion. -/
def eachPortion {α : Type} (step : α → Bytes → Process α) : Nat → α → Process α
  | 0, state => .finished state
  | bound + 1, state => .ask .piece fun
    | none => .finished state
    | some bytes => (step state bytes).bind (eachPortion step bound)

/-- Goes through named files and, under the name of a dash, the input.  The result is whether all
of that could be read. -/
def eachSource {α : Type} (call : Call) (complaint : String → FileError → String)
    (step : α → Bytes → Process α) : List String → α → Process (α × Bool)
  | [], state => .finished (state, true)
  | name :: rest, state =>
    if name = "-" then
      (eachPortion step manyPortions state).bind (eachSource call complaint step rest)
    else
      .look fun files =>
        match files.read name with
        | .ok content => (step state content).bind (eachSource call complaint step rest)
        | .error reason => do
          complain call (complaint name reason)
          let (state, _) ← eachSource call complaint step rest state
          return (state, false)

/-- How `cat` writes what it reads. -/
structure Display where
  numbered : Bool
  /-- Only lines that hold something are numbered. -/
  sparing : Bool
  /-- Of empty lines in a row only one is written. -/
  squeezing : Bool
  ends : Bool
  tabs : Bool
  controls : Bool

def Display.byte (display : Display) (byte : UInt8) : Bytes :=
  if byte = 9 then (if display.tabs then encode "^I" else [byte])
  else if display.controls then
    let low := byte &&& 127
    let front := if byte < 128 then [] else encode "M-"
    front ++ if low < 32 then [94, low + 64] else if low = 127 then encode "^?" else [low]
  else [byte]

/-- How far the display has come. -/
structure Display.Progress where
  /-- The number of the last line that has one. -/
  line : Nat
  /-- A line has begun and not ended. -/
  isOpen : Bool
  /-- The line before was empty. -/
  wasEmpty : Bool

/-- What is written for some bytes.  A carriage return shows where the line ends are shown. -/
def Display.show (display : Display) : Progress → Bytes → Bytes × Progress
  | progress, [] => ([], progress)
  | progress, byte :: rest =>
    let isEmpty := !progress.isOpen && byte == 10
    if display.squeezing && isEmpty && progress.wasEmpty then display.show progress rest
    else
      let counts := !progress.isOpen && display.numbered && !(display.sparing && byte == 10)
      let line := if counts then progress.line + 1 else progress.line
      let digits := Nat.toDigits 10 line
      let front := if counts then
          encode (String.ofList (List.replicate (6 - digits.length) ' ' ++ digits ++ ['\t']))
        else []
      let shown := if byte = 10 then (if display.ends then [36, 10] else [10])
        else if byte = 13 ∧ display.ends ∧ rest.head? = some 10 then encode "^M"
        else display.byte byte
      let wasEmpty := if byte = 10 then isEmpty else false
      let (others, last) := display.show ⟨line, byte != 10, wasEmpty⟩ rest
      (front ++ shown ++ others, last)

/-- The long names of the options of `cat`. -/
def displayNames : List (String × Char) :=
  [("number-nonblank", 'b'), ("number", 'n'), ("squeeze-blank", 's'), ("show-nonprinting", 'v'),
    ("show-ends", 'E'), ("show-tabs", 'T'), ("show-all", 'A')]

/-- Writes the named files one after the other, or else its input. -/
def cat : Program := withLongOptions displayNames "AbeEnstTuv" "" fun call usage => do
  let any (letters : List Char) : Bool := letters.any usage.has
  let display : Display :=
    ⟨any ['n', 'b'], any ['b'], any ['s'], any ['A', 'e', 'E'], any ['A', 't', 'T'],
      any ['A', 'e', 't', 'v']⟩
  let names := if usage.operands.isEmpty then ["-"] else usage.operands
  let (_, complete) ← eachSource call
    (fun name reason => shellName name ++ ": " ++ reason.description)
    (fun progress bytes => do
      let (shown, progress) := display.show progress bytes
      .say shown
      return progress)
    names ⟨0, false, false⟩
  exited (if complete then 0 else 1)

/-- The bytes of the lines at the front. -/
def firstLines : Nat → Bytes → Bytes
  | 0, _ => []
  | _, [] => []
  | count + 1, byte :: rest =>
    byte :: firstLines (if byte = 10 then count else count + 1) rest

/-- The bytes of the lines at the end. -/
def lastLines (count : Nat) (bytes : Bytes) : Bytes :=
  let isOpen := !bytes.isEmpty && bytes.getLast? != some 10
  let lines := bytes.count 10 + if isOpen then 1 else 0
  bytes.drop (firstLines (lines - count) bytes).length

/-- How much of a text is wanted, in lines or in bytes. -/
structure Measure where
  inLines : Bool
  count : Nat
  /-- The number counts from the other end than usual. -/
  turned : Bool

namespace Measure

def front (measure : Measure) (bytes : Bytes) : Bytes :=
  if measure.inLines then firstLines measure.count bytes else bytes.take measure.count

/-- What is still wanted behind a front. -/
def behind (measure : Measure) (given : Bytes) : Measure :=
  { measure with
    count := measure.count - if measure.inLines then given.count 10 else given.length }

def back (measure : Measure) (bytes : Bytes) : Bytes :=
  if measure.turned then
    bytes.drop (front { measure with count := measure.count - 1 } bytes).length
  else if measure.inLines then lastLines measure.count bytes
  else bytes.drop (bytes.length - measure.count)

/-- The measure that some options ask for, or else ten lines; or the complaint. -/
def ofUsage (sign : Char) (usage : Usage) : Except String Measure :=
  match usage.options.getLast? with
  | none => .ok ⟨true, 10, false⟩
  | some (letter, text) =>
    let turned := text.toList.head? = some sign
    let inLines := letter = 'n'
    match (String.ofList (if turned then text.toList.drop 1 else text.toList)).toNat? with
    | some count => .ok ⟨inLines, count, turned⟩
    | none =>
      .error ("invalid number of " ++ (if inLines then "lines: " else "bytes: ") ++ quoted text)

end Measure

/-- An argument that is a number behind a dash asks for so many lines. -/
def withCount (arguments : List String) : List String :=
  match arguments.map String.toList with
  | ('-' :: digit :: digits) :: _ =>
    if (digit :: digits).all Char.isDigit then
      "-n" :: String.ofList (digit :: digits) :: arguments.tail
    else arguments
  | _ => arguments

/-- Goes through the named files, each under its name where there are several, or else the
input. -/
def underNames (call : Call) (input : Process Unit) (ofFile : Bytes → Bytes) (several : Bool) :
    Bool → List String → Process Bool
  | _, [] => .finished true
  | begun, name :: rest => .look fun files =>
    let title (shown : String) : Process Unit :=
      .say (encode (if several then (if begun then "\n==> " else "==> ") ++ shown ++ " <==\n"
        else ""))
    if name = "-" then do
      title "standard input"
      input
      underNames call input ofFile several true rest
    else match files.read name with
      | .ok content => do
        title name
        .say (ofFile content)
        underNames call input ofFile several true rest
      | .error reason => do
        complain call
          (match reason with
            | .isDirectory => "error reading " ++ shellQuoted name ++ ": " ++ reason.description
            | _ => "cannot open " ++ shellQuoted name ++ " for reading: " ++ reason.description)
        let _ ← underNames call input ofFile several begun rest
        return false

def portionOf (sign : Char) (input : Measure → Process Unit) (ofFile : Measure → Bytes → Bytes) :
    Program := fun launch call =>
  withOptions "" "nc"
    (fun call usage => do
      match Measure.ofUsage sign usage with
      | .error complaint => fail call complaint 1
      | .ok measure =>
        let names := if usage.operands.isEmpty then ["-"] else usage.operands
        let complete ← underNames call (input measure) (ofFile measure) (1 < names.length) false
          names
        exited (if complete then 0 else 1))
    launch { call with arguments := withCount call.arguments }

/-- Writes the front of the input, and reads no more than that takes. -/
def frontOfInput : Nat → Measure → Process Unit
  | 0, _ => .finished ()
  | bound + 1, measure =>
    if measure.count = 0 then .finished ()
    else .ask .piece fun
      | none => .finished ()
      | some bytes => do
        .say (measure.front bytes)
        frontOfInput bound (measure.behind (measure.front bytes))

def head : Program := portionOf '-' (frontOfInput manyPortions) Measure.front

def tail : Program :=
  portionOf '+'
    (fun measure => do
      let held ← eachPortion (fun held bytes => return held ++ bytes) manyPortions ([] : Bytes)
      .say (measure.back held))
    Measure.back

def wordCount (bytes : Bytes) : Nat :=
  let isSpace (byte : UInt8) := byte == 32 || (9 ≤ byte && byte ≤ 13)
  (bytes.zip (32 :: bytes)).countP fun pair => !isSpace pair.1 && isSpace pair.2

def wc : Program := withOptions "lwcm" "" fun call usage => do
  let counts (bytes : Bytes) : List Nat :=
    let all := usage.options.isEmpty
    (if all || usage.has 'l' then [bytes.count 10] else []) ++
      (if all || usage.has 'w' then [wordCount bytes] else []) ++
      (if all || usage.has 'c' || usage.has 'm' then [bytes.length] else [])
  let names := if usage.operands.isEmpty then ["-"] else usage.operands
  let (held, complete) ← eachSource call
    (fun name reason => shellName name ++ ": " ++ reason.description)
    (fun held bytes => return held ++ bytes) names ([] : Bytes)
  let numbers := counts held
  let single := numbers.length = 1
  let width := if single then 1 else if usage.operands.isEmpty then 7
    else (toString held.length).length
  let texts := numbers.map fun number =>
    let digits := (toString number).toList
    String.ofList (List.replicate (width - digits.length) ' ' ++ digits)
  .say (encode (" ".intercalate (texts ++ usage.operands.take 1) ++ "\n"))
  exited (if complete then 0 else 1)

/-! ## Files -/

/-- The place that something of a name goes to: into a directory, or there. -/
def target (files : Files) (source path : String) : String :=
  if files.isDirectory path then Path.join path (basename.lastName source) else path

def cp : Program := withOptions "afprRTuv" "" fun call usage =>
  match usage.operands with
  | [] => misuse call "missing file operand"
  | [source] => misuse call ("missing destination file operand after " ++ shellQuoted source)
  | [source, path] => .look fun files =>
    match files.stat source with
    | .error reason =>
      fail call ("cannot stat " ++ shellQuoted source ++ ": " ++ reason.description) 1
    | .ok .directory =>
      fail call ("-r not specified; omitting directory " ++ shellQuoted source) 1
    | .ok .sink => succeed
    | .ok (.file content mode) =>
      let place := target files source path
      if (files.locate source).toOption = (files.locate place).toOption then
        fail call
          (shellQuoted source ++ " and " ++ shellQuoted place ++ " are the same file") 1
      else
        match files.put place content mode with
        | .ok changed => .change (fun _ => changed) succeed
        | .error reason =>
          fail call
            ("cannot create regular file " ++ shellQuoted place ++ ": " ++ reason.description) 1
  | _ => succeed

def mv : Program := withOptions "fnv" "" fun call usage =>
  match usage.operands with
  | [] => misuse call "missing file operand"
  | [source] => misuse call ("missing destination file operand after " ++ shellQuoted source)
  | [source, path] => .look fun files =>
    match files.stat source, files.locate source with
    | .ok (.file content mode), .ok held =>
      match files.put (target files source path) content mode with
      | .ok changed => .change (fun _ => changed.remove held) succeed
      | .error reason =>
        fail call ("cannot move " ++ shellQuoted source ++ " to " ++
          shellQuoted (target files source path) ++ ": " ++ reason.description) 1
    | .error reason, _ =>
      fail call ("cannot stat " ++ shellQuoted source ++ ": " ++ reason.description) 1
    | _, _ => succeed
  | _ => succeed

/-- Does something for each operand, which may complain; the code is 1 if one does. -/
def eachOperand (call : Call) (step : String → Files → Except String (Files → Files)) :
    List String → Process Bool
  | [] => .finished true
  | operand :: rest => .look fun files =>
    match step operand files with
    | .ok change => .change change (eachOperand call step rest)
    | .error complaint => do
      complain call complaint
      let _ ← eachOperand call step rest
      return false

def codeOf (complete : Bool) : Nat := if complete then 0 else 1

def mkdir : Program := withOptions "pv" "m" fun call usage => do
  if usage.operands.isEmpty then misuse call "missing operand"
  else
    let complete ← eachOperand call
      (fun path files =>
        let place := files.placeOf path
        let refuse (reason : String) : Except String (Files → Files) :=
          .error ("cannot create directory " ++ quoted path ++ ": " ++ reason)
        match files.find? place, files.stat path with
        | some .directory, _ => if usage.has 'p' then .ok id else refuse "File exists"
        | some _, _ => refuse "File exists"
        | none, .error .notDirectory => refuse FileError.notDirectory.description
        | none, _ =>
          if usage.has 'p' ∨ files.find? place.dropLast = some .directory then
            .ok (·.makeDirectory place)
          else refuse FileError.missing.description)
      usage.operands
    exited (codeOf complete)

/-- Removes files, and directories where that is asked for. -/
def rm : Program := withOptions "frRv" "" fun call usage => do
  if usage.operands.isEmpty then
    if usage.has 'f' then succeed else misuse call "missing operand"
  else
    let complete ← eachOperand call
      (fun path files =>
        match files.stat path with
        | .ok .directory =>
          if usage.has 'r' ∨ usage.has 'R' then .ok (·.remove (files.placeOf path))
          else .error ("cannot remove " ++ shellQuoted path ++ ": Is a directory")
        | .ok _ => .ok (·.remove (files.placeOf path))
        | .error reason =>
          if usage.has 'f' then .ok id
          else .error ("cannot remove " ++ shellQuoted path ++ ": " ++ reason.description))
      usage.operands
    exited (codeOf complete)

def touch : Program := withOptions "acm" "" fun call usage => do
  if usage.operands.isEmpty then misuse call "missing file operand"
  else
    let complete ← eachOperand call
      (fun path files =>
        match files.stat path with
        | .ok _ => .ok id
        | .error _ =>
          match files.put path [] Files.plainMode with
          | .ok _ => .ok fun files => (files.put path [] Files.plainMode).toOption.getD files
          | .error reason =>
            .error ("cannot touch " ++ shellQuoted path ++ ": " ++ reason.description))
      usage.operands
    exited (codeOf complete)

def tee : Program := withOptions "ai" "" fun call usage => do
  let complete ← if usage.has 'a' then pure true else
    eachOperand call
      (fun path files =>
        match files.put path [] Files.plainMode with
        | .ok _ => .ok fun files => (files.put path [] Files.plainMode).toOption.getD files
        | .error reason => .error (shellName path ++ ": " ++ reason.description))
      usage.operands
  eachPortion
    (fun _ bytes => do
      .say bytes
      usage.operands.forM fun path => .alter fun files => files.append (files.placeOf path) bytes)
    manyPortions ()
  exited (codeOf complete)

/-! ## Surroundings -/

def listing (environment : Environment) : Bytes :=
  encode (String.join (environment.map fun entry => entry.1 ++ "=" ++ entry.2 ++ "\n"))

def assigned (environment : Environment) (name value : String) : Environment :=
  environment.filter (·.1 ≠ name) ++ [(name, value)]

/-- Calls another program with other variables, or lists them. -/
def env : Program := fun launch call =>
  run launch call (call.arguments.length + 1) call.arguments call.environment
where
  run (launch : Launcher) (call : Call) :
      Nat → List String → Environment → Process Ending
  | 0, _, _ => succeed
  | _ + 1, [], environment => .print (listing environment) succeed
  | fuel + 1, argument :: rest, environment =>
    if argument = "-i" ∨ argument = "-" then run launch call fuel rest []
    else if argument = "-u" then
      run launch call fuel rest.tail (environment.filter (·.1 ≠ rest.headD ""))
    else if argument.toList.contains '=' then
      run launch call fuel rest
        (assigned environment (String.ofList (argument.toList.takeWhile (· != '=')))
          (String.ofList ((argument.toList.dropWhile (· != '=')).drop 1)))
    else .look fun files =>
      match launch files ⟨argument, rest, environment⟩ with
      | .ok process => process
      | .error reason =>
        fail call (quoted argument ++ ": " ++ reason.description)
          (if reason = .missing then 127 else 126)

def printenv : Program := fun _ call =>
  match call.arguments with
  | [] => .print (listing call.environment) succeed
  | names =>
    let values := names.filterMap call.environment.value?
    .print (encode (String.join (values.map (· ++ "\n"))))
      (exited (codeOf (values.length = names.length)))

def pwd : Program := fun _ _ =>
  .look fun files => .print (encode ("/" ++ "/".intercalate files.working ++ "\n")) succeed

/-! ## Time -/

/-- A length of time with or without a decimal point and a unit, as milliseconds. -/
def milliseconds? (text : String) : Option Nat :=
  let units := [('s', 1000), ('m', 60000), ('h', 3600000), ('d', 86400000)]
  match text.toList.getLast?.bind fun letter => units.lookup letter with
  | some unit => scaled unit text.toList.dropLast
  | none => scaled 1000 text.toList
where
  scaled (unit : Nat) (word : List Char) : Option Nat :=
    if word = "infinity".toList ∨ word = "inf".toList then some Shell.Task.standstillTime
    else match Text.stretches '.' word with
      | [whole] => if whole.isEmpty then none else (number? whole).map (· * unit)
      | [whole, part] => do
        if whole.isEmpty ∧ part.isEmpty then none
        return (← number? whole) * unit + (← number? part) * unit / Nat.pow 10 part.length
      | _ => none
  number? (digits : List Char) : Option Nat :=
    if digits.all Char.isDigit then
      some (digits.foldl (fun value digit => value * 10 + (digit.toNat - '0'.toNat)) 0)
    else none

/-- Waits for as long as all its operands say. -/
def sleep : Program := withOptions "" "" fun call usage =>
  match usage.operands, usage.operands.filter fun word => (milliseconds? word).isNone with
  | [], _ => misuse call "missing operand"
  | words, [] => .pause ((words.filterMap milliseconds?).foldl (· + ·) 0) succeed
  | _, wrong =>
    fail call
      ("\n".intercalate
        ((wrong.mapIdx fun index word =>
          (if index = 0 then "" else call.name ++ ": ") ++ "invalid time interval " ++
            quoted word) ++
          ["Try " ++ quoted (call.name ++ " --help") ++ " for more information."]))
      1

/-- The clock of the machine stands still. -/
def date : Program := fun _ _ =>
  .print (encode "Thu Jan  1 00:00:00 UTC 1970\n") succeed

def all : List (String × Program) :=
  [("true", fun _ _ => succeed), ("false", fun _ _ => exited 1), ("echo", echo), ("printf", printf),
    ("test", test false), ("[", test true), ("basename", basename), ("dirname", dirname),
    ("seq", seq), ("cat", cat), ("head", head), ("tail", tail),
    ("wc", wc), ("cp", cp), ("mv", mv), ("mkdir", mkdir), ("rm", rm), ("touch", touch),
    ("tee", tee), ("env", env), ("printenv", printenv), ("pwd", pwd), ("sleep", sleep),
    ("date", date), ("stty", fun _ _ => succeed), ("clear", fun _ _ => succeed)]

end PromptHarness.Utility
