import PromptHarness.Shell.Builtin.Argument
import PromptHarness.Shell.Condition
import PromptHarness.Shell.Format

/-!
# Commands that write and read

Writing text, deciding conditions, and reading lines into variables.
-/

namespace PromptHarness.Shell.Builtin

/-! ## Writing -/

def echo : Builtin := fun arguments => say (echoed arguments)

def printf : Builtin := fun arguments => do
  match ← optionsOf "" "" arguments with
  | (_, []) => Task.fail (raw "usage: printf format [arg ...]")
  | (_, format :: rest) =>
    let (printing, last) := printed format rest
    printing.complaints.forM Task.complain
    match last with
    | some complaint =>
      Task.complain complaint
      let _ ← say printing.written
      Task.setStatus 2
      throw .failure
    | none =>
      let code ← say printing.written
      return if printing.complaints.isEmpty then code else 1

def decide (words : List Raw) : Task Nat := do
  let scope ← get
  let terminals := scope.descriptors.filterMap fun entry =>
    if [.input, .output, .errors].contains entry.2 then some entry.1 else none
  match Condition.holds ⟨← Task.files, terminals⟩ words with
  | .ok holds => return if holds then 0 else 1
  | .error complaint => Task.fail complaint

def test : Builtin := decide

def bracket : Builtin := fun words => do
  if words.getLast? = some [']'] then decide words.dropLast else Task.fail (raw "missing ]")

/-! ## Reading -/

/-- The characters of a line, of which those behind a backslash are quoted; and whether the line
goes on behind its end. -/
def resolved : Raw → List Glyph × Bool
  | [] => ([], false)
  | '\x5c' :: '\n' :: _ => ([], true)
  | '\x5c' :: char :: rest =>
    let (found, more) := resolved rest
    (⟨char, true⟩ :: found, more)
  | '\x5c' :: [] => ([], false)
  | '\n' :: _ => ([], false)
  | char :: rest =>
    let (found, more) := resolved rest
    (⟨char, false⟩ :: found, more)

/-- Reads a line; whether it had an end comes with it. -/
def lineOf (literal : Bool) : Nat → Task (List Glyph × Bool)
  | 0 => return ([], false)
  | fuel + 1 => do
    match ← Task.receive 0 .line with
    | none => return ([], false)
    | some given =>
      let chars := (Raw.ofBytes given).filter (· != '\x00')
      let ended := chars.getLast? == some '\n'
      if literal then return (glyphs false (chars.filter (· != '\n')), ended)
      match resolved chars with
      | (found, true) =>
        let (more, ended) ← lineOf literal fuel
        return (found ++ more, ended)
      | (found, false) => return (found, ended)

/-- The first field of a line, and what is behind the separator after it. -/
def firstField (separators : List Char) (line : List Glyph) : List Glyph × List Glyph :=
  let separates (glyph : Glyph) := !glyph.quoted && separators.contains glyph.char
  let isBlank (glyph : Glyph) := separates glyph && [' ', '\t', '\n'].contains glyph.char
  let front := line.dropWhile isBlank
  let field := front.takeWhile fun glyph => !separates glyph
  let behind := (front.drop field.length).dropWhile isBlank
  (field,
    match behind with
    | glyph :: rest => if separates glyph then rest.dropWhile isBlank else behind
    | [] => [])

/-- The fields of a line for so many variables, the last of which takes all that is left.  What is
left ends where there are only separators and quoted characters behind a blank. -/
def lineFields (separators : List Char) : Nat → List Glyph → List Raw
  | 0, _ => []
  | 1, line =>
    let isBlank (glyph : Glyph) :=
      !glyph.quoted && separators.contains glyph.char && [' ', '\t', '\n'].contains glyph.char
    let (field, rest) := firstField separators line
    let whole := line.dropWhile isBlank
    let ending := whole.reverse.takeWhile fun glyph => glyph.quoted || isBlank glyph
    let kept := whole.take (whole.length - ending.length) ++
      ending.reverse.takeWhile fun glyph => !isBlank glyph
    [(if rest.isEmpty then field else kept).map (·.char)]
  | count + 1, line =>
    let (field, rest) := firstField separators line
    field.map (·.char) :: lineFields separators count rest

/-- The number of lines that one line may go on for. -/
def longestLine : Nat := 4096

/-- Fails unless a variable may be called so. -/
def checkName (name : Raw) : Task Unit := do
  if !isName name then Task.fail (name ++ raw ": bad variable name")

def read : Builtin := fun arguments => do
  let (options, names) ← optionsOf "r" "p" arguments
  let scope ← get
  match options.lookup 'p' with
  | some prompt =>
    if (scope.descriptors.lookup 0) = some .input then Task.emit 2 prompt.bytes
  | none => pure ()
  if names.isEmpty then Task.fail (raw "arg count")
  let (line, ended) ← lineOf (options.lookup 'r').isSome longestLine
  let fields := lineFields (← get).separators names.length line
  (names.zip fields).forM fun entry => do
    checkName entry.1
    Task.assign entry.1 entry.2
  return if ended then 0 else 1

end PromptHarness.Shell.Builtin
