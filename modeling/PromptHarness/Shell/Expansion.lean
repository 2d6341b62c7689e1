import PromptHarness.Shell.Calculation
import PromptHarness.Shell.Scope

/-!
# Expanding words

A word becomes a row of crumbs: characters, each with where it came from, and the boundaries that
are there already.  What came from a value outside quotes falls apart at separators, and only there;
quotes and arguments make fields even where they hold nothing.
-/

namespace PromptHarness.Shell

/-- Where a character of a word came from. -/
inductive Origin where
  /-- The script, outside quotes. -/
  | written
  | quoted
  /-- A value, outside quotes. -/
  | value
  deriving Repr, DecidableEq

/-- A piece of a word that is expanded. -/
inductive Crumb where
  | char (char : Char) (origin : Origin)
  /-- Something that may be empty and makes a field all the same. -/
  | presence
  /-- The boundary between two arguments. -/
  | cut
  deriving Repr, DecidableEq

/-! ## Fields -/

/-- What the splitting of crumbs has come to. -/
inductive Edge where
  /-- A field, or the beginning. -/
  | none
  /-- A field has ended with blanks, which a separator may still follow. -/
  | soft
  | hard
  deriving Repr, DecidableEq

/-- How far crumbs have been put into fields. -/
structure Split where
  /-- The fields that have ended, the last one first. -/
  ended : List (List Glyph)
  /-- The field that may go on, in reverse. -/
  open? : Option (List Glyph)
  edge : Edge

/-- Separators of this kind count once, however many there are. -/
def isBlankSeparator (char : Char) : Bool := char == ' ' || char == '\t' || char == '\n'

/-- Ends the field that may go on. -/
def Split.finish (split : Split) (edge : Edge) : Split :=
  ⟨(split.open?.map List.reverse).toList ++ split.ended, none, edge⟩

/-- Puts the next crumb in its place. -/
def Split.add (separators : List Char) (split : Split) : Crumb → Split
  | .presence => { split with open? := some (split.open?.getD []), edge := .none }
  | .cut => split.finish .none
  | .char char origin =>
    if origin = .value ∧ separators.contains char then
      if isBlankSeparator char then
        if split.open?.isSome then split.finish .soft else split
      else if split.open?.isSome ∨ split.edge = .soft then split.finish .hard
      else ⟨[] :: split.ended, none, .hard⟩
    else
      ⟨split.ended, some (⟨char, origin = .quoted⟩ :: split.open?.getD []), .none⟩

def fields (separators : List Char) (crumbs : List Crumb) : List (List Glyph) :=
  ((crumbs.foldl (Split.add separators) ⟨[], none, .none⟩).finish .none).ended.reverse

/-- The crumbs as one field, with a separator between arguments. -/
def wholly (separator : List Char) (crumbs : List Crumb) : List Glyph :=
  crumbs.flatMap fun
    | .char char origin => [⟨char, origin = .quoted⟩]
    | .presence => []
    | .cut => glyphs true separator

def unquoted (glyphs : List Glyph) : List Char := glyphs.map (·.char)

/-- In a pattern a backslash that came from a value protects the character behind it. -/
def protect : List Glyph → List Glyph
  | ⟨'\x5c', false⟩ :: ⟨char, _⟩ :: rest => ⟨char, true⟩ :: protect rest
  | glyph :: rest => glyph :: protect rest
  | [] => []

def pattern (glyphs : List Glyph) : Pattern := Pattern.ofWord (protect glyphs)

/-! ## Values -/

def crumbs (quoted : Bool) (chars : List Char) : List Crumb :=
  (if quoted then [.presence] else []) ++
    chars.map fun char => .char char (if quoted then .quoted else .value)

/-- The arguments, in one field if they are quoted as one and else each in its own. -/
def argumentCrumbs (scope : Scope) (quoted : Bool) (name : List Char) : List Crumb :=
  if quoted ∧ name = ['*'] then
    crumbs true (scope.separator.intercalate scope.arguments)
  else (scope.arguments.map (crumbs quoted)).intersperse [.cut] |>.flatten

/-- The parameters that stand for all arguments. -/
def isArguments (name : List Char) : Bool := name == ['@'] || name == ['*']

/-- The crumbs of a parameter, if it has a value. -/
def valueCrumbs? (scope : Scope) (quoted : Bool) (name : List Char) : Option (List Crumb) :=
  if isArguments name then
    if scope.arguments.isEmpty then none else some (argumentCrumbs scope quoted name)
  else (scope.parameter? name).map (crumbs quoted)

def valueText (scope : Scope) (name : List Char) : List Char :=
  if isArguments name then scope.separator.intercalate scope.arguments
  else (scope.parameter? name).getD []

/-- Whether a parameter counts as having a value, where empty ones may be left out. -/
def isPresent (scope : Scope) (empty : Bool) (name : List Char) : Bool :=
  if isArguments name then
    !scope.arguments.isEmpty && !(empty && (valueText scope name).isEmpty)
  else match scope.parameter? name with
    | some value => !(empty && value.isEmpty)
    | none => false

/-- A tilde at the front of a text, with what it stands for; the text may be followed by other
parts of its word. -/
def homeOf (scope : Scope) (last : Bool) (chars : List Char) : Option (List Char × List Char) :=
  match chars with
  | '~' :: rest =>
    let name := rest.takeWhile fun char => char != '/' && char != ':'
    let behind := rest.dropWhile fun char => char != '/' && char != ':'
    if behind.isEmpty && !last then none
    else if name.isEmpty then (scope.value? ['H', 'O', 'M', 'E']).map fun home => (home, behind)
    else if name = raw "root" then some (raw "/root", behind)
    else none
  | _ => none

/-- The crumbs of a written text, in which a tilde may stand for a home: at the front, and behind
colons where a variable is assigned. -/
def writtenCrumbs (scope : Scope) (front assigned last : Bool) : Nat → List Char → List Crumb
  | 0, _ => []
  | fuel + 1, text =>
    match (if front then homeOf scope last text else none), text with
    | some (home, behind), _ =>
      crumbs true home ++ writtenCrumbs scope false assigned last fuel behind
    | none, char :: rest =>
      .char char .written :: writtenCrumbs scope (assigned && char == ':') assigned last fuel rest
    | none, [] => []

/-- Drops the ends of lines at the end of what a command wrote. -/
def chomp (chars : List Char) : List Char :=
  ((chars.reverse.dropWhile (· == '\n')).reverse).filter (· != '\x00')

namespace Task

def compute (expression : List Char) : Task (List Char) := do
  let scope ← get
  match calculate scope.value? (scope.isOn 'u') expression with
  | .ok (value, given) =>
    given.forM fun entry => assign entry.1 (toString entry.2.toInt).toList
    return (toString value.toInt).toList
  | .error (.about complaint) =>
    fail (raw ("arithmetic expression: " ++ complaint ++ ": \x22") ++ expression ++ ['\x22'])
  | .error (.noNumber value) => fail (raw "Illegal number: " ++ value)
  | .error (.unset name) => fail (name ++ raw ": parameter not set")

mutual

/-- The crumbs of a part.  `run` gives what a command inside a word writes. -/
def part (run : Command → Task (List Char)) (front assigned last : Bool) :
    Part → Task (List Crumb)
  | .text true chars => return .presence :: chars.map (.char · .quoted)
  | .text false chars => do
    return writtenCrumbs (← get) front assigned last (2 * chars.length + 2) chars
  | .output quoted command => do
    return crumbs quoted (chomp (← run command))
  | .result quoted expression => do
    let found ← parts run false false expression
    return crumbs quoted (← compute (unquoted (wholly (← get).separator found)))
  | .parameter quoted name use => parameter run quoted name use

def parts (run : Command → Task (List Char)) (front assigned : Bool) :
    List Part → Task (List Crumb)
  | [] => return []
  | .text true [] :: .parameter true ['@'] .value :: rest => do
    let found := argumentCrumbs (← get) true ['@']
    return found ++ (← parts run false assigned rest)
  | first :: rest => do
    let found ← part run front assigned rest.isEmpty first
    return found ++ (← parts run false assigned rest)

/-- The crumbs of a parameter as it is used. -/
def parameter (run : Command → Task (List Char)) (quoted : Bool) (name : List Char) :
    Use → Task (List Crumb)
  | .value => do
    let scope ← get
    match valueCrumbs? scope quoted name with
    | some found => return found
    | none =>
      if scope.isOn 'u' ∧ !isArguments name then fail (name ++ raw ": parameter not set")
      return if quoted ∧ name ≠ ['@'] then [.presence] else []
  | .length => do
    let scope ← get
    if scope.isOn 'u' ∧ !isArguments name ∧ (scope.parameter? name).isNone then
      fail (name ++ raw ": parameter not set")
    return crumbs quoted (toString (valueText scope name).length).toList
  | .orElse empty word => do
    let scope ← get
    if isPresent scope empty name then return (valueCrumbs? scope quoted name).getD []
    else return (if quoted then [.presence] else []) ++ (← parts run true false word)
  | .ifPresent empty word => do
    if isPresent (← get) empty name then
      return (if quoted then [.presence] else []) ++ (← parts run true false word)
    else return if quoted then [.presence] else []
  | .orAssign empty word => do
    let scope ← get
    if isPresent scope empty name then return (valueCrumbs? scope quoted name).getD []
    else
      let found ← parts run true false word
      if !isName name then fail (name ++ raw ": bad variable name")
      let value := unquoted (wholly (← get).separator found)
      assign name value
      return crumbs quoted value
  | .orFail empty word => do
    let scope ← get
    if isPresent scope empty name then return (valueCrumbs? scope quoted name).getD []
    else
      let found ← parts run true false word
      let complaint := unquoted (wholly (← get).separator found)
      let usual := if empty then "parameter not set or null" else "parameter not set"
      fail (name ++ raw ": " ++ if word.isEmpty then raw usual else complaint)
  | .trim side longest word => do
    let scope ← get
    if scope.isOn 'u' ∧ !isArguments name ∧ (scope.parameter? name).isNone then
      fail (name ++ raw ": parameter not set")
    let found ← parts run false false word
    let scope ← get
    let pattern := pattern (wholly scope.separator found)
    return crumbs quoted (Pattern.trim side longest pattern (valueText scope name))
  | .senseless _ => fail (raw "Bad substitution")

end

/-! ## Names of files -/

/-- The names in a directory, in order; hidden ones only where the pattern begins with a dot. -/
def namesIn (files : Files) (place : Place) (pattern : Pattern) : List String :=
  let held := files.entries.filterMap fun entry =>
    if entry.1.dropLast = place ∧ entry.1 ≠ [] then entry.1.getLast? else none
  let wanted (name : String) : Bool :=
    pattern.fits (raw name) &&
      (name.toList.head? != some '.' || pattern.head? == some (.one '.'))
  ("." :: ".." :: held).filter wanted |>.mergeSort fun left right => !(right < left)

/-- The paths that fit patterns between slashes, going on from those found so far. -/
def paths (files : Files) : List (List Glyph) → List (List Char) → List (List Char)
  | [], found => found
  | step :: rest, found =>
    let pattern := pattern step
    let longer := found.flatMap fun path =>
      if pattern.isOpen then
        match files.locate (Raw.text (if path.isEmpty then ['.'] else path)) with
        | .ok place => (namesIn files place pattern).map fun name => path ++ raw name
        | .error _ => []
      else [path ++ unquoted step]
    if rest.isEmpty then
      longer.filter fun path => match files.stat (Raw.text path) with
        | .ok _ => true
        | .error _ => false
    else paths files rest (longer.map (· ++ ['/']))

/-- The paths that a field stands for if it is a pattern for any, and else what it says. -/
def spread (field : List Glyph) : Task (List (List Char)) := do
  if (← get).isOn 'f' ∨ !(pattern field).isOpen then return [unquoted field]
  let files ← files
  match paths files (cutGlyphs field) [[]] with
  | [] => return [unquoted field]
  | found => return found
where
  /-- The stretches between slashes. -/
  cutGlyphs (field : List Glyph) : List (List Glyph) :=
    field.foldr
      (fun glyph steps =>
        match steps with
        | step :: rest => if glyph.char = '/' then [] :: step :: rest else (glyph :: step) :: rest
        | [] => [])
      [[]]

/-! ## Words -/

def expand (run : Command → Task (List Char)) (word : Word) : Task (List (List Char)) := do
  let found ← parts run true false word
  let spreads ← (fields (← get).separators found).mapM spread
  return spreads.flatten

/-- The one text that a word becomes where it is not to fall apart. -/
def expandWhole (run : Command → Task (List Char)) (assigned : Bool) (word : Word) :
    Task (List Glyph) := do
  let found ← parts run true assigned word
  return wholly (← get).separator found

end Task

end PromptHarness.Shell
