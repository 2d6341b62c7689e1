import PromptHarness.Shell.Language

/-!
# Patterns

A pattern describes texts: `*` stands for any text, `?` for any character and brackets for some
characters, unless they are quoted.  `fits` decides whether a whole text is as described, and `trim`
takes a part that is off one of the ends.
-/

namespace PromptHarness.Shell

/-- A character together with whether it is quoted. -/
structure Glyph where
  char : Char
  quoted : Bool
  deriving Repr, DecidableEq

/-- Characters that are all quoted, or all not. -/
def glyphs (quoted : Bool) (chars : List Char) : List Glyph :=
  chars.map fun char => ⟨char, quoted⟩

/-- The kinds of characters that have a name. -/
def classes : List (String × (Char → Bool)) :=
  let printed (char : Char) := ' ' < char && char < '\x7f'
  [("alpha", Char.isAlpha), ("digit", Char.isDigit), ("alnum", Char.isAlphanum),
    ("upper", Char.isUpper), ("lower", Char.isLower),
    ("blank", fun char => char == ' ' || char == '\t'),
    ("space", fun char => char == ' ' || ('\t' ≤ char && char ≤ '\x0d')),
    ("punct", fun char => printed char && !char.isAlphanum), ("graph", printed),
    ("print", fun char => char == ' ' || printed char),
    ("cntrl", fun char => char < ' ' || char == '\x7f'),
    ("xdigit", fun char =>
      char.isDigit || ('a' ≤ char && char ≤ 'f') || ('A' ≤ char && char ≤ 'F'))]

/-- What stands in brackets. -/
inductive Choice where
  | range (first last : Char)
  | kind (name : String)
  deriving Repr, DecidableEq

def Choice.holds (char : Char) : Choice → Bool
  | range first last => first ≤ char && char ≤ last
  | kind name => ((classes.lookup name).map fun test => test char).getD false

inductive Atom where
  | one (char : Char)
  | any
  | run
  | oneOf (negated : Bool) (choices : List Choice)
  deriving Repr, DecidableEq

/-- A pattern, which a text fits as a whole. -/
abbrev Pattern := List Atom

namespace Pattern

/-- The name of a kind of characters, behind its opening, and what follows its closing. -/
def kindName? (glyphs : List Glyph) : Option (String × List Glyph) :=
  let name := glyphs.takeWhile fun glyph => glyph.char.isAlpha
  match glyphs.dropWhile fun glyph => glyph.char.isAlpha with
  | ⟨':', false⟩ :: ⟨']', false⟩ :: rest => some (String.ofList (name.map (·.char)), rest)
  | _ => none

/-- The choices up to the closing bracket, which may come first without closing anything. -/
def choices (first : Bool) : Nat → List Glyph → Option (List Choice × List Glyph)
  | 0, _ => none
  | fuel + 1, glyphs =>
    match glyphs with
    | [] => none
    | ⟨']', false⟩ :: rest =>
      if first then more (.range ']' ']') rest fuel else some ([], rest)
    | ⟨'[', false⟩ :: ⟨':', false⟩ :: rest =>
      match kindName? rest with
      | some (name, rest) => more (.kind name) rest fuel
      | none => more (.range '[' '[') (⟨':', false⟩ :: rest) fuel
    | ⟨first, _⟩ :: ⟨'-', false⟩ :: ⟨last, quoted⟩ :: rest =>
      if last = ']' ∧ ¬quoted then
        more (.range first first) (⟨'-', false⟩ :: ⟨last, quoted⟩ :: rest) fuel
      else more (.range first last) rest fuel
    | ⟨char, _⟩ :: rest => more (.range char char) rest fuel
where
  more (choice : Choice) (rest : List Glyph) (fuel : Nat) : Option (List Choice × List Glyph) :=
    (choices false fuel rest).map fun (found, behind) => (choice :: found, behind)

/-- The pattern that characters make; a bracket that is not closed stands for itself. -/
def ofGlyphs : Nat → List Glyph → Pattern
  | 0, _ => []
  | fuel + 1, glyphs =>
    match glyphs with
    | [] => []
    | ⟨'*', false⟩ :: rest => .run :: ofGlyphs fuel rest
    | ⟨'?', false⟩ :: rest => .any :: ofGlyphs fuel rest
    | ⟨'[', false⟩ :: rest =>
      let (negated, inside) := match rest with
        | ⟨'!', false⟩ :: inside => (true, inside)
        | inside => (false, inside)
      match choices true (inside.length + 1) inside with
      | some (found, behind) => .oneOf negated found :: ofGlyphs fuel behind
      | none => .one '[' :: ofGlyphs fuel rest
    | ⟨char, _⟩ :: rest => .one char :: ofGlyphs fuel rest

def ofWord (glyphs : List Glyph) : Pattern := ofGlyphs (glyphs.length + 1) glyphs

/-- Some characters stand for others. -/
def isOpen (pattern : Pattern) : Bool :=
  pattern.any fun
    | .one _ => false
    | _ => true

/-- A text and all that is left of it when characters are taken off its front. -/
def tails : List Char → List (List Char)
  | [] => [[]]
  | char :: rest => (char :: rest) :: tails rest

def fits : Pattern → List Char → Bool
  | [], chars => chars.isEmpty
  | .run :: rest, chars => (tails chars).any (fits rest)
  | .one wanted :: rest, char :: chars => wanted == char && fits rest chars
  | .any :: rest, _ :: chars => fits rest chars
  | .oneOf negated choices :: rest, char :: chars =>
    (choices.any (·.holds char)) != negated && fits rest chars
  | _ :: _, [] => false

/-- The text without a part at one of its ends that fits, the longest or the shortest; all of the
text where no part does. -/
def trim (side : Side) (longest : Bool) (pattern : Pattern) (chars : List Char) : List Char :=
  let counts := List.range (chars.length + 1)
  let ordered := if longest then counts.reverse else counts
  match side with
  | .left =>
    match ordered.find? fun count => fits pattern (chars.take count) with
    | some count => chars.drop count
    | none => chars
  | .right =>
    match ordered.find? fun count => fits pattern (chars.drop (chars.length - count)) with
    | some count => chars.take (chars.length - count)
    | none => chars

end Pattern

end PromptHarness.Shell
