import PromptHarness.Shell.Source

/-!
# Reading words

A word ends at the first mark outside quotes.  Single quotes keep all as it is, double quotes keep
all but `$`, backquotes and some backslashes, and what stands in the braces of a parameter is a word
again, in the quotes around it.
-/

namespace PromptHarness.Shell

/-- What a word, or a part of one, stands in. -/
inductive Setting where
  | bare
  /-- The word that says where a document ends, in which `$` means nothing. -/
  | delimiter
  | quotes
  /-- The braces of a parameter, outside quotes and inside. -/
  | braces
  | quotedBraces
  | document
  | calculation
  deriving Repr, DecidableEq

namespace Setting

def isQuoted : Setting → Bool
  | bare | delimiter | braces => false
  | _ => true

/-- Single and double quotes begin quoted parts here. -/
def takesQuotes : Setting → Bool
  | bare | delimiter | braces => true
  | _ => false

/-- The setting of the braces of a parameter, seen from where the parameter stands. -/
def within (setting : Setting) : Setting :=
  if setting.isQuoted then quotedBraces else braces

/-- Whether a backslash before the character is taken away, where not all backslashes are. -/
def resolves (setting : Setting) (char : Char) : Bool :=
  ['\x5c', '\x60', '$'].contains char || (char == '\x22' && setting != document) ||
    (char == '\x7d' && setting == quotedBraces)

end Setting

def endsWord (char : Char) : Bool :=
  ['\n', '\t', ' ', ';', '&', '|', '(', ')', '<', '>'].contains char

/-- Puts texts that touch and are quoted alike together. -/
def merge (parts : List Part) : List Part :=
  parts.foldr
    (fun part parts =>
      match part, parts with
      | .text true left, .text true right :: rest => .text true (left ++ right) :: rest
      | .text false left, .text false right :: rest => .text false (left ++ right) :: rest
      | part, parts => part :: parts)
    []

/-- Tells the uses apart that begin with a character behind the name of a parameter. -/
def useOf (char : Char) (empty : Bool) (word : List Part) : Use :=
  if char = '-' then .orElse empty word
  else if char = '=' then .orAssign empty word
  else if char = '?' then .orFail empty word
  else if char = '+' then .ifPresent empty word
  else .senseless word

/-- The text between backquotes, behind the first.  A backslash goes where it protects a character
that means something there. -/
def backquoted (quoted : Bool) : Nat → Read (List Char)
  | 0 => return []
  | fuel + 1 => do
    let _ ← Read.glance
    match ← Read.take with
    | none => Read.failAtEnd "EOF in backquote substitution"
    | some '\x60' => return []
    | some '\x5c' =>
      match ← Read.take with
      | none => Read.failAtEnd "EOF in backquote substitution"
      | some char =>
        let goes := ['\x5c', '\x60', '$'].contains char || (quoted && char == '\x22')
        return (if goes then [char] else ['\x5c', char]) ++ (← backquoted quoted fuel)
    | some char => return char :: (← backquoted quoted fuel)

def singleQuoted : Nat → Read (List Char)
  | 0 => return []
  | fuel + 1 => do
    match ← Read.take with
    | none => Read.failAtEnd "Unterminated quoted string"
    | some '\x27' => return []
    | some char => return char :: (← singleQuoted fuel)

/-- The name of a parameter in braces.  A single `#` before it asks for the length; what it is
followed by tells it from the parameter `#`. -/
def bracedName (fuel : Nat) : Read (Bool × List Char) := do
  match ← Read.glance with
  | some '#' =>
    let source ← get
    Read.drop
    match ← Read.glance with
    | some char =>
      if isNameRest char then
        return (true, ← name char)
      else if isSpecial char then
        Read.drop
        if (← Read.glance) = some '\x7d' then return (true, [char])
        set source
        Read.drop
        return (false, ['#'])
      else return (false, ['#'])
    | none => return (false, ['#'])
  | some char =>
    if isNameRest char then return (false, ← name char)
    else if isSpecial char then
      Read.drop
      return (false, [char])
    else return (false, [])
  | none => return (false, [])
where
  name (first : Char) : Read (List Char) :=
    Read.span (if first.isDigit then Char.isDigit else isNameRest) fuel

mutual

/-- The parts of a word up to its end, with the mark that ends it where it stands in one. -/
def parts (inner : Read Command) (setting : Setting) (depth : Nat) : Nat → Read (List Part)
  | 0 => return []
  | fuel + 1 => do
    let some char ← Read.glance | atEnd setting
    let more (part : Part) : Read (List Part) :=
      return part :: (← parts inner setting depth fuel)
    let plain : Read (List Part) := do
      Read.drop
      more (.text setting.isQuoted [char])
    match char with
    | '\x5c' =>
      Read.drop
      match ← Read.take with
      | none => more (.text true ['\x5c'])
      | some next =>
        if setting.isQuoted && !setting.resolves next then more (.text true ['\x5c', next])
        else more (.text true [next])
    | '\x27' =>
      if setting.takesQuotes then
        Read.drop
        let chars ← singleQuoted fuel
        more (.text true chars)
      else plain
    | '\x22' =>
      if setting = .quotes then
        Read.drop
        return []
      else if setting.takesQuotes || setting = .quotedBraces then
        Read.drop
        let quoted ← parts inner .quotes 0 fuel
        return .text true [] :: quoted ++ (← parts inner setting depth fuel)
      else plain
    | '$' =>
      if setting = .delimiter then plain
      else
        Read.drop
        let found ← dollar inner setting fuel
        return found :: (← parts inner setting depth fuel)
    | '\x60' =>
      if setting = .delimiter then
        Read.drop
        more (.text true [char])
      else
        Read.drop
        let chars ← backquoted setting.isQuoted fuel
        let command ← Read.aside chars 1 inner
        more (.output setting.isQuoted command)
    | '\x7d' =>
      if setting = .braces ∨ setting = .quotedBraces then
        Read.drop
        return []
      else plain
    | '(' =>
      if setting = .calculation then
        Read.drop
        return .text true ['('] :: (← parts inner setting (depth + 1) fuel)
      else if setting = .bare ∨ setting = .delimiter then return []
      else plain
    | ')' =>
      if setting = .calculation then
        Read.drop
        if 0 < depth then return .text true [')'] :: (← parts inner setting (depth - 1) fuel)
        else if ← Read.skips ')' then return []
        else more (.text true [')'])
      else if setting = .bare ∨ setting = .delimiter then return []
      else plain
    | char =>
      if (setting = .bare ∨ setting = .delimiter) ∧ endsWord char then return []
      else plain
where
  atEnd : Setting → Read (List Part)
    | .bare | .delimiter | .document => return []
    | .calculation => Read.failAtEnd "Missing \x27))\x27"
    | .braces => Read.failAtEnd "Missing \x27\x7d\x27"
    | .quotes | .quotedBraces => Read.failAtEnd "Unterminated quoted string"

/-- The part that begins with a dollar, which has been taken. -/
def dollar (inner : Read Command) (setting : Setting) : Nat → Read Part
  | 0 => return .text setting.isQuoted ['$']
  | fuel + 1 => do
    let quoted := setting.isQuoted
    match ← Read.glance with
    | some '(' =>
      Read.drop
      if ← Read.skips '(' then
        return .result quoted (merge (← parts inner .calculation 0 fuel))
      else
        let command ← inner
        Read.close
        return .output quoted command
    | some '\x7b' =>
      Read.drop
      let (length, name) ← bracedName fuel
      if length ∨ name.isEmpty then
        let word ← parts inner setting.within 0 fuel
        return .parameter quoted name (if length && word.isEmpty then .length else .senseless word)
      let empty ← Read.skips ':'
      match ← Read.glance with
      | some '\x7d' =>
        Read.drop
        if empty then
          return .parameter quoted name (.senseless (← parts inner setting.within 0 fuel))
        return .parameter quoted name .value
      | none => return .parameter quoted name (.senseless (← parts inner setting.within 0 fuel))
      | some char =>
        Read.drop
        if (char = '#' ∨ char = '%') ∧ !empty then
          let longest ← Read.skips char
          let pattern ← parts inner .braces 0 fuel
          return .parameter quoted name
            (.trim (if char = '#' then .left else .right) longest (merge pattern))
        let word ← parts inner setting.within 0 fuel
        return .parameter quoted name (useOf char empty (merge word))
    | some char =>
      if isNameStart char then
        return .parameter quoted (← Read.span isNameRest fuel) .value
      else if char.isDigit ∨ isSpecial char then
        Read.drop
        return .parameter quoted [char] .value
      else return .text quoted ['$']
    | none => return .text quoted ['$']

end

end PromptHarness.Shell
