/-!
# Tokens of a TOML document

The reader of tokens looks at one character at a time and knows nothing of where keys and values
stand: a run of plain characters is a token of its own, and so is a dot.  Strings come out with
their escapes resolved; comments leave no trace but the newline behind them.
-/

namespace PromptHarness.Toml

inductive Token where
  /-- Spaces and tabs, and whether they are one space only. -/
  | blank (single : Bool)
  | newline
  | dot
  /-- A run of letters, digits and the signs that numbers and dates are written with. -/
  | bare (chars : List Char)
  /-- A string; one over several lines cannot be a key. -/
  | text (chars : List Char) (long : Bool)
  /-- One of `=`, `,`, `[`, `]`, and the two braces. -/
  | mark (char : Char)
  deriving Repr, DecidableEq

/-- The two kinds of strings: those with escapes and those without. -/
inductive Quote where
  | basic
  | literal
  deriving Repr, DecidableEq

def Quote.char : Quote → Char
  | basic => '\x22'
  | literal => '\x27'

/-- Where the reader of tokens stands. -/
inductive Lexer where
  | plain
  | spaces (single : Bool)
  | bare (chars : List Char)
  /-- After a carriage return outside strings and comments, or in a comment. -/
  | returned
  | comment
  /-- After one or two quotes that begin a string. -/
  | opening (quote : Quote) (second : Bool)
  | short (quote : Quote) (chars : List Char)
  /-- At the very beginning of a string over several lines. -/
  | longStart (quote : Quote)
  /-- In such a string, after a run of some quotes. -/
  | long (quote : Quote) (chars : List Char) (quotes : Nat)
  /-- After a carriage return in such a string; the one at its beginning is not kept. -/
  | longReturned (quote : Quote) (chars : List Char) (kept : Bool)
  | escape (long : Bool) (chars : List Char)
  /-- In an escape by code, with so many digits to come. -/
  | code (long : Bool) (chars : List Char) (digits value : Nat)
  /-- After a backslash at the end of a line: blanks go until something else comes. -/
  | folding (chars : List Char) (ended : Bool)
  | foldingReturned (chars : List Char)
  deriving Repr, DecidableEq

namespace Lexer

def isBare (char : Char) : Bool :=
  char.isAlphanum || ['_', '-', '+', ':'].contains char

def isMark (char : Char) : Bool :=
  ['=', ',', '[', ']', '\x7b', '\x7d'].contains char

/-- Characters that may stand in comments and strings as they are. -/
def isShown (char : Char) : Bool :=
  char == '\t' || (0x20 ≤ char.toNat && char.toNat != 0x7f)

/-- A character where no token is under way. -/
def begin (char : Char) : Option (List Token × Lexer) :=
  if char = ' ' then some ([], spaces true)
  else if char = '\t' then some ([], spaces false)
  else if char = '\n' then some ([.newline], plain)
  else if char = '\r' then some ([], returned)
  else if char = '#' then some ([], comment)
  else if char = '.' then some ([.dot], plain)
  else if isMark char then some ([.mark char], plain)
  else if char = '\x22' then some ([], opening .basic false)
  else if char = '\x27' then some ([], opening .literal false)
  else if isBare char then some ([], bare [char])
  else none

/-- A character behind a token that it ended. -/
def after (token : Token) (char : Char) : Option (List Token × Lexer) :=
  (begin char).map fun (tokens, lexer) => (token :: tokens, lexer)

/-- A character in a string on one line. -/
def inShort (quote : Quote) (chars : List Char) (char : Char) : Option (List Token × Lexer) :=
  if char = quote.char then some ([.text chars false], plain)
  else if quote = .basic ∧ char = '\x5c' then some ([], escape false chars)
  else if isShown char then some ([], short quote (chars ++ [char]))
  else none

/-- The quotes that belong to a string over several lines whose end has so many of them. -/
def kept (quote : Quote) (quotes : Nat) : List Char :=
  List.replicate (quotes - 3) quote.char

/-- A character in a string over several lines that is not a quote. -/
def inLong (quote : Quote) (chars : List Char) (char : Char) : Option (List Token × Lexer) :=
  if char = '\n' then some ([], long quote (chars ++ [char]) 0)
  else if char = '\r' then some ([], longReturned quote (chars ++ [char]) true)
  else if quote = .basic ∧ char = '\x5c' then some ([], escape true chars)
  else if isShown char then some ([], long quote (chars ++ [char]) 0)
  else none

/-- The reader back in the string that an escape stood in. -/
def resume (isLong : Bool) (chars : List Char) : Lexer :=
  if isLong then long .basic chars 0 else short .basic chars

/-- What the letters behind a backslash stand for. -/
def escapes : List (Char × Char) :=
  [('b', '\x08'), ('t', '\t'), ('n', '\n'), ('f', '\x0c'), ('r', '\r'), ('e', '\x1b'),
    ('\x22', '\x22'), ('\x5c', '\x5c')]

/-- How many digits follow the letters that begin an escape by code. -/
def codeLengths : List (Char × Nat) := [('x', 2), ('u', 4), ('U', 8)]

def digit? (char : Char) : Option Nat :=
  if char.isDigit then some (char.toNat - '0'.toNat)
  else if 'a' ≤ char ∧ char ≤ 'f' then some (char.toNat - 'a'.toNat + 10)
  else if 'A' ≤ char ∧ char ≤ 'F' then some (char.toNat - 'A'.toNat + 10)
  else none

def char? (value : Nat) : Option Char :=
  if value.isValidChar then some (Char.ofNat value) else none

/-- One character, with the tokens it completes; nothing where the document is malformed. -/
def feed : Lexer → Char → Option (List Token × Lexer)
  | plain, char => begin char
  | spaces single, char =>
    if char = ' ' ∨ char = '\t' then some ([], spaces false) else after (.blank single) char
  | bare chars, char =>
    if isBare char then some ([], bare (chars ++ [char])) else after (.bare chars) char
  | returned, char => if char = '\n' then some ([.newline], plain) else none
  | comment, char =>
    if char = '\n' then some ([.newline], plain)
    else if char = '\r' then some ([], returned)
    else if isShown char then some ([], comment)
    else none
  | opening quote false, char =>
    if char = quote.char then some ([], opening quote true) else inShort quote [] char
  | opening quote true, char =>
    if char = quote.char then some ([], longStart quote) else after (.text [] false) char
  | short quote chars, char => inShort quote chars char
  | longStart quote, char =>
    if char = '\n' then some ([], long quote [] 0)
    else if char = '\r' then some ([], longReturned quote [] false)
    else if char = quote.char then some ([], long quote [] 1)
    else inLong quote [] char
  | long quote chars quotes, char =>
    if char = quote.char then
      if quotes = 4 then some ([.text (chars ++ kept quote 5) true], plain)
      else some ([], long quote chars (quotes + 1))
    else if 3 ≤ quotes then after (.text (chars ++ kept quote quotes) true) char
    else inLong quote (chars ++ List.replicate quotes quote.char) char
  | longReturned quote chars isKept, char =>
    if char = '\n' then
      some ([], long quote (if isKept then chars ++ [char] else chars) 0)
    else none
  | escape isLong chars, char =>
    match escapes.lookup char, codeLengths.lookup char with
    | some meant, _ => some ([], resume isLong (chars ++ [meant]))
    | none, some digits => some ([], code isLong chars digits 0)
    | none, none =>
      if isLong ∧ char = '\n' then some ([], folding chars true)
      else if isLong ∧ (char = ' ' ∨ char = '\t') then some ([], folding chars false)
      else if isLong ∧ char = '\r' then some ([], foldingReturned chars)
      else none
  | code isLong chars digits value, char => do
    let value := value * 16 + (← digit? char)
    if digits ≤ 1 then
      return ([], resume isLong (chars ++ [← char? value]))
    else
      return ([], code isLong chars (digits - 1) value)
  | folding chars ended, char =>
    if char = '\n' then some ([], folding chars true)
    else if char = ' ' ∨ char = '\t' then some ([], folding chars ended)
    else if char = '\r' then some ([], foldingReturned chars)
    else if ¬ended then none
    else if char = '\x22' then some ([], long .basic chars 1)
    else inLong .basic chars char
  | foldingReturned chars, char =>
    if char = '\n' then some ([], folding chars true) else none

/-- The tokens at the end of the document, if no string is left open there. -/
def finish : Lexer → Option (List Token)
  | plain | comment => some []
  | spaces single => some [.blank single]
  | bare chars => some [.bare chars]
  | opening _ true => some [.text [] false]
  | long quote chars quotes =>
    if 3 ≤ quotes then some [.text (chars ++ kept quote quotes) true] else none
  | _ => none

def run (lexer : Lexer) : List Char → Option (List Token)
  | [] => lexer.finish
  | char :: rest => do
    let (tokens, next) ← lexer.feed char
    return tokens ++ (← next.run rest)

end Lexer

/-- The tokens of a document, which a byte order mark may precede. -/
def tokens? (document : List Char) : Option (List Token) :=
  Lexer.plain.run (if document.head? = some '\ufeff' then document.tail else document)

end PromptHarness.Toml
