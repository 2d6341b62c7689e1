import PromptHarness.Text.Utf8

/-!
# Names in complaints

How small programs write the names they complain about.  `shellQuoted` writes a name so that a shell
would read it back, in quotes only where it needs them; `quoted` always puts it between quotation
marks.  Bytes beyond ASCII are written by their numbers.
-/

namespace PromptHarness.Utility

def mark : Char := '\x27'

def controlLetter? (byte : UInt8) : Option Char :=
  [(7, 'a'), (8, 'b'), (9, 't'), (10, 'n'), (11, 'v'), (12, 'f'), (13, 'r')].lookup byte.toNat

/-- A byte that is no printed ASCII character, behind a backslash. -/
def escaped (byte : UInt8) : List Char :=
  match controlLetter? byte with
  | some letter => ['\x5c', letter]
  | none =>
    let digit (value : Nat) : Char := Char.ofNat ('0'.toNat + value % 8)
    ['\x5c', digit (byte.toNat / 64), digit (byte.toNat / 8), digit byte.toNat]

def isPrinted (byte : UInt8) : Bool := 32 ≤ byte && byte < 127

def charOf (byte : UInt8) : Char := Char.ofNat byte.toNat

def quoted (text : String) : String :=
  String.ofList (mark :: ((Text.encode text).flatMap fun byte =>
    if !isPrinted byte then escaped byte
    else if charOf byte = mark ∨ charOf byte = '\x5c' then ['\x5c', charOf byte]
    else [charOf byte]) ++ [mark])

def isActive (char : Char) : Bool :=
  [' ', '!', '\x22', '$', '&', '\x27', '(', ')', '*', ';', '<', '=', '>', '?', '[', '\x5c', '^',
    '\x60', '|'].contains char

/-- Whether a shell would take the bytes as they are. -/
def isPlain (bytes : Bytes) : Bool :=
  match bytes.map charOf with
  | [] => false
  | ['\x7b'] | ['\x7d'] => false
  | first :: rest =>
    first != '#' && first != '~' && bytes.all isPrinted && (first :: rest).all (!isActive ·)

/-- Single quotes around bytes; those that are not printed stand in quotes of another kind. -/
def singleQuoted (inEscape : Bool) : Bytes → List Char
  | [] => [mark]
  | byte :: rest =>
    if !isPrinted byte then
      (if inEscape then [] else [mark, '$', mark]) ++ escaped byte ++ singleQuoted true rest
    else
      (if inEscape then [mark, mark] else []) ++
        (if charOf byte = mark then [mark, '\x5c', mark, mark] else [charOf byte]) ++
        singleQuoted false rest

/-- A name as a shell would read it back, in quotes. -/
def shellQuoted (text : String) : String :=
  let bytes := Text.encode text
  let chars := bytes.map charOf
  let harmless (char : Char) : Bool :=
    char == mark || char == ' ' || char == '#' || char == '~' || !isActive char
  if chars.contains mark ∧ bytes.all isPrinted ∧ chars.all harmless then
    String.ofList ('\x22' :: chars ++ ['\x22'])
  else String.ofList (mark :: singleQuoted false bytes)

/-- The same, in quotes only where they are needed; a colon needs them too. -/
def shellName (text : String) : String :=
  if isPlain (Text.encode text) ∧ ¬text.toList.contains ':' then text else shellQuoted text

end PromptHarness.Utility
