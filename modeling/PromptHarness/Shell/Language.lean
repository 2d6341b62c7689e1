import PromptHarness.Text.Utf8

/-!
# The shell's language

What scripts are made of.  A word is a list of parts, each of which knows whether it stands in
quotes; what a part stands for is found out when the word is expanded, never while it is read, so
nothing in the value of a variable is taken for a part of the language.  Texts are lists of
characters that stand for one byte each (`Raw`).
-/

namespace PromptHarness.Shell

/-! ## Texts -/

/-- A text of the shell: its bytes, each as the character of that number. -/
abbrev Raw := List Char

def Raw.ofBytes (bytes : Bytes) : Raw := bytes.map fun byte => Char.ofNat byte.toNat

def Raw.bytes (raw : Raw) : Bytes := raw.map fun char => UInt8.ofNat char.toNat

/-- A text of others as the shell handles it. -/
def raw (text : String) : Raw := Raw.ofBytes (Text.encode text)

def Raw.text (raw : Raw) : String := Text.lossy raw.bytes

theorem Raw.bytes_ofBytes (bytes : Bytes) : Raw.bytes (Raw.ofBytes bytes) = bytes := by
  induction bytes with
  | nil => rfl
  | cons byte rest ih =>
    have small : byte.toNat < 256 := byte.toNat_lt
    have valid : byte.toNat.isValidChar := Or.inl (by omega)
    have same : (Char.ofNat byte.toNat).toNat = byte.toNat := by
      rw [Char.ofNat, dif_pos valid]
      rfl
    simp_all [Raw.bytes, Raw.ofBytes]

theorem bytes_raw (text : String) : Raw.bytes (raw text) = Text.encode text :=
  Raw.bytes_ofBytes _

/-! ## Names -/

def isNameStart (char : Char) : Bool := char.isAlpha || char == '_'

def isNameRest (char : Char) : Bool := char.isAlphanum || char == '_'

def isName : List Char → Bool
  | [] => false
  | first :: rest => isNameStart first && rest.all isNameRest

/-- Parameters with a name of one character that is no letter or digit. -/
def isSpecial (char : Char) : Bool := ['!', '#', '$', '*', '-', '?', '@'].contains char

/-! ## Words and commands -/

/-- Which end of a text something is taken off. -/
inductive Side where
  | left
  | right
  deriving Repr, DecidableEq

inductive Opening where
  | forReading
  /-- What the file held is lost, which can be forbidden. -/
  | forWriting
  /-- What the file held is lost in any case. -/
  | forReplacing
  | forAppending
  | forBoth
  deriving Repr, DecidableEq

mutual

inductive Part where
  | text (quoted : Bool) (chars : List Char)
  | parameter (quoted : Bool) (name : List Char) (use : Use)
  /-- What a command writes. -/
  | output (quoted : Bool) (command : Command)
  /-- What a calculation results in. -/
  | result (quoted : Bool) (expression : List Part)

/-- What is made of the value of a parameter.  Where `empty` holds, an empty value counts as
none. -/
inductive Use where
  | value
  | length
  /-- The word instead of no value. -/
  | orElse (empty : Bool) (word : List Part)
  /-- The word instead of no value, which is then the value. -/
  | orAssign (empty : Bool) (word : List Part)
  /-- No value is a mistake that the word describes. -/
  | orFail (empty : Bool) (word : List Part)
  /-- The word instead of a value. -/
  | ifPresent (empty : Bool) (word : List Part)
  /-- The value without what fits a pattern. -/
  | trim (side : Side) (longest : Bool) (pattern : List Part)
  /-- A use that means nothing. -/
  | senseless (word : List Part)

/-- What a command does to its descriptors. -/
inductive Redirection where
  | file (descriptor : Nat) (opening : Opening) (name : List Part)
  /-- The descriptor becomes a copy of another, or is closed. -/
  | copy (descriptor : Nat) (source : List Part)
  /-- The descriptor reads a text. -/
  | document (descriptor : Nat) (content : List Part)

/-- A command, with the line where it stands if that can be asked for. -/
inductive Command where
  | nothing
  | simple (line : Nat) (settings : List (List Char × List Part)) (words : List (List Part))
    (redirections : List Redirection)
  | define (name : List Char) (body : Command)
  | pipeline (stages : List Command)
  | negation (body : Command)
  | both (first second : Command)
  | either (first second : Command)
  | sequence (first second : Command)
  | background (body : Command)
  | subshell (line : Nat) (body : Command) (redirections : List Redirection)
  | redirected (line : Nat) (body : Command) (redirections : List Redirection)
  | conditional (condition body otherwise : Command)
  /-- Repeats the body while the condition succeeds, or else fails. -/
  | loop (onSuccess : Bool) (condition body : Command)
  | each (line : Nat) (name : List Char) (words : List (List Part)) (body : Command)
  | choice (line : Nat) (subject : List Part) (clauses : List (List (List Part) × Command))

end

abbrev Word := List Part

instance : Inhabited Command := ⟨.nothing⟩

/-- A word of one unquoted text, which is what keywords and names look like. -/
def plain? : Word → Option (List Char)
  | [.text false chars] => some chars
  | _ => none

/-- The word that stands for all arguments, each a field of its own. -/
def allArguments : Word := [.parameter true ['@'] .value]

end PromptHarness.Shell
