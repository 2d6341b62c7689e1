import PromptHarness.Fault
import PromptHarness.Text.Blank
import PromptHarness.Text.Search

/-!
# Announcements

An agent announces the variable by which its clients reach it, in the first line it writes:

    KEY=VALUE[;<ignored metadata>]
    KEY   = [A-Za-z_][A-Za-z0-9_]*
    VALUE = bare word without white space or ';'
          | '…' or "…" literal, taken verbatim (no escapes, no expansion)

Nothing in a value is ever expanded, so a value is exactly what stands in the line.
-/

namespace PromptHarness

/-- The variable that an agent announced. -/
structure Binding where
  key : String
  value : String
  deriving Repr, DecidableEq

namespace Binding

def entry (binding : Binding) : String × String := (binding.key, binding.value)

def isNameStart (char : Char) : Bool := char == '_' || char.isAlpha

def isNameRest (char : Char) : Bool := char == '_' || char.isAlphanum

def isName : List Char → Bool
  | [] => false
  | first :: rest => isNameStart first && rest.all isNameRest

def isQuote (char : Char) : Bool := char == '\x27' || char == '\x22'

/-- The value that stands between quotes, read behind the first of them. -/
def quotedValue? (quote : Char) (text : List Char) : Except AnnouncementFlaw (List Char) :=
  match Text.cut? [quote] text with
  | none => .error .unterminatedQuote
  | some (value, after) =>
    let tail := Text.trimStart after
    if ¬(tail.isEmpty ∨ tail.head? = some ';') then .error .trailingText
    else if value.isEmpty then .error .emptyValue
    else .ok value

def bareValue? (text : List Char) : Except AnnouncementFlaw (List Char) :=
  let value := Text.trimEnd (text.takeWhile (· != ';'))
  if value.isEmpty then .error .emptyValue
  else if value.any Text.isBlank then .error .blankInValue
  else .ok value

def value? : List Char → Except AnnouncementFlaw (List Char)
  | [] => .error .emptyValue
  | first :: rest =>
    if isQuote first then quotedValue? first rest else bareValue? (first :: rest)

/-- The key and the value of a line that has no blanks at its ends. -/
def parts? (line : List Char) : Except AnnouncementFlaw (List Char × List Char) :=
  match Text.cut? ['='] line with
  | none => .error .noEqualsSign
  | some (before, after) =>
    let key := Text.trim before
    if isName key then (value? (Text.trimStart after)).map fun value => (key, value)
    else .error .invalidName

/-- Reads one line of announcement.  A flaw is told together with the line, without the blanks at
its ends. -/
def parse (line : String) : Except AnnouncementFailure Binding :=
  let line := Text.trim line.toList
  match parts? line with
  | .ok (key, value) => .ok ⟨String.ofList key, String.ofList value⟩
  | .error flaw => .error (.malformed flaw (String.ofList line))

end Binding

end PromptHarness
