import PromptHarness.Text.Quoted.Unmarked

/-!
# Quoted text

A text between double quotes, in which every character either shows or is written by its code, so
that nothing in a message can hide.
-/

namespace PromptHarness.Text

/-- A natural number in hexadecimal, with small letters and no leading zero. -/
def hexadecimal (number : Nat) : String :=
  String.ofList (Nat.toDigits 16 number)

/-- A character as it stands inside quotes: the double quote and the backslash behind a backslash,
the four named controls by their letter, whatever leaves no mark by its code. -/
def quotedChar (char : Char) : String :=
  if char = '\x22' then "\\\""
  else if char = '\x5c' then "\\\\"
  else if char = '\n' then "\\n"
  else if char = '\r' then "\\r"
  else if char = '\t' then "\\t"
  else if char = '\x00' then "\\0"
  else if char.toNat < 0x20 || char.toNat = 0x7f || isUnmarked char then
    "\\u\x7b" ++ hexadecimal char.toNat ++ "\x7d"
  else char.toString

def quoted (text : String) : String :=
  "\"" ++ String.join (text.toList.map quotedChar) ++ "\""

def quotedList (texts : List String) : String :=
  "[" ++ ", ".intercalate (texts.map quoted) ++ "]"

end PromptHarness.Text
