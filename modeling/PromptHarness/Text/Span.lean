/-!
# Lengths of time as text

A whole number of milliseconds, written in the largest of seconds and milliseconds that it reaches,
with no more decimal places than it needs.
-/

namespace PromptHarness.Text

/-- The decimal places of a number of thousandths, without zeros at their end. -/
def thousandths (count : Nat) : List Char :=
  let digits := [count / 100 % 10, count / 10 % 10, count % 10]
  ((digits.reverse.dropWhile (· == 0)).reverse).map Nat.digitChar

/-- A length of time in milliseconds: `0ns`, `150ms`, `2s`, `1.5s`. -/
def span (milliseconds : Nat) : String :=
  if milliseconds = 0 then "0ns"
  else if milliseconds < 1000 then toString milliseconds ++ "ms"
  else
    let places := thousandths (milliseconds % 1000)
    let fraction := if places.isEmpty then "" else "." ++ String.ofList places
    toString (milliseconds / 1000) ++ fraction ++ "s"

end PromptHarness.Text
