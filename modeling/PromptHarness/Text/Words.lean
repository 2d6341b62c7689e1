/-!
# Shell words

Splitting a line into words as a shell does, without expanding anything: blanks separate, quotes
group, a backslash takes the next character literally, a `#` where a word could begin hides the
rest of its line.
-/

namespace PromptHarness.Text

/-- Where the splitter stands.  `word` is the word so far. -/
inductive Splitter where
  /-- Between words. -/
  | between
  /-- In a comment. -/
  | comment
  /-- In a word, outside quotes. -/
  | plain (word : List Char)
  /-- After a backslash outside quotes. -/
  | escaped (word : List Char)
  /-- Inside single quotes. -/
  | single (word : List Char)
  /-- Inside double quotes. -/
  | double (word : List Char)
  /-- After a backslash inside double quotes. -/
  | doubleEscaped (word : List Char)
  deriving Repr, DecidableEq

namespace Splitter

/-- Only these separate words. -/
def separates (char : Char) : Bool :=
  char == ' ' || char == '\t' || char == '\n'

/-- A character of a word outside quotes; a finished word comes out on the left. -/
def inWord (word : List Char) (char : Char) : Option (List Char) × Splitter :=
  if separates char then (some word, between)
  else if char = '\x22' then (none, double word)
  else if char = '\x27' then (none, single word)
  else if char = '\x5c' then (none, escaped word)
  else (none, plain (word ++ [char]))

/-- One character; a finished word comes out on the left. -/
def feed : Splitter → Char → Option (List Char) × Splitter
  | between, char =>
    if separates char then (none, between)
    else if char = '#' then (none, comment)
    else inWord [] char
  | comment, char => (none, if char = '\n' then between else comment)
  | plain word, char => inWord word char
  | escaped word, char => (none, plain (if char = '\n' then word else word ++ [char]))
  | single word, char => (none, if char = '\x27' then plain word else single (word ++ [char]))
  | double word, char =>
    if char = '\x22' then (none, plain word)
    else if char = '\x5c' then (none, doubleEscaped word)
    else (none, double (word ++ [char]))
  | doubleEscaped word, char =>
    if char = '\n' then (none, double word)
    else if char = '$' ∨ char.toNat = 0x60 ∨ char = '\x22' ∨ char = '\x5c' then
      (none, double (word ++ [char]))
    else (none, double (word ++ ['\x5c', char]))

/-- The words from here to the end, or nothing if a quote or a backslash is left open. -/
def split : Splitter → List Char → Option (List (List Char))
  | between, [] => some []
  | comment, [] => some []
  | plain word, [] => some [word]
  | escaped _, [] => none
  | single _, [] => none
  | double _, [] => none
  | doubleEscaped _, [] => none
  | splitter, char :: rest =>
    let (finished, next) := splitter.feed char
    (next.split rest).map (finished.toList ++ ·)

end Splitter

/-- The words of a line, or nothing if a quote or a backslash is left open. -/
def words? (line : String) : Option (List String) :=
  (Splitter.between.split line.toList).map (·.map String.ofList)

end PromptHarness.Text
