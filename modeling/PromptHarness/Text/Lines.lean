import PromptHarness.Text.Blank
import PromptHarness.Text.Stretches

/-!
# Lines of a text

A line ends at a newline, and a carriage return just before that newline belongs to the line end.
Terminal output is read more freely: all carriage returns at the end of a line go, and blank lines
do not count.
-/

namespace PromptHarness.Text

/-- The line without one carriage return at its end. -/
def dropReturn (line : List Char) : List Char :=
  if line.getLast? = some '\r' then line.dropLast else line

/-- From the stretches of a text to its lines: each stretch that a newline ended loses one carriage
return, and the last one is a line only if it holds something. -/
def closeLines : List (List Char) → List (List Char)
  | [] => []
  | [last] => if last.isEmpty then [] else [last]
  | stretch :: next :: others => dropReturn stretch :: closeLines (next :: others)

/-- The lines of a text, each without its line end. -/
def lineList (text : List Char) : List (List Char) :=
  closeLines (stretches '\n' text)

def lines (text : String) : List String :=
  (lineList text.toList).map String.ofList

/-- The lines that hold more than white space, without the carriage returns that end them. -/
def printedLineList (text : List Char) : List (List Char) :=
  ((lineList text).map (trimEndWhere (· == '\r'))).filter fun line => !line.all isBlank

def printedLines (text : String) : List String :=
  (printedLineList text.toList).map String.ofList

end PromptHarness.Text
