import PromptHarness.Runner
import PromptHarness.Text.Lines
import PromptHarness.Text.Quoted

/-!
# Assertions on what a command printed

An assertion passes or tells with the whole output why it does not.
-/

namespace PromptHarness

/-- The message of an assertion that failed; nothing if it passed. -/
abbrev Verdict := Option String

def Verdict.require (condition : Bool) (message : String) : Verdict :=
  if condition then none else some message

theorem Verdict.require_eq_none_iff {condition : Bool} {message : String} :
    require condition message = none ↔ condition = true := by
  simp [require]

/-- What an equality that failed says in front of the two sides. -/
def inequality (text : String) : String :=
  "assertion `left == right` failed: " ++ text

def twoSides (left right : List String) : String :=
  "\n  left: " ++ Text.quotedList left ++ "\n right: " ++ Text.quotedList right

/-- How often each line came, every line once. -/
abbrev Tally := List (String × Nat)

namespace Tally

def add : Tally → String → Tally
  | [], line => [(line, 1)]
  | (other, number) :: rest, line =>
    if other = line then (other, number + 1) :: rest else (other, number) :: add rest line

def ofLines (lines : List String) : Tally := lines.foldl add []

/-- As many lines were counted, and each of them as often in the other. -/
def agrees (left right : Tally) : Bool :=
  left.length == right.length && left.all fun (line, number) => right.lookup line == some number

end Tally

namespace CommandResult

/-- The output lines that are not blank, without the carriage returns of the terminal. -/
def lines (result : CommandResult) : List String := Text.printedLines result.output

def assertLines (result : CommandResult) (expected : List String) : Verdict :=
  .require (result.lines == expected)
    (inequality ("Output lines differ.\nFull output:\n" ++ result.output) ++
      twoSides result.lines expected)

def assertLinesUnordered (result : CommandResult) (expected : List String) : Verdict :=
  .require ((Tally.ofLines result.lines).agrees (.ofLines expected))
    (inequality ("Output lines differ (ignoring order).\nFull output:\n" ++ result.output))

def assertContains (result : CommandResult) (text : String) : Verdict :=
  .require (Text.holds text.toList result.output.toList)
    ("Expected output to contain " ++ Text.quoted text ++
      ", but it was not found.\nFull output:\n" ++ result.output)

def passwordCue : String := (Cue.password .master).literal

/-- No password was asked for during the whole run. -/
def assertNoPasswordPrompt (result : CommandResult) : Verdict :=
  .require (!Text.holds passwordCue.toList result.transcript.toList)
    ("Expected no " ++ Text.quoted passwordCue ++
      " prompt, but one was printed.\nTranscript:\n" ++ result.transcript)

end CommandResult

end PromptHarness
