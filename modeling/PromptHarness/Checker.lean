import PromptHarness.Path

/-!
# Memory checkers

A memory checker runs a command and ends with a code of its own where it found a defect.  The code
reserved for that differs from the one expected of the command.
-/

namespace PromptHarness

/-- A memory checker with its further options. -/
structure Checker where
  command : String
  options : List String
  deriving Repr, DecidableEq

/-- A command as it is started under a memory checker. -/
structure CheckedCommand where
  program : String
  arguments : List String
  /-- The code that means a memory defect. -/
  reserved : Int
  logFile : String
  deriving Repr, DecidableEq

namespace Checker

/-- The smallest code from 1 on that is not expected of the command. -/
def reservedCode (expected : Int) : Int :=
  if expected = 1 then 2 else 1

theorem reservedCode_ne (expected : Int) : reservedCode expected ≠ expected := by
  unfold reservedCode
  split <;> omega

def wrap (checker : Checker) (program : String) (arguments : List String) (logFile : String)
    (expected : Int) : CheckedCommand where
  program := checker.command
  arguments :=
    ["--log-file=" ++ logFile, "--error-exitcode=" ++ toString (reservedCode expected)] ++
      checker.options ++ program :: arguments
  reserved := reservedCode expected
  logFile := logFile

def logFile (directory test : String) : String :=
  Path.join directory ("valgrind-" ++ test ++ ".log")

/-- A name of several parts with a dot instead of each double colon, from left to right. -/
def dotted : List Char → List Char
  | ':' :: ':' :: rest => '.' :: dotted rest
  | char :: rest => char :: dotted rest
  | [] => []

/-- What a test is called after the thread it runs on; where that has no name of its own, after the
process. -/
def testName (thread : Option String) (process : String) : String :=
  match thread with
  | none => "pid" ++ process
  | some name => if name = "main" then "pid" ++ process else String.ofList (dotted name.toList)

end Checker

end PromptHarness
