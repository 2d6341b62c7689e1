import PromptHarness.Files
import PromptHarness.Plan
import PromptHarness.Process.Basic
import PromptHarness.Text.Quoted
import PromptHarness.Text.Span

/-!
# Faults

Everything that can make the harness give up, as causes.  No fault is ever recovered from: each is
handed to the caller as it is, with the words of `Fault.message`.
-/

namespace PromptHarness

inductive StartFailure where
  /-- Under a terminal of its own. -/
  | terminal (error : FileError)
  /-- With its output on a pipe. -/
  | pipe (error : FileError)
  | reported (text : String)
  deriving Repr, DecidableEq

def StartFailure.message : StartFailure → String
  | terminal error =>
    "IO error Failed to spawn a command; " ++
      match error.number? with
      | some (_, symbol) => symbol ++ ": " ++ error.description
      | none => "EBADF: Bad file number"
  | pipe .nulInName => "nul byte found in provided data"
  | pipe error => error.message
  | reported text => text

inductive CueFailure where
  | unseen (time : Nat)
  | closed
  | reported (text : String)
  deriving Repr, DecidableEq

def CueFailure.message : CueFailure → String
  | unseen time => "cue not seen within " ++ Text.span time
  | closed => "process closed its terminal first"
  | reported text => text

/-- How an agent was found dead or alive against what was expected of it. -/
inductive LivenessFailure where
  | died (ending : Ending)
  | survived (time : Nat)
  | reported (text : String)
  deriving Repr, DecidableEq

def LivenessFailure.message : LivenessFailure → String
  | died ending => "agent died before stop (" ++ ending.describe ++ ")"
  | survived time => "agent still alive " ++ Text.span time ++ " after SIGTERM"
  | reported text => text

inductive AnnouncementFlaw where
  | noEqualsSign
  | invalidName
  | unterminatedQuote
  | trailingText
  | emptyValue
  | blankInValue
  deriving Repr, DecidableEq

def AnnouncementFlaw.message : AnnouncementFlaw → String
  | noEqualsSign => "missing '='"
  | invalidName => "invalid variable name"
  | unterminatedQuote => "unterminated quoted value"
  | trailingText => "trailing text after quoted value"
  | emptyValue => "empty value"
  | blankInValue => "unquoted value contains whitespace"

def announcementVersion : Nat := 1

inductive AnnouncementFailure where
  | silent
  | late (time : Nat)
  | malformed (flaw : AnnouncementFlaw) (line : String)
  | reported (text : String)
  deriving Repr, DecidableEq

def AnnouncementFailure.message : AnnouncementFailure → String
  | silent => "agent closed its output without announcing"
  | late time => "no announcement within " ++ Text.span time
  | malformed flaw line =>
    flaw.message ++ " in " ++ Text.quoted line ++ " (expected announcement v" ++
      toString announcementVersion ++ ")"
  | reported text => text

inductive IoFailure where
  | file (error : FileError)
  /-- A failure that tells at which path it came up. -/
  | fileAt (path : String) (error : FileError)
  /-- The bytes are not well-formed text. -/
  | notText
  /-- A process died by a signal that has no name. -/
  | unknownSignal
  | reported (text : String)
  deriving Repr, DecidableEq

def IoFailure.message : IoFailure → String
  | file error => error.message
  | fileAt path error => error.message ++ " at path " ++ Text.quoted path
  | notText => "stream did not contain valid UTF-8"
  | unknownSignal => "EINVAL: Invalid argument"
  | reported text => text

inductive SettingsFailure where
  | noProgram
  | unreadable (path : String) (failure : IoFailure)
  /-- The document is not one of settings. -/
  | malformed
  | unsplittableOptions
  | noEditorDirectory (path : String)
  | reported (text : String)
  deriving Repr, DecidableEq

def SettingsFailure.message : SettingsFailure → String
  | noProgram => "no kickpass binary configured: set KP or `kp` in KP_HARNESS_CONFIG"
  | unreadable path failure => "cannot read " ++ path ++ ": " ++ failure.message
  | malformed => "malformed settings document"
  | unsplittableOptions => "VALGRIND_OPTIONS is not valid shell syntax"
  | noEditorDirectory path => "editor directory " ++ path ++ " does not exist"
  | reported text => text

/-- All that may go wrong. -/
inductive Fault where
  /-- The program could not be started at all. -/
  | spawn (command : String) (failure : StartFailure)
  /-- A cue never showed up; `transcript` is all that did, what was left unread included. -/
  | protocolViolation (command : String) (step : Nat) (cue : Cue) (failure : CueFailure)
      (transcript : String)
  /-- The process did not end after the last answer; `output` is what it printed since. -/
  | exitTimeout (command : String) (time : Nat) (output : String)
  | unexpectedExitCode (command : String) (expected actual : Int) (output : String)
  /-- The memory checker ended with the code reserved for it. -/
  | memoryDefect (command : String) (code : Int) (logFile : String)
  | agentLiveness (failure : LivenessFailure)
  | agentAnnouncement (failure : AnnouncementFailure)
  | agentAlreadyRunning (key : String)
  | settings (failure : SettingsFailure)
  | io (failure : IoFailure)
  /-- The terminal itself failed. -/
  | terminal (text : String)
  deriving Repr, DecidableEq

namespace Fault

def message : Fault → String
  | spawn command failure => "Failed to spawn `" ++ command ++ "`: " ++ failure.message
  | protocolViolation command step cue failure _ =>
    "Protocol violation in `" ++ command ++ "`: step " ++ toString step ++ " expected " ++
      cue.name ++ " (" ++ cue.literal ++ "): " ++ failure.message
  | exitTimeout command time _ =>
    "`" ++ command ++ "` did not exit within " ++ toString time ++ "ms"
  | unexpectedExitCode command expected actual _ =>
    "`" ++ command ++ "` exited with " ++ toString actual ++ ", expected " ++ toString expected
  | memoryDefect command code logFile =>
    "Memory defect detected in `" ++ command ++ "` (exit code " ++ toString code ++ "), see " ++
      logFile
  | agentLiveness failure => "Agent liveness error: " ++ failure.message
  | agentAnnouncement failure => "Invalid agent announcement: " ++ failure.message
  | agentAlreadyRunning key => "An agent is already running (binding " ++ key ++ ")"
  | settings failure => "Invalid configuration: " ++ failure.message
  | io failure => "IO error: " ++ failure.message
  | terminal text => "PTY error: IO error " ++ text

/-- The memory checker found something, as opposed to the command failing on its own terms. -/
def isMemoryDefect : Fault → Bool
  | memoryDefect .. => true
  | _ => false

def isProtocolViolation : Fault → Bool
  | protocolViolation .. => true
  | _ => false

/-- The code that the process ended with, where the fault tells one. -/
def exitCode? : Fault → Option Int
  | unexpectedExitCode _ _ actual _ => some actual
  | memoryDefect _ code _ => some code
  | _ => none

/-- What the process printed before the fault, where the fault tells it. -/
def output? : Fault → Option String
  | protocolViolation _ _ _ _ transcript => some transcript
  | exitTimeout _ _ output => some output
  | unexpectedExitCode _ _ _ output => some output
  | _ => none

end Fault

end PromptHarness
