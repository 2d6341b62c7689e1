import PromptHarness.Shell.Scope
import PromptHarness.Text.Stretches

/-!
# Programs and jobs under a shell

A program that a shell starts writes and reads through the shell's descriptors, sees the files from
where the shell is, and takes its time; meanwhile the jobs in the background go on.
-/

namespace PromptHarness

namespace Process

variable {α : Type}

def upToPause : Process α → Process (Process α)
  | finished value => finished (finished value)
  | print bytes next => print bytes next.upToPause
  | warn bytes next => warn bytes next.upToPause
  | ask portion next => ask portion fun input => (next input).upToPause
  | pause span next => if span = 0 then next.upToPause else finished (pause span next)
  | hangUp next => hangUp next.upToPause
  | arrange _ _ next => next.upToPause
  | collect next => (next []).upToPause
  | change effect next => change effect next.upToPause
  | look next => look fun files => (next files).upToPause

/-- How long the process waits before it does anything. -/
def delay? : Process α → Option Nat
  | pause span _ => some span
  | _ => none

def shorten (time : Nat) : Process α → Process α
  | pause span next => if span ≤ time then next else pause (span - time) next
  | process => process

end Process

namespace Shell

namespace Job

def ending? (job : Job) : Option Ending :=
  match job.process with
  | .finished (ending, _) => some ending
  | _ => none

/-- The signal that the job has sent to the shell and that has not been taken yet. -/
def message? (job : Job) : Option Nat :=
  match job.process with
  | .finished (_, signal) => signal
  | _ => none

def answered (job : Job) : Job :=
  match job.process with
  | .finished (ending, _) => { job with process := .finished (ending, none) }
  | _ => job

end Job

namespace Task

/-- Longer than anyone waits, in milliseconds. -/
def standstillTime : Nat := 3600000

/-- Takes a signal as what is to be done about it says. -/
def receiveSignal (signal : Nat) : Task Unit := do
  let scope ← get
  match scope.traps.lookup signal with
  | some [] => return
  | some _ => set { scope with arrived := scope.arrived ++ [signal] }
  | none =>
    match Ending.effect signal with
    | .nothing => return
    | .death =>
      if scope.inner then
        set { scope with doom := some (scope.doom.getD signal) }
        if !scope.guarded.contains signal then throw .exit
      else throw (.killed signal)
    | .standstill =>
      (Process.ignore Ending.stoppable (.finished ()) : Process Unit)
      Process.wait standstillTime

/-- Something is to be done about a signal that others may send. -/
def isWary (scope : Scope) : Bool :=
  !scope.inner && scope.traps.any fun entry => entry.1 ≠ 0 && !entry.2.isEmpty

def gather : Task Unit := do
  if isWary (← get) then
    let signals ← (Process.collect .finished : Process (List Nat))
    signals.forM receiveSignal

/-- Arranges nothing about signals any more, except to take no notice of some. -/
def unguard : Task Unit := do
  let scope ← get
  let watched := scope.traps.filter fun entry => entry.1 ≠ 0 && !entry.2.isEmpty
  if !scope.inner then
    watched.forM fun entry =>
      (Process.arrange entry.1 .usual (.finished ()) : Process Unit)

/-- Lets the jobs do what they do before they wait again, and takes the signals that they send. -/
def settle : Task Unit := do
  let jobs ← ((← get).jobs.mapM fun job => do
    return { job with process := ← job.process.upToPause } : Process (List Job))
  modify fun scope => { scope with jobs := jobs.map Job.answered }
  (jobs.filterMap Job.message?).forM receiveSignal

/-- Lets time pass, for the jobs as well. -/
def pass : Nat → Nat → Task Unit
  | 0, _ => return
  | fuel + 1, span => do
    settle
    if span = 0 then return
    let step := ((← get).jobs.filterMap fun job => job.process.delay?).foldl min span
    Process.wait step
    modify fun scope =>
      { scope with jobs := scope.jobs.map fun job =>
          { job with process := job.process.shorten step } }
    pass fuel (span - step)

def conduct : Process Ending → Task Ending
  | .finished ending => return ending
  | .print given next => do
    emit 1 given
    conduct next
  | .warn given next => do
    emit 2 given
    conduct next
  | .ask portion next => do
    let found ← receive 0 portion
    conduct (next found)
  | .pause span next => do
    pass (span + 1) span
    conduct next
  | .hangUp next => conduct next
  | .arrange _ _ next => conduct next
  | .collect next => conduct (next [])
  | .change effect next => do
    alter effect
    conduct next
  | .look next => do
    let held ← files
    conduct (next held)

/-- How a shell speaks of a signal that killed a program, where it does. -/
def signalRemark (signal : Nat) : Raw :=
  raw <|
    match signal with
    | 1 => "Hangup"
    | 2 => "Interrupt"
    | 3 => "Quit"
    | 4 => "Illegal instruction"
    | 5 => "Trace/breakpoint trap"
    | 6 => "Aborted"
    | 7 => "Bus error"
    | 8 => "Floating point exception"
    | 9 => "Killed"
    | 10 => "User defined signal 1"
    | 11 => "Segmentation fault"
    | 12 => "User defined signal 2"
    | 13 => "Broken pipe"
    | 14 => "Alarm clock"
    | 15 => "Terminated"
    | 16 => "Stack fault"
    | 24 => "CPU time limit exceeded"
    | 25 => "File size limit exceeded"
    | 26 => "Virtual timer expired"
    | 27 => "Profiling timer expired"
    | 29 => "I/O possible"
    | 30 => "Power failure"
    | 31 => "Bad system call"
    | other => "Real-time signal " ++ toString (other - 34)

/-- The code of an ending.  Death by a signal draws a remark, but for those that are sent to end
things quietly. -/
def statusOf (ending : Ending) : Task Nat := do
  match ending with
  | .exited code => return code
  | .signaled signal =>
    if signal ≠ 2 ∧ signal ≠ 13 then emit 2 (Raw.bytes (signalRemark signal ++ ['\n']))
    return ending.status

/-- The shell finds out which jobs have ended, as it does when it waits for another process. -/
def notice : Task Unit :=
  modify fun scope =>
    { scope with jobs := scope.jobs.map fun job =>
        { job with noticed := job.noticed || job.ending?.isSome } }

def forget : Task Unit :=
  modify fun scope => { scope with jobs := scope.jobs.filter fun job => !job.awaited }

/-! ## Finding programs -/

def searchPath (scope : Scope) : List Raw :=
  Text.stretches ':' ((scope.value? (raw "PATH")).getD
    (raw "/usr/local/sbin:/usr/local/bin:/usr/sbin:/usr/bin:/sbin:/bin"))

def locate (scope : Scope) (files : Files) (name : Raw) : Option Raw :=
  if name.contains '/' then
    if files.isFile (Raw.text name) then some name else none
  else
    (searchPath scope).findSome? fun directory =>
      let path := if directory.isEmpty then name
        else if directory.getLast? = some '/' then directory ++ name
        else directory ++ '/' :: name
      if files.isFile (Raw.text path) then some path else none

/-- What the shell says where a program cannot be started, and its code. -/
def refusal (error : FileError) : String × Nat :=
  match error with
  | .missing | .notDirectory => ("not found", 127)
  | .nameTooLong => (error.description, 127)
  | error => (error.description, 126)

def launch (name : Raw) (arguments : List Raw) : Task Nat := do
  settle
  let scope ← get
  let files ← files
  let refuse (said : String × Nat) : Task Nat := do
    complain (name ++ raw (": " ++ said.1))
    return said.2
  if name.isEmpty then refuse ("Permission denied", 127)
  else if !name.contains '/' ∧ (locate scope files name).isNone then refuse ("not found", 127)
  else
    match scope.launch files ⟨name.text, arguments.map Raw.text, scope.environment⟩ with
    | .ok process =>
      forget
      let ending ← conduct process
      notice
      statusOf ending
    | .error error => refuse (refusal error)

end Task

end Shell

end PromptHarness
