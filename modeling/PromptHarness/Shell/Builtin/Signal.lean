import PromptHarness.Shell.Builtin.Argument

/-!
# Commands about signals and jobs

Sending signals, saying what is to be done about them, and waiting for what goes on in the
background.
-/

namespace PromptHarness.Shell.Builtin

/-! ## Signals -/

/-- The names of the signals, which number 0 is a name among for the end of a shell. -/
def signalNames : List String :=
  let usual := (Ending.signalNames.map fun name => (name.drop 3).toString).set 15 "16"
  "EXIT" :: usual ++ ["32", "33", "RTMIN"] ++
    ((List.range 15).map fun index => "RTMIN+" ++ toString (index + 1)) ++
    ((List.range 14).map fun index => "RTMAX-" ++ toString (14 - index)) ++ ["RTMAX"]

/-- The signal of a name or a number, from some number on. -/
def signal? (least : Nat) (word : Raw) : Option Nat :=
  if !word.isEmpty ∧ word.all Char.isDigit then
    let number := (digits 10 word).1
    if least ≤ number ∧ number ≤ 64 then some number else none
  else
    match signalNames.findIdx? fun name => name.toList = word.map Char.toUpper with
    | some number => if least ≤ number then some number else none
    | none => none

/-- The job that a word behind a percent sign means. -/
def jobOf (word : Raw) : Task Job := do
  let jobs := (← get).jobs
  let need (job : Option Job) (complaint : Raw) : Task Job :=
    match job with
    | some job => return job
    | none => Task.fail complaint
  match word with
  | [] | ['%'] | ['%', '%'] | ['%', '+'] => need jobs.getLast? (raw "No current job")
  | ['%', '-'] => need jobs.dropLast.getLast? (raw "No previous job")
  | first :: digits =>
    let slot := if first = '%' ∧ digits.all Char.isDigit then (Shell.digits 10 digits).1 else 0
    need (jobs.find? (·.slot = slot)) (raw "No such job: " ++ word)

def changeJob (number : Nat) (change : Job → Job) : Task Unit :=
  modify fun scope =>
    { scope with
      jobs := scope.jobs.map fun job => if job.number = number then change job else job }

def sendSignal (signal : Nat) (target : Raw) : Task Nat := do
  let refuse : Task Nat := do
    Task.complain (raw "No such process\n")
    return 1
  if target.head? = some '%' then
    let _ ← jobOf target
    return ← refuse
  let number ← numberOf (if target.head? = some '-' then target.drop 1 else target)
  let scope ← get
  if number = 0 ∨ number = Scope.ownNumber then
    Task.receiveSignal signal
    return 0
  match scope.jobs.find? fun job => Scope.ownNumber + job.number = number ∧ !job.noticed with
  | some job =>
    if job.ending?.isNone ∧ Ending.effect signal = .death then
      changeJob job.number fun job =>
        { job with process := .finished (.signaled signal, none) }
    return 0
  | none => refuse

def killUsage : String :=
  "Usage: kill [-s sigspec | -signum | -sigspec] [pid | job]... or\nkill -l [exitstatus]"

def kill : Builtin := fun arguments => do
  let send (signal : Nat) (targets : List Raw) : Task Nat := do
    if targets.isEmpty then Task.fail (raw killUsage)
    let codes ← targets.mapM (sendSignal signal)
    return codes.foldl max 0
  match arguments with
  | [] => Task.fail (raw killUsage)
  | ('-' :: word) :: rest =>
    match signal? 1 word, word with
    | some signal, _ => send signal rest
    | none, ['0'] => send 0 rest
    | none, _ =>
      let (options, targets) ← optionsOf "l" "s" arguments
      if (options.lookup 'l').isSome then list targets
      else match options.lookup 's' with
        | some name =>
          match signal? 1 name with
          | some signal => send signal targets
          | none => Task.fail (raw "invalid signal number or name: " ++ name)
        | none => send 15 targets
  | targets => send 15 targets
where
  /-- Writes the names of all signals, or of one that a code stands for. -/
  list : List Raw → Task Nat
    | [] => say (raw ("0\n" ++ String.join ((signalNames.drop 1).map (· ++ "\n"))))
    | first :: _ => do
      let number ← numberOf first
      match signalNames[if 128 < number then number - 128 else number]? with
      | some name => if number = 0 then say (raw "0\n") else say (raw (name ++ "\n"))
      | none => Task.fail (raw "invalid signal number or exit status: " ++ first)

def trap : Builtin := fun arguments => do
  let (_, arguments) ← optionsOf "" "" arguments
  match arguments with
  | [] =>
    let traps := (← get).traps.mergeSort fun left right => Nat.ble left.1 right.1
    say (traps.flatMap fun entry =>
      raw "trap -- " ++ singleQuote entry.2 ++ raw (" " ++ signalNames.getD entry.1 "" ++ "\n"))
  | [word] => setAll none [word]
  | ['-'] :: words => setAll none words
  | action :: words => setAll (some action) words
where
  /-- Says it for the signals up to the first word that means none. -/
  setAll (action : Option Raw) (words : List Raw) : Task Nat := do
    match words.find? fun word => (signal? 0 word).isNone with
    | some word =>
      (words.takeWhile (· ≠ word)).forM (setOne action)
      Task.emit 2 (Raw.bytes (raw "trap: " ++ word ++ raw ": bad trap\n"))
      return 1
    | none =>
      words.forM (setOne action)
      return 0
  /-- Says it for one signal. -/
  setOne (action : Option Raw) (word : Raw) : Task Unit := do
    match signal? 0 word with
    | none => return
    | some signal =>
      modify fun scope =>
        { scope with
          traps := (action.map (signal, ·)).toList ++ scope.traps.filter (·.1 ≠ signal) }
      let arrangement : Arrangement := match action with
        | none => .usual
        | some [] => .ignored
        | some _ => .kept
      if signal ≠ 0 ∧ !(← get).inner then
        (Process.arrange signal arrangement (.finished ()) : Process Unit)

/-! ## Jobs -/

/-- How a job goes on, in words. -/
def stateOf (job : Job) : Raw :=
  match job.ending? with
  | none => raw "Running"
  | some (.exited 0) => raw "Done"
  | some (.exited code) => raw ("Done(" ++ toString code ++ ")")
  | some (.signaled signal) => Task.signalRemark signal

def jobs : Builtin := fun arguments => do
  let (options, targets) ← optionsOf "lp" "" arguments
  Task.settle
  Task.notice
  let all := (← get).jobs
  let wanted ← if targets.isEmpty then pure all.reverse else targets.mapM jobOf
  let number (job : Job) : Raw := (toString (Scope.ownNumber + job.number)).toList
  let sign (job : Job) : Char :=
    if all.getLast?.map (·.number) = some job.number then '+'
    else if all.dropLast.getLast?.map (·.number) = some job.number then '-'
    else ' '
  let row (job : Job) : Raw :=
    let front := raw ("[" ++ toString job.slot ++ "] " ++ (sign job).toString ++ " ") ++
      (if (options.lookup 'l').isSome then number job ++ [' '] else []) ++ stateOf job
    front ++ List.replicate (33 - front.length) ' ' ++ ['\n']
  let rows := wanted.map fun job =>
    if (options.lookup 'p').isSome then number job ++ ['\n'] else row job
  modify fun scope =>
    { scope with jobs := scope.jobs.filter fun job =>
        job.ending?.isNone || wanted.all (·.number ≠ job.number) }
  say rows.flatten

/-- Jobs never change between the background and the foreground. -/
def moveJob : Builtin := fun arguments => do
  let word := arguments.headD []
  let _ ← jobOf word
  let name := if word.isEmpty then raw "(null)" else word
  Task.fail (raw "job " ++ name ++ raw " not created under job control")

/-- How long a shell waits at most before it asks for signals, in milliseconds. -/
def patience : Nat := 10

/-- Lets time pass until a job has ended, for at most so many rounds.  A signal that comes
meanwhile puts an end to the waiting. -/
def await (number : Nat) : Nat → Task (Option Nat)
  | 0 => return none
  | fuel + 1 => do
    Task.settle
    Task.gather
    let scope ← get
    let delays := scope.jobs.filterMap fun job => job.process.delay?
    let delay := (scope.jobs.find? (·.number = number)).bind (·.process.delay?)
    match scope.arrived, delay with
    | signal :: _, _ => return some signal
    | [], none => return none
    | [], some span =>
      let step := delays.foldl min (if Task.isWary scope then min span patience else span)
      Task.pass (step + 1) step
      await number fuel

/-- How often a job may be waited for. -/
def rounds : Nat := 100000

/-- The code of a job that a word means, once it has ended. -/
def waitFor (word : Raw) : Task Nat := do
  let jobs := (← get).jobs
  let job ← if word.head? = some '%' then some <$> jobOf word else do
    let number ← numberOf word
    pure (jobs.find? fun job => Scope.ownNumber + job.number = number)
  match job with
  | none => return 127
  | some job =>
    match ← await job.number rounds with
    | some signal => return 128 + signal
    | none =>
      let ending := ((← get).jobs.find? (·.number = job.number)).bind Job.ending?
      changeJob job.number fun job => { job with awaited := true, noticed := true }
      match ending with
      | none => return 127
      | some ending => if job.noticed then return ending.status else Task.statusOf ending

/-- Waits for all jobs; the result is the signal that came meanwhile. -/
def waitForAll : List Job → Task (Option Nat)
  | [] => return none
  | job :: rest => do
    match ← await job.number rounds with
    | some signal => return some signal
    | none =>
      changeJob job.number fun job => { job with awaited := true, noticed := true }
      waitForAll rest

def wait : Builtin := fun arguments => do
  let (_, arguments) ← optionsOf "" "" arguments
  if arguments.isEmpty then
    match ← waitForAll (← get).jobs with
    | some signal => return 128 + signal
    | none => return 0
  let codes ← arguments.mapM waitFor
  return codes.getLastD 0

end PromptHarness.Shell.Builtin
