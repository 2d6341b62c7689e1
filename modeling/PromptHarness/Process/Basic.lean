import PromptHarness.Files

/-!
# Processes

A process is the tree of all it may do: what it prints, where it waits for input and how it goes on
for each input it may get, how it changes and reads the files, how long it pauses, what it arranges
about signals, and what comes out in the end.  A process is finite, so whatever is done with one is
a recursion on the tree.  Two processes are put one behind the other by `bind`, whose laws are
`bind_finished`, `bind_assoc` and the reading of `bind` on a finished process.
-/

namespace PromptHarness

inductive Ending where
  | exited (code : Nat)
  | signaled (signal : Nat)
  deriving Repr, DecidableEq

namespace Ending

def signalNames : List String :=
  ["SIGHUP", "SIGINT", "SIGQUIT", "SIGILL", "SIGTRAP", "SIGABRT", "SIGBUS", "SIGFPE", "SIGKILL",
    "SIGUSR1", "SIGSEGV", "SIGUSR2", "SIGPIPE", "SIGALRM", "SIGTERM", "SIGSTKFLT", "SIGCHLD",
    "SIGCONT", "SIGSTOP", "SIGTSTP", "SIGTTIN", "SIGTTOU", "SIGURG", "SIGXCPU", "SIGXFSZ",
    "SIGVTALRM", "SIGPROF", "SIGWINCH", "SIGIO", "SIGPWR", "SIGSYS"]

/-- The name of a signal; the signals for real-time use have none. -/
def signalName? : Nat → Option String
  | 0 => none
  | index + 1 => signalNames[index]?

/-- How a process takes a signal that it has made no arrangements for. -/
inductive Effect where
  | death
  /-- The process never notices. -/
  | nothing
  /-- The process stands still from then on. -/
  | standstill
  deriving Repr, DecidableEq

/-- What a signal does to a process that has no terminal to be moved away from. -/
def effect (signal : Nat) : Effect :=
  if signal = 19 then .standstill
  else if signal = 0 ∨ 64 < signal ∨ [17, 18, 20, 21, 22, 23, 28].contains signal then .nothing
  else .death

/-- The signals that others send, and that a process standing still does not take. -/
def stoppable : List Nat := [2, 3, 15]

/-- The signal that nothing can be arranged about. -/
def certainDeath : Nat := 9

/-- The code that stands for an ending: death by a signal counts from 128. -/
def code : Ending → Int
  | exited code => code
  | signaled signal => 128 + signal

def status : Ending → Nat
  | exited code => code
  | signaled signal => 128 + signal

def isNamed : Ending → Bool
  | exited _ => true
  | signaled signal => (signalName? signal).isSome

def describe : Ending → String
  | exited code => "exit status: " ++ toString code
  | signaled signal =>
    "signal: " ++ toString signal ++
      ((signalName? signal).elim "" fun name => " (" ++ name ++ ")")

end Ending

/-- What a process has arranged about a signal. -/
inductive Arrangement where
  /-- Nothing. -/
  | usual
  /-- To take no notice of it. -/
  | ignored
  /-- To have it kept until it asks. -/
  | kept
  deriving Repr, DecidableEq

/-- What a process has arranged about signals, and the signals that are kept for it. -/
structure Signals where
  arrangements : List (Nat × Arrangement)
  waiting : List Nat
  deriving Repr, DecidableEq

namespace Signals

def fresh : Signals := ⟨[], []⟩

def arrangement (signals : Signals) (signal : Nat) : Arrangement :=
  if signal = Ending.certainDeath then .usual
  else (signals.arrangements.lookup signal).getD .usual

def arrange (signals : Signals) (signal : Nat) (arrangement : Arrangement) : Signals :=
  { signals with arrangements := (signal, arrangement) :: signals.arrangements }

def isDeadly (signals : Signals) (signal : Nat) : Bool :=
  Ending.effect signal = .death && signals.arrangement signal = .usual

/-- Sends a signal that the process does not die by. -/
def send (signals : Signals) (signal : Nat) : Signals :=
  if signals.arrangement signal = .kept then
    { signals with waiting := signals.waiting ++ [signal] }
  else signals

/-- The process has asked for the signals that were kept. -/
def emptied (signals : Signals) : Signals := { signals with waiting := [] }

end Signals

/-- How much a process reads at once. -/
inductive Portion where
  /-- What there is: on a terminal a line, or the part of one that was sent off early. -/
  | piece
  /-- A line. -/
  | line
  deriving Repr, DecidableEq

/-- All that a process may do from some moment on, with what comes out of it. -/
inductive Process (α : Type) where
  | finished (value : α)
  /-- Writes to standard output. -/
  | print (bytes : Bytes) (next : Process α)
  /-- Writes to standard error. -/
  | warn (bytes : Bytes) (next : Process α)
  /-- Waits for standard input and goes on with what it read, the newline at its end included, or
  with nothing where the input is at its end. -/
  | ask (portion : Portion) (next : Option Bytes → Process α)
  /-- Lets time pass, counted in milliseconds. -/
  | pause (span : Nat) (next : Process α)
  /-- Closes its input and outputs and goes on without them. -/
  | hangUp (next : Process α)
  /-- Arranges something about a signal from here on. -/
  | arrange (signal : Nat) (arrangement : Arrangement) (next : Process α)
  /-- Asks for the signals that have come and were kept. -/
  | collect (next : List Nat → Process α)
  | change (effect : Files → Files) (next : Process α)
  | look (next : Files → Process α)

namespace Process

variable {α β γ : Type}

def bind : Process α → (α → Process β) → Process β
  | finished value, next => next value
  | print bytes rest, next => print bytes (rest.bind next)
  | warn bytes rest, next => warn bytes (rest.bind next)
  | ask portion rest, next => ask portion fun input => (rest input).bind next
  | pause span rest, next => pause span (rest.bind next)
  | hangUp rest, next => hangUp (rest.bind next)
  | arrange signal arrangement rest, next => arrange signal arrangement (rest.bind next)
  | collect rest, next => collect fun signals => (rest signals).bind next
  | change effect rest, next => change effect (rest.bind next)
  | look rest, next => look fun files => (rest files).bind next

instance : Monad Process where
  pure := finished
  bind := bind

@[simp]
theorem bind_finished (process : Process α) : process.bind finished = process := by
  induction process with
  | finished => rfl
  | ask portion next ih => simp [bind, ih]
  | collect next ih => simp [bind, ih]
  | look next ih => simp [bind, ih]
  | _ => simp_all [bind]

theorem bind_assoc (process : Process α) (first : α → Process β) (second : β → Process γ) :
    (process.bind first).bind second = process.bind fun value => (first value).bind second := by
  induction process with
  | finished => rfl
  | ask portion next ih => simp [bind, ih]
  | collect next ih => simp [bind, ih]
  | look next ih => simp [bind, ih]
  | _ => simp_all [bind]

instance : LawfulMonad Process :=
  LawfulMonad.mk' Process bind_finished (fun _ _ => rfl) bind_assoc

/-! ## Single steps -/

def say (bytes : Bytes) : Process Unit := print bytes (finished ())

def complain (bytes : Bytes) : Process Unit := warn bytes (finished ())

def read (portion : Portion) : Process (Option Bytes) := ask portion finished

def wait (span : Nat) : Process Unit := pause span (finished ())

def ignore (signals : List Nat) (next : Process α) : Process α :=
  signals.foldr (fun signal next => arrange signal .ignored next) next

def files : Process Files := look finished

def alter (effect : Files → Files) : Process Unit := change effect (finished ())

/-! ## A process left alone -/

/-- What comes out of the process when it is left alone without input, and what it leaves in the
files.  `waiting` are the signals that are kept for it. -/
def complete : Process α → List Nat → Files → α × Files
  | finished value, _, files => (value, files)
  | print _ next, waiting, files => next.complete waiting files
  | warn _ next, waiting, files => next.complete waiting files
  | ask _ next, waiting, files => (next none).complete waiting files
  | pause _ next, waiting, files => next.complete waiting files
  | hangUp next, waiting, files => next.complete waiting files
  | arrange _ _ next, waiting, files => next.complete waiting files
  | collect next, waiting, files => (next waiting).complete [] files
  | change effect next, waiting, files => next.complete waiting (effect files)
  | look next, waiting, files => (next files).complete waiting files

/-- How long the process goes on when it is left alone without input. -/
def lifetime : Process α → List Nat → Files → Nat
  | finished _, _, _ => 0
  | print _ next, waiting, files => next.lifetime waiting files
  | warn _ next, waiting, files => next.lifetime waiting files
  | ask _ next, waiting, files => (next none).lifetime waiting files
  | pause span next, waiting, files => span + next.lifetime waiting files
  | hangUp next, waiting, files => next.lifetime waiting files
  | arrange _ _ next, waiting, files => next.lifetime waiting files
  | collect next, waiting, files => (next waiting).lifetime [] files
  | change effect next, waiting, files => next.lifetime waiting (effect files)
  | look next, waiting, files => (next files).lifetime waiting files

end Process

/-- Names and values; of two entries for one name the later counts. -/
abbrev Environment := List (String × String)

namespace Environment

def value? (environment : Environment) (name : String) : Option String :=
  environment.reverse.lookup name

/-- An entry as a process finds it: its name goes up to the first equals sign behind its first
character, whatever the name was that it was set under. -/
def received (entry : String × String) : String × String :=
  match entry.1.toList with
  | [] => entry
  | first :: rest =>
    if rest.contains '=' then
      (String.ofList (first :: rest.takeWhile (· != '=')),
        String.ofList ((rest.dropWhile (· != '=')).drop 1) ++ "=" ++ entry.2)
    else entry

end Environment

structure Call where
  name : String
  arguments : List String
  environment : Environment
  deriving Repr, DecidableEq

/-- The process that a call starts, where there is a program for it. -/
abbrev Launcher := Files → Call → Except FileError (Process Ending)

/-- What a program does when it is called; it may start others. -/
abbrev Program := Launcher → Call → Process Ending

end PromptHarness
