import PromptHarness.Process.Terminal

/-!
# The link to a process

What stands between a process and whoever started it: the bytes that have come from it, those of
them that nobody has taken yet, and the terminal on which it is typed to.  Waiting for something to
come goes through the process until that shows, the process closes its side, or time is up; what
the process does at the very moment when time is up is no longer seen.
-/

namespace PromptHarness

/-- How the outputs and the input of a process are connected. -/
inductive Wiring where
  /-- A terminal: every newline comes as carriage return and newline, and warnings show like all
  else. -/
  | terminal
  /-- A pipe: bytes come as they are, warnings go elsewhere, and the input is at its end. -/
  | pipe
  deriving Repr, DecidableEq

/-- What is known of a process that is being waited for. -/
structure Link where
  wiring : Wiring
  /-- All that has come from the process. -/
  shown : Bytes
  /-- The end of it that nobody has taken yet. -/
  unread : Bytes
  terminal : Terminal
  /-- The process has closed its side. -/
  closed : Bool
  signals : Signals
  /-- How long the process has been waited for. -/
  elapsed : Nat
  files : Files

inductive Halt where
  | satisfied
  | closed
  | late
  deriving Repr, DecidableEq

namespace Link

def start (wiring : Wiring) (files : Files) : Link :=
  ⟨wiring, [], [], .fresh, false, .fresh, 0, files⟩

def receive (link : Link) (bytes : Bytes) : Link :=
  { link with shown := link.shown ++ bytes, unread := link.unread ++ bytes }

def print (link : Link) (bytes : Bytes) : Link :=
  match link.wiring with
  | .terminal => link.receive (Terminal.shown bytes)
  | .pipe => link.receive bytes

def warn (link : Link) (bytes : Bytes) : Link :=
  match link.wiring with
  | .terminal => link.receive (Terminal.shown bytes)
  | .pipe => link

/-- The process cannot write for now. -/
def isHeld (link : Link) : Bool :=
  match link.wiring with
  | .terminal => link.terminal.held
  | .pipe => false

/-- What reading gives, and the link behind it; nothing while the process has to wait. -/
def input (link : Link) (portion : Portion) : Option (Option Bytes × Link) :=
  match link.wiring with
  | .pipe => some (none, link)
  | .terminal => (link.terminal.take portion).map fun (bytes, terminal) =>
    (bytes, { link with terminal := terminal })

def pass (link : Link) (time : Nat) : Link :=
  { link with elapsed := link.elapsed + time }

/-- Leaves only `rest` untaken. -/
def take (link : Link) (rest : Bytes) : Link :=
  { link with unread := rest }

/-- The bytes of a text with the enter key behind it. -/
def keystrokes (text : String) : Bytes := Text.encode text ++ [Terminal.newline]

def typedSignals (link : Link) (text : String) : List Nat :=
  if link.closed then [] else Terminal.signals link.terminal.quoting (keystrokes text)

/-- Types a text and the enter key; nobody reads it where the process has closed its side. -/
def type (link : Link) (text : String) : Link :=
  if link.closed then link
  else
    { link with
      terminal := link.terminal.type (keystrokes text)
      signals := (link.typedSignals text).foldl .send link.signals }

/-- The first signal by which typing a text kills the process. -/
def deadlySignal? (link : Link) (text : String) : Option Nat :=
  (link.typedSignals text).find? link.signals.isDeadly

/-- How a wait ends that cannot go on, by what has come so far. -/
def verdict (link : Link) (enough : Bytes → Bool) (otherwise : Halt) : Halt :=
  if enough link.unread then .satisfied else otherwise

/-- The end of a wait at a process that does not move. -/
def stall (enough : Bytes → Bool) (process : Process Ending) (time : Nat) (link : Link) :
    Halt × Process Ending × Link :=
  if enough link.unread then (.satisfied, process, link) else (.late, process, link.pass time)

/-- Goes through the process for at most `time` milliseconds, until `enough` has come.  What goes
through a pipe is looked at after every write. -/
def advance (enough : Bytes → Bool) : Process Ending → Nat → Link → Halt × Process Ending × Link
  | .finished ending, _, link =>
    (link.verdict enough .closed, .finished ending, { link with closed := true })
  | .print bytes next, time, link =>
    if link.isHeld ∧ bytes ≠ [] then link.stall enough (.print bytes next) time
    else if link.wiring = .pipe ∧ enough (link.print bytes).unread then
      (.satisfied, next, link.print bytes)
    else advance enough next time (link.print bytes)
  | .warn bytes next, time, link =>
    if link.isHeld ∧ bytes ≠ [] then link.stall enough (.warn bytes next) time
    else advance enough next time (link.warn bytes)
  | .ask portion next, time, link =>
    match link.input portion with
    | some (bytes, link) => advance enough (next bytes) time link
    | none => link.stall enough (.ask portion next) time
  | .pause span next, time, link =>
    if enough link.unread then (.satisfied, .pause span next, link)
    else if span < time then advance enough next (time - span) (link.pass span)
    else (.late, .pause (span - time) next, link.pass time)
  | .hangUp next, _, link => (link.verdict enough .closed, next, { link with closed := true })
  | .arrange signal arrangement next, time, link =>
    advance enough next time { link with signals := link.signals.arrange signal arrangement }
  | .collect next, time, link =>
    advance enough (next link.signals.waiting) time { link with signals := link.signals.emptied }
  | .change effect next, time, link =>
    advance enough next time { link with files := effect link.files }
  | .look next, time, link => advance enough (next link.files) time link

/-- Waits until `enough` has come, for at most `time` milliseconds. -/
def await (enough : Bytes → Bool) (time : Nat) (process : Process Ending) (link : Link) :
    Halt × Process Ending × Link :=
  if enough link.unread then (.satisfied, process, link)
  else if link.closed then (.closed, process, link)
  else if time = 0 then (.late, process, link)
  else advance enough process time link

end Link

end PromptHarness
