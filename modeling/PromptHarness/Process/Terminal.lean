import PromptHarness.Process.Basic
import PromptHarness.Text.Stretches

/-!
# The terminal

What lies between the keys and a process that reads a terminal.  Keys collect to a line that can
still be edited; only a line that has been sent off can be read.  Some keys are commands to the
terminal, unless the key that quotes comes before them.  The terminal shows nothing of what is
typed.
-/

namespace PromptHarness

/-- What a terminal holds of the text typed into it. -/
structure Terminal where
  /-- The line that is being typed, its last byte first. -/
  line : Bytes
  /-- What has been sent off and not been read.  An empty piece is an end of the input. -/
  sent : List Bytes
  /-- The next key stands for itself. -/
  quoting : Bool
  /-- Output is held back. -/
  held : Bool
  deriving Repr, DecidableEq

namespace Terminal

def fresh : Terminal := ⟨[], [], false, false⟩

inductive Key where
  /-- Stands for itself. -/
  | plain
  /-- Ends the line. -/
  | enter
  /-- Sends the line off as it is. -/
  | send
  | eraseByte
  | eraseWord
  | eraseLine
  | quote
  | hold
  | release
  /-- Drops all that has been typed and signals the process. -/
  | signal (number : Nat)
  deriving Repr, DecidableEq

/-- The bytes that are not plain.  A carriage return is a newline. -/
def keys : List (UInt8 × Key) :=
  [(0x0a, .enter), (0x0d, .enter), (0x04, .send), (0x7f, .eraseByte), (0x17, .eraseWord),
    (0x15, .eraseLine), (0x16, .quote), (0x13, .hold), (0x11, .release), (0x03, .signal 2),
    (0x1c, .signal 3), (0x1a, .signal 20)]

def key (byte : UInt8) : Key := (keys.lookup byte).getD .plain

def newline : UInt8 := 0x0a
def carriageReturn : UInt8 := 0x0d

/-- How many bytes a line may have in front of its newline. -/
def longestLine : Nat := 4095

/-- Bytes that words are made of: letters of the Latin alphabet in their first two blocks, digits
and the low line. -/
def isWordByte (byte : UInt8) : Bool :=
  (0x30 ≤ byte && byte ≤ 0x39) || (0x41 ≤ byte && byte ≤ 0x5a) || (0x61 ≤ byte && byte ≤ 0x7a) ||
    byte == 0x5f || (0xc0 ≤ byte && byte != 0xd7 && byte != 0xf7)

def put (terminal : Terminal) (byte : UInt8) : Terminal :=
  { terminal with line := byte :: terminal.line, quoting := false }

def sendOff (terminal : Terminal) : Terminal :=
  { terminal with line := [], sent := terminal.sent ++ [terminal.line.reverse] }

/-- A line that is full gives up its last byte for the next one. -/
def makeRoom (terminal : Terminal) : Terminal :=
  if (terminal.line.drop longestLine).isEmpty then terminal
  else { terminal with line := terminal.line.drop 1 }

def obey (terminal : Terminal) (byte : UInt8) : Key → Terminal
  | .plain => terminal.put byte
  | .enter => (terminal.put newline).sendOff
  | .send => terminal.sendOff
  | .eraseByte => { terminal with line := terminal.line.drop 1 }
  | .eraseWord =>
    { terminal with
      line := (terminal.line.dropWhile fun byte => !isWordByte byte).dropWhile isWordByte }
  | .eraseLine => { terminal with line := [] }
  | .quote => { terminal with quoting := true }
  | .hold => { terminal with held := true }
  | .release => { terminal with held := false }
  | .signal _ => { terminal with line := [], sent := [], held := false }

def press (terminal : Terminal) (byte : UInt8) : Terminal :=
  let terminal := terminal.makeRoom
  if terminal.quoting then terminal.put byte else terminal.obey byte (key byte)

/-- The signals among the bytes, in order. -/
def signals : Bool → Bytes → List Nat
  | _, [] => []
  | true, _ :: rest => signals false rest
  | false, byte :: rest =>
    match key byte with
    | .signal number => number :: signals false rest
    | .quote => signals true rest
    | _ => signals false rest

def type (terminal : Terminal) (bytes : Bytes) : Terminal := bytes.foldl press terminal

/-! ## Reading -/

/-- The first piece that was sent off; an empty one is an end of the input. -/
def takePiece : List Bytes → Option (Option Bytes × List Bytes)
  | [] => none
  | piece :: rest => some (if piece.isEmpty then none else some piece, rest)

/-- A line made of as many pieces as it needs, going on from `before`. -/
def takeLine (before : Bytes) : List Bytes → Option (Option Bytes × List Bytes)
  | [] => none
  | piece :: rest =>
    if piece.isEmpty then some (if before.isEmpty then none else some before, rest)
    else if piece.contains newline then
      let kept := piece.takeWhile (· != newline) ++ [newline]
      let left := (piece.dropWhile (· != newline)).drop 1
      some (some (before ++ kept), if left.isEmpty then rest else left :: rest)
    else takeLine (before ++ piece) rest

/-- What reading a portion gives; nothing while that has to wait. -/
def take (terminal : Terminal) (portion : Portion) : Option (Option Bytes × Terminal) :=
  (match portion with
    | .piece => takePiece terminal.sent
    | .line => takeLine [] terminal.sent).map
    fun (input, rest) => (input, { terminal with sent := rest })

/-! ## Showing -/

/-- Bytes as the terminal shows them: every newline as carriage return and newline. -/
def shown (bytes : Bytes) : Bytes :=
  bytes.flatMap fun byte => if byte = newline then [carriageReturn, newline] else [byte]

end Terminal

end PromptHarness
