/-!
# Reading bytes as text

Bytes become characters through a small state machine that looks at one byte at a time.  A
well-formed sequence gives its character; every longest beginning of a sequence that cannot be
completed gives one broken piece.  Replacing each broken piece by U+FFFD reads any bytes at all
(`lossy`), and insisting that there is none reads exactly the well-formed ones (`strict?`).
-/

namespace PromptHarness

/-- Text as it is stored and sent. -/
abbrev Bytes := List UInt8

namespace Text

/-- The bytes that write `text` in UTF-8. -/
def encode (text : String) : Bytes :=
  text.toList.flatMap String.utf8EncodeChar

def replacement : Char := '\ufffd'

/-- Where the reader stands: between characters, or inside one of which `value` collects the bits,
the next byte must lie between `low` and `high`, and `more` bytes follow that one. -/
inductive Reader where
  | ready
  | inside (value : Nat) (low high : UInt8) (more : Nat)
  deriving Repr, DecidableEq

namespace Reader

/-- The reader after a first byte, with the pieces that this byte completes.  The narrower ranges
after `E0`, `ED`, `F0` and `F4` rule out overlong forms, surrogates and values past U+10FFFF. -/
def begin (byte : UInt8) : List (Option Char) × Reader :=
  if byte < 0x80 then ([some (Char.ofNat byte.toNat)], ready)
  else if byte < 0xc2 then ([none], ready)
  else if byte < 0xe0 then ([], inside (byte.toNat - 0xc0) 0x80 0xbf 0)
  else if byte = 0xe0 then ([], inside 0 0xa0 0xbf 1)
  else if byte = 0xed then ([], inside 0xd 0x80 0x9f 1)
  else if byte < 0xf0 then ([], inside (byte.toNat - 0xe0) 0x80 0xbf 1)
  else if byte = 0xf0 then ([], inside 0 0x90 0xbf 2)
  else if byte < 0xf4 then ([], inside (byte.toNat - 0xf0) 0x80 0xbf 2)
  else if byte = 0xf4 then ([], inside 4 0x80 0x8f 2)
  else ([none], ready)

/-- One byte.  A byte that cannot continue the sequence ends it as a broken piece and is then read
as a first byte. -/
def feed : Reader → UInt8 → List (Option Char) × Reader
  | ready, byte => begin byte
  | inside value low high more, byte =>
    if low ≤ byte ∧ byte ≤ high then
      let value := value * 64 + (byte.toNat - 0x80)
      match more with
      | 0 => ([some (Char.ofNat value)], ready)
      | more + 1 => ([], inside value 0x80 0xbf more)
    else
      let (pieces, reader) := begin byte
      (none :: pieces, reader)

def finish : Reader → List (Option Char)
  | ready => []
  | inside .. => [none]

/-- The pieces of `bytes` and the reader after them. -/
def run : Reader → Bytes → List (Option Char) × Reader
  | reader, [] => ([], reader)
  | reader, byte :: rest =>
    let (pieces, next) := reader.feed byte
    let (later, last) := next.run rest
    (pieces ++ later, last)

@[simp]
theorem run_nil (reader : Reader) : reader.run [] = ([], reader) := rfl

theorem run_cons (reader : Reader) (byte : UInt8) (rest : Bytes) :
    reader.run (byte :: rest) =
      ((reader.feed byte).1 ++ ((reader.feed byte).2.run rest).1,
        ((reader.feed byte).2.run rest).2) := rfl

/-- Reading may stop anywhere and go on from the reader reached. -/
theorem run_append (reader : Reader) (left right : Bytes) :
    reader.run (left ++ right) =
      ((reader.run left).1 ++ ((reader.run left).2.run right).1,
        ((reader.run left).2.run right).2) := by
  induction left generalizing reader with
  | nil => simp
  | cons byte rest ih => simp [run_cons, ih]

end Reader

/-- The pieces of `bytes` in order: characters, and `none` for each broken piece. -/
def pieces (bytes : Bytes) : List (Option Char) :=
  let (found, reader) := Reader.ready.run bytes
  found ++ reader.finish

/-- The characters of `bytes`, with one U+FFFD for every broken piece. -/
def lossyChars (bytes : Bytes) : List Char :=
  (pieces bytes).map (·.getD replacement)

def lossy (bytes : Bytes) : String :=
  String.ofList (lossyChars bytes)

/-- The text of `bytes`, if they are well formed throughout. -/
def strict? (bytes : Bytes) : Option String :=
  ((pieces bytes).mapM id).map String.ofList

end Text

end PromptHarness
