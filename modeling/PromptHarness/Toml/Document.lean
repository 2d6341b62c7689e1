import PromptHarness.Toml.Scalar
import PromptHarness.Toml.Token

/-!
# Reading a TOML document

The reader takes one token after the other.  It keeps the tables made so far, the path of the table
that the last header opened, and, while it is inside a value, one frame for each array and inline
table that is still open.
-/

namespace PromptHarness.Toml

/-- The names of a dotted key read so far, and whether a name has to come next. -/
structure KeyReader where
  names : List String
  wantsName : Bool
  deriving Repr, DecidableEq

namespace KeyReader

def start : KeyReader := ⟨[], true⟩

/-- How many names a dotted key may have. -/
def longest : Nat := 80

def isKeyChar (char : Char) : Bool := char.isAlphanum || char == '_' || char == '-'

def feed (reader : KeyReader) : Token → Option KeyReader
  | .blank _ => some reader
  | .dot =>
    if reader.wantsName ∨ longest ≤ reader.names.length then none
    else some { reader with wantsName := true }
  | .bare chars =>
    if reader.wantsName ∧ chars.all isKeyChar then
      some ⟨reader.names ++ [String.ofList chars], false⟩
    else none
  | .text chars false =>
    if reader.wantsName then some ⟨reader.names ++ [String.ofList chars], false⟩ else none
  | _ => none

/-- The path and the last name of a key that is complete. -/
def finish (reader : KeyReader) : Option (List String × String) :=
  if reader.wantsName then none
  else reader.names.getLast?.map fun last => (reader.names.dropLast, last)

end KeyReader

inductive Frame where
  /-- The key at the beginning of a line. -/
  | line (path : List String) (key : String)
  /-- An array with the values in front of this one. -/
  | array (items : List Value)
  /-- An inline table with what is in it so far, and the key of this value. -/
  | inline (table : Table) (path : List String) (key : String)

/-- The value may begin on a later line than its key. -/
def Frame.spansLines : Frame → Bool
  | .inline .. => true
  | _ => false

/-- Where the reader stands; the frames are those that are open there, the innermost first. -/
inductive Mode where
  | lineStart
  | headerStart
  | header (listed : Bool) (key : KeyReader)
  | headerEnd (path : List String) (key : String)
  | key (key : KeyReader)
  | value (frame : Frame) (outer : List Frame)
  /-- In an array, where a value or the end may come. -/
  | item (items : List Value) (outer : List Frame)
  /-- In an inline table, where a key or the end may come. -/
  | field (table : Table) (outer : List Frame)
  | inlineKey (key : KeyReader) (table : Table) (outer : List Frame)
  /-- On a later line than the key in an inline table, where only the equals sign may come. -/
  | inlineEquals (path : List String) (key : String) (table : Table) (outer : List Frame)
  | scalar (chars : List Char) (frame : Frame) (outer : List Frame)
  /-- After a date and one space: a time of day may follow. -/
  | dateGap (chars : List Char) (frame : Frame) (outer : List Frame)
  | afterItem (items : List Value) (outer : List Frame)
  | afterField (table : Table) (outer : List Frame)
  | lineEnd

structure Reader where
  root : Table
  /-- The path of the table that the last header opened. -/
  current : List String
  mode : Mode

namespace Reader

/-- How deep arrays and inline tables may be nested. -/
def deepest : Nat := 80

def start : Reader := ⟨.new .header, [], .lineStart⟩

def enter (reader : Reader) (mode : Mode) : Option Reader :=
  some { reader with mode := mode }

/-- Puts a finished value where it belongs. -/
def settle (reader : Reader) (value : Value) (frame : Frame) (outer : List Frame) :
    Option Reader :=
  match frame with
  | .line path key => do
    let root ← reader.root.reach false (·.assign path key value) reader.current
    return { reader with root := root, mode := .lineEnd }
  | .array items => reader.enter (.afterItem (items ++ [value]) outer)
  | .inline table path key => do
    reader.enter (.afterField (← table.assign path key value) outer)

def close (reader : Reader) (value : Value) : List Frame → Option Reader
  | [] => none
  | frame :: outer => reader.settle value frame outer

/-- A token at the beginning of a value. -/
def beginValue (reader : Reader) (frame : Frame) (outer : List Frame) :
    Token → Option Reader
  | .blank _ => reader.enter (.value frame outer)
  | .newline => if frame.spansLines then reader.enter (.value frame outer) else none
  | .text chars _ => reader.settle (.text chars) frame outer
  | .bare chars => reader.enter (.scalar chars frame outer)
  | .dot => reader.enter (.scalar ['.'] frame outer)
  | .mark '[' =>
    if deepest ≤ outer.length then none else reader.enter (.item [] (frame :: outer))
  | .mark '\x7b' =>
    if deepest ≤ outer.length then none
    else reader.enter (.field (.new .inline) (frame :: outer))
  | _ => none

/-- A token between values, where nothing but an end or a separator may come. -/
def between (reader : Reader) (token : Token) : Option Reader :=
  match reader.mode, token with
  | .lineEnd, .blank _ => some reader
  | .lineEnd, .newline => reader.enter .lineStart
  | .afterItem .., .blank _ => some reader
  | .afterItem .., .newline => some reader
  | .afterItem items outer, .mark ',' => reader.enter (.item items outer)
  | .afterItem items outer, .mark ']' => reader.close (.array false items) outer
  | .afterField .., .blank _ => some reader
  | .afterField .., .newline => some reader
  | .afterField table outer, .mark ',' => reader.enter (.field table outer)
  | .afterField table outer, .mark '\x7d' => reader.close table.toValue outer
  | _, _ => none

/-- Ends a scalar and goes on with the token behind it. -/
def endScalar (reader : Reader) (chars : List Char) (frame : Frame) (outer : List Frame)
    (token : Token) : Option Reader := do
  (← reader.settle (← Scalar.value? chars) frame outer).between token

/-- Opens the table of a complete header. -/
def openHeader (reader : Reader) (listed : Bool) (path : List String) (key : String) :
    Option Reader := do
  let root ← if listed then reader.root.openItem path key else reader.root.openTable path key
  return ⟨root, path ++ [key], .lineEnd⟩

/-- One token; nothing where the document is malformed. -/
def feed (reader : Reader) (token : Token) : Option Reader :=
  match reader.mode with
  | .lineStart =>
    match token with
    | .blank _ | .newline => some reader
    | .mark '[' => reader.enter .headerStart
    | _ => do reader.enter (.key (← KeyReader.start.feed token))
  | .headerStart =>
    match token with
    | .mark '[' => reader.enter (.header true .start)
    | _ => do reader.enter (.header false (← KeyReader.start.feed token))
  | .header listed key =>
    match token with
    | .mark ']' => do
      let (path, last) ← key.finish
      if listed then reader.enter (.headerEnd path last) else reader.openHeader false path last
    | _ => do reader.enter (.header listed (← key.feed token))
  | .headerEnd path key =>
    match token with
    | .mark ']' => reader.openHeader true path key
    | _ => none
  | .key key =>
    match token with
    | .mark '=' => do
      let (path, last) ← key.finish
      reader.enter (.value (.line path last) [])
    | _ => do reader.enter (.key (← key.feed token))
  | .value frame outer => reader.beginValue frame outer token
  | .item items outer =>
    match token with
    | .blank _ | .newline => some reader
    | .mark ']' => reader.close (.array false items) outer
    | _ => reader.beginValue (.array items) outer token
  | .field table outer =>
    match token with
    | .blank _ | .newline => some reader
    | .mark '\x7d' => reader.close table.toValue outer
    | _ => do reader.enter (.inlineKey (← KeyReader.start.feed token) table outer)
  | .inlineKey key table outer =>
    match token with
    | .mark '=' => do
      let (path, last) ← key.finish
      reader.enter (.value (.inline table path last) outer)
    | .newline => do
      let (path, last) ← key.finish
      reader.enter (.inlineEquals path last table outer)
    | _ => do reader.enter (.inlineKey (← key.feed token) table outer)
  | .inlineEquals path key table outer =>
    match token with
    | .blank _ | .newline => some reader
    | .mark '=' => reader.enter (.value (.inline table path key) outer)
    | _ => none
  | .scalar chars frame outer =>
    match token with
    | .bare more => reader.enter (.scalar (chars ++ more) frame outer)
    | .dot => reader.enter (.scalar (chars ++ ['.']) frame outer)
    | .blank true =>
      if Scalar.isDate chars then reader.enter (.dateGap chars frame outer)
      else reader.endScalar chars frame outer token
    | _ => reader.endScalar chars frame outer token
  | .dateGap chars frame outer =>
    match token with
    | .bare more => reader.enter (.scalar (chars ++ ' ' :: more) frame outer)
    | _ => reader.endScalar chars frame outer token
  | .afterItem .. | .afterField .. | .lineEnd => reader.between token

end Reader

def parse? (document : List Char) : Option Table := do
  let reader ← ((← tokens? document) ++ [Token.newline]).foldlM Reader.feed Reader.start
  match reader.mode with
  | .lineStart => some reader.root
  | _ => none

end PromptHarness.Toml
