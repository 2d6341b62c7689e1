/-!
# Values and tables of a TOML document

A table is made once.  How it was made decides what may still be added to it: a table that only a
longer header implied can get its own header later, one made by dotted keys can get more of them,
and one written inline is complete.
-/

namespace PromptHarness.Toml

/-- How a table came to be. -/
inductive Origin where
  | header
  /-- Implied by the header of a table inside it. -/
  | implied
  | dotted
  | inline
  deriving Repr, DecidableEq

inductive Value where
  | text (chars : List Char)
  | integer (number : Int)
  | float
  | boolean
  /-- A date, a time of day, or both. -/
  | moment
  /-- `tables` holds of the arrays that headers in double brackets make. -/
  | array (tables : Bool) (items : List Value)
  | table (origin : Origin) (entries : List (String × Value))

/-- Keys with values, and how the table came about. -/
structure Table where
  origin : Origin
  entries : List (String × Value)

namespace Table

def new (origin : Origin) : Table := ⟨origin, []⟩

def find? (table : Table) (key : String) : Option Value := table.entries.lookup key

/-- Adds an entry, or puts a new value in the place of one. -/
def put (table : Table) (key : String) (value : Value) : Table :=
  if (table.find? key).isSome then
    { table with entries := table.entries.map fun entry =>
        if entry.1 = key then (key, value) else entry }
  else { table with entries := table.entries ++ [(key, value)] }

def toValue (table : Table) : Value := .table table.origin table.entries

/-- The origin of the tables that the way to another one makes. -/
def onTheWay (dotted : Bool) : Origin := if dotted then .dotted else .implied

/-- Whether the way to another table may lead through one of this origin. -/
def passable (dotted : Bool) : Origin → Bool
  | .inline => false
  | .header => !dotted
  | .implied | .dotted => true

/-- Changes the table at the end of a path.  The path of a header leads through all tables that are
not inline, that of a dotted key only through those without a header; of an array of tables both
take the last one. -/
def reach (dotted : Bool) (change : Table → Option Table) : List String → Table → Option Table
  | [], table => change table
  | key :: rest, table =>
    match table.find? key with
    | none => do
      let inner ← reach dotted change rest (new (onTheWay dotted))
      return table.put key inner.toValue
    | some (.table origin entries) =>
      if passable dotted origin then do
        let inner ← reach dotted change rest ⟨origin, entries⟩
        return table.put key inner.toValue
      else none
    | some (.array true items) =>
      match items.getLast? with
      | some (.table origin entries) => do
        let inner ← reach dotted change rest ⟨origin, entries⟩
        return table.put key (.array true (items.dropLast ++ [inner.toValue]))
      | _ => none
    | some _ => none

/-- Adds the value of a key that may be dotted.  The dots lead into tables that dots alone made. -/
def assign (path : List String) (key : String) (value : Value) (table : Table) : Option Table :=
  table.reach true
    (fun inner =>
      if (inner.origin == .dotted) == path.isEmpty then none
      else if (inner.find? key).isSome then none
      else some (inner.put key value))
    path

/-- Opens the table that a header names, new or implied so far. -/
def openTable (path : List String) (key : String) (table : Table) : Option Table :=
  table.reach false
    (fun inner =>
      match inner.find? key with
      | none => some (inner.put key (.table .header []))
      | some (.table .implied entries) => some (inner.put key (.table .header entries))
      | some _ => none)
    path

/-- Opens one more table of the array that a header in double brackets names. -/
def openItem (path : List String) (key : String) (table : Table) : Option Table :=
  table.reach false
    (fun inner =>
      match inner.find? key with
      | none => some (inner.put key (.array true [.table .header []]))
      | some (.array true items) =>
        some (inner.put key (.array true (items ++ [.table .header []])))
      | some _ => none)
    path

end Table

end PromptHarness.Toml
