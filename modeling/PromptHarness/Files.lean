import PromptHarness.Path
import PromptHarness.Text.Utf8

/-!
# A tree of files

What a machine stores, as a map from places to nodes.  Looking a path up walks its names one after
the other and reports the first reason why it cannot go on; `find?_insert`, `find?_insert_of_ne` and
`find?_remove` say what the two changes do to every place.

The machine is used as root.  A file keeps its mode, and only whether it is a program depends on
that: no mode keeps anyone from reading, writing or removing what is there.
-/

namespace PromptHarness

/-- Why a path does not lead to what was asked for, or what it leads to cannot be used. -/
inductive FileError where
  | missing
  | denied
  | notDirectory
  | isDirectory
  | nameTooLong
  | alreadyThere
  /-- A program is given more than a process can take. -/
  | argumentsTooLong
  /-- The path holds a NUL, which no name on the machine can. -/
  | nulInName
  deriving Repr, DecidableEq

namespace FileError

def description : FileError → String
  | missing => "No such file or directory"
  | denied => "Permission denied"
  | notDirectory => "Not a directory"
  | isDirectory => "Is a directory"
  | nameTooLong => "File name too long"
  | alreadyThere => "File exists"
  | argumentsTooLong => "Argument list too long"
  | nulInName => "file name contained an unexpected NUL byte"

/-- The machine's number for the error and its symbol, where it has one. -/
def number? : FileError → Option (Nat × String)
  | missing => some (2, "ENOENT")
  | denied => some (13, "EACCES")
  | notDirectory => some (20, "ENOTDIR")
  | isDirectory => some (21, "EISDIR")
  | nameTooLong => some (36, "ENAMETOOLONG")
  | alreadyThere => some (17, "EEXIST")
  | argumentsTooLong => some (7, "E2BIG")
  | nulInName => none

/-- The description, followed by the number where there is one. -/
def message (error : FileError) : String :=
  match error.number? with
  | some (number, _) => error.description ++ " (os error " ++ toString number ++ ")"
  | none => error.description

end FileError

/-- The names from the root down to a place. -/
abbrev Place := List String

inductive Node where
  | directory
  | file (content : Bytes) (mode : Nat)
  /-- Holds nothing, and whatever is written to it is gone. -/
  | sink
  deriving Repr, DecidableEq

/-- Everything stored below the root, which is a directory itself, and the place where paths that
are not absolute begin. -/
structure Files where
  entries : List (Place × Node)
  working : Place

/-! ## Entries by key -/

/-- Dropping entries by their keys takes away the values of those keys and no others. -/
theorem lookup_filter {α β : Type} [BEq α] [LawfulBEq α] (entries : List (α × β))
    (keep : α → Bool) (key : α) :
    (entries.filter fun entry => keep entry.1).lookup key =
      if keep key then entries.lookup key else none := by
  induction entries with
  | nil => simp
  | cons entry rest ih =>
    obtain ⟨other, value⟩ := entry
    by_cases same : key = other
    · subst same
      cases held : keep key with
      | true => simp [List.filter, held]
      | false =>
        rw [held] at ih
        simp only [List.filter, held, ih, Bool.false_eq_true, if_false]
    · have differs : (key == other) = false := by simpa using same
      cases held : keep other <;> simp [List.filter, held, List.lookup_cons, differs, ih]

/-! ## Nodes by place -/

namespace Files

/-- Modes of new files, of programs and of directories. -/
def plainMode : Nat := 0o644
def programMode : Nat := 0o755

def directorySize : Nat := 4096

def empty : Files := ⟨[], []⟩

def find? (files : Files) (place : Place) : Option Node :=
  if place = [] then some .directory else files.entries.lookup place

def insert (files : Files) (place : Place) (node : Node) : Files :=
  { files with entries := (place, node) :: files.entries.filter (·.1 != place) }

/-- Drops the place and all below it, which root always can. -/
def remove (files : Files) (place : Place) : Files :=
  { files with entries := files.entries.filter fun entry => !place.isPrefixOf entry.1 }

@[simp]
theorem find?_root (files : Files) : files.find? [] = some .directory := rfl

theorem find?_insert (files : Files) {place : Place} (node : Node) (below : place ≠ []) :
    (files.insert place node).find? place = some node := by
  simp [find?, insert, below]

theorem find?_insert_of_ne (files : Files) {place other : Place} (node : Node)
    (differs : other ≠ place) : (files.insert place node).find? other = files.find? other := by
  unfold find? insert
  split
  · rfl
  · have apart : (other == place) = false := by simpa using differs
    have kept : (other != place) = true := by simpa using differs
    simp only [List.lookup_cons, apart]
    exact (lookup_filter files.entries (fun name => name != place) other).trans (if_pos kept)

/-- Nothing is left at or below a place that was removed. -/
theorem find?_remove (files : Files) {place other : Place} (below : place ≠ [])
    (under : place <+: other) : (files.remove place).find? other = none := by
  have inside : other ≠ [] := by
    rintro rfl
    exact below (List.prefix_nil.mp under)
  unfold find? remove
  have dropped : ¬(!place.isPrefixOf other) = true := by simpa using under
  rw [if_neg inside]
  exact (lookup_filter files.entries (fun name => !place.isPrefixOf name) other).trans
    (if_neg dropped)

/-- The rest of the tree stays. -/
theorem find?_remove_of_not_prefix (files : Files) {place other : Place}
    (outside : ¬place <+: other) : (files.remove place).find? other = files.find? other := by
  unfold find? remove
  split
  · rfl
  · have apart : place.isPrefixOf other = false := by
      cases held : place.isPrefixOf other
      · rfl
      · exact absurd (List.isPrefixOf_iff_prefix.mp held) outside
    exact (lookup_filter files.entries (fun name => !place.isPrefixOf name) other).trans
      (if_pos (by simp [apart]))

/-! ## Looking paths up -/

/-- The longest name and the longest path, in bytes, that the machine takes. -/
def longestName : Nat := 255
def longestPath : Nat := 4095

def walk (files : Files) : Place → List String → Except FileError Place
  | place, [] => .ok place
  | place, name :: rest =>
    match files.find? place with
    | some .directory =>
      if name = "" ∨ name = "." then files.walk place rest
      else if name = ".." then files.walk place.dropLast rest
      else if longestName < name.utf8ByteSize then .error .nameTooLong
      else if (files.find? (place ++ [name])).isNone then .error .missing
      else files.walk (place ++ [name]) rest
    | some _ => .error .notDirectory
    | none => .error .missing

def locate (files : Files) (path : String) : Except FileError Place :=
  if path.toList.contains '\x00' then .error .nulInName
  else if path.isEmpty then .error .missing
  else if longestPath < path.utf8ByteSize then .error .nameTooLong
  else files.walk (if Path.isAbsolute path then [] else files.working) (Path.names path)

def stat (files : Files) (path : String) : Except FileError Node := do
  let place ← files.locate path
  match files.find? place with
  | some node => .ok node
  | none => .error .missing

def isFile (files : Files) (path : String) : Bool :=
  match files.stat path with
  | .ok (.file ..) => true
  | _ => false

def isDirectory (files : Files) (path : String) : Bool :=
  match files.stat path with
  | .ok .directory => true
  | _ => false

def size (files : Files) (path : String) : Except FileError Nat := do
  match ← files.stat path with
  | .file content _ => .ok content.length
  | .directory => .ok directorySize
  | .sink => .ok 0

def read (files : Files) (path : String) : Except FileError Bytes := do
  match ← files.stat path with
  | .file content _ => .ok content
  | .directory => .error .isDirectory
  | .sink => .ok []

/-! ## Changing the tree -/

/-- The place that a path names, whether or not anything is there. -/
def placeOf (files : Files) (path : String) : Place :=
  (Path.names path).foldl
    (fun place name =>
      if name = "" ∨ name = "." then place
      else if name = ".." then place.dropLast
      else place ++ [name])
    (if Path.isAbsolute path then [] else files.working)

/-- A place and all places above it, from the top down; the root is left out. -/
def lineage (place : Place) : List Place :=
  (List.range place.length).map fun depth => place.take (depth + 1)

/-- Nothing but directories stands at the place and on the way to it, so all of that can be
directories. -/
def passable (files : Files) (place : Place) : Bool :=
  (lineage place).all fun above =>
    match files.find? above with
    | none | some .directory => true
    | some _ => false

/-- Makes a directory and those it needs above it; a file in the way leaves all as it is. -/
def makeDirectory (files : Files) (place : Place) : Files :=
  if files.passable place then
    (lineage place).foldl
      (fun files above =>
        if (files.find? above).isSome then files else files.insert above .directory)
      files
  else files

/-- Writes a file, making the directories it needs.  A file that is already there keeps its mode,
and can be written whatever that is; a directory in its place, or a file among those above it, leaves
all as it is. -/
def write (files : Files) (place : Place) (content : Bytes) : Files :=
  if files.passable place.dropLast then
    match files.find? place with
    | some .directory | some .sink => files
    | some (.file _ mode) => files.insert place (.file content mode)
    | none => (files.makeDirectory place.dropLast).insert place (.file content plainMode)
  else files

/-- Writes a file into a directory that is there already.  A file that is there keeps its mode, and
neither that nor a directory is ever closed to root. -/
def put (files : Files) (path : String) (content : Bytes) (mode : Nat) :
    Except FileError Files :=
  match files.stat path with
  | .ok .directory => .error .isDirectory
  | .ok .sink => .ok files
  | .ok (.file _ held) => do return files.insert (← files.locate path) (.file content held)
  | .error .missing =>
    let place := files.placeOf path
    match files.find? place.dropLast with
    | some .directory => .ok (files.insert place (.file content mode))
    | _ => .error .missing
  | .error reason => .error reason

/-- Adds to the end of a file; anything else in its place stays as it is. -/
def append (files : Files) (place : Place) (bytes : Bytes) : Files :=
  match files.find? place with
  | some (.file content mode) => files.insert place (.file (content ++ bytes) mode)
  | _ => files

/-! ## Listing -/

/-- The line for an entry below `top`: a directory with a slash, a file with its size. -/
def listingLine (top : Place) (entry : Place × Node) : String :=
  let name := "/".intercalate (entry.1.drop top.length)
  match entry.2 with
  | .directory => name ++ "/"
  | .file content _ => name ++ " " ++ toString content.length
  | .sink => name ++ " 0"

/-- All that is below a place, one line an entry, in ascending order of the lines. -/
def listing (files : Files) (top : Place) : List String :=
  ((files.entries.filter fun entry => top.isPrefixOf entry.1 && entry.1 != top).map
    (listingLine top)).mergeSort (fun left right => decide (left ≤ right))

end Files

end PromptHarness
