import PromptHarness.Process.Executable
import PromptHarness.Proofs.Paths

/-!
# Where a file can be put

A path names a spot if its directory is there and holds a file of that name or nothing at all.  What
is put at a spot is found under its path; every path that led somewhere before still leads there,
and programs are found where they were.
-/

namespace PromptHarness

namespace Files

variable {files : Files} {place found : Place} {names : List String} {path : String}

/-! ## Following names -/

def step (files : Files) (place : Place) (name : String) : Except FileError Place :=
  match files.find? place with
  | some .directory =>
    if name = "" ∨ name = "." then .ok place
    else if name = ".." then .ok place.dropLast
    else if longestName < name.utf8ByteSize then .error .nameTooLong
    else if (files.find? (place ++ [name])).isNone then .error .missing
    else .ok (place ++ [name])
  | some _ => .error .notDirectory
  | none => .error .missing

theorem walk_cons (files : Files) (place : Place) (name : String) (rest : List String) :
    files.walk place (name :: rest) =
      (files.step place name).bind fun next => files.walk next rest := by
  rw [walk, step]
  cases files.find? place with
  | none => rfl
  | some node =>
      cases node with
      | file content mode => rfl
      | sink => rfl
      | directory =>
          simp only
          repeat' split
          all_goals rfl

theorem walk_append (files : Files) (place : Place) (front rest : List String) :
    files.walk place (front ++ rest) =
      (files.walk place front).bind fun middle => files.walk middle rest := by
  induction front generalizing place with
  | nil => rfl
  | cons name front ih =>
      rw [List.cons_append, walk_cons, walk_cons]
      cases files.step place name with
      | error reason => rfl
      | ok next => exact ih next

/-- A way to a place leads over another place from each of its names on. -/
theorem exists_of_walk_append {start : Place} {front rest : List String}
    (hwalk : files.walk start (front ++ rest) = .ok found) :
    ∃ middle, files.walk start front = .ok middle ∧ files.walk middle rest = .ok found := by
  rw [walk_append] at hwalk
  cases hfront : files.walk start front with
  | error reason =>
      rw [hfront] at hwalk
      cases hwalk
  | ok middle =>
      rw [hfront] at hwalk
      exact ⟨middle, rfl, hwalk⟩

/-- Names are followed from directories only. -/
theorem find?_of_walk_cons {name : String} (hwalk : files.walk place (name :: names) = .ok found) :
    files.find? place = some .directory := by
  rw [walk_cons, step] at hwalk
  split at hwalk
  · next hdirectory => exact hdirectory
  · cases hwalk
  · cases hwalk

/-- A name that is a name of its own, and not of the directory reached or the one above. -/
structure IsProper (name : String) : Prop where
  filled : name ≠ ""
  here : name ≠ "."
  above : name ≠ ".."
  short : name.utf8ByteSize ≤ longestName

theorem walk_singleton {directory : Place} {name : String} (hname : IsProper name)
    (hdirectory : files.find? directory = some .directory) :
    files.walk directory [name] =
      if (files.find? (directory ++ [name])).isNone then .error .missing
      else .ok (directory ++ [name]) := by
  have hhere : ¬(name = "" ∨ name = ".") := not_or.mpr ⟨hname.filled, hname.here⟩
  rw [walk_cons, step, hdirectory]
  simp only [if_neg hhere, if_neg hname.above, if_neg (Nat.not_lt.mpr hname.short)]
  split
  · rfl
  · rfl

def beginning (files : Files) (path : String) : Place :=
  if Path.isAbsolute path then [] else files.working

/-- What has to be true of a path that leads somewhere. -/
theorem walk_of_locate (hlocate : files.locate path = .ok found) :
    '\x00' ∉ path.toList ∧ path.utf8ByteSize ≤ longestPath ∧
      files.walk (files.beginning path) (Path.names path) = .ok found := by
  unfold Files.locate at hlocate
  split at hlocate
  · cases hlocate
  · next hplain =>
    split at hlocate
    · cases hlocate
    · split at hlocate
      · cases hlocate
      · next hshort => exact ⟨by simpa using hplain, Nat.le_of_not_lt hshort, hlocate⟩

/-! ## Entries of directories -/

/-- The path names an entry of a directory that is there, whether or not the entry is. -/
structure IsEntry (files : Files) (path : String) (directory : Place) (name : String) : Prop where
  plain : '\x00' ∉ path.toList
  short : path.utf8ByteSize ≤ longestPath
  names : ∃ front, Path.names path = front ++ [name] ∧
    files.walk (files.beginning path) front = .ok directory
  proper : IsProper name
  inside : files.find? directory = some .directory

section Entry

variable {directory : Place} {name : String}

theorem IsEntry.path_ne_empty (hentry : files.IsEntry path directory name) : path ≠ "" := by
  rintro rfl
  obtain ⟨front, hnames, -⟩ := hentry.names
  have hempty : Path.names "" = [""] := rfl
  rw [hempty] at hnames
  have hlast := congrArg List.getLast? hnames
  rw [List.getLast?_concat] at hlast
  exact hentry.proper.filled (Option.some.inj hlast).symm

theorem IsEntry.locate (hentry : files.IsEntry path directory name) :
    files.locate path =
      if (files.find? (directory ++ [name])).isNone then .error .missing
      else .ok (directory ++ [name]) := by
  obtain ⟨front, hnames, hwalk⟩ := hentry.names
  have hnul : path.toList.contains '\x00' = false := by simpa using hentry.plain
  have hempty : path.isEmpty = false := by simpa using hentry.path_ne_empty
  simp only [Files.locate, hnul, hempty, Bool.false_eq_true, if_false,
    if_neg (Nat.not_lt.mpr hentry.short), hnames]
  change files.walk (files.beginning path) (front ++ [name]) = _
  rw [walk_append, hwalk]
  exact walk_singleton hentry.proper hentry.inside

theorem IsEntry.placeOf (hentry : files.IsEntry path directory name) :
    files.placeOf path = directory ++ [name] := by
  obtain ⟨front, hnames, hwalk⟩ := hentry.names
  have hhere : ¬(name = "" ∨ name = ".") :=
    not_or.mpr ⟨hentry.proper.filled, hentry.proper.here⟩
  have hfront := foldl_of_walk hwalk
  unfold beginning at hfront
  rw [Files.placeOf, hnames, List.foldl_append, hfront, List.foldl_cons, List.foldl_nil,
    if_neg hhere, if_neg hentry.proper.above]

theorem IsEntry.stat (hentry : files.IsEntry path directory name) :
    files.stat path =
      match files.find? (directory ++ [name]) with
      | some node => .ok node
      | none => .error .missing := by
  rw [Files.stat, hentry.locate]
  cases hfind : files.find? (directory ++ [name]) with
  | none => rfl
  | some node =>
      change (match files.find? (directory ++ [name]) with
        | some node => Except.ok node
        | none => Except.error FileError.missing) = _
      rw [hfind]

end Entry

/-! ## Spots -/

/-- A file can be put at the path: its directory is there, and there is a file of the name or nothing
in it. -/
structure IsSpot (files : Files) (path : String) (directory : Place) (name : String) : Prop where
  plain : '\x00' ∉ path.toList
  short : path.utf8ByteSize ≤ longestPath
  names : ∃ front, Path.names path = front ++ [name] ∧
    files.walk (files.beginning path) front = .ok directory
  proper : IsProper name
  inside : files.find? directory = some .directory
  free : files.find? (directory ++ [name]) = none ∨
    ∃ content mode, files.find? (directory ++ [name]) = some (.file content mode)

section Spot

variable {directory : Place} {name : String}

theorem IsSpot.isEntry (hspot : files.IsSpot path directory name) :
    files.IsEntry path directory name :=
  ⟨hspot.plain, hspot.short, hspot.names, hspot.proper, hspot.inside⟩

theorem IsSpot.locate (hspot : files.IsSpot path directory name) :
    files.locate path =
      if (files.find? (directory ++ [name])).isNone then .error .missing
      else .ok (directory ++ [name]) :=
  hspot.isEntry.locate

theorem IsSpot.placeOf (hspot : files.IsSpot path directory name) :
    files.placeOf path = directory ++ [name] :=
  hspot.isEntry.placeOf

theorem IsSpot.stat (hspot : files.IsSpot path directory name) :
    files.stat path =
      match files.find? (directory ++ [name]) with
      | some node => .ok node
      | none => .error .missing :=
  hspot.isEntry.stat

/-- The path of a spot at which there is a file leads there. -/
theorem IsSpot.locate_of_file (hspot : files.IsSpot path directory name) {content : Bytes}
    {mode : Nat} (hfile : files.find? (directory ++ [name]) = some (.file content mode)) :
    files.locate path = .ok (directory ++ [name]) := by
  rw [hspot.locate, hfile]
  rfl

theorem IsSpot.isDirectory (hspot : files.IsSpot path directory name) :
    files.isDirectory path = false := by
  rw [Files.isDirectory, hspot.stat]
  rcases hspot.free with hnone | ⟨content, mode, hsome⟩
  · rw [hnone]
  · rw [hsome]

theorem IsSpot.find?_ne_directory (hspot : files.IsSpot path directory name) :
    files.find? (directory ++ [name]) ≠ some .directory := by
  rcases hspot.free with hnone | ⟨content, mode, hsome⟩
  · simp [hnone]
  · simp [hsome]

theorem IsSpot.read (hspot : files.IsSpot path directory name) {content : Bytes} {mode : Nat}
    (hfile : files.find? (directory ++ [name]) = some (.file content mode)) :
    files.read path = .ok content := by
  rw [Files.read, hspot.stat, hfile]
  rfl

/-- The mode that a file has when it is put at a place: it keeps the one it has. -/
def modeAt (files : Files) (place : Place) (mode : Nat) : Nat :=
  match files.find? place with
  | some (.file _ held) => held
  | _ => mode

def putAt (files : Files) (place : Place) (content : Bytes) (mode : Nat) : Files :=
  files.insert place (.file content (files.modeAt place mode))

theorem IsSpot.put (hspot : files.IsSpot path directory name) (content : Bytes) (mode : Nat) :
    files.put path content mode = .ok (files.putAt (directory ++ [name]) content mode) := by
  rcases hspot.free with hnone | ⟨held, holds, hsome⟩
  · rw [Files.put, hspot.stat, hnone]
    simp only [hspot.placeOf, List.dropLast_concat, hspot.inside, putAt, modeAt, hnone]
  · rw [Files.put, hspot.stat, hsome]
    simp only [hspot.locate_of_file hsome, putAt, modeAt, hsome]
    rfl

end Spot

/-! ## After a file has been put somewhere -/

theorem insert_insert (files : Files) (place : Place) (first second : Node) :
    (files.insert place first).insert place second = files.insert place second := by
  simp [insert, List.filter_filter]

/-- What is added to a file that has just been made is all that it holds. -/
theorem append_putAt (files : Files) {place : Place} (hplace : place ≠ []) (bytes : Bytes)
    (mode : Nat) : (files.putAt place [] mode).append place bytes = files.putAt place bytes mode := by
  rw [append, putAt, find?_insert files _ hplace]
  exact insert_insert files place _ _

section Insert

variable {content : Bytes} {mode : Nat}

/-- Where no directory is, a file can be put without a change of any step but those to it and from
it, which led nowhere or to the file that was there. -/
theorem step_insert (hplace : files.find? place ≠ some .directory) (start : Place)
    (name : String) :
    (files.insert place (.file content mode)).step start name = files.step start name ∨
      files.find? place = none ∧ files.step start name = .error .missing ∧
        ((files.insert place (.file content mode)).step start name = .ok place ∨
          (files.insert place (.file content mode)).step start name = .error .notDirectory) := by
  have hbelow : place ≠ [] := by
    rintro rfl
    exact hplace rfl
  by_cases hstart : start = place
  · subst hstart
    have hafter : (files.insert start (.file content mode)).step start name =
        .error .notDirectory := by
      rw [step, find?_insert files _ hbelow]
    rw [hafter]
    cases hfind : files.find? start with
    | none => exact .inr ⟨rfl, by rw [step, hfind], .inr rfl⟩
    | some node =>
        cases node with
        | directory => exact absurd hfind hplace
        | file held holds => exact .inl (by rw [step, hfind])
        | sink => exact .inl (by rw [step, hfind])
  · by_cases hnext : start ++ [name] = place
    · have hthere : ((files.insert place (.file content mode)).find? place).isNone = false := by
        rw [find?_insert files _ hbelow]
        rfl
      cases hold : files.find? place with
      | none =>
          simp only [step, find?_insert_of_ne files _ hstart, hnext, hthere, hold, Option.isNone_none]
          repeat' split
          all_goals simp_all
      | some node =>
          refine .inl ?_
          simp only [step, find?_insert_of_ne files _ hstart, hnext, hthere, hold, Option.isNone_some]
    · refine .inl ?_
      simp only [step, find?_insert_of_ne files _ hstart, find?_insert_of_ne files _ hnext]

theorem walk_insert (hplace : files.find? place ≠ some .directory) (start : Place)
    (names : List String) :
    (files.insert place (.file content mode)).walk start names = files.walk start names ∨
      files.find? place = none ∧ files.walk start names = .error .missing ∧
        ((files.insert place (.file content mode)).walk start names = .ok place ∨
          (files.insert place (.file content mode)).walk start names = .error .notDirectory) := by
  have hbelow : place ≠ [] := by
    rintro rfl
    exact hplace rfl
  induction names generalizing start with
  | nil => exact .inl rfl
  | cons name rest ih =>
      rw [walk_cons, walk_cons]
      rcases step_insert hplace start name with hsame | ⟨hfree, hmissing, hlands | hblocked⟩
      · rw [hsame]
        cases files.step start name with
        | error reason => exact .inl rfl
        | ok next => exact ih next
      · rw [hmissing, hlands]
        refine .inr ⟨hfree, rfl, ?_⟩
        cases rest with
        | nil => exact .inl rfl
        | cons next rest =>
            refine .inr ?_
            change (files.insert place (.file content mode)).walk place (next :: rest) = _
            rw [walk_cons, step, find?_insert files _ hbelow]
            rfl
      · rw [hmissing, hblocked]
        exact .inr ⟨hfree, rfl, .inr rfl⟩

theorem locate_insert (hplace : files.find? place ≠ some .directory) (path : String) :
    (files.insert place (.file content mode)).locate path = files.locate path ∨
      files.find? place = none ∧ files.locate path = .error .missing ∧
        ((files.insert place (.file content mode)).locate path = .ok place ∨
          (files.insert place (.file content mode)).locate path = .error .notDirectory) := by
  unfold locate
  split
  · exact .inl rfl
  · split
    · exact .inl rfl
    · split
      · exact .inl rfl
      · exact walk_insert hplace _ _

/-- A path that leads somewhere still leads there. -/
theorem locate_insert_of_ok (hplace : files.find? place ≠ some .directory)
    (hlocate : files.locate path = .ok found) :
    (files.insert place (.file content mode)).locate path = .ok found := by
  rcases @locate_insert files place content mode hplace path with hsame | ⟨-, hmissing, -⟩
  · rw [hsame, hlocate]
  · rw [hlocate] at hmissing
    cases hmissing

/-- What is at another place is found as before. -/
theorem stat_insert_of_ne (hplace : files.find? place ≠ some .directory) {node : Node}
    (hstat : files.stat path = .ok node) (hother : files.placeOf path ≠ place) :
    (files.insert place (.file content mode)).stat path = .ok node := by
  have hfind := find?_of_stat hstat
  unfold stat at hstat ⊢
  cases hlocate : files.locate path with
  | error reason =>
      rw [hlocate] at hstat
      cases hstat
  | ok found =>
      rw [placeOf_of_locate hlocate] at hfind hother
      rw [locate_insert_of_ok hplace hlocate]
      change (match (files.insert place (.file content mode)).find? found with
        | some node => Except.ok node
        | none => Except.error FileError.missing) = _
      rw [find?_insert_of_ne files _ hother, hfind]

/-- A spot stays a spot. -/
theorem IsSpot.insert {directory : Place} {name : String}
    (hspot : files.IsSpot path directory name) (hplace : files.find? place ≠ some .directory) :
    (files.insert place (.file content mode)).IsSpot path directory name := by
  have hbelow : place ≠ [] := by
    rintro rfl
    exact hplace rfl
  obtain ⟨front, hnames, hwalk⟩ := hspot.names
  constructor
  case plain => exact hspot.plain
  case short => exact hspot.short
  case names =>
    refine ⟨front, hnames, ?_⟩
    rcases @walk_insert files place content mode hplace (files.beginning path) front with
      hsame | ⟨-, hmissing, -⟩
    · exact hsame.trans hwalk
    · rw [hwalk] at hmissing
      cases hmissing
  case proper => exact hspot.proper
  case inside =>
    have hother : directory ≠ place := by
      rintro rfl
      exact hplace hspot.inside
    rw [find?_insert_of_ne files _ hother]
    exact hspot.inside
  case free =>
    by_cases hsame : directory ++ [name] = place
    · rw [hsame, find?_insert files _ hbelow]
      exact .inr ⟨content, mode, rfl⟩
    · rw [find?_insert_of_ne files _ hsame]
      exact hspot.free

/-- What has been put at a spot is found there. -/
theorem IsSpot.read_insert {directory : Place} {name : String}
    (hspot : files.IsSpot path directory name) :
    (files.insert (directory ++ [name]) (.file content mode)).read path = .ok content := by
  exact (hspot.insert hspot.find?_ne_directory).read (find?_insert files _ (by simp))

end Insert

end Files

/-! ## Paths that are joined -/

namespace Path

theorem names_append_slash (base name : String) :
    names (base ++ "/" ++ name) = names base ++ names name := by
  have hchars : (base ++ "/" ++ name).toList = base.toList ++ '/' :: name.toList := by simp
  rw [names, hchars, Text.stretches_append_cons, List.map_append]
  rfl

theorem ne_empty_of_isAbsolute {path : String} (habsolute : isAbsolute path = true) : path ≠ "" := by
  rintro rfl
  cases habsolute

theorem isAbsolute_append {base : String} (hbase : isAbsolute base = true) (rest : String) :
    isAbsolute (base ++ rest) = true := by
  unfold isAbsolute at hbase ⊢
  rw [String.toList_append]
  cases hchars : base.toList with
  | nil =>
      rw [hchars] at hbase
      cases hbase
  | cons first others =>
      rw [hchars] at hbase
      exact hbase

theorem isAbsolute_join {base : String} (hbase : isAbsolute base = true) (name : String) :
    isAbsolute (join base name) = true := by
  have hempty : base.isEmpty = false := by simpa using ne_empty_of_isAbsolute hbase
  unfold join
  split
  · next hname => simpa [hempty] using hname
  · split
    · exact isAbsolute_append hbase name
    · rw [String.append_assoc]
      exact isAbsolute_append hbase _

theorem isAbsolute_eq_false {name : String} (hplain : '/' ∉ name.toList) :
    isAbsolute name = false := by
  unfold isAbsolute
  cases hchars : name.toList with
  | nil => rfl
  | cons first rest =>
      have hfirst : first ≠ '/' := by
        rintro rfl
        exact hplain (hchars ▸ List.mem_cons_self)
      simpa using hfirst

/-- The names of a path behind another come behind those that lead to the other. -/
theorem exists_names_join_relative {base : String} (hbase : base ≠ "") :
    ∃ front, (names base = front ∨ names base = front ++ [""]) ∧
      ∀ name : String, isAbsolute name = false → names (join base name) = front ++ names name := by
  have hempty : base.isEmpty = false := by simpa using hbase
  by_cases hslash : base.toList.getLast? = some '/'
  · obtain ⟨chars, hchars⟩ := List.getLast?_eq_some_iff.mp hslash
    obtain rfl : base = String.ofList chars ++ "/" := by
      rw [← String.toList_inj, hchars]
      simp
    refine ⟨names (String.ofList chars), .inr ?_, ?_⟩
    · have hnothing := names_append_slash (String.ofList chars) ""
      rw [String.append_empty] at hnothing
      exact hnothing
    · intro name hrelative
      have hlast : ((String.ofList chars ++ "/").toList.getLast? == some '/') = true := by simp
      simp only [join, hrelative, hempty, hlast, Bool.or_false, Bool.false_eq_true, if_false,
        if_true]
      rw [names_append_slash]
  · refine ⟨names base, .inl rfl, ?_⟩
    intro name hrelative
    have hlast : (base.toList.getLast? == some '/') = false := by simpa using hslash
    simp only [join, hrelative, hempty, hlast, Bool.or_false, Bool.false_eq_true, if_false]
    rw [names_append_slash]

/-- A single name behind a path comes last among its names, behind those that lead to the path. -/
theorem exists_names_join {base : String} (hbase : base ≠ "") :
    ∃ front, (names base = front ∨ names base = front ++ [""]) ∧
      ∀ name : String, '/' ∉ name.toList → names (join base name) = front ++ [name] := by
  obtain ⟨front, hfront, hnames⟩ := exists_names_join_relative hbase
  refine ⟨front, hfront, ?_⟩
  intro name hplain
  rw [hnames name (isAbsolute_eq_false hplain), names_eq_singleton hplain]

/-- A joined path is made of the path, the name and at most one slash between them. -/
theorem exists_join {base name : String} (hbase : base ≠ "") (hplain : '/' ∉ name.toList) :
    ∃ slash, (slash = "" ∨ slash = "/") ∧ join base name = base ++ slash ++ name := by
  have hempty : base.isEmpty = false := by simpa using hbase
  simp only [join, isAbsolute_eq_false hplain, hempty, Bool.or_false, Bool.false_eq_true, if_false]
  split
  · exact ⟨"", .inl rfl, by rw [String.append_empty]⟩
  · exact ⟨"/", .inr rfl, rfl⟩

end Path

namespace Files

/-- A path behind another is followed from where the other leads. -/
theorem placeOf_join_relative {base name : String} (hbase : Path.isAbsolute base = true)
    (hrelative : Path.isAbsolute name = false) (files : Files) :
    files.placeOf (Path.join base name) =
      (Path.names name).foldl
        (fun place name =>
          if name = "" ∨ name = "." then place
          else if name = ".." then place.dropLast
          else place ++ [name])
        (files.placeOf base) := by
  obtain ⟨front, hfront, hnames⟩ :=
    Path.exists_names_join_relative (Path.ne_empty_of_isAbsolute hbase)
  have hjoined := Path.isAbsolute_join hbase name
  rw [placeOf, placeOf, hjoined, hbase, if_pos rfl, hnames name hrelative, List.foldl_append]
  rcases hfront with hsame | hslash
  · rw [hsame]
  · -- The empty name behind the last slash stands for the directory itself.
    rw [hslash, List.foldl_append, List.foldl_cons, List.foldl_nil, if_pos (.inl rfl)]

theorem placeOf_join {base name : String} (hbase : Path.isAbsolute base = true)
    (hname : IsProper name) (hplain : '/' ∉ name.toList) (files : Files) :
    files.placeOf (Path.join base name) = files.placeOf base ++ [name] := by
  have hhere : ¬(name = "" ∨ name = ".") := not_or.mpr ⟨hname.filled, hname.here⟩
  rw [placeOf_join_relative hbase (Path.isAbsolute_eq_false hplain),
    Path.names_eq_singleton hplain, List.foldl_cons, List.foldl_nil, if_neg hhere,
    if_neg hname.above]

end Files

namespace Executable

variable {files : Files} {place found : Place} {path : String} {content held : Bytes}

/-- What a program's file holds, or why it is none. -/
def accepts : Option Node → Except FileError Bytes
  | some (.file content mode) => if isProgramMode mode then .ok content else .error .denied
  | some _ => .error .denied
  | none => .error .missing

theorem inspect_eq (files : Files) (path : String) :
    inspect files path =
      (files.locate path).bind fun place => (accepts (files.find? place)).map (place, ·) := by
  unfold inspect
  cases files.locate path with
  | error reason => rfl
  | ok place =>
      simp only [bind, Except.bind]
      cases files.find? place with
      | none => rfl
      | some node =>
          cases node with
          | directory => rfl
          | sink => rfl
          | file content mode =>
              simp only [accepts]
              split
              · rfl
              · rfl

theorem isFile_of_inspect (hinspect : inspect files path = .ok (found, held)) :
    files.isFile path = true := by
  rw [inspect_eq] at hinspect
  cases hlocate : files.locate path with
  | error reason =>
      rw [hlocate] at hinspect
      cases hinspect
  | ok place =>
      rw [hlocate] at hinspect
      simp only [Except.bind] at hinspect
      simp only [Files.isFile, Files.stat, hlocate, bind, Except.bind]
      cases hfind : files.find? place with
      | none =>
          rw [hfind] at hinspect
          cases hinspect
      | some node =>
          rw [hfind] at hinspect
          cases node with
          | file content mode => rfl
          | directory => cases hinspect
          | sink => cases hinspect

/-- A file that takes the place of another can be executed if that one could be, and a new one
cannot. -/
theorem accepts_putAt (hplace : files.find? place ≠ some .directory) :
    accepts ((files.putAt place content Files.plainMode).find? place) =
      match accepts (files.find? place) with
      | .ok _ => .ok content
      | .error _ => .error .denied := by
  have hbelow : place ≠ [] := by
    rintro rfl
    exact hplace rfl
  rw [Files.putAt, Files.find?_insert files _ hbelow, Files.modeAt]
  cases hfind : files.find? place with
  | none => rfl
  | some node =>
      cases node with
      | directory => exact absurd hfind hplace
      | sink => rfl
      | file held mode =>
          simp only [accepts]
          split
          · rfl
          · rfl

/-- Where a program was found, one is still found. -/
theorem inspect_putAt_of_ok (hplace : files.find? place ≠ some .directory)
    (hinspect : inspect files path = .ok (found, held)) :
    ∃ holds, inspect (files.putAt place content Files.plainMode) path = .ok (found, holds) := by
  rw [inspect_eq] at hinspect ⊢
  cases hlocate : files.locate path with
  | error reason =>
      rw [hlocate] at hinspect
      cases hinspect
  | ok reached =>
      rw [hlocate] at hinspect
      rw [Files.putAt, Files.locate_insert_of_ok hplace hlocate, ← Files.putAt]
      simp only [Except.bind] at hinspect ⊢
      cases haccepts : accepts (files.find? reached) with
      | error reason =>
          rw [haccepts] at hinspect
          cases hinspect
      | ok holds =>
          rw [haccepts] at hinspect
          cases hinspect
          by_cases hsame : found = place
          · subst hsame
            rw [accepts_putAt hplace, haccepts]
            exact ⟨content, rfl⟩
          · rw [Files.putAt, Files.find?_insert_of_ne files _ hsame, haccepts]
            exact ⟨held, rfl⟩

/-- The errors by which a search goes on. -/
def IsPassedOver (reason : FileError) : Prop :=
  reason = .missing ∨ reason = .notDirectory ∨ reason = .denied

theorem inspect_putAt_of_error (hplace : files.find? place ≠ some .directory) {reason : FileError}
    (hreason : IsPassedOver reason) (hinspect : inspect files path = .error reason) :
    ∃ other, IsPassedOver other ∧
      inspect (files.putAt place content Files.plainMode) path = .error other := by
  have hdenied : IsPassedOver .denied := .inr (.inr rfl)
  rw [inspect_eq] at hinspect ⊢
  rcases @Files.locate_insert files place content (files.modeAt place Files.plainMode) hplace path
    with hsame | ⟨hfree, hmissing, hlands | hblocked⟩
  · rw [Files.putAt, hsame, ← Files.putAt]
    cases hlocate : files.locate path with
    | error found =>
        rw [hlocate] at hinspect
        cases hinspect
        exact ⟨reason, hreason, rfl⟩
    | ok reached =>
        rw [hlocate] at hinspect
        simp only [Except.bind] at hinspect ⊢
        by_cases hreached : reached = place
        · rw [hreached] at hinspect ⊢
          rw [accepts_putAt hplace]
          cases haccepts : accepts (files.find? place) with
          | ok holds =>
              rw [haccepts] at hinspect
              cases hinspect
          | error found => exact ⟨.denied, hdenied, rfl⟩
        · rw [Files.putAt, Files.find?_insert_of_ne files _ hreached]
          exact ⟨reason, hreason, hinspect⟩
  · rw [Files.putAt, hlands, ← Files.putAt]
    simp only [Except.bind]
    rw [accepts_putAt hplace, hfree]
    exact ⟨.denied, hdenied, rfl⟩
  · rw [Files.putAt, hblocked]
    exact ⟨.notDirectory, .inr (.inl rfl), rfl⟩

theorem search_cons (files : Files) (program directory : String) (rest : List String)
    (error : FileError) :
    search files program (directory :: rest) error =
      match inspect files (Path.join directory program) with
      | .ok _ => .ok (Path.join directory program)
      | .error .missing =>
        search files program rest (if error = .denied then .denied else .missing)
      | .error .notDirectory =>
        search files program rest (if error = .denied then .denied else .notDirectory)
      | .error .denied => search files program rest .denied
      | .error other => .error other := rfl

/-- A program that a search has found is in one of the directories. -/
theorem exists_of_search {program : String} {directories : List String} {error : FileError}
    (hsearch : search files program directories error = .ok path) :
    ∃ directory ∈ directories, path = Path.join directory program ∧
      ∃ found, inspect files path = .ok found := by
  induction directories generalizing error with
  | nil => cases hsearch
  | cons directory rest ih =>
      have hlater : ∀ other, search files program rest other = .ok path →
          ∃ directory' ∈ directory :: rest, path = Path.join directory' program ∧
            ∃ found, inspect files path = .ok found := by
        intro other hrest
        obtain ⟨directory', hmem, hfound⟩ := ih hrest
        exact ⟨directory', List.mem_cons_of_mem directory hmem, hfound⟩
      rw [search_cons] at hsearch
      split at hsearch
      · next found hinspect =>
        cases hsearch
        exact ⟨directory, List.mem_cons_self, rfl, found, hinspect⟩
      · exact hlater _ hsearch
      · exact hlater _ hsearch
      · exact hlater _ hsearch
      · cases hsearch

/-- A search finds what it found before. -/
theorem search_putAt (hplace : files.find? place ≠ some .directory) {program : String}
    {directories : List String} {error : FileError}
    (hsearch : search files program directories error = .ok path) (other : FileError) :
    search (files.putAt place content Files.plainMode) program directories other = .ok path := by
  induction directories generalizing error other with
  | nil => cases hsearch
  | cons directory rest ih =>
      have hpassed : ∀ reason, IsPassedOver reason →
          inspect files (Path.join directory program) = .error reason →
          (∃ error, search files program rest error = .ok path) →
          search (files.putAt place content Files.plainMode) program (directory :: rest) other =
            .ok path := by
        rintro reason hreason hinspect ⟨error, hrest⟩
        obtain ⟨reason', hreason', hinspect'⟩ :=
          @inspect_putAt_of_error files place _ content hplace _ hreason hinspect
        rw [search_cons, hinspect']
        rcases hreason' with rfl | rfl | rfl
        · exact ih hrest _
        · exact ih hrest _
        · exact ih hrest _
      rw [search_cons] at hsearch
      split at hsearch
      · next found hinspect =>
        cases hsearch
        obtain ⟨reached, held⟩ := found
        obtain ⟨holds, hinspect'⟩ := @inspect_putAt_of_ok files place _ _ content _ hplace hinspect
        rw [search_cons, hinspect']
      · next hinspect => exact hpassed _ (.inl rfl) hinspect ⟨_, hsearch⟩
      · next hinspect => exact hpassed _ (.inr (.inl rfl)) hinspect ⟨_, hsearch⟩
      · next hinspect => exact hpassed _ (.inr (.inr rfl)) hinspect ⟨_, hsearch⟩
      · cases hsearch

/-! ## Calls that lead to a program -/

/-- What a call names is an executable file at a place. -/
def Leads (files : Files) (call : Call) (place : Place) : Prop :=
  ∃ path content, resolve files call.environment call.name = .ok path ∧
    inspect files path = .ok (place, content)

theorem Leads.putAt {call : Call} (hleads : Leads files call found)
    (hplace : files.find? place ≠ some .directory) :
    Leads (files.putAt place content Files.plainMode) call found := by
  obtain ⟨path, held, hresolve, hinspect⟩ := hleads
  obtain ⟨holds, hinspect'⟩ := @inspect_putAt_of_ok files place _ _ content _ hplace hinspect
  refine ⟨path, holds, ?_, hinspect'⟩
  unfold resolve at hresolve ⊢
  split
  · next hslash =>
    rw [if_pos hslash] at hresolve
    exact hresolve
  · next hbare =>
    rw [if_neg hbare] at hresolve
    split
    · next hempty =>
      rw [if_pos hempty] at hresolve
      cases hresolve
    · next hnamed =>
      rw [if_neg hnamed] at hresolve
      exact search_putAt hplace hresolve _

end Executable

end PromptHarness
