import PromptHarness.Actor
import PromptHarness.Proofs.Calls
import PromptHarness.Proofs.Editors

/-!
# Commands that edit

A command that has its editor work on a file starts the editor that the home has chosen, with the
variables that the command itself was given.  What the built-in editors do is thus what is found in
the file afterwards.
-/

namespace PromptHarness

namespace Action

/-- Has the editor work on a file in the home and writes what the file holds then.  An editor that
cannot be started changes nothing. -/
def editingOf (name : String) (launch : Launcher) (call : Call) : Process Unit := do
  let path := Path.join ((call.environment.value? "HOME").getD "") name
  let chosen := (call.environment.value? "EDITOR").getD ""
  match launch (← .files) ⟨chosen, [path], call.environment⟩ with
  | .ok work => let _ ← work
  | .error _ => pure ()
  match (← .files).read path with
  | .ok content => .say content
  | .error reason => .complain (Text.encode ("cat: " ++ path ++ ": " ++ reason.description ++ "\n"))

def editCommand (name : String) : Program := fun launch call =>
  (editingOf name launch call).bind fun _ => exited 0

variable {launch : Launcher} {call : Call} {world middle : World} {root chosen name : String}
  {work : Process Ending} {ending : Ending} {content : Bytes}

theorem outcome?_editCommand (hroot : call.environment.value? "HOME" = some root)
    (hchosen : call.environment.value? "EDITOR" = some chosen)
    (hlaunch : launch world.files ⟨chosen, [Path.join root name], call.environment⟩ = .ok work)
    (hwork : work.outcome? world = some (ending, middle))
    (hread : middle.files.read (Path.join root name) = .ok content) :
    (editCommand name launch call).outcome? world = some (.exited 0, middle.write content) := by
  have hedited : (editingOf name launch call).outcome? world =
      some ((), middle.write content) := by
    simp only [editingOf, hroot, hchosen, Option.getD_some]
    change (match launch world.files ⟨chosen, [Path.join root name], call.environment⟩ with
      | .ok work => _
      | .error _ => _ : Process Unit).outcome? world = _
    rw [hlaunch]
    change (work.bind _).outcome? world = _
    rw [Process.outcome?_bind, hwork]
    change (match middle.files.read (Path.join root name) with
      | .ok content => _
      | .error _ => _ : Process Unit).outcome? middle = _
    rw [hread]
    rfl
  rw [editCommand, Process.outcome?_bind, hedited]
  rfl

end Action

namespace Files

theorem exists_locate_of_stat {files : Files} {path : String} {node : Node}
    (hstat : files.stat path = .ok node) : ∃ place, files.locate path = .ok place := by
  unfold stat at hstat
  cases hlocate : files.locate path with
  | ok place => exact ⟨place, rfl⟩
  | error reason =>
      rw [hlocate] at hstat
      cases hstat

theorem inspect_of_stat {files : Files} {path : String} {content : Bytes} {mode : Nat}
    (hstat : files.stat path = .ok (.file content mode))
    (hmode : Executable.isProgramMode mode = true) :
    Executable.inspect files path = .ok (files.placeOf path, content) := by
  have hfind := find?_of_stat hstat
  obtain ⟨place, hlocate⟩ := exists_locate_of_stat hstat
  rw [placeOf_of_locate hlocate] at hfind ⊢
  rw [Executable.inspect_eq, hlocate]
  simp only [Except.bind, hfind, Executable.accepts, hmode, if_true]
  rfl

end Files

namespace Home

/-- The editors of a home are the built-in ones, as they were put there, and no other programs stand
in their places. -/
structure HasEditors (home : Home) (installed : List (Place × Program)) (files : Files) : Prop where
  absolute : Path.isAbsolute home.root = true
  directory : home.editorDirectory = Path.join home.root editorsName
  intact : ∀ editor : Editor, files.stat (home.editorPath editor) =
    .ok (.file (Text.encode editor.script) Files.programMode)
  own : ∀ editor : Editor, installed.lookup (files.placeOf (home.editorPath editor)) = none

/-- The variables that the home sets count. -/
structure Surrounds (home : Home) (environment : Environment) : Prop where
  received : environment.map Environment.received = environment
  settings : ∀ {name value : String}, home.setting? name = some value →
    environment.value? name = some value

section Launch

variable {home : Home} {installed : List (Place × Program)} {files : Files}
  {environment : Environment}

theorem isProper_fileName (editor : Editor) : Files.IsProper editor.fileName := by
  cases editor <;> exact ⟨by decide +kernel, by decide +kernel, by decide +kernel, by decide +kernel⟩

theorem isProper_editorsName : Files.IsProper editorsName :=
  ⟨by decide +kernel, by decide +kernel, by decide +kernel, by decide +kernel⟩

/-- The editors are in a directory of their own inside the home. -/
theorem HasEditors.placeOf (heditors : home.HasEditors installed files) (editor : Editor) :
    files.placeOf (home.editorPath editor) =
      files.placeOf home.root ++ [editorsName] ++ [editor.fileName] := by
  have hplain : '/' ∉ editor.fileName.toList := by cases editor <;> decide +kernel
  rw [editorPath, heditors.directory, Files.placeOf_join
    (Path.isAbsolute_join heditors.absolute editorsName) (isProper_fileName editor) hplain,
    Files.placeOf_join heditors.absolute isProper_editorsName (by decide +kernel)]

theorem HasEditors.isAbsolute (heditors : home.HasEditors installed files) (editor : Editor) :
    Path.isAbsolute (home.editorPath editor) = true := by
  rw [editorPath, heditors.directory]
  exact Path.isAbsolute_join (Path.isAbsolute_join heditors.absolute _) _

/-- A call of a built-in editor makes a shell perform its script. -/
theorem HasEditors.launch (heditors : home.HasEditors installed files) {editor : Editor}
    {path : String} (hreceived : environment.map Environment.received = environment)
    (hfits : Executable.Fits ⟨home.editorPath editor, [path], environment⟩) (depth : Nat) :
    Executable.launch installed (depth + 1) files ⟨home.editorPath editor, [path], environment⟩ =
      .ok (Shell.script (Executable.launch installed depth) (home.editorPath editor)
        (Shell.raw editor.script) [path] environment) := by
  have hslash : (home.editorPath editor).toList.contains '/' = true := by
    have habsolute := heditors.isAbsolute editor
    unfold Path.isAbsolute at habsolute
    rw [beq_iff_eq] at habsolute
    simpa using List.mem_of_mem_head? (by rw [habsolute]; rfl)
  have hresolve : Executable.resolve files environment (home.editorPath editor) =
      .ok (home.editorPath editor) := by
    rw [Executable.resolve, if_pos hslash]
  have hinspect := Files.inspect_of_stat (heditors.intact editor) (by decide)
  have hleads : Executable.Leads files ⟨home.editorPath editor, [path], environment⟩
      (files.placeOf (home.editorPath editor)) := ⟨_, _, hresolve, hinspect⟩
  have hother : (files.placeOf (home.editorPath editor)).dropLast ∉ Executable.standardPlaces := by
    rw [heditors.placeOf, List.dropLast_concat]
    intro hmem
    have hlast : ∀ place ∈ Executable.standardPlaces, place.getLast? ≠ some editorsName := by
      decide +kernel
    exact hlast _ hmem List.getLast?_concat
  obtain ⟨path', content, hinspect', hresolve', hlaunch⟩ :=
    @Executable.launch_of_leads files _ _ installed depth hleads hfits
  obtain rfl := Except.ok.inj (hresolve.symm.trans hresolve')
  obtain ⟨-, rfl⟩ := Prod.mk.inj (Except.ok.inj (hinspect.symm.trans hinspect'))
  rw [hlaunch, Executable.behaviour_script (heditors.own editor) hother]
  simp only [Executable.arrived, hreceived]
  rfl

/-- The root of the home is a directory, and the path to it leaves room for one to a file in it. -/
structure IsHoused (home : Home) (files : Files) : Prop where
  plain : '\x00' ∉ home.root.toList
  short : home.root.utf8ByteSize + editorsName.utf8ByteSize + Editor.env.fileName.utf8ByteSize ≤
    Files.longestPath
  inside : files.find? (files.placeOf home.root) = some .directory
  walk : files.walk [] (Path.names home.root) = .ok (files.placeOf home.root)
  /-- What is joined to the root is found in it, also if the root is written with a slash behind. -/
  joined : ∃ front, (∀ name : String, '/' ∉ name.toList →
      Path.names (Path.join home.root name) = front ++ [name]) ∧
    files.walk [] front = .ok (files.placeOf home.root)

theorem HasEditors.isHoused (heditors : home.HasEditors installed files) : home.IsHoused files := by
  have hroot : home.root ≠ "" := Path.ne_empty_of_isAbsolute heditors.absolute
  have hinner : '/' ∉ editorsName.toList := by decide +kernel
  have hlast : '/' ∉ Editor.env.fileName.toList := by decide +kernel
  have hbelow : Path.join home.root editorsName ≠ "" :=
    Path.ne_empty_of_isAbsolute (Path.isAbsolute_join heditors.absolute editorsName)
  obtain ⟨front, hfront, hjoined⟩ := Path.exists_names_join hroot
  obtain ⟨place, hlocate⟩ := Files.exists_locate_of_stat (heditors.intact .env)
  obtain ⟨hplain, hshort, hwalk⟩ := Files.walk_of_locate hlocate
  -- On the way to an editor the root is passed.
  have hnames : Path.names (home.editorPath .env) =
      front ++ [editorsName, Editor.env.fileName] := by
    obtain ⟨front', hfront', hjoined'⟩ := Path.exists_names_join hbelow
    rw [hjoined _ hinner] at hfront'
    rw [editorPath, heditors.directory, hjoined' _ hlast]
    rcases hfront' with rfl | hslash
    · simp
    · exact absurd (List.append_inj' hslash rfl).2 (by decide)
  rw [hnames, Files.beginning, if_pos (heditors.isAbsolute .env)] at hwalk
  obtain ⟨root, hway, hrest⟩ := Files.exists_of_walk_append hwalk
  have hinside := Files.find?_of_walk_cons hrest
  have hwalkRoot : files.walk [] (Path.names home.root) = .ok root := by
    rcases hfront with hsame | hslash
    · rw [hsame, hway]
    · rw [hslash, Files.walk_append, hway]
      simp [Except.bind, Files.walk, hinside]
  obtain rfl : files.placeOf home.root = root := by
    rw [Files.placeOf, heditors.absolute]
    exact Files.foldl_of_walk hwalkRoot
  obtain ⟨slash, -, hdirectory⟩ := Path.exists_join hroot hinner
  obtain ⟨slash', -, hpath⟩ := Path.exists_join hbelow hlast
  rw [editorPath, heditors.directory, hpath, hdirectory] at hplain hshort
  constructor
  case plain =>
    simp only [String.toList_append, List.mem_append, not_or] at hplain
    exact hplain.1.1.1.1
  case short =>
    simp only [String.utf8ByteSize_append] at hshort
    omega
  case inside => exact hinside
  case walk => exact hwalkRoot
  case joined => exact ⟨front, hjoined, hway⟩

/-- A short name directly in a home with editors is a spot if there is a file of that name or nothing
at all, however many slashes are in front of it. -/
theorem HasEditors.isSpot (heditors : home.HasEditors installed files) {name : String}
    (hproper : Files.IsProper name) (hplain : '/' ∉ name.toList) (hnul : '\x00' ∉ name.toList)
    (hshort : name.utf8ByteSize < editorsName.utf8ByteSize + Editor.env.fileName.utf8ByteSize)
    (hfree : files.find? (files.placeOf home.root ++ [name]) = none ∨
      ∃ content mode, files.find? (files.placeOf home.root ++ [name]) = some (.file content mode)) :
    files.IsSpot (Path.join home.root name) (files.placeOf home.root) name ∧
      files.IsSpot (home.root ++ "/" ++ name) (files.placeOf home.root) name := by
  have hhoused := heditors.isHoused
  obtain ⟨front, hjoined, hway⟩ := hhoused.joined
  have hspot : ∀ slash, (slash = "" ∨ slash = "/") →
      (∃ above, Path.names (home.root ++ slash ++ name) = above ++ [name] ∧
        files.walk [] above = .ok (files.placeOf home.root)) →
      files.IsSpot (home.root ++ slash ++ name) (files.placeOf home.root) name := by
    rintro slash hslash ⟨above, habove, hwalk⟩
    constructor
    case plain =>
      have hnone : '\x00' ∉ slash.toList := by rcases hslash with rfl | rfl <;> decide
      simp [hhoused.plain, hnone, hnul]
    case short =>
      have hone : slash.utf8ByteSize ≤ 1 := by rcases hslash with rfl | rfl <;> decide
      have hroom := hhoused.short
      simp only [String.utf8ByteSize_append]
      omega
    case names =>
      refine ⟨above, habove, ?_⟩
      rw [String.append_assoc, Files.beginning, if_pos (Path.isAbsolute_append heditors.absolute _)]
      exact hwalk
    case proper => exact hproper
    case inside => exact hhoused.inside
    case free => exact hfree
  obtain ⟨slash, hslash, hjoin⟩ :=
    Path.exists_join (Path.ne_empty_of_isAbsolute heditors.absolute) hplain
  constructor
  · rw [hjoin]
    exact hspot slash hslash ⟨front, hjoin ▸ hjoined name hplain, hway⟩
  · refine hspot "/" (.inr rfl) ⟨Path.names home.root, ?_, hhoused.walk⟩
    rw [Path.names_append_slash, Path.names_eq_singleton hplain]

end Launch

/-! ## What a command finds behind an editor -/

section Edited

variable {home : Home} {installed : List (Place × Program)} {world : World} {call : Call}
  {name last : String} {directory : Place} {depth : Nat}

def filePath (home : Home) (name : String) : String := Path.join home.root name

/-- With the editor that writes the payload chosen, a command finds the payload in the file. -/
theorem outcome?_env {payload : String} (heditors : home.HasEditors installed world.files)
    (hsurrounds : home.Surrounds call.environment) (hchosen : home.editor = some .env)
    (hpayload : home.payload = some payload)
    (hfits : Executable.Fits ⟨home.editorPath .env, [home.filePath name], call.environment⟩)
    (hordinary : home.filePath name ∉ Shell.Task.streamNames)
    (hspot : world.files.IsSpot (home.filePath name) directory last) :
    (Action.editCommand name (Executable.launch installed (depth + 1)) call).outcome? world =
      some (.exited 0, (world.store (world.files.putAt (directory ++ [last]) (Text.encode payload)
        Files.plainMode)).write (Text.encode payload)) := by
  have hlaunch := heditors.launch hsurrounds.received hfits depth
  have hwork := @Editor.outcome?_env world (Executable.launch installed depth)
    (home.editorPath .env) (home.filePath name) last directory call.environment payload
    (hsurrounds.settings hpayload) hordinary hspot
  refine Action.outcome?_editCommand (hsurrounds.settings rfl) (hsurrounds.settings ?_) hlaunch hwork
    hspot.read_insert
  simp [setting?, hchosen]

def copyPath (home : Home) : String := home.root ++ "/editor-save.txt"

/-- A shell with these variables can call the machine's own program that copies files. -/
structure CanCopy (home : Home) (installed : List (Place × Program)) (files : Files)
    (environment : Environment) (name : String) : Prop where
  copier : ∃ place ∈ Executable.copierPlaces,
    Executable.Leads files ⟨"cp", [], environment⟩ place ∧ installed.lookup place = none
  fits : Executable.Fits ⟨"cp", [home.filePath name, home.copyPath],
    environment ++ [Shell.placeEntry files.working]⟩

theorem CanCopy.launch {files : Files} {environment given : Environment}
    (hcopies : home.CanCopy installed files environment name)
    (hreceived : environment.map Environment.received = environment)
    (hgiven : Editor.HandsOn files.working environment given) (depth : Nat) :
    Executable.launch installed (depth + 1) files ⟨"cp", [home.filePath name, home.copyPath], given⟩ =
      .ok (Utility.cp (Executable.launch installed depth)
        ⟨"cp", [home.filePath name, home.copyPath], given⟩) := by
  obtain ⟨place, hplace, hleads, hown⟩ := hcopies.copier
  have hleads' : Executable.Leads files ⟨"cp", [home.filePath name, home.copyPath], given⟩ place :=
    hleads.congr rfl (by rw [hgiven.received, hreceived, hgiven.path])
  have hfits : Executable.Fits ⟨"cp", [home.filePath name, home.copyPath], given⟩ := by
    refine hcopies.fits.of_subperm ?_
    obtain ⟨sorted, hperm, hsublist⟩ := hgiven.subperm
    exact (List.subperm_append_left _).mpr ⟨_, hperm.map _, hsublist.map _⟩
  obtain ⟨path, content, -, -, hlaunch⟩ :=
    @Executable.launch_of_leads files _ _ installed depth hleads' hfits
  rw [hlaunch, Executable.behaviour_cp hown hplace]
  simp only [Executable.arrived, hgiven.received]

/-- With the editor that keeps a copy chosen, a command finds the file as it was, and the copy is
the same. -/
theorem outcome?_save {copyLast : String} {copyDirectory : Place} {content : Bytes} {mode : Nat}
    (heditors : home.HasEditors installed world.files)
    (hsurrounds : home.Surrounds call.environment) (hchosen : home.editor = some .save)
    (hcopies : home.CanCopy installed world.files call.environment name)
    (hfits : Executable.Fits ⟨home.editorPath .save, [home.filePath name], call.environment⟩)
    (hspot : world.files.IsSpot (home.filePath name) directory last)
    (hcopy : world.files.IsSpot home.copyPath copyDirectory copyLast)
    (hfile : world.files.find? (directory ++ [last]) = some (.file content mode)) :
    ∃ left, (Action.editCommand name (Executable.launch installed (depth + 2)) call).outcome? world =
        some (.exited 0, left) ∧
      (∀ path, world.files.IsSpot path directory last → left.files.read path = .ok content) ∧
      ∀ path, world.files.IsSpot path copyDirectory copyLast → left.files.read path = .ok content := by
  have hlaunch := heditors.launch hsurrounds.received hfits (depth + 1)
  obtain ⟨place, hplace, hleads, hown⟩ := hcopies.copier
  obtain ⟨code, middle, hwork, hmiddle⟩ := @Editor.outcome?_save world
    (Executable.launch installed (depth + 1)) (home.editorPath .save) (home.filePath name) last
    directory call.environment home.root copyLast copyDirectory place [] content mode
    (hsurrounds.settings rfl) heditors.absolute (Path.isAbsolute_join heditors.absolute name)
    hsurrounds.received hspot hcopy hfile hleads
    (fun given hgiven => ⟨_, hcopies.launch hsurrounds.received hgiven depth⟩)
  have hread : (∀ path, world.files.IsSpot path directory last →
        middle.files.read path = .ok content) ∧
      ∀ path, world.files.IsSpot path copyDirectory copyLast →
        middle.files.read path = .ok content := by
    by_cases hsame : directory ++ [last] = copyDirectory ++ [copyLast]
    · rw [hmiddle, if_pos hsame]
      exact ⟨fun path hpath => hpath.read hfile, fun path hpath => hpath.read (hsame ▸ hfile)⟩
    · rw [hmiddle, if_neg hsame]
      exact ⟨fun path hpath => (hpath.insert hcopy.find?_ne_directory).read
        ((Files.find?_insert_of_ne _ _ hsame).trans hfile), fun path hpath => hpath.read_insert⟩
  exact ⟨middle.write content, Action.outcome?_editCommand (hsurrounds.settings rfl)
    (hsurrounds.settings (by simp [setting?, hchosen])) hlaunch hwork (hread.1 _ hspot), hread⟩

end Edited

end Home

end PromptHarness
