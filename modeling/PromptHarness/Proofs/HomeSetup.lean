import PromptHarness.Proofs.Directories
import PromptHarness.Proofs.RoundTrip

/-!
# A home that has just been made

Where its root is free, a home is made with one directory for the root and one for the editors, every
editor is in its place (`Home.intact_setup`), and there is room for all that an edit leaves.  So
payloads arrive as they were sent from the first command on (`Session.roundTrips_of_begin`).
-/

namespace PromptHarness

namespace Home

variable {root last : String} {directory : Place} {files later : Files} {home : Home}
  {installed : List (Place × Program)}

theorem fileName_injective {first second : Editor} (hsame : first.fileName = second.fileName) :
    first = second := by
  revert hsame
  cases first <;> cases second <;> decide +kernel

/-- The editors that are put into a directory are found there, and so are those that were there. -/
theorem stat_foldl_insert {base : String} (editors : List Editor)
    (hspots : ∀ editor : Editor,
      files.IsSpot (Path.join base editor.fileName) directory editor.fileName)
    {editor : Editor}
    (hthere : editor ∈ editors ∨ files.stat (Path.join base editor.fileName) =
      .ok (.file (Text.encode editor.script) Files.programMode)) :
    (editors.foldl
      (fun files editor =>
        files.insert (files.placeOf (Path.join base editor.fileName))
          (.file (Text.encode editor.script) Files.programMode))
      files).stat (Path.join base editor.fileName) =
        .ok (.file (Text.encode editor.script) Files.programMode) := by
  induction editors generalizing files with
  | nil => exact hthere.resolve_left (by simp)
  | cons first rest ih =>
      have hplace := (hspots first).placeOf
      have hfree := (hspots first).find?_ne_directory
      rw [List.foldl_cons, hplace]
      apply ih
      · intro other
        exact (hspots other).insert hfree
      · by_cases hsame : editor = first
        · subst hsame
          rw [((hspots editor).insert hfree).stat, Files.find?_insert files _ (by simp)]
          exact .inr rfl
        · rcases hthere with hmem | hstat
          · exact .inl ((List.mem_cons.mp hmem).resolve_left hsame)
          · refine .inr (Files.stat_insert_of_ne hfree hstat ?_)
            rw [(hspots editor).placeOf]
            intro hother
            have hnames := List.singleton_inj.mp (List.append_inj' hother rfl).2
            exact hsame (fileName_injective hnames)

theorem find?_foldl_insert {base : String} (editors : List Editor)
    (hspots : ∀ editor : Editor,
      files.IsSpot (Path.join base editor.fileName) directory editor.fileName)
    {place : Place} (hother : ∀ editor : Editor, place ≠ directory ++ [editor.fileName]) :
    (editors.foldl
      (fun files editor =>
        files.insert (files.placeOf (Path.join base editor.fileName))
          (.file (Text.encode editor.script) Files.programMode))
      files).find? place = files.find? place := by
  induction editors generalizing files with
  | nil => rfl
  | cons first rest ih =>
      rw [List.foldl_cons, (hspots first).placeOf,
        ih fun editor => (hspots editor).insert (hspots first).find?_ne_directory,
        Files.find?_insert_of_ne files _ (hother first)]

/-- The root is free and its path leaves room for the paths to the editors. -/
structure IsFree (files : Files) (root : String) (directory : Place) (last : String) : Prop where
  absolute : Path.isAbsolute root = true
  spot : files.IsSpot root directory last
  gone : files.IsGone root
  short : root.utf8ByteSize + editorsName.utf8ByteSize + Editor.save.fileName.utf8ByteSize + 1 <
    Files.longestPath

namespace IsFree

theorem find?_eq_none (hfree : IsFree files root directory last) {place : Place}
    (hplace : directory ++ [last] <+: place) : files.find? place = none :=
  hfree.gone place (hfree.spot.placeOf ▸ hplace)

theorem isSpot_editors (hfree : IsFree files root directory last) :
    (files.insert (directory ++ [last]) .directory).IsSpot (Path.join root editorsName)
      (directory ++ [last]) editorsName := by
  have hshort := hfree.short
  exact hfree.spot.below hfree.absolute (hfree.find?_eq_none List.prefix_rfl) isProper_editorsName
    (by decide +kernel) (by decide +kernel) (by omega)
    (hfree.find?_eq_none (List.prefix_append _ _))

theorem find?_editors (hfree : IsFree files root directory last) :
    (files.insert (directory ++ [last]) .directory).find? (directory ++ [last] ++ [editorsName]) =
      none := by
  rw [Files.find?_insert_of_ne files .directory (by simp)]
  exact hfree.find?_eq_none (List.prefix_append _ _)

/-- The directories that are made are there, and nothing is in the way of the editors. -/
theorem isSpot_editor (hfree : IsFree files root directory last) (editor : Editor) :
    ((files.insert (directory ++ [last]) .directory).insert
      (directory ++ [last] ++ [editorsName]) .directory).IsSpot
        (Path.join (Path.join root editorsName) editor.fileName)
        (directory ++ [last] ++ [editorsName]) editor.fileName := by
  have hname : editor.fileName.utf8ByteSize ≤ Editor.save.fileName.utf8ByteSize := by
    cases editor <;> decide +kernel
  have hlength : (Path.join root editorsName).utf8ByteSize ≤
      root.utf8ByteSize + 1 + editorsName.utf8ByteSize := by
    obtain ⟨slash, hslash, hjoin⟩ := @Path.exists_join root editorsName
      (Path.ne_empty_of_isAbsolute hfree.absolute) (by decide +kernel)
    have hone : slash.utf8ByteSize ≤ 1 := by rcases hslash with rfl | rfl <;> decide
    rw [hjoin]
    simp only [String.utf8ByteSize_append]
    omega
  have hshort := hfree.short
  refine hfree.isSpot_editors.below (Path.isAbsolute_join hfree.absolute editorsName)
    hfree.find?_editors (isProper_fileName editor) ?_ ?_ (by omega) ?_
  · cases editor <;> decide +kernel
  · cases editor <;> decide +kernel
  · rw [Files.find?_insert_of_ne files .directory (by simp)]
    exact hfree.find?_eq_none (by simp [List.append_assoc])

/-- The root is the only directory that is made for it. -/
theorem makeDirectory (hfree : IsFree files root directory last) :
    files.makeDirectory (files.placeOf root) = files.insert (directory ++ [last]) .directory := by
  rw [hfree.spot.placeOf]
  exact Files.makeDirectory_of_isRooted (hfree.spot.isRooted hfree.absolute)
    (hfree.find?_eq_none List.prefix_rfl)

/-- What the making of a home does to the files. -/
theorem files_setup (hfree : IsFree files root directory last)
    (hsetup : setup root none files = (.ok home, later)) :
    later = Editor.all.foldl
      (fun files editor =>
        files.insert (files.placeOf (Path.join (Path.join root editorsName) editor.fileName))
          (.file (Text.encode editor.script) Files.programMode))
      ((files.insert (directory ++ [last]) .directory).insert
        (directory ++ [last] ++ [editorsName]) .directory) := by
  have hmade' : (files.insert (directory ++ [last]) .directory).makeDirectory
      ((files.insert (directory ++ [last]) .directory).placeOf (Path.join root editorsName)) =
        (files.insert (directory ++ [last]) .directory).insert
          (directory ++ [last] ++ [editorsName]) .directory := by
    rw [hfree.isSpot_editors.placeOf]
    exact Files.makeDirectory_of_isRooted
      (hfree.isSpot_editors.isRooted (Path.isAbsolute_join hfree.absolute editorsName))
      hfree.find?_editors
  cases hsetup
  rw [hfree.makeDirectory]
  simp only [installEditors, hmade']

end IsFree

/-- A home that has been made where nothing was has its editors. -/
theorem intact_setup (hfree : IsFree files root directory last)
    (hsetup : setup root none files = (.ok home, later)) (editor : Editor) :
    later.stat (home.editorPath editor) =
      .ok (.file (Text.encode editor.script) Files.programMode) := by
  have hmem : editor ∈ Editor.all := by cases editor <;> decide
  rw [hfree.files_setup hsetup, editorPath, eq_of_setup hsetup]
  exact stat_foldl_insert _ hfree.isSpot_editor (.inl hmem)

/-- The path of an ordinary name is none of those that stand for streams. -/
theorem join_not_mem_streamNames (hroot : Path.isAbsolute root = true) {name : String}
    (hplain : '/' ∉ name.toList) (hname : name ∉ ["tty", "stdin", "stdout", "stderr"]) :
    Path.join root name ∉ Shell.Task.streamNames := by
  obtain ⟨front, -, hjoined⟩ := Path.exists_names_join (Path.ne_empty_of_isAbsolute hroot)
  have hlast : ∀ stream ∈ Shell.Task.streamNames,
      ∃ last ∈ ["tty", "stdin", "stdout", "stderr"], (Path.names stream).getLast? = some last := by
    decide +kernel
  intro hstream
  obtain ⟨last, hmem, hsame⟩ := hlast _ hstream
  rw [hjoined name hplain, List.getLast?_concat] at hsame
  exact hname (Option.some.inj hsame ▸ hmem)

/-- There is room for the usual file and its copy in a home that has been made where nothing was. -/
theorem hasRoom_setup (hfree : IsFree files root directory last)
    (hsetup : setup root none files = (.ok home, later))
    (heditors : home.HasEditors installed later) : home.HasRoom later Action.editedName := by
  have hroot : home.root = root := by rw [eq_of_setup hsetup]
  have hplace : later.placeOf home.root = directory ++ [last] := by
    rw [hroot, Files.placeOf_of_isAbsolute hfree.absolute later files, hfree.spot.placeOf]
  have hproper : Files.IsProper Action.editedName :=
    ⟨by decide +kernel, by decide +kernel, by decide +kernel, by decide +kernel⟩
  have hempty : ∀ name, name ≠ editorsName → later.find? (directory ++ [last] ++ [name]) = none := by
    intro name hname
    rw [hfree.files_setup hsetup, find?_foldl_insert _ hfree.isSpot_editor (by simp),
      Files.find?_insert_of_ne _ _ (by simpa using hname), Files.find?_insert_of_ne _ _ (by simp)]
    exact hfree.find?_eq_none (List.prefix_append _ _)
  have hspot := (heditors.isSpot hproper (by decide +kernel) (by decide +kernel) (by decide +kernel)
    (.inl (hplace ▸ hempty _ (by decide +kernel)))).1
  constructor
  case ordinary =>
    exact join_not_mem_streamNames heditors.absolute (by decide +kernel) (by decide +kernel)
  case spot => exact ⟨_, _, hspot⟩
  case apart =>
    intro editor hsame
    rw [heditors.placeOf, filePath, hspot.placeOf] at hsame
    exact absurd (congrArg List.length hsame) (by simp)
  case copy =>
    rw [clearTextPath, Files.placeOf_join heditors.absolute isProper_clearTextName
      (by decide +kernel), hplace]
    exact .inl (hempty _ (by decide +kernel))

end Home

namespace Session

theorem setup_of_begin {root test : String} {settings : Settings} {session : Session}
    {machine later : Machine} (hbegin : begin settings root test machine = (.ok session, later)) :
    session.settings = settings ∧ session.agent.running = none ∧
      ∃ files, Home.setup root settings.editorDirectory machine.files = (.ok session.home, files) ∧
        later = { machine with files := files } := by
  unfold begin at hbegin
  split at hbegin
  · cases hbegin
  · split at hbegin
    · cases hbegin
    · next home files hsetup =>
      cases hbegin
      exact ⟨rfl, rfl, files, hsetup, rfl⟩

/-- In a session that has just been begun where nothing was, payloads arrive as they were sent. -/
theorem roundTrips_of_begin {root test last payload : String} {directory : Place}
    {settings : Settings} {session : Session} {machine later : Machine} {command : Command}
    {options : List String} {prompts : Prompts}
    (hbegin : begin settings root test machine = (.ok session, later))
    (hbuiltIn : settings.editorDirectory = none)
    (hfree : Home.IsFree machine.files root directory last) (halone : machine.children = [])
    (hown : ∀ editor : Editor, machine.installed.lookup
      (directory ++ [last] ++ [Home.editorsName] ++ [editor.fileName]) = none)
    (htime : 0 < settings.exitTimeout)
    (hedit : (session.choosing .env (some payload)).CanEdit later Action.editedName command options
      prompts)
    (hplan : (command.plan options prompts).exchanges = []) (hexpected : prompts.expected = 0) :
    session.RoundTrips later payload Action.editedName command options prompts := by
  obtain ⟨rfl, hidle, files, hsetup, rfl⟩ := setup_of_begin hbegin
  rw [hbuiltIn] at hsetup
  have hhome := Home.eq_of_setup hsetup
  have heditors : session.home.HasEditors machine.installed files := by
    have hplace : ∀ editor : Editor, files.placeOf (session.home.editorPath editor) =
        directory ++ [last] ++ [Home.editorsName] ++ [editor.fileName] := by
      intro editor
      have habsolute := Path.isAbsolute_join
        (Path.isAbsolute_join hfree.absolute Home.editorsName) editor.fileName
      rw [hhome]
      exact (Files.placeOf_of_isAbsolute habsolute _ _).trans (hfree.isSpot_editor editor).placeOf
    refine ⟨?_, ?_, Home.intact_setup hfree hsetup, fun editor => ?_⟩
    · rw [hhome]
      exact hfree.absolute
    · rw [hhome]
      rfl
    · rw [hplace]
      exact hown editor
  exact roundTrips_of_hasEditors heditors (Home.hasRoom_setup hfree hsetup heditors) hidle halone
    htime hedit hplan hexpected

end Session

end PromptHarness
