import PromptHarness.Proofs.Subtrees

/-!
# A home from its making to its end

Whatever is written below the root of a home, and even if the root is taken away behind its back, all
stays at the root or below it (`Deed.Stands.performAll`).  So the first time a home is torn down all
is as it was before the home was made; after that tearing it down does nothing, and its paths and
variables never change by it (`Home.performAll_tearsDown`).
-/

namespace PromptHarness

namespace Home

/-! ## Deeds -/

/-- What can be done with a home and below its root. -/
inductive Deed where
  /-- A file is written, making directories. -/
  | write (path : String) (content : Bytes)
  | makeDirectory (path : String)
  /-- Somebody else removes the whole tree. -/
  | removeRoot
  | selectEditor (editor : Editor) (payload : Option String)
  | teardown
  deriving Repr, DecidableEq

namespace Deed

/-- A path as it is seen from a root. -/
def placeFrom (root path : String) : Place := Files.empty.placeOf (Path.join root path)

/-- Files are written below the root, and directories made there or at the root itself. -/
def IsBelow (root : String) : Deed → Prop
  | write path _ =>
      Files.empty.placeOf root <+: placeFrom root path ∧ placeFrom root path ≠ Files.empty.placeOf root
  | makeDirectory path => Files.empty.placeOf root <+: placeFrom root path
  | _ => True

instance (root : String) : DecidablePred (IsBelow root)
  | write _ _ => inferInstanceAs (Decidable (_ ∧ _))
  | makeDirectory _ => inferInstanceAs (Decidable (_ <+: _))
  | removeRoot | selectEditor _ _ | teardown => .isTrue trivial

/-- Another editor or payload is chosen. -/
def Selects : Deed → Prop
  | selectEditor _ _ => True
  | _ => False

def perform : Deed → Home → Files → Except Fault Unit × Home × Files
  | write path content, home, files =>
      (.ok (), home, files.write (files.placeOf (Path.join home.root path)) content)
  | makeDirectory path, home, files =>
      (.ok (), home, files.makeDirectory (files.placeOf (Path.join home.root path)))
  | removeRoot, home, files => (.ok (), home, files.remove (files.placeOf home.root))
  | selectEditor editor payload, home, files => (.ok (), home.selectEditor editor payload, files)
  | teardown, home, files => home.teardown files

def performAll : List Deed → Home → Files → List (Except Fault Unit) × Home × Files
  | [], home, files => ([], home, files)
  | deed :: later, home, files =>
      let (outcome, home, files) := deed.perform home files
      let (outcomes, home, files) := performAll later home files
      (outcome :: outcomes, home, files)

end Deed

/-! ## What no deed changes -/

/-- The paths and variables of two homes are the same. -/
structure AnswersAlike (home later : Home) : Prop where
  root : later.root = home.root
  store : later.store = home.store
  clearTextPath : later.clearTextPath = home.clearTextPath
  safePath : ∀ name, later.safePath name = home.safePath name
  editorPath : ∀ editor, later.editorPath editor = home.editorPath editor
  environment : later.environment = home.environment

theorem AnswersAlike.refl (home : Home) : AnswersAlike home home :=
  ⟨rfl, rfl, rfl, fun _ => rfl, fun _ => rfl, rfl⟩

theorem AnswersAlike.trans {first second third : Home} (hfirst : AnswersAlike first second)
    (hsecond : AnswersAlike second third) : AnswersAlike first third where
  root := hsecond.root.trans hfirst.root
  store := hsecond.store.trans hfirst.store
  clearTextPath := hsecond.clearTextPath.trans hfirst.clearTextPath
  safePath := fun name => (hsecond.safePath name).trans (hfirst.safePath name)
  editorPath := fun editor => (hsecond.editorPath editor).trans (hfirst.editorPath editor)
  environment := hsecond.environment.trans hfirst.environment

theorem answersAlike_teardown (home : Home) (files : Files) :
    AnswersAlike home (home.teardown files).2.1 := by
  rw [home_teardown]
  exact ⟨rfl, rfl, rfl, fun _ => rfl, fun _ => rfl, rfl⟩

namespace Deed

variable {home : Home} {files : Files} {deed : Deed}

@[simp]
theorem root_perform (deed : Deed) (home : Home) (files : Files) :
    (deed.perform home files).2.1.root = home.root := by
  cases deed with
  | teardown => exact (answersAlike_teardown home files).root
  | _ => rfl

theorem answersAlike_perform (hkeeps : ¬deed.Selects) (home : Home) (files : Files) :
    AnswersAlike home (deed.perform home files).2.1 := by
  cases deed with
  | selectEditor editor payload => exact absurd trivial hkeeps
  | teardown => exact answersAlike_teardown home files
  | _ => exact .refl home

theorem answersAlike_performAll {deeds : List Deed} (hkeeps : ∀ deed ∈ deeds, ¬deed.Selects)
    (home : Home) (files : Files) : AnswersAlike home (performAll deeds home files).2.1 := by
  induction deeds generalizing home files with
  | nil => exact .refl home
  | cons deed later ih =>
      have hfirst := answersAlike_perform (hkeeps deed List.mem_cons_self) home files
      exact hfirst.trans (ih (fun other hother => hkeeps other (List.mem_cons_of_mem deed hother)) _ _)

theorem tornDown_perform (deed : Deed) (home : Home) (files : Files) :
    (deed.perform home files).2.1.tornDown = true ↔
      home.tornDown = true ∨ deed = .teardown := by
  cases deed with
  | teardown => simp [perform, home_teardown]
  | _ => simp [perform, Home.selectEditor]

/-- A home has been torn down exactly where that was done to it, and then for good. -/
theorem tornDown_performAll (deeds : List Deed) (home : Home) (files : Files) :
    (performAll deeds home files).2.1.tornDown = true ↔
      home.tornDown = true ∨ .teardown ∈ deeds := by
  induction deeds generalizing home files with
  | nil => simp [performAll]
  | cons deed later ih =>
      simp only [performAll]
      rw [ih, tornDown_perform, List.mem_cons, or_assoc, @eq_comm _ deed]

/-! ## Nothing gets out of a home -/

section Stands

variable {root last : String} {directory : Place} {before later : Files}

/-- A home stands at its root, and nothing has changed outside of it since before it was made. -/
structure Stands (root : String) (before : Files) (top : Place) (home : Home) (files : Files) :
    Prop where
  root : home.root = root
  contained : Contained before top files

/-- Tearing down a home that stands removes it. -/
theorem Stands.teardown (hfree : IsFree before root directory last)
    (hstands : Stands root before (directory ++ [last]) home files)
    (hstanding : home.tornDown = false) :
    home.teardown files =
      (.ok (), { home with tornDown := true }, files.remove (files.placeOf root)) := by
  rw [teardown_of_stat hstanding (hstands.root ▸ hfree.stat hstands.contained), hstands.root]

/-- Then all is as it was before it was made. -/
theorem Stands.find?_teardown (hfree : IsFree before root directory last)
    (hstands : Stands root before (directory ++ [last]) home files)
    (hstanding : home.tornDown = false) (place : Place) :
    (home.teardown files).2.2.find? place = before.find? place := by
  rw [hstands.teardown hfree hstanding]
  exact hfree.find?_remove hstands.contained.outside place

theorem Stands.isGone_teardown (hfree : IsFree before root directory last)
    (hstands : Stands root before (directory ++ [last]) home files)
    (hstanding : home.tornDown = false) : (home.teardown files).2.2.IsGone root := by
  intro place hplace
  rw [hstands.find?_teardown hfree hstanding]
  exact hfree.find?_eq_none (hfree.placeOf _ ▸ hplace)

theorem Stands.outcome_teardown (hfree : IsFree before root directory last)
    (hstands : Stands root before (directory ++ [last]) home files) :
    (home.teardown files).1 = .ok () := by
  cases hstanding : home.tornDown with
  | true => simp only [Home.teardown, hstanding, if_true]
  | false => rw [hstands.teardown hfree hstanding]

/-- Whatever is done in a home goes well, and stays there. -/
theorem Stands.perform (hfree : IsFree before root directory last)
    (hstands : Stands root before (directory ++ [last]) home files) (hbelow : deed.IsBelow root) :
    (deed.perform home files).1 = .ok () ∧
      Stands root before (directory ++ [last]) (deed.perform home files).2.1
        (deed.perform home files).2.2 := by
  have hroot := (root_perform deed home files).trans hstands.root
  have hcontained := hstands.contained
  have htop : Files.empty.placeOf root = directory ++ [last] := hfree.placeOf Files.empty
  have hplace : ∀ path, files.placeOf (Path.join home.root path) = placeFrom root path := by
    intro path
    rw [hstands.root]
    exact Files.placeOf_of_isAbsolute (Path.isAbsolute_join hfree.absolute path) _ _
  cases deed with
  | write path content =>
      rw [IsBelow, htop] at hbelow
      simp only [Deed.perform, hplace]
      exact ⟨trivial, hstands.root, hcontained.write hfree.isRooted hbelow.1 hbelow.2 content⟩
  | makeDirectory path =>
      rw [IsBelow, htop] at hbelow
      simp only [Deed.perform, hplace]
      exact ⟨trivial, hstands.root, hcontained.makeDirectory hfree.isRooted hbelow⟩
  | removeRoot =>
      simp only [Deed.perform, hstands.root]
      exact ⟨trivial, hstands.root, hfree.contained_remove hcontained⟩
  | selectEditor editor payload => exact ⟨rfl, hstands.root, hcontained⟩
  | teardown =>
      refine ⟨hstands.outcome_teardown hfree, hroot, ?_⟩
      simp only [Deed.perform]
      cases hstanding : home.tornDown with
      | true =>
          rw [files_teardown_of_torn hstanding]
          exact hcontained
      | false =>
          rw [hstands.teardown hfree hstanding]
          exact hfree.contained_remove hcontained

theorem Stands.performAll (hfree : IsFree before root directory last) {deeds : List Deed}
    (hbelow : ∀ deed ∈ deeds, deed.IsBelow root)
    (hstands : Stands root before (directory ++ [last]) home files) :
    (∀ outcome ∈ (performAll deeds home files).1, outcome = .ok ()) ∧
      Stands root before (directory ++ [last]) (performAll deeds home files).2.1
        (performAll deeds home files).2.2 := by
  induction deeds generalizing home files with
  | nil => exact ⟨by simp [Deed.performAll], hstands⟩
  | cons deed later ih =>
      obtain ⟨hok, hnext⟩ := hstands.perform hfree (hbelow deed List.mem_cons_self)
      obtain ⟨hlater, hlast⟩ :=
        ih (fun other hother => hbelow other (List.mem_cons_of_mem deed hother)) hnext
      refine ⟨?_, hlast⟩
      intro outcome houtcome
      rcases List.mem_cons.mp houtcome with rfl | hrest
      · exact hok
      · exact hlater outcome hrest

end Stands

/-- Tearing a home down again does nothing. -/
theorem performAll_replicate (count : Nat) (home : Home) (files : Files)
    (hok : (home.teardown files).1 = .ok ()) :
    performAll (List.replicate (count + 1) .teardown) home files =
      (List.replicate (count + 1) (.ok ()), (home.teardown files).2.1, (home.teardown files).2.2) := by
  induction count generalizing home files with
  | zero => simp [performAll, perform, hok]
  | succ count ih =>
      have htorn : (home.teardown files).2.1.tornDown = true := by rw [home_teardown]
      have hagain : (home.teardown files).2.1.teardown (home.teardown files).2.2 =
          (.ok (), (home.teardown files).2.1, (home.teardown files).2.2) := by
        rw [Home.teardown, if_pos htorn]
      rw [List.replicate_succ, performAll]
      simp only [perform]
      rw [ih _ _ (by rw [hagain]), hagain, hok]
      rfl

end Deed

/-! ## Safes -/

/-- Without names that lead up again, a path leads below the place where it begins. -/
theorem prefix_foldl_names {names : List String} (hdown : ".." ∉ names) (place : Place) :
    place <+: names.foldl
      (fun place name =>
        if name = "" ∨ name = "." then place
        else if name = ".." then place.dropLast
        else place ++ [name])
      place := by
  induction names generalizing place with
  | nil => exact List.prefix_rfl
  | cons name rest ih =>
      obtain ⟨hname, hrest⟩ := not_or.mp fun hmem => hdown (List.mem_cons.mpr hmem)
      rw [List.foldl_cons, if_neg (Ne.symm hname)]
      split
      · exact ih hrest place
      · exact (List.prefix_append place [name]).trans (ih hrest _)

theorem isProper_storeName : Files.IsProper storeName :=
  ⟨by decide +kernel, by decide +kernel, by decide +kernel, by decide +kernel⟩

/-- The safes of a home are below its root. -/
theorem prefix_safePath {home : Home} (hroot : Path.isAbsolute home.root = true) {name : String}
    (hrelative : Path.isAbsolute name = false) (hdown : ".." ∉ Path.names name) (files : Files) :
    files.placeOf home.root <+: files.placeOf (home.safePath name) := by
  rw [safePath, store,
    Files.placeOf_join_relative (Path.isAbsolute_join hroot storeName) hrelative,
    Files.placeOf_join hroot isProper_storeName (by decide +kernel)]
  exact (List.prefix_append _ _).trans (prefix_foldl_names hdown _)

/-- With the root all safes are gone. -/
theorem safes_of_isGone {home : Home} {files : Files} (hroot : Path.isAbsolute home.root = true)
    (hgone : files.IsGone home.root) {name : String} (hrelative : Path.isAbsolute name = false)
    (hdown : ".." ∉ Path.names name) :
    home.safeExists name files = false ∧ ∃ fault, home.safeSize name files = .error fault := by
  have hunder := prefix_safePath hroot hrelative hdown files
  refine ⟨hgone.isFile hunder, ?_⟩
  obtain ⟨reason, hsize⟩ := hgone.size hunder
  rw [safeSize, hsize]
  exact ⟨_, rfl⟩

/-! ## To its end -/

/-- A home that was made at a free root and in which some deeds were done, with what came of each.
`before` are the files before the home was made. -/
structure TearsDown (before : Files) (root : String) (deeds : List Deed)
    (outcomes : List (Except Fault Unit)) (home : Home) (files : Files) : Prop where
  fine : ∀ outcome ∈ outcomes, outcome = .ok ()
  torn : home.tornDown = true ↔ .teardown ∈ deeds
  forGood : ∀ more, home.tornDown = true → (Deed.performAll more home files).2.1.tornDown = true
  /-- The first time nothing is left, whatever was there. -/
  first : .teardown ∉ deeds →
    (home.teardown files).1 = .ok () ∧ (home.teardown files).2.2.IsGone root
  restored : .teardown ∉ deeds → ∀ place, (home.teardown files).2.2.find? place = before.find? place
  /-- Several times are as one. -/
  again : ∀ count, Deed.performAll (List.replicate (count + 1) .teardown) home files =
    (List.replicate (count + 1) (.ok ()), (home.teardown files).2.1, (home.teardown files).2.2)
  root : home.root = root
  /-- Only a selection changes what is answered. -/
  answers : ∀ more, (∀ deed ∈ more, ¬deed.Selects) →
    AnswersAlike home (Deed.performAll more home files).2.1
  safes : .teardown ∉ deeds → ∀ name, Path.isAbsolute name = false → ".." ∉ Path.names name →
    (home.teardown files).2.1.safeExists name (home.teardown files).2.2 = false ∧
      ∃ fault, (home.teardown files).2.1.safeSize name (home.teardown files).2.2 = .error fault

/-- Whatever is done in a home, the first time it is torn down all is as before it was made. -/
theorem performAll_tearsDown {root last : String} {directory : Place} {before made : Files}
    {editorDirectory : Option String} {home : Home} {deeds : List Deed}
    (hfree : IsFree before root directory last)
    (hsetup : setup root editorDirectory before = (.ok home, made))
    (hbelow : ∀ deed ∈ deeds, deed.IsBelow root) :
    TearsDown before root deeds (Deed.performAll deeds home made).1
      (Deed.performAll deeds home made).2.1 (Deed.performAll deeds home made).2.2 := by
  have hhome := eq_of_setup hsetup
  have hstart : Deed.Stands root before (directory ++ [last]) home made :=
    ⟨by rw [hhome], hfree.contained_setup hsetup⟩
  obtain ⟨hfine, hstands⟩ := hstart.performAll hfree hbelow
  have htorn := Deed.tornDown_performAll deeds home made
  generalize Deed.performAll deeds home made = result at hfine hstands htorn ⊢
  obtain ⟨outcomes, later, files⟩ := result
  have hstanding : .teardown ∉ deeds → later.tornDown = false := by
    intro hnever
    rw [← Bool.not_eq_true, htorn, hhome]
    simpa using hnever
  have hok := hstands.outcome_teardown hfree
  constructor
  case fine => exact hfine
  case torn =>
    rw [htorn, hhome]
    simp
  case forGood =>
    intro more hbefore
    rw [Deed.tornDown_performAll]
    exact .inl hbefore
  case first => exact fun hnever => ⟨hok, hstands.isGone_teardown hfree (hstanding hnever)⟩
  case restored => exact fun hnever => hstands.find?_teardown hfree (hstanding hnever)
  case again => exact fun count => Deed.performAll_replicate count later files hok
  case root => exact hstands.root
  case answers => exact fun more hmore => Deed.answersAlike_performAll hmore later files
  case safes =>
    intro hnever name hrelative hdown
    have hroot : (later.teardown files).2.1.root = root :=
      (answersAlike_teardown later files).root.trans hstands.root
    have hgone := hstands.isGone_teardown hfree (hstanding hnever)
    exact safes_of_isGone (hroot ▸ hfree.absolute) (hroot ▸ hgone) hrelative hdown

/-- A home that loses its root behind its back, is torn down and then written to once more. -/
theorem performAll_tearsDown_late :
    let before := (Machine.lone (.finished (.exited 0))).files
    let home : Home := ⟨"/home", Path.join "/home" editorsName, none, none, false⟩
    let deeds := [.write "notes/first" (Text.encode "x"), .selectEditor .save (some "text"),
      .removeRoot, .makeDirectory ".kickpass/work", .teardown,
      .write ".kickpass/late" (Text.encode "y"), .teardown]
    let made := (setup "/home" none before).2
    let later := Deed.performAll deeds home made
    IsFree before "/home" [] "home" ∧ setup "/home" none before = (.ok home, made) ∧
      (∀ deed ∈ deeds, deed.IsBelow "/home") ∧ later.2.1.safeExists "late" later.2.2 = true ∧
      TearsDown before "/home" deeds later.1 later.2.1 later.2.2 := by
  intro before home deeds made later
  have hfree : IsFree before "/home" [] "home" := isFree_home (isGone_lone _)
  have hsetup : setup "/home" none before = (.ok home, made) := rfl
  have hbelow : ∀ deed ∈ deeds, deed.IsBelow "/home" := by
    simp only [deeds]
    decide +kernel
  have hlate : later.2.1.safeExists "late" later.2.2 = true := by
    simp only [later, deeds, made, home, before]
    decide +kernel
  exact ⟨hfree, hsetup, hbelow, hlate, performAll_tearsDown hfree hsetup hbelow⟩

end Home

end PromptHarness
