import PromptHarness.Proofs.Closing
import PromptHarness.Proofs.HomeSetup

/-!
# What is done below a place

Two trees that agree outside a subtree have the same ways to its top, whatever the subtree holds.
Writing files and making directories below the top keeps them so, as does taking the top away; so
does the making of a home, of which all is at its root or below it.
-/

namespace PromptHarness

namespace Files

variable {files middle later : Files} {top place other : Place}

/-! ## What one change does to every place -/

theorem prefix_of_mem_lineage (hmem : other ∈ lineage place) : other <+: place ∧ other ≠ [] := by
  obtain ⟨depth, hdepth, rfl⟩ := List.mem_map.mp hmem
  refine ⟨List.take_prefix _ _, ?_⟩
  have hlength := List.mem_range.mp hdepth
  intro hempty
  have hnone := congrArg List.length hempty
  rw [List.length_take, List.length_nil] at hnone
  omega

/-- The making of a directory only adds directories, each on the way there and where nothing was. -/
theorem find?_makeDirectory (files : Files) (place other : Place) :
    (files.makeDirectory place).find? other = files.find? other ∨
      other <+: place ∧ files.find? other = none ∧
        (files.makeDirectory place).find? other = some .directory := by
  have hlineage : ∀ (above : List Place) (files : Files),
      (∀ one ∈ above, one <+: place ∧ one ≠ []) →
      (above.foldl (fun files one =>
        if (files.find? one).isSome then files else files.insert one .directory) files).find? other =
          files.find? other ∨
        other <+: place ∧ files.find? other = none ∧
          (above.foldl (fun files one =>
            if (files.find? one).isSome then files else files.insert one .directory) files).find?
              other = some .directory := by
    intro above
    induction above with
    | nil => exact fun files _ => .inl rfl
    | cons first rest ih =>
        intro files habove
        obtain ⟨hfirst, hbelow⟩ := habove first List.mem_cons_self
        have hrest := fun files => ih files fun one hone => habove one (List.mem_cons_of_mem first hone)
        rw [List.foldl_cons]
        cases hheld : files.find? first with
        | some node => exact hrest files
        | none =>
            change (rest.foldl _ (files.insert first .directory)).find? other = _ ∨ _ ∧ _ ∧
              (rest.foldl _ (files.insert first .directory)).find? other = _
            by_cases hsame : other = first
            · subst hsame
              have hmade := files.find?_insert .directory hbelow
              rcases hrest (files.insert other .directory) with hkept | ⟨-, hnone, -⟩
              · exact .inr ⟨hfirst, hheld, hkept.trans hmade⟩
              · rw [hmade] at hnone
                cases hnone
            · rw [← files.find?_insert_of_ne .directory hsame]
              exact hrest (files.insert first .directory)
  unfold makeDirectory
  split
  · exact hlineage (lineage place) files fun one hone => prefix_of_mem_lineage hone
  · exact .inl rfl

/-- Writing a file changes nothing else either. -/
theorem find?_write (files : Files) (content : Bytes) (hother : other ≠ place) :
    (files.write place content).find? other = files.find? other ∨
      other <+: place ∧ files.find? other = none ∧
        (files.write place content).find? other = some .directory := by
  unfold write
  split
  · split
    · exact .inl rfl
    · exact .inl rfl
    · exact .inl (files.find?_insert_of_ne _ hother)
    · rw [find?_insert_of_ne _ _ hother]
      rcases files.find?_makeDirectory place.dropLast other with hsame | ⟨habove, hnone, hmade⟩
      · exact .inl hsame
      · exact .inr ⟨habove.trans (List.dropLast_prefix place), hnone, hmade⟩
  · exact .inl rfl

/-! ## Directories stay -/

theorem isDirectory_iff {path : String} :
    files.isDirectory path = true ↔
      ∃ place, files.locate path = .ok place ∧ files.find? place = some .directory := by
  unfold Files.isDirectory Files.stat
  cases files.locate path with
  | error reason => simp [bind, Except.bind]
  | ok place =>
      cases hfind : files.find? place with
      | none => simp [bind, Except.bind, hfind]
      | some node => cases node <;> simp [bind, Except.bind, hfind]

theorem Grows.isDirectory {path : String} (hgrows : files.Grows later)
    (habsolute : Path.isAbsolute path = true) (hpath : files.isDirectory path = true) :
    later.isDirectory path = true := by
  obtain ⟨place, hlocate, hfind⟩ := isDirectory_iff.mp hpath
  refine isDirectory_iff.mpr ⟨place, ?_, hgrows.directories place hfind⟩
  obtain ⟨hplain, hshort, hwalk⟩ := walk_of_locate hlocate
  have hnul : path.toList.contains '\x00' = false := by simpa using hplain
  have hempty : path.isEmpty = false := by simpa using Path.ne_empty_of_isAbsolute habsolute
  simp only [Files.locate, hnul, hempty, Bool.false_eq_true, if_false,
    if_neg (Nat.not_lt.mpr hshort), habsolute, if_true]
  rw [beginning, if_pos habsolute] at hwalk
  exact hgrows.walk hwalk

theorem grows_makeDirectory (files : Files) (place : Place) :
    files.Grows (files.makeDirectory place) := by
  refine grows_of_kept fun other hthere => ?_
  rcases files.find?_makeDirectory place other with hsame | ⟨-, hnone, -⟩
  · exact hsame
  · exact absurd hnone hthere

theorem grows_write (files : Files) (place : Place) (content : Bytes) :
    files.Grows (files.write place content) := by
  have hself : (files.write place content).find? place = files.find? place ∨
      files.find? place ≠ some .directory ∧
        (files.find? place ≠ none → (files.write place content).find? place ≠ none) := by
    unfold write
    split
    · split
      · exact .inl rfl
      · exact .inl rfl
      · next held mode hfile =>
        have hbelow : place ≠ [] := by
          rintro rfl
          cases hfile
        rw [files.find?_insert _ hbelow, hfile]
        exact .inr ⟨by simp, by simp⟩
      · next hnone =>
        rw [hnone]
        exact .inr ⟨by simp, by simp⟩
    · exact .inl rfl
  have helse : ∀ other, other ≠ place → files.find? other ≠ none →
      (files.write place content).find? other = files.find? other := by
    intro other hother hthere
    rcases files.find?_write content hother with hsame | ⟨-, hnone, -⟩
    · exact hsame
    · exact absurd hnone hthere
  constructor
  case directories =>
    intro other hdirectory
    by_cases hother : other = place
    · subst hother
      rcases hself with hsame | ⟨hnever, -⟩
      · rw [hsame, hdirectory]
      · exact absurd hdirectory hnever
    · rw [helse other hother (by simp [hdirectory]), hdirectory]
  case there =>
    intro other hthere
    by_cases hother : other = place
    · subst hother
      rcases hself with hsame | ⟨-, hstill⟩
      · rwa [hsame]
      · exact hstill hthere
    · rwa [helse other hother hthere]

/-! ## Trees that agree outside a subtree -/

/-- Nothing differs but at the place and below it. -/
def AgreesOutside (files later : Files) (top : Place) : Prop :=
  ∀ place, ¬top <+: place → later.find? place = files.find? place

namespace AgreesOutside

theorem trans (hfirst : files.AgreesOutside middle top) (hsecond : middle.AgreesOutside later top) :
    files.AgreesOutside later top := by
  intro place houtside
  rw [hsecond place houtside, hfirst place houtside]

theorem isRooted (hagrees : files.AgreesOutside later top) (hrooted : files.IsRooted top) :
    later.IsRooted top := by
  intro above habove hother
  rw [hagrees above fun hbelow => hother (habove.eq_of_length_le hbelow.length_le)]
  exact hrooted above habove hother

/-- With nothing in the subtree before, all ways are as they were. -/
theorem kept (hagrees : files.AgreesOutside later top)
    (hgone : ∀ place, top <+: place → files.find? place = none)
    (hthere : files.find? place ≠ none) : later.find? place = files.find? place :=
  hagrees place fun hbelow => hthere (hgone place hbelow)

end AgreesOutside

theorem agreesOutside_insert (hbelow : top <+: place) (node : Node) :
    files.AgreesOutside (files.insert place node) top := by
  intro other houtside
  refine files.find?_insert_of_ne node ?_
  rintro rfl
  exact houtside hbelow

theorem agreesOutside_remove (files : Files) (top : Place) :
    files.AgreesOutside (files.remove top) top :=
  fun _ houtside => files.find?_remove_of_not_prefix houtside

/-- What is on the way to a place below the top, but not below it, is one of the directories above
the top. -/
theorem IsRooted.find?_of_outside (hrooted : files.IsRooted top) (hbelow : top <+: place)
    (hon : other <+: place) (houtside : ¬top <+: other) :
    files.find? other = some .directory := by
  have habove : other <+: top :=
    (List.prefix_or_prefix_of_prefix hon hbelow).resolve_right houtside
  refine hrooted other habove ?_
  rintro rfl
  exact houtside List.prefix_rfl

theorem agreesOutside_makeDirectory (hrooted : files.IsRooted top) (hbelow : top <+: place) :
    files.AgreesOutside (files.makeDirectory place) top := by
  intro other houtside
  rcases files.find?_makeDirectory place other with hsame | ⟨hon, hnone, -⟩
  · exact hsame
  · rw [hrooted.find?_of_outside hbelow hon houtside] at hnone
    cases hnone

theorem agreesOutside_write (hrooted : files.IsRooted top) (hbelow : top <+: place)
    (content : Bytes) : files.AgreesOutside (files.write place content) top := by
  intro other houtside
  have hother : other ≠ place := by
    rintro rfl
    exact houtside hbelow
  rcases files.find?_write content hother with hsame | ⟨hon, hnone, -⟩
  · exact hsame
  · rw [hrooted.find?_of_outside hbelow hon houtside] at hnone
    cases hnone

end Files

/-! ## Below the root of a home -/

namespace Home

variable {root last : String} {directory : Place} {files later : Files} {home : Home}
  {editorDirectory : Option String}

/-- Nothing has changed outside of a place, at which there is a directory or nothing. -/
structure Contained (files : Files) (top : Place) (later : Files) : Prop where
  outside : files.AgreesOutside later top
  root : later.find? top = none ∨ later.find? top = some .directory

section Contained

variable {top place : Place}

theorem Contained.makeDirectory (hcontained : Contained files top later)
    (hrooted : files.IsRooted top) (hbelow : top <+: place) :
    Contained files top (later.makeDirectory place) where
  outside := hcontained.outside.trans
    (Files.agreesOutside_makeDirectory (hcontained.outside.isRooted hrooted) hbelow)
  root := by
    rcases later.find?_makeDirectory place top with hsame | ⟨-, -, hmade⟩
    · rw [hsame]
      exact hcontained.root
    · exact .inr hmade

theorem Contained.write (hcontained : Contained files top later) (hrooted : files.IsRooted top)
    (hbelow : top <+: place) (hother : place ≠ top) (content : Bytes) :
    Contained files top (later.write place content) where
  outside := hcontained.outside.trans
    (Files.agreesOutside_write (hcontained.outside.isRooted hrooted) hbelow content)
  root := by
    rcases later.find?_write content hother.symm with hsame | ⟨-, -, hmade⟩
    · rw [hsame]
      exact hcontained.root
    · exact .inr hmade

end Contained

namespace IsFree

theorem isRooted (hfree : IsFree files root directory last) :
    files.IsRooted (directory ++ [last]) :=
  hfree.spot.isRooted hfree.absolute

theorem isRoot (hfree : IsFree files root directory last) : IsRoot root where
  absolute := hfree.absolute
  below := by
    rw [Files.placeOf_of_isAbsolute hfree.absolute Files.empty files, hfree.spot.placeOf]
    simp

theorem placeOf (hfree : IsFree files root directory last) (later : Files) :
    later.placeOf root = directory ++ [last] := by
  rw [Files.placeOf_of_isAbsolute hfree.absolute later files, hfree.spot.placeOf]

/-- The root is still an entry of its directory, whatever has come to be there. -/
theorem isEntry (hfree : IsFree files root directory last)
    (hagrees : files.AgreesOutside later (directory ++ [last])) :
    later.IsEntry root directory last := by
  have hkept := fun place => @Files.AgreesOutside.kept _ _ _ place hagrees
    fun place hbelow => hfree.find?_eq_none hbelow
  obtain ⟨front, hnames, hwalk⟩ := hfree.spot.names
  rw [Files.beginning, if_pos hfree.absolute] at hwalk
  constructor
  case plain => exact hfree.spot.plain
  case short => exact hfree.spot.short
  case names =>
    refine ⟨front, hnames, ?_⟩
    rw [Files.beginning, if_pos hfree.absolute]
    exact (Files.grows_of_kept hkept).walk hwalk
  case proper => exact hfree.spot.proper
  case inside =>
    rw [hkept directory (by simp [hfree.spot.inside])]
    exact hfree.spot.inside

theorem stat (hfree : IsFree files root directory last)
    (hcontained : Contained files (directory ++ [last]) later) :
    later.stat root = .ok .directory ∨ later.stat root = .error .missing := by
  rw [(hfree.isEntry hcontained.outside).stat]
  rcases hcontained.root with hnone | hsome
  · rw [hnone]
    exact .inr rfl
  · rw [hsome]
    exact .inl rfl

theorem isDirectory (hfree : IsFree files root directory last)
    (hagrees : files.AgreesOutside later (directory ++ [last]))
    (hthere : later.find? (directory ++ [last]) = some .directory) :
    later.isDirectory root = true := by
  rw [Files.isDirectory, (hfree.isEntry hagrees).stat, hthere]

/-- A home is made at its root and below it. -/
theorem agreesOutside_setup (hfree : IsFree files root directory last)
    (hsetup : setup root editorDirectory files = (.ok home, later)) :
    files.AgreesOutside later (directory ++ [last]) ∧
      later.find? (directory ++ [last]) = some .directory := by
  have hbelow : directory ++ [last] ≠ [] := by simp
  have hroot := files.find?_insert .directory hbelow
  have hinsert := files.agreesOutside_insert (List.prefix_refl (directory ++ [last])) .directory
  cases editorDirectory with
  | some editors =>
      simp only [setup, hfree.makeDirectory] at hsetup
      split at hsetup
      · cases hsetup
        exact ⟨hinsert, hroot⟩
      · cases hsetup
  | none =>
      rw [hfree.files_setup hsetup]
      constructor
      · intro place houtside
        have hother : ∀ names : List String, place ≠ directory ++ [last] ++ names := by
          rintro names rfl
          exact houtside (List.prefix_append _ _)
        rw [find?_foldl_insert _ hfree.isSpot_editor fun editor => by
            rw [List.append_assoc _ [editorsName]]
            exact hother _,
          Files.find?_insert_of_ne _ _ (hother _)]
        exact hinsert place houtside
      · rw [find?_foldl_insert _ hfree.isSpot_editor (by simp),
          Files.find?_insert_of_ne _ _ (by simp)]
        exact hroot

theorem contained_setup (hfree : IsFree files root directory last)
    (hsetup : setup root editorDirectory files = (.ok home, later)) :
    Contained files (directory ++ [last]) later :=
  ⟨(hfree.agreesOutside_setup hsetup).1, .inr (hfree.agreesOutside_setup hsetup).2⟩

/-- Once its root is removed, all is as it was before the home was made. -/
theorem find?_remove (hfree : IsFree files root directory last)
    (hagrees : files.AgreesOutside later (directory ++ [last])) (place : Place) :
    (later.remove (later.placeOf root)).find? place = files.find? place := by
  rw [hfree.placeOf]
  by_cases hbelow : directory ++ [last] <+: place
  · rw [later.find?_remove (by simp) hbelow, hfree.find?_eq_none hbelow]
  · exact (hagrees.trans (later.agreesOutside_remove _)) place hbelow

theorem contained_remove (hfree : IsFree files root directory last)
    (hcontained : Contained files (directory ++ [last]) later) :
    Contained files (directory ++ [last]) (later.remove (later.placeOf root)) where
  outside := fun place _ => hfree.find?_remove hcontained.outside place
  root := by
    rw [hfree.find?_remove hcontained.outside, hfree.find?_eq_none List.prefix_rfl]
    exact .inl rfl

end IsFree

/-- Right below the root of all files a home can be made wherever nothing is. -/
theorem isFree_home (hgone : files.IsGone "/home") : IsFree files "/home" [] "home" := by
  have hplace : files.placeOf "/home" = ["home"] := rfl
  constructor
  case absolute => decide +kernel
  case spot =>
    constructor
    case plain => decide +kernel
    case short => decide +kernel
    case names => exact ⟨[""], rfl, rfl⟩
    case proper => exact ⟨by decide +kernel, by decide +kernel, by decide +kernel, by decide +kernel⟩
    case inside => rfl
    case free => exact .inl (hgone _ (hplace ▸ List.prefix_rfl))
  case gone => exact hgone
  case short => decide +kernel

theorem isGone_lone (process : Process Ending) :
    (Machine.lone process).files.IsGone "/home" := by
  intro place hplace
  obtain ⟨names, rfl⟩ := hplace
  rfl

end Home

end PromptHarness
