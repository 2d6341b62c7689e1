import Mathlib.Data.List.Infix
import PromptHarness.Proofs.WritablePaths

/-!
# Directories that are made

A path leads through directories only, so below a spot a directory is made by itself, without any
above it, and all ways stay as they were.  In the new directory every name is a spot.
-/

namespace PromptHarness

namespace Files

variable {files : Files} {start found place : Place} {names : List String} {name path : String}

/-! ## Above a place -/

/-- All places above a place are directories. -/
def IsRooted (files : Files) (place : Place) : Prop :=
  ∀ above, above <+: place → above ≠ place → files.find? above = some .directory

theorem isRooted_nil (files : Files) : files.IsRooted [] := by
  intro above habove hother
  exact absurd (List.prefix_nil.mp habove) hother

theorem isRooted_concat_iff :
    files.IsRooted (place ++ [name]) ↔
      files.IsRooted place ∧ files.find? place = some .directory := by
  constructor
  · intro hrooted
    constructor
    · intro above habove hother
      refine hrooted above (habove.trans (List.prefix_append _ _)) ?_
      rintro rfl
      have hlength := habove.length_le
      rw [List.length_append, List.length_singleton] at hlength
      omega
    · exact hrooted place (List.prefix_append _ _) (by simp)
  · rintro ⟨hrooted, hdirectory⟩ above habove hother
    rcases List.prefix_concat_iff.mp habove with hsame | hbelow
    · exact absurd hsame hother
    · by_cases hplace : above = place
      · rw [hplace, hdirectory]
      · exact hrooted above hbelow hplace

theorem IsRooted.dropLast (hrooted : files.IsRooted place) : files.IsRooted place.dropLast := by
  rcases List.eq_nil_or_concat place with rfl | ⟨front, last, rfl⟩
  · exact hrooted
  · rw [List.concat_eq_append] at hrooted ⊢
    rw [List.dropLast_concat]
    exact (isRooted_concat_iff.mp hrooted).1

/-- Whatever is reached by following names is below directories only. -/
theorem IsRooted.walk (hrooted : files.IsRooted start) (hwalk : files.walk start names = .ok found) :
    files.IsRooted found := by
  induction names generalizing start with
  | nil =>
      cases hwalk
      exact hrooted
  | cons name rest ih =>
      have hdirectory := find?_of_walk_cons hwalk
      simp only [Files.walk, hdirectory] at hwalk
      split at hwalk
      · exact ih hrooted hwalk
      · split at hwalk
        · exact ih hrooted.dropLast hwalk
        · split at hwalk
          · cases hwalk
          · split at hwalk
            · cases hwalk
            · exact ih (isRooted_concat_iff.mpr ⟨hrooted, hdirectory⟩) hwalk

/-! ## New directories -/

/-- Directories stay directories, and where something is something stays. -/
structure Grows (files later : Files) : Prop where
  directories : ∀ place, files.find? place = some .directory → later.find? place = some .directory
  there : ∀ place, files.find? place ≠ none → later.find? place ≠ none

theorem grows_of_kept {later : Files}
    (hkept : ∀ place, files.find? place ≠ none → later.find? place = files.find? place) :
    files.Grows later where
  directories place hdirectory := by rw [hkept place (by simp [hdirectory]), hdirectory]
  there place hthere := by rwa [hkept place hthere]

/-- All ways stay as they are. -/
theorem Grows.walk {later : Files} (hgrows : files.Grows later)
    (hwalk : files.walk start names = .ok found) : later.walk start names = .ok found := by
  induction names generalizing start with
  | nil => exact hwalk
  | cons name rest ih =>
      have hdirectory := find?_of_walk_cons hwalk
      simp only [Files.walk, hgrows.directories start hdirectory, hdirectory] at hwalk ⊢
      split at hwalk
      · next hhere =>
        rw [if_pos hhere]
        exact ih hwalk
      · next hhere =>
        rw [if_neg hhere]
        split at hwalk
        · next habove =>
          rw [if_pos habove]
          exact ih hwalk
        · next habove =>
          rw [if_neg habove]
          split at hwalk
          · cases hwalk
          · next hshort =>
            rw [if_neg hshort]
            split at hwalk
            · cases hwalk
            · next hnext =>
              have hstill := hgrows.there (start ++ [name]) (by simpa using hnext)
              rw [if_neg (by simpa using hstill)]
              exact ih hwalk

/-- What is put where nothing was leaves all ways as they are. -/
theorem walk_insert_of_free (hplace : files.find? place = none) (node : Node)
    (hwalk : files.walk start names = .ok found) :
    (files.insert place node).walk start names = .ok found := by
  refine (grows_of_kept ?_).walk hwalk
  intro other hthere
  refine find?_insert_of_ne files node ?_
  rintro rfl
  exact hthere hplace

theorem lineage_concat (place : Place) (name : String) :
    lineage (place ++ [name]) = lineage place ++ [place ++ [name]] := by
  rw [lineage, List.length_append, List.length_singleton, List.range_succ, List.map_append, lineage]
  congr 1
  · refine List.map_congr_left fun depth hdepth => ?_
    exact List.take_append_of_le_length (List.mem_range.mp hdepth)
  · simp

/-- Below directories a directory is made by itself. -/
theorem makeDirectory_of_isRooted (hrooted : files.IsRooted (place ++ [name]))
    (hfree : files.find? (place ++ [name]) = none) :
    files.makeDirectory (place ++ [name]) = files.insert (place ++ [name]) .directory := by
  have hthere : ∀ above ∈ lineage place, files.find? above = some .directory := by
    intro above habove
    obtain ⟨depth, -, rfl⟩ := List.mem_map.mp habove
    refine hrooted _ ((List.take_prefix _ _).trans (List.prefix_append _ _)) ?_
    intro hsame
    have hlength := congrArg List.length hsame
    simp only [List.length_take, List.length_append, List.length_singleton] at hlength
    omega
  have hpassable : files.passable (place ++ [name]) = true := by
    rw [passable, lineage_concat, List.all_append, Bool.and_eq_true, List.all_eq_true]
    constructor
    · intro above habove
      rw [hthere above habove]
    · simp [hfree]
  have hkept : ∀ above : List Place, (∀ other ∈ above, files.find? other = some .directory) →
      above.foldl (fun files other =>
        if (files.find? other).isSome then files else files.insert other .directory) files =
          files := by
    intro above habove
    induction above with
    | nil => rfl
    | cons first rest ih =>
        rw [List.foldl_cons, habove first List.mem_cons_self, Option.isSome_some, if_pos rfl]
        exact ih fun other hother => habove other (List.mem_cons_of_mem first hother)
  rw [makeDirectory, if_pos hpassable, lineage_concat, List.foldl_append, hkept _ hthere,
    List.foldl_cons, List.foldl_nil, hfree]
  rfl

section Below

variable {directory : Place} {inner : String}

theorem IsSpot.isRooted (hspot : files.IsSpot path directory name)
    (habsolute : Path.isAbsolute path = true) : files.IsRooted (directory ++ [name]) := by
  obtain ⟨front, -, hwalk⟩ := hspot.names
  rw [beginning, if_pos habsolute] at hwalk
  exact isRooted_concat_iff.mpr ⟨(isRooted_nil files).walk hwalk, hspot.inside⟩

/-- In a directory that has just been made every name is a spot. -/
theorem IsSpot.below (hspot : files.IsSpot path directory name)
    (habsolute : Path.isAbsolute path = true) (hfree : files.find? (directory ++ [name]) = none)
    (hinner : IsProper inner) (hplain : '/' ∉ inner.toList) (hnul : '\x00' ∉ inner.toList)
    (hshort : path.utf8ByteSize + inner.utf8ByteSize < longestPath)
    (hnone : files.find? (directory ++ [name] ++ [inner]) = none) :
    (files.insert (directory ++ [name]) .directory).IsSpot (Path.join path inner)
      (directory ++ [name]) inner := by
  have hplace : directory ++ [name] ≠ [] := by simp
  obtain ⟨front, hnames, hwalk⟩ := hspot.names
  obtain ⟨slash, hslash, hjoin⟩ := Path.exists_join (Path.ne_empty_of_isAbsolute habsolute) hplain
  obtain ⟨front', hfront', hjoined⟩ :=
    Path.exists_names_join (Path.ne_empty_of_isAbsolute habsolute)
  obtain rfl : front' = front ++ [name] := by
    rcases hfront' with hsame | hempty
    · exact hsame.symm.trans hnames
    · rw [hnames] at hempty
      exact absurd (List.singleton_inj.mp (List.append_inj' hempty rfl).2) hspot.proper.filled
  rw [beginning, if_pos habsolute] at hwalk
  have hthere := find?_insert files .directory hplace
  have hdirectory : (files.insert (directory ++ [name]) .directory).find? directory =
      some .directory := by
    rw [find?_insert_of_ne files .directory (by simp)]
    exact hspot.inside
  constructor
  case plain =>
    have hnone : '\x00' ∉ slash.toList := by rcases hslash with rfl | rfl <;> decide
    rw [hjoin]
    simp [hspot.plain, hnone, hnul]
  case short =>
    have hone : slash.utf8ByteSize ≤ 1 := by rcases hslash with rfl | rfl <;> decide
    rw [hjoin]
    simp only [String.utf8ByteSize_append]
    omega
  case names =>
    refine ⟨front ++ [name], hjoined inner hplain, ?_⟩
    rw [beginning, if_pos (Path.isAbsolute_join habsolute inner), walk_append,
      walk_insert_of_free hfree _ hwalk, Except.bind, walk_singleton hspot.proper hdirectory, hthere]
    rfl
  case proper => exact hinner
  case inside => exact hthere
  case free =>
    rw [find?_insert_of_ne files .directory (by simp)]
    exact .inl hnone

end Below

end Files

end PromptHarness
