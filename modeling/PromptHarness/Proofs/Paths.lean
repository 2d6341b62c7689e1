import PromptHarness.Files

/-!
# Where paths lead

A path that leads to something leads to the place that it names, so what a lookup finds can be said
about places alone.  Whatever is below a place that was removed is gone for every path.
-/

namespace PromptHarness

namespace Files

theorem placeOf_of_isAbsolute {path : String} (habsolute : Path.isAbsolute path = true)
    (files other : Files) : files.placeOf path = other.placeOf path := by
  simp only [placeOf, habsolute, if_true]

theorem foldl_of_walk {files : Files} {place found : Place} {names : List String}
    (hwalk : files.walk place names = .ok found) :
    names.foldl
        (fun place name =>
          if name = "" ∨ name = "." then place
          else if name = ".." then place.dropLast
          else place ++ [name])
        place = found := by
  induction names generalizing place with
  | nil =>
      cases hwalk
      rfl
  | cons name rest ih =>
      rw [List.foldl_cons]
      simp only [walk] at hwalk
      split at hwalk
      · split at hwalk
        · next hhere =>
          rw [if_pos hhere]
          exact ih hwalk
        · next hhere =>
          rw [if_neg hhere]
          split at hwalk
          · next habove =>
            rw [if_pos habove]
            exact ih hwalk
          · next habove =>
            rw [if_neg habove]
            split at hwalk
            · cases hwalk
            · split at hwalk
              · cases hwalk
              · exact ih hwalk
      · cases hwalk
      · cases hwalk

/-- A path that leads somewhere leads to the place that it names. -/
theorem placeOf_of_locate {files : Files} {path : String} {place : Place}
    (hlocate : files.locate path = .ok place) : files.placeOf path = place := by
  unfold locate at hlocate
  split at hlocate
  · cases hlocate
  · split at hlocate
    · cases hlocate
    · split at hlocate
      · cases hlocate
      · exact foldl_of_walk hlocate

theorem find?_of_stat {files : Files} {path : String} {node : Node}
    (hstat : files.stat path = .ok node) : files.find? (files.placeOf path) = some node := by
  unfold stat at hstat
  cases hlocate : files.locate path with
  | error reason =>
      rw [hlocate] at hstat
      cases hstat
  | ok place =>
      rw [placeOf_of_locate hlocate]
      simp only [hlocate, bind, Except.bind] at hstat
      cases hfind : files.find? place with
      | none =>
          rw [hfind] at hstat
          cases hstat
      | some found =>
          rw [hfind] at hstat
          cases hstat
          rfl

def IsGone (files : Files) (path : String) : Prop :=
  ∀ place, files.placeOf path <+: place → files.find? place = none

theorem isGone_remove (files : Files) {path : String} (hbelow : files.placeOf path ≠ []) :
    (files.remove (files.placeOf path)).IsGone path := by
  intro place hunder
  exact files.find?_remove hbelow hunder

/-- Whoever looks for something at the path or below it finds nothing. -/
theorem IsGone.stat {files : Files} {path other : String} (hgone : files.IsGone path)
    (hunder : files.placeOf path <+: files.placeOf other) (node : Node) :
    files.stat other ≠ .ok node := by
  intro hstat
  have hfind := find?_of_stat hstat
  rw [hgone _ hunder] at hfind
  cases hfind

theorem IsGone.isFile {files : Files} {path other : String} (hgone : files.IsGone path)
    (hunder : files.placeOf path <+: files.placeOf other) : files.isFile other = false := by
  unfold Files.isFile
  split
  · next hstat => exact absurd hstat (hgone.stat hunder _)
  · rfl

theorem IsGone.size {files : Files} {path other : String} (hgone : files.IsGone path)
    (hunder : files.placeOf path <+: files.placeOf other) :
    ∃ reason, files.size other = .error reason := by
  unfold Files.size
  cases hstat : files.stat other with
  | ok node => exact absurd hstat (hgone.stat hunder node)
  | error reason => exact ⟨reason, rfl⟩

theorem IsGone.isDirectory {files : Files} {path : String} (hgone : files.IsGone path) :
    files.isDirectory path = false := by
  unfold Files.isDirectory
  split
  · next hstat => exact absurd hstat (hgone.stat List.prefix_rfl _)
  · rfl

end Files

end PromptHarness
