import Mathlib.Data.List.Perm.Subperm
import PromptHarness.Proofs.Lines

/-!
# Lines in any order

Whether two lists hold the same lines is decided by counting each of them into a table and comparing
the tables.  A table has every line once, with the number of times that it came, so the tables agree
exactly where one list is a permutation of the other (`agrees_ofLines_iff`).
-/

namespace PromptHarness

namespace Tally

theorem lookup_cons_of_ne {line other : String} (hother : other ≠ line) (number : Nat)
    (rest : Tally) : List.lookup other ((line, number) :: rest) = List.lookup other rest := by
  rw [List.lookup_cons, beq_false_of_ne hother]

/-- Counting a line once more changes what is told of that line alone. -/
theorem lookup_add (tally : Tally) (line other : String) :
    (tally.add line).lookup other =
      if other = line then some ((tally.lookup line).getD 0 + 1) else tally.lookup other := by
  induction tally with
  | nil =>
      by_cases hother : other = line
      · simp [add, hother]
      · simp [add, hother, lookup_cons_of_ne hother]
  | cons entry rest ih =>
      obtain ⟨first, number⟩ := entry
      by_cases hfirst : first = line
      · subst hfirst
        rw [add, if_pos rfl]
        by_cases hother : other = first
        · simp [hother]
        · rw [if_neg hother, lookup_cons_of_ne hother, lookup_cons_of_ne hother]
      · rw [add, if_neg hfirst, lookup_cons_of_ne (Ne.symm hfirst)]
        by_cases hother : other = first
        · subst hother
          simp [hfirst]
        · rw [lookup_cons_of_ne hother, lookup_cons_of_ne hother, ih]

theorem mem_keys_add (tally : Tally) (line other : String) :
    other ∈ (tally.add line).map Prod.fst ↔ other ∈ tally.map Prod.fst ∨ other = line := by
  induction tally with
  | nil => simp [add]
  | cons entry rest ih =>
      obtain ⟨first, number⟩ := entry
      by_cases hfirst : first = line
      · subst hfirst
        simp [add]
        tauto
      · simp only [add, if_neg hfirst, List.map_cons, List.mem_cons, ih]
        tauto

/-- No line gets a second entry. -/
theorem nodup_add {tally : Tally} (hnodup : (tally.map Prod.fst).Nodup) (line : String) :
    ((tally.add line).map Prod.fst).Nodup := by
  induction tally with
  | nil => simp [add]
  | cons entry rest ih =>
      obtain ⟨first, number⟩ := entry
      rw [List.map_cons, List.nodup_cons] at hnodup
      by_cases hfirst : first = line
      · simpa [add, hfirst] using hnodup
      · rw [add, if_neg hfirst, List.map_cons, List.nodup_cons, mem_keys_add]
        exact ⟨not_or.mpr ⟨hnodup.1, hfirst⟩, ih hnodup.2⟩

/-- In a table that has every line once, looking a line up finds its entry. -/
theorem lookup_eq_some_iff {tally : Tally} (hnodup : (tally.map Prod.fst).Nodup) {line : String}
    {number : Nat} : tally.lookup line = some number ↔ (line, number) ∈ tally := by
  induction tally with
  | nil => simp
  | cons entry rest ih =>
      obtain ⟨first, count⟩ := entry
      rw [List.map_cons, List.nodup_cons] at hnodup
      by_cases hline : line = first
      · subst hline
        have habsent : (line, number) ∉ rest := fun hmem =>
          hnodup.1 (List.mem_map.mpr ⟨_, hmem, rfl⟩)
        simp [habsent, eq_comm]
      · rw [lookup_cons_of_ne hline, ih hnodup.2]
        simp [hline]

/-! ## Counting all lines -/

theorem lookup_foldl_add (lines : List String) (tally : Tally) (line : String) :
    (lines.foldl add tally).lookup line =
      if line ∈ lines then some ((tally.lookup line).getD 0 + lines.count line)
      else tally.lookup line := by
  induction lines generalizing tally with
  | nil => rfl
  | cons first rest ih =>
      rw [List.foldl_cons, ih, lookup_add]
      by_cases hfirst : line = first
      · subst hfirst
        by_cases hrest : line ∈ rest
        · simp [hrest]
          omega
        · simp [hrest, List.count_eq_zero_of_not_mem hrest]
      · simp [hfirst, Ne.symm hfirst]

/-- A line is told as often as it comes, and not at all if it does not come. -/
theorem lookup_ofLines (lines : List String) (line : String) :
    (ofLines lines).lookup line = if line ∈ lines then some (lines.count line) else none := by
  simp [ofLines, lookup_foldl_add]

theorem nodup_ofLines (lines : List String) : ((ofLines lines).map Prod.fst).Nodup := by
  have hfold : ∀ tally : Tally, (tally.map Prod.fst).Nodup →
      ((lines.foldl add tally).map Prod.fst).Nodup := by
    induction lines with
    | nil => exact fun tally hnodup => hnodup
    | cons first rest ih => exact fun tally hnodup => ih _ (nodup_add hnodup first)
  exact hfold [] List.nodup_nil

theorem mem_keys_ofLines (lines : List String) (line : String) :
    line ∈ (ofLines lines).map Prod.fst ↔ line ∈ lines := by
  constructor
  · intro hkey
    obtain ⟨⟨first, number⟩, hentry, rfl⟩ := List.mem_map.mp hkey
    have hlookup := (lookup_eq_some_iff (nodup_ofLines lines)).mpr hentry
    by_contra habsent
    simp [lookup_ofLines, habsent] at hlookup
  · intro hline
    have hlookup : (ofLines lines).lookup line = some (lines.count line) := by
      rw [lookup_ofLines, if_pos hline]
    exact List.mem_map.mpr ⟨_, (lookup_eq_some_iff (nodup_ofLines lines)).mp hlookup, rfl⟩

/-! ## Comparing two tables -/

/-- Each entry of the table stands in the other as well. -/
theorem all_lookup_iff {left right : List String} :
    ((ofLines left).all fun (line, number) => (ofLines right).lookup line == some number) = true ↔
      ∀ line ∈ left, line ∈ right ∧ left.count line = right.count line := by
  rw [List.all_eq_true]
  constructor
  · intro hall line hline
    have hlookup : (ofLines left).lookup line = some (left.count line) := by
      rw [lookup_ofLines, if_pos hline]
    have hother := hall _ ((lookup_eq_some_iff (nodup_ofLines left)).mp hlookup)
    by_cases hright : line ∈ right
    · have hcount : right.count line = left.count line := by
        simpa [lookup_ofLines, hright] using hother
      exact ⟨hright, hcount.symm⟩
    · simp [lookup_ofLines, hright] at hother
  · rintro hsame ⟨line, number⟩ hentry
    have hlookup := (lookup_eq_some_iff (nodup_ofLines left)).mpr hentry
    have hline : line ∈ left := (mem_keys_ofLines left line).mp (List.mem_map.mpr ⟨_, hentry, rfl⟩)
    obtain ⟨hright, hcount⟩ := hsame line hline
    rw [lookup_ofLines, if_pos hline, Option.some.injEq] at hlookup
    simp [lookup_ofLines, hright, ← hcount, hlookup]

/-- The tables of two lists agree exactly where one is a permutation of the other. -/
theorem agrees_ofLines_iff {left right : List String} :
    (ofLines left).agrees (ofLines right) = true ↔ left.Perm right := by
  rw [agrees, Bool.and_eq_true, all_lookup_iff, beq_iff_eq]
  constructor
  · rintro ⟨hlength, hsame⟩
    -- As many different lines, and all those of one list in the other: they are the same lines.
    have hkeys : ((ofLines left).map Prod.fst).Perm ((ofLines right).map Prod.fst) := by
      apply List.Subperm.perm_of_length_le
      · apply (nodup_ofLines left).subperm
        intro line hline
        rw [mem_keys_ofLines] at hline ⊢
        exact (hsame line hline).1
      · simp [hlength]
    rw [List.perm_iff_count]
    intro line
    by_cases hleft : line ∈ left
    · exact (hsame line hleft).2
    · have hright : line ∉ right := by
        rwa [← mem_keys_ofLines, ← hkeys.mem_iff, mem_keys_ofLines]
      rw [List.count_eq_zero_of_not_mem hleft, List.count_eq_zero_of_not_mem hright]
  · intro hperm
    have hkeys : ((ofLines left).map Prod.fst).Perm ((ofLines right).map Prod.fst) := by
      rw [List.perm_ext_iff_of_nodup (nodup_ofLines left) (nodup_ofLines right)]
      intro line
      rw [mem_keys_ofLines, mem_keys_ofLines, hperm.mem_iff]
    refine ⟨by simpa using hkeys.length_eq, ?_⟩
    intro line hline
    exact ⟨hperm.mem_iff.mp hline, hperm.count_eq line⟩

end Tally

namespace CommandResult

theorem assertLines_eq_none_iff {result : CommandResult} {expected : List String} :
    result.assertLines expected = none ↔ result.lines = expected := by
  rw [assertLines, Verdict.require_eq_none_iff, beq_iff_eq]

theorem assertLinesUnordered_eq_none_iff {result : CommandResult} {expected : List String} :
    result.assertLinesUnordered expected = none ↔ result.lines.Perm expected := by
  rw [assertLinesUnordered, Verdict.require_eq_none_iff, Tally.agrees_ofLines_iff]

/-- Outputs whose lines end at the same newlines, but come in another order, have their printed
lines in another order. -/
theorem perm_lines {result other : CommandResult}
    (hstretches : (Text.stretches '\n' other.output.toList).Perm
      (Text.stretches '\n' result.output.toList)) : other.lines.Perm result.lines := by
  rw [lines_eq_filledLines, lines_eq_filledLines]
  exact ((hstretches.map _).filter _).map _

/-- What the two comparisons of the output lines with expected ones decide. -/
structure ComparesLines (result : CommandResult) (expected : List String) : Prop where
  unordered : result.assertLinesUnordered expected = none ↔ expected.Perm result.lines
  /-- Every line is expected as often as it was printed. -/
  counted : result.assertLinesUnordered expected = none ↔
    ∀ line, expected.count line = result.lines.count line
  /-- A blank line is never met. -/
  blank : ∀ line ∈ expected, line.toList.all Text.isBlank = true →
    result.assertLinesUnordered expected ≠ none
  /-- Neither the order of the expected lines nor that of the printed ones matters. -/
  reordered : ∀ (other : CommandResult) (others : List String), others.Perm expected →
    other.lines.Perm result.lines →
      (other.assertLinesUnordered others = none ↔ result.assertLinesUnordered expected = none)
  /-- Nor does the order in which the lines stand in the output. -/
  shuffled : ∀ other : CommandResult,
    (Text.stretches '\n' other.output.toList).Perm (Text.stretches '\n' result.output.toList) →
      (other.assertLinesUnordered expected = none ↔ result.assertLinesUnordered expected = none)
  ordered : result.assertLines expected = none ↔ result.lines = expected
  relaxed : result.assertLines expected = none →
    ∀ others, others.Perm expected → result.assertLinesUnordered others = none

/-- Lines are compared in order as lists, and regardless of order as multisets. -/
theorem assertLines_compare (result : CommandResult) (expected : List String) :
    result.ComparesLines expected := by
  have hreordered : ∀ (other : CommandResult) (others : List String), others.Perm expected →
      other.lines.Perm result.lines →
        (other.assertLinesUnordered others = none ↔
          result.assertLinesUnordered expected = none) := by
    intro other others hothers hlines
    rw [assertLinesUnordered_eq_none_iff, assertLinesUnordered_eq_none_iff]
    exact ⟨fun hperm => (hlines.symm.trans hperm).trans hothers,
      fun hperm => (hlines.trans hperm).trans hothers.symm⟩
  constructor
  case unordered => rw [assertLinesUnordered_eq_none_iff, List.perm_comm]
  case counted => rw [assertLinesUnordered_eq_none_iff, List.perm_comm, List.perm_iff_count]
  case blank =>
    intro line hline hblank hpasses
    rw [assertLinesUnordered_eq_none_iff] at hpasses
    have hprinted := isPrinted_of_mem_lines (hpasses.mem_iff.mpr hline)
    exact absurd (hprinted.filled.symm.trans hblank) (by decide)
  case reordered => exact hreordered
  case shuffled =>
    intro other hstretches
    exact hreordered other expected .rfl (perm_lines hstretches)
  case ordered => exact assertLines_eq_none_iff
  case relaxed =>
    intro hpasses others hothers
    rw [assertLines_eq_none_iff] at hpasses
    rw [assertLinesUnordered_eq_none_iff, hpasses]
    exact hothers.symm

end CommandResult

end PromptHarness
