/-!
# Finding a stretch in a longer one

`cut?` finds the leftmost occurrence and gives what stands before and after it, so nothing is lost
(`eq_append_of_cut?`).
-/

namespace PromptHarness.Text

variable {α : Type} [BEq α]

/-- What stands before and after the leftmost occurrence of `needle`. -/
def cut? (needle : List α) : List α → Option (List α × List α)
  | [] => if needle.isEmpty then some ([], []) else none
  | first :: rest =>
    if needle.isPrefixOf (first :: rest) then some ([], (first :: rest).drop needle.length)
    else (cut? needle rest).map fun (before, after) => (first :: before, after)

def holds (needle text : List α) : Bool :=
  (cut? needle text).isSome

/-- The parts around an occurrence, with the needle between them, are the whole text. -/
theorem eq_append_of_cut? [LawfulBEq α] {needle text before after : List α}
    (found : cut? needle text = some (before, after)) : text = before ++ needle ++ after := by
  induction text generalizing before with
  | nil =>
    unfold cut? at found
    split at found
    · next bare =>
      simp only [Option.some.injEq, Prod.mk.injEq] at found
      obtain ⟨rfl, rfl⟩ := found
      simpa using bare
    · simp at found
  | cons first rest ih =>
    unfold cut? at found
    split at found
    · next front =>
      simp only [Option.some.injEq, Prod.mk.injEq] at found
      obtain ⟨rfl, rfl⟩ := found
      obtain ⟨tail, shape⟩ := List.isPrefixOf_iff_prefix.mp front
      rw [← shape]
      simp
    · obtain ⟨⟨left, right⟩, inner, same⟩ := Option.map_eq_some_iff.mp found
      simp only [Prod.mk.injEq] at same
      obtain ⟨rfl, rfl⟩ := same
      simp [ih inner]

end PromptHarness.Text
