/-!
# Stretches between separators

Cutting a sequence at every occurrence of one element.  Nothing but the separators is lost: putting
them back between the stretches gives the sequence again.
-/

namespace PromptHarness.Text

variable {α : Type} [DecidableEq α]

/-- The stretches between the occurrences of `cut`; there is one more of them than occurrences. -/
def stretches (cut : α) : List α → List (List α)
  | [] => [[]]
  | item :: rest =>
    if item = cut then [] :: stretches cut rest
    else match stretches cut rest with
      | [] => [[item]]
      | first :: others => (item :: first) :: others

theorem stretches_ne_nil (cut : α) (text : List α) : stretches cut text ≠ [] := by
  cases text with
  | nil => simp [stretches]
  | cons item rest =>
    unfold stretches
    split
    · simp
    · split <;> simp

/-- Putting the separators back between the stretches gives the sequence again. -/
theorem intercalate_stretches (cut : α) (text : List α) :
    [cut].intercalate (stretches cut text) = text := by
  induction text with
  | nil => rfl
  | cons item rest ih =>
    unfold stretches
    split
    · next same =>
      subst same
      obtain ⟨first, others, shape⟩ := List.exists_cons_of_ne_nil (stretches_ne_nil item rest)
      rw [shape] at ih ⊢
      rw [← ih]
      rfl
    · obtain ⟨first, others, shape⟩ := List.exists_cons_of_ne_nil (stretches_ne_nil cut rest)
      rw [shape] at ih ⊢
      rw [← ih]
      cases others <;> rfl

/-- Without the separator there is one stretch. -/
theorem stretches_eq_singleton {cut : α} {text : List α} (plain : cut ∉ text) :
    stretches cut text = [text] := by
  induction text with
  | nil => rfl
  | cons item rest ih =>
    simp only [List.mem_cons, not_or] at plain
    simp [stretches, ih plain.2, Ne.symm plain.1]

theorem stretches_append_cons (cut : α) (front rest : List α) :
    stretches cut (front ++ cut :: rest) = stretches cut front ++ stretches cut rest := by
  induction front with
  | nil => simp [stretches]
  | cons item front ih =>
    by_cases same : item = cut
    · simp [stretches, same, ih]
    · obtain ⟨first, others, shape⟩ := List.exists_cons_of_ne_nil (stretches_ne_nil cut front)
      simp [stretches, same, ih, shape]

/-- The separator is in no stretch. -/
theorem not_mem_of_mem_stretches {cut : α} {text stretch : List α}
    (found : stretch ∈ stretches cut text) : cut ∉ stretch := by
  induction text generalizing stretch with
  | nil =>
    rw [List.mem_singleton.mp found]
    exact List.not_mem_nil
  | cons item rest ih =>
    unfold stretches at found
    split at found
    · rcases List.mem_cons.mp found with rfl | later
      · exact List.not_mem_nil
      · exact ih later
    · next differs =>
      obtain ⟨first, others, shape⟩ := List.exists_cons_of_ne_nil (stretches_ne_nil cut rest)
      rw [shape] at found ih
      rcases List.mem_cons.mp found with rfl | later
      · simp [Ne.symm differs, ih List.mem_cons_self]
      · exact ih (List.mem_cons_of_mem first later)

end PromptHarness.Text
