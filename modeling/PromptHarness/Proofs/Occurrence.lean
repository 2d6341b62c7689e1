import Mathlib.Data.List.Basic
import PromptHarness.Text.Search

/-!
# Leftmost occurrences

Searching a text for a needle has to give its leftmost occurrence.  This module says what that is
without searching (`IsLeftmost`), proves that `cut?` computes exactly it, and extends it to several
needles that are looked for one behind the other (`Matched`).  What has been found in a text stays
found, at the same place, when more text comes.
-/

namespace PromptHarness.Text

variable {α : Type}

/-- `needle` stands between `before` and `after`, and no occurrence in the text starts earlier. -/
def IsLeftmost (needle text before after : List α) : Prop :=
  text = before ++ needle ++ after ∧
    ∀ front back, text = front ++ needle ++ back → before.length ≤ front.length

theorem IsLeftmost.unique {needle text before after before' after' : List α}
    (hleft : IsLeftmost needle text before after)
    (hright : IsLeftmost needle text before' after') : before = before' ∧ after = after' := by
  have hlength : before.length = before'.length :=
    Nat.le_antisymm (hleft.2 _ _ hright.1) (hright.2 _ _ hleft.1)
  have htext : before ++ (needle ++ after) = before' ++ (needle ++ after') := by
    rw [← List.append_assoc, ← List.append_assoc, ← hleft.1, hright.1]
  obtain ⟨hbefore, hrest⟩ := List.append_inj htext hlength
  exact ⟨hbefore, List.append_cancel_left hrest⟩

/-! ## Searching -/

section Search

variable [BEq α] [LawfulBEq α]

theorem isLeftmost_of_cut? {needle text before after : List α}
    (hcut : cut? needle text = some (before, after)) : IsLeftmost needle text before after := by
  refine ⟨eq_append_of_cut? hcut, ?_⟩
  intro front back htext
  induction text generalizing before front with
  | nil =>
      have hnothing := eq_append_of_cut? hcut
      simp only [List.nil_eq, List.append_eq_nil_iff] at hnothing
      simp [hnothing.1.1]
  | cons first rest ih =>
      unfold cut? at hcut
      split at hcut
      · simp only [Option.some.injEq, Prod.mk.injEq] at hcut
        simp [← hcut.1]
      · next hfirst =>
        obtain ⟨⟨left, right⟩, hinner, hsame⟩ := Option.map_eq_some_iff.mp hcut
        simp only [Prod.mk.injEq] at hsame
        obtain ⟨rfl, rfl⟩ := hsame
        cases front with
        | nil =>
            have hprefix : needle <+: first :: rest := ⟨back, by simpa using htext.symm⟩
            exact absurd (List.isPrefixOf_iff_prefix.mpr hprefix) hfirst
        | cons head front =>
            simp only [List.cons_append, List.cons.injEq] at htext
            simpa using ih hinner front htext.2

/-- Where there is an occurrence, the search does not come back empty. -/
theorem isSome_cut?_of_occurs (needle before after : List α) :
    (cut? needle (before ++ needle ++ after)).isSome := by
  induction before with
  | nil =>
      cases htext : needle ++ after with
      | nil =>
          obtain ⟨rfl, rfl⟩ := List.append_eq_nil_iff.mp htext
          rfl
      | cons first rest =>
          have hprefix : needle.isPrefixOf (first :: rest) = true :=
            List.isPrefixOf_iff_prefix.mpr ⟨after, htext⟩
          simp [htext, cut?, hprefix]
  | cons head before ih =>
      simp only [List.cons_append, cut?]
      split
      · rfl
      · simpa using ih

theorem cut?_eq_some_iff {needle text before after : List α} :
    cut? needle text = some (before, after) ↔ IsLeftmost needle text before after := by
  constructor
  · exact isLeftmost_of_cut?
  · intro hleft
    have hsome := isSome_cut?_of_occurs needle before after
    rw [← hleft.1] at hsome
    obtain ⟨⟨before', after'⟩, hcut⟩ := Option.isSome_iff_exists.mp hsome
    obtain ⟨rfl, rfl⟩ := hleft.unique (isLeftmost_of_cut? hcut)
    exact hcut

/-- A needle is held by a text exactly where it occurs in it. -/
theorem holds_iff {needle text : List α} :
    holds needle text = true ↔ ∃ before after, text = before ++ needle ++ after := by
  constructor
  · intro hholds
    obtain ⟨⟨before, after⟩, hcut⟩ := Option.isSome_iff_exists.mp hholds
    exact ⟨before, after, eq_append_of_cut? hcut⟩
  · rintro ⟨before, after, rfl⟩
    exact isSome_cut?_of_occurs needle before after

theorem holds_iff_isInfix {needle text : List α} : holds needle text = true ↔ needle <:+: text := by
  rw [holds_iff]
  exact exists_congr fun before => exists_congr fun after => eq_comm

theorem holds_append {needle text : List α} (more : List α) (hholds : holds needle text = true) :
    holds needle (text ++ more) = true := by
  obtain ⟨before, after, htext⟩ := holds_iff.mp hholds
  exact holds_iff.mpr ⟨before, after ++ more, by simp [htext]⟩

/-- The search gives the same place when more text has come. -/
theorem cut?_append {needle text before after : List α} (more : List α)
    (hcut : cut? needle text = some (before, after)) :
    cut? needle (text ++ more) = some (before, after ++ more) := by
  induction text generalizing before with
  | nil =>
      have hnothing := eq_append_of_cut? hcut
      simp only [List.nil_eq, List.append_eq_nil_iff] at hnothing
      obtain ⟨⟨rfl, rfl⟩, rfl⟩ := hnothing
      cases more <;> rfl
  | cons first rest ih =>
      unfold cut? at hcut
      split at hcut
      · next hfirst =>
        simp only [Option.some.injEq, Prod.mk.injEq] at hcut
        obtain ⟨rfl, rfl⟩ := hcut
        obtain ⟨tail, hshape⟩ := List.isPrefixOf_iff_prefix.mp hfirst
        have hlonger : needle.isPrefixOf (first :: (rest ++ more)) = true :=
          List.isPrefixOf_iff_prefix.mpr ⟨tail ++ more, by simp [← List.append_assoc, hshape]⟩
        have hlength : needle.length ≤ (first :: rest).length := by simp [← hshape]
        simp only [List.cons_append, cut?, hlonger, if_true]
        rw [← List.cons_append, List.drop_append_of_le_length hlength]
      · next hfirst =>
        obtain ⟨⟨left, right⟩, hinner, hsame⟩ := Option.map_eq_some_iff.mp hcut
        simp only [Prod.mk.injEq] at hsame
        obtain ⟨rfl, rfl⟩ := hsame
        have hlength : needle.length ≤ (first :: rest).length := by
          simp [eq_append_of_cut? hinner]
          omega
        -- The needle fits into the shorter text, so more text cannot complete it at the front.
        have hshorter : needle.isPrefixOf (first :: (rest ++ more)) = false := by
          rw [Bool.eq_false_iff]
          intro hprefix
          apply hfirst
          rw [List.isPrefixOf_iff_prefix] at hprefix ⊢
          exact List.prefix_of_prefix_length_le hprefix ⟨more, by simp⟩ hlength
        simp [cut?, hshorter, ih hinner]

theorem IsLeftmost.append {needle text before after : List α} (more : List α)
    (hleft : IsLeftmost needle text before after) :
    IsLeftmost needle (text ++ more) before (after ++ more) :=
  cut?_eq_some_iff.mp (cut?_append more (cut?_eq_some_iff.mpr hleft))

/-! ## Cutting at one element -/

/-- Cutting at one element leaves it nowhere in what stands before. -/
theorem cut?_singleton_eq_some_iff {separator : α} {text before after : List α} :
    cut? [separator] text = some (before, after) ↔
      text = before ++ separator :: after ∧ separator ∉ before := by
  rw [cut?_eq_some_iff]
  constructor
  · rintro ⟨htext, hfirst⟩
    refine ⟨by simpa using htext, ?_⟩
    intro hmem
    obtain ⟨front, back, rfl⟩ := List.append_of_mem hmem
    have hlength := hfirst front (back ++ [separator] ++ after) (by simp [htext])
    simp only [List.length_append, List.length_cons] at hlength
    omega
  · rintro ⟨rfl, habsent⟩
    refine ⟨by simp, ?_⟩
    intro front back htext
    by_contra hshort
    have hprefix : front ++ [separator] <+: before := by
      apply @List.prefix_of_prefix_length_le _ _ _ (before ++ separator :: after)
      · exact ⟨back, htext.symm⟩
      · exact List.prefix_append _ _
      · simp
        omega
    exact habsent <| hprefix.subset (by simp)

theorem cut?_singleton_eq_none_iff {separator : α} {text : List α} :
    cut? [separator] text = none ↔ separator ∉ text := by
  constructor
  · intro hnone hmem
    obtain ⟨before, after, rfl⟩ := List.append_of_mem hmem
    have hsome := isSome_cut?_of_occurs [separator] before after
    rw [List.append_assoc, List.singleton_append, hnone] at hsome
    exact absurd hsome Bool.false_ne_true
  · intro habsent
    cases hcut : cut? [separator] text with
    | none => rfl
    | some parts =>
        obtain ⟨before, after⟩ := parts
        have htext := (cut?_singleton_eq_some_iff.mp hcut).1
        exact absurd (by simp [htext]) habsent

end Search

/-! ## Several needles, one behind the other -/

/-- Each needle occurs behind the one before it, leftmost there, and `rest` is what stands behind
the last. -/
inductive Matched : List (List α) → List α → List α → Prop
  | done (text : List α) : Matched [] text text
  | behind {needle : List α} {later : List (List α)} {text before after rest : List α}
      (hleft : IsLeftmost needle text before after) (hlater : Matched later after rest) :
      Matched (needle :: later) text rest

namespace Matched

/-- The needles leave one rest only. -/
theorem unique {needles : List (List α)} {text rest rest' : List α}
    (hfirst : Matched needles text rest) (hsecond : Matched needles text rest') :
    rest = rest' := by
  induction hfirst with
  | done text =>
      cases hsecond
      rfl
  | behind hleft _ ih =>
      cases hsecond with
      | behind hleft' hlater' =>
          obtain ⟨-, rfl⟩ := hleft.unique hleft'
          exact ih hlater'

/-- One more needle is looked for in what the others have left. -/
theorem snoc {needles : List (List α)} {text rest needle before after : List α}
    (hmatched : Matched needles text rest) (hleft : IsLeftmost needle rest before after) :
    Matched (needles ++ [needle]) text after := by
  induction hmatched with
  | done text => exact .behind hleft (.done after)
  | behind hfirst _ ih => exact .behind hfirst (ih hleft)

/-- Each of the needles is somewhere in the text. -/
theorem holds [BEq α] [LawfulBEq α] {needles : List (List α)} {text rest needle : List α}
    (hmatched : Matched needles text rest) (hneedle : needle ∈ needles) :
    Text.holds needle text = true := by
  induction hmatched with
  | done => cases hneedle
  | @behind first later text before after rest hleft _ ih =>
      rw [holds_iff_isInfix]
      rcases List.mem_cons.mp hneedle with rfl | hlater
      · exact ⟨before, after, hleft.1.symm⟩
      · have hbehind := holds_iff_isInfix.mp (ih hlater)
        rw [hleft.1]
        exact List.infix_append_of_infix_right hbehind

/-- More text goes to the rest. -/
theorem append [BEq α] [LawfulBEq α] {needles : List (List α)} {text rest : List α}
    (more : List α) (hmatched : Matched needles text rest) :
    Matched needles (text ++ more) (rest ++ more) := by
  induction hmatched with
  | done text => exact .done (text ++ more)
  | behind hleft _ ih => exact .behind (hleft.append more) ih

end Matched

end PromptHarness.Text
