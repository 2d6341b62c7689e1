import PromptHarness.Proofs.Grammar

/-!
# The bindings that can be announced

A value is never altered on its way from the line to the binding, so a value can only be announced in
a way in which it can be written: in single quotes unless it holds one, in double quotes unless it
holds one, or bare unless it has blanks, `;` or a quote at its start.  This module lists these ways
(`Style`), proves that the grammar has no others (`written_iff`), and that what is written in one of
them is read back as it was, whatever metadata and blanks stand around it.
-/

namespace PromptHarness

namespace Binding

open Text

inductive Style where
  | single
  | double
  | bare
  deriving Repr, DecidableEq

namespace Style

/-- What stands on both sides of a value. -/
def mark : Style → List Char
  | single => ['\x27']
  | double => ['\x22']
  | bare => []

def write (style : Style) (value : List Char) : List Char := style.mark ++ value ++ style.mark

/-- The values that can be written in this way, if there is anything to write. -/
def Fits : Style → List Char → Prop
  | single, value => '\x27' ∉ value
  | double, value => '\x22' ∉ value
  | bare, value => (∀ char ∈ value, isBlank char = false ∧ char ≠ ';') ∧
      value.head? ≠ some '\x27' ∧ value.head? ≠ some '\x22'

/-- The obvious announcement of a binding. -/
def render (style : Style) (key value : String) : String :=
  key ++ "=" ++ String.ofList (style.write value.toList)

@[simp]
theorem toList_render (style : Style) (key value : String) :
    (style.render key value).toList = key.toList ++ '=' :: style.write value.toList := by
  simp [render]

end Style

/-- There are no other ways to write a value than these. -/
theorem written_iff {value word : List Char} :
    Written value word ↔
      value ≠ [] ∧ ∃ style : Style, style.Fits value ∧ word = style.write value := by
  constructor
  · intro hwritten
    cases hwritten with
    | quoted hquote hvalue habsent =>
        refine ⟨hvalue, ?_⟩
        rcases hquote with rfl | rfl
        · exact ⟨.single, habsent, rfl⟩
        · exact ⟨.double, habsent, rfl⟩
    | bare hvalue hplain hfirst =>
        exact ⟨hvalue, .bare, ⟨hplain, hfirst⟩, by simp [Style.write, Style.mark]⟩
  · rintro ⟨hvalue, style, hfits, rfl⟩
    cases style with
    | single => exact .quoted (.inl rfl) hvalue hfits
    | double => exact .quoted (.inr rfl) hvalue hfits
    | bare =>
        have hbare : Style.bare.write value = value := by simp [Style.write, Style.mark]
        rw [hbare]
        exact .bare hvalue hfits.1 hfits.2

/-- Told by the characters of a value, there is a way to write it. -/
theorem exists_fits_iff {value : List Char} :
    (∃ style : Style, style.Fits value) ↔
      '\x27' ∉ value ∨ '\x22' ∉ value ∨
        (∀ char ∈ value, isBlank char = false ∧ char ≠ ';') ∧
          value.head? ≠ some '\x27' ∧ value.head? ≠ some '\x22' := by
  constructor
  · rintro ⟨style, hfits⟩
    cases style with
    | single => exact .inl hfits
    | double => exact .inr (.inl hfits)
    | bare => exact .inr (.inr hfits)
  · rintro (hsingle | hdouble | hbare)
    · exact ⟨.single, hsingle⟩
    · exact ⟨.double, hdouble⟩
    · exact ⟨.bare, hbare⟩

/-- What is announced has a key and a value that can be written. -/
theorem Announces.fits {key value line : List Char} (hannounces : Announces key value line) :
    IsKey key ∧ value ≠ [] ∧ ∃ style : Style, style.Fits value := by
  obtain ⟨left, middle, right, body, -, -, -, -, hkey, word, tail, -, hwritten, -⟩ := hannounces
  obtain ⟨hvalue, style, hfits, -⟩ := written_iff.mp hwritten
  exact ⟨hkey, hvalue, style, hfits⟩

/-- A value that is written behind a key and `=` is read back, whatever blanks stand in front and
whatever metadata behind. -/
theorem parse_render {style : Style} {key value left right : String} (hkey : IsKey key.toList)
    (hvalue : value.toList ≠ []) (hfits : style.Fits value.toList) (hleft : AllBlank left.toList)
    (hright : IsTail right.toList) :
    parse (left ++ style.render key value ++ right) = .ok ⟨key, value⟩ := by
  rw [parse_eq_ok_iff, String.toList_append, String.toList_append, Style.toList_render]
  exact ⟨left.toList, [], [], style.write value.toList ++ right.toList, by simp, hleft, allBlank_nil,
    allBlank_nil, hkey, style.write value.toList, right.toList, rfl,
    written_iff.mpr ⟨hvalue, style, hfits, rfl⟩, hright⟩

/-- Which lines announce `value` under `key`, if any do. -/
structure CanAnnounce (key value : String) : Prop where
  /-- There is such a line exactly where the key is an identifier and the value can be written. -/
  possible : (∃ line, parse line = .ok ⟨key, value⟩) ↔
    IsKey key.toList ∧ value ≠ "" ∧
      ('\x27' ∉ value.toList ∨ '\x22' ∉ value.toList ∨
        (∀ char ∈ value.toList, isBlank char = false ∧ char ≠ ';') ∧
          value.toList.head? ≠ some '\x27' ∧ value.toList.head? ≠ some '\x22')
  /-- The obvious line is one, in each way in which the value can be written, between blanks and with
  any metadata behind it. -/
  rendered : IsKey key.toList → value ≠ "" → ∀ style : Style, style.Fits value.toList →
    ∀ left blanks metadata : String, AllBlank left.toList → AllBlank blanks.toList →
      parse (left ++ style.render key value ++ blanks) = .ok ⟨key, value⟩ ∧
      parse (left ++ style.render key value ++ blanks ++ ";" ++ metadata) = .ok ⟨key, value⟩

/-- Exactly the bindings that can be written can be announced, and they are by what is obvious. -/
theorem parse_canAnnounce (key value : String) : CanAnnounce key value := by
  have hempty : value ≠ "" ↔ value.toList ≠ [] := by simp
  constructor
  case possible =>
    rw [← exists_fits_iff, hempty]
    constructor
    · rintro ⟨line, hline⟩
      exact (parse_eq_ok_iff.mp hline).fits
    · rintro ⟨hkey, hvalue, style, hfits⟩
      exact ⟨"" ++ style.render key value ++ "",
        parse_render hkey hvalue hfits allBlank_nil isTail_nil⟩
  case rendered =>
    intro hkey hvalue style hfits left blanks metadata hleft hblanks
    rw [hempty] at hvalue
    constructor
    · exact parse_render hkey hvalue hfits hleft ⟨blanks.toList, [], by simp, hblanks, .inl rfl⟩
    · rw [String.append_assoc, String.append_assoc]
      exact parse_render hkey hvalue hfits hleft
        ⟨blanks.toList, ';' :: metadata.toList, by simp, hblanks, .inr rfl⟩

end Binding

end PromptHarness
