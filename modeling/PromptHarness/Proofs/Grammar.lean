import Mathlib
import PromptHarness.Announcement
import PromptHarness.Proofs.Occurrence

/-!
# The grammar of announcements

The shape of an announcement is said here without reading it (`Announces`): blanks, a key, blanks,
`=`, blanks and a body that spells the value, followed by nothing or by metadata behind a `;`.
Reading a line is proved to accept exactly the lines of this shape, each with its only key and
value.

The proof goes along the cuts of the reader.  Every separator is cut at its first occurrence, so
what stands before it is free of it; and what is trimmed off is all blank, so what remains starts
and ends with a character that is not.
-/

namespace PromptHarness

namespace Text

def AllBlank (text : List Char) : Prop := ∀ char ∈ text, isBlank char = true

theorem allBlank_nil : AllBlank [] := fun _ hchar => absurd hchar List.not_mem_nil

theorem AllBlank.append {left right : List Char} (hleft : AllBlank left)
    (hright : AllBlank right) : AllBlank (left ++ right) := by
  intro char hchar
  rcases List.mem_append.mp hchar with hchar | hchar
  · exact hleft char hchar
  · exact hright char hchar

/-- A character that is not blank does not occur among blanks. -/
theorem AllBlank.not_mem {blanks : List Char} (hblanks : AllBlank blanks) {char : Char}
    (hchar : isBlank char = false) : char ∉ blanks := by
  intro hmem
  rw [hblanks char hmem] at hchar
  exact absurd hchar (by decide)

/-! ## Trimming -/

theorem exists_trimStart (text : List Char) :
    ∃ blanks, AllBlank blanks ∧ text = blanks ++ trimStart text :=
  ⟨text.takeWhile isBlank, fun _ hchar => List.mem_takeWhile_imp hchar,
    List.takeWhile_append_dropWhile.symm⟩

theorem trimStart_cons {char : Char} (hchar : isBlank char = false) (rest : List Char) :
    trimStart (char :: rest) = char :: rest := by
  simp [trimStart, hchar]

theorem trimStart_append {blanks : List Char} (hblanks : AllBlank blanks) (rest : List Char) :
    trimStart (blanks ++ rest) = trimStart rest :=
  List.dropWhile_append_of_pos hblanks

theorem trimEnd_eq_reverse (text : List Char) :
    trimEnd text = (trimStart text.reverse).reverse := rfl

theorem exists_trimEnd (text : List Char) :
    ∃ blanks, AllBlank blanks ∧ text = trimEnd text ++ blanks := by
  obtain ⟨blanks, hblanks, htext⟩ := exists_trimStart text.reverse
  refine ⟨blanks.reverse, fun char hchar => hblanks char (List.mem_reverse.mp hchar), ?_⟩
  rw [trimEnd_eq_reverse, ← List.reverse_append, ← htext, List.reverse_reverse]

theorem trimEnd_append {blanks : List Char} (hblanks : AllBlank blanks) (text : List Char) :
    trimEnd (text ++ blanks) = trimEnd text := by
  have hreverse : AllBlank blanks.reverse :=
    fun char hchar => hblanks char (List.mem_reverse.mp hchar)
  rw [trimEnd_eq_reverse, List.reverse_append, trimStart_append hreverse, ← trimEnd_eq_reverse]

/-- Behind a character that is not blank only the end of the text is trimmed. -/
theorem trimEnd_append_cons {char : Char} (hchar : isBlank char = false)
    (front tail : List Char) :
    trimEnd (front ++ char :: tail) = front ++ char :: trimEnd tail := by
  have hreverse : (front ++ char :: tail).reverse = tail.reverse ++ char :: front.reverse := by
    simp
  have hstart : trimStart (tail.reverse ++ char :: front.reverse) =
      trimStart tail.reverse ++ char :: front.reverse := by
    rw [trimStart, List.dropWhile_append]
    split
    · next hnone =>
      rw [List.isEmpty_iff] at hnone
      simp [trimStart, hnone, hchar]
    · rfl
  rw [trimEnd_eq_reverse, hreverse, hstart, trimEnd_eq_reverse]
  simp

theorem trimEnd_of_plain {text : List Char} (hplain : ∀ char ∈ text, isBlank char = false) :
    trimEnd text = text := by
  rcases List.eq_nil_or_concat text with rfl | ⟨front, last, rfl⟩
  · rfl
  · rw [List.concat_eq_append] at hplain ⊢
    exact trimEnd_append_cons (hplain last (by simp)) front []

theorem exists_trim (text : List Char) :
    ∃ left right, AllBlank left ∧ AllBlank right ∧ text = left ++ trim text ++ right := by
  obtain ⟨left, hleft, htext⟩ := exists_trimStart text
  obtain ⟨right, hright, hrest⟩ := exists_trimEnd (trimStart text)
  refine ⟨left, right, hleft, hright, ?_⟩
  rw [List.append_assoc, trim, ← hrest, ← htext]

end Text

namespace Binding

open Text

/-! ## The grammar -/

def IsLetter (char : Char) : Prop := ('a' ≤ char ∧ char ≤ 'z') ∨ ('A' ≤ char ∧ char ≤ 'Z')

def IsDigit (char : Char) : Prop := '0' ≤ char ∧ char ≤ '9'

/-- The keys: `[A-Za-z_][A-Za-z0-9_]*`. -/
inductive IsKey : List Char → Prop
  | intro {first : Char} {rest : List Char} (hfirst : first = '_' ∨ IsLetter first)
      (hrest : ∀ char ∈ rest, char = '_' ∨ IsLetter char ∨ IsDigit char) : IsKey (first :: rest)

/-- What may stand behind a value: blanks, and then nothing or metadata behind a `;`. -/
def IsTail (tail : List Char) : Prop :=
  ∃ blanks metadata, tail = blanks ++ metadata ∧ AllBlank blanks ∧
    (metadata = [] ∨ metadata.head? = some ';')

/-- The ways to write `value`: in quotes that it does not hold, or bare. -/
inductive Written (value : List Char) : List Char → Prop
  | quoted {quote : Char} (hquote : quote = '\x27' ∨ quote = '\x22') (hvalue : value ≠ [])
      (habsent : quote ∉ value) : Written value (quote :: (value ++ [quote]))
  | bare (hvalue : value ≠ []) (hplain : ∀ char ∈ value, isBlank char = false ∧ char ≠ ';')
      (hfirst : value.head? ≠ some '\x27' ∧ value.head? ≠ some '\x22') : Written value value

/-- The text starts with `value`, in one of the ways to write it, and nothing else is in it that
counts. -/
def Spells (value text : List Char) : Prop :=
  ∃ word tail, text = word ++ tail ∧ Written value word ∧ IsTail tail

/-- The line announces `value` under `key`. -/
def Announces (key value line : List Char) : Prop :=
  ∃ left middle right body, line = left ++ key ++ middle ++ '=' :: (right ++ body) ∧
    AllBlank left ∧ AllBlank middle ∧ AllBlank right ∧ IsKey key ∧ Spells value body

/-! ## Keys -/

theorem isAlpha_iff {char : Char} : char.isAlpha = true ↔ IsLetter char := by
  simp only [Char.isAlpha, Char.isUpper, Char.isLower, IsLetter, Bool.or_eq_true,
    Bool.and_eq_true, decide_eq_true_eq, Char.le_def]
  exact Or.comm

theorem isNameStart_iff {char : Char} :
    isNameStart char = true ↔ char = '_' ∨ IsLetter char := by
  simp [isNameStart, isAlpha_iff]

theorem isNameRest_iff {char : Char} :
    isNameRest char = true ↔ char = '_' ∨ IsLetter char ∨ IsDigit char := by
  have hdigit : char.isDigit = true ↔ IsDigit char := by
    simp [Char.isDigit, IsDigit, Char.le_def]
  simp [isNameRest, Char.isAlphanum, isAlpha_iff, hdigit]

theorem isName_iff {key : List Char} : isName key = true ↔ IsKey key := by
  cases key with
  | nil =>
      simp only [isName, Bool.false_eq_true, false_iff]
      exact fun hkey => nomatch hkey
  | cons first rest =>
      simp only [isName, Bool.and_eq_true, List.all_eq_true, isNameStart_iff, isNameRest_iff]
      constructor
      · rintro ⟨hfirst, hrest⟩
        exact .intro hfirst hrest
      · rintro ⟨hfirst, hrest⟩
        exact ⟨hfirst, hrest⟩

/-- The characters of a key are letters, digits and `_`. -/
theorem IsKey.of_mem {key : List Char} (hkey : IsKey key) {char : Char} (hchar : char ∈ key) :
    char = '_' ∨ IsLetter char ∨ IsDigit char := by
  cases hkey with
  | intro hfirst hrest =>
      rcases List.mem_cons.mp hchar with rfl | hchar
      · exact hfirst.imp_right .inl
      · exact hrest char hchar

theorem isBlank_of_isKey {char : Char} (hchar : char = '_' ∨ IsLetter char ∨ IsDigit char) :
    isBlank char = false := by
  have hrange : 0x30 ≤ char.toNat ∧ char.toNat ≤ 0x7a := by
    simp only [IsLetter, IsDigit, Char.le_def, UInt32.le_iff_toNat_le] at hchar
    rcases hchar with rfl | (⟨hlow, hhigh⟩ | ⟨hlow, hhigh⟩) | ⟨hlow, hhigh⟩
    · decide
    all_goals exact ⟨Nat.le_trans (by decide) hlow, Nat.le_trans hhigh (by decide)⟩
  simp only [isBlank, Bool.or_eq_false_iff, Bool.and_eq_false_iff, decide_eq_false_iff_not,
    beq_eq_false_iff_ne]
  omega

theorem IsKey.not_mem_equals {key : List Char} (hkey : IsKey key) : '=' ∉ key := by
  intro hmem
  have hchar := hkey.of_mem hmem
  revert hchar
  simp only [IsLetter, IsDigit]
  decide

theorem IsKey.isBlank_of_mem {key : List Char} (hkey : IsKey key) {char : Char}
    (hchar : char ∈ key) : isBlank char = false :=
  isBlank_of_isKey (hkey.of_mem hchar)

theorem IsKey.exists_cons {key : List Char} (hkey : IsKey key) :
    ∃ first rest, key = first :: rest ∧ isBlank first = false := by
  cases hkey with
  | intro hfirst hrest =>
      exact ⟨_, _, rfl, (IsKey.intro hfirst hrest).isBlank_of_mem List.mem_cons_self⟩

/-- A key is not trimmed, and blanks around it are. -/
theorem IsKey.trim_append {key left right : List Char} (hkey : IsKey key) (hleft : AllBlank left)
    (hright : AllBlank right) : trim (left ++ key ++ right) = key := by
  have hstart : trimStart (key ++ right) = key ++ right := by
    obtain ⟨first, rest, rfl, hfirst⟩ := hkey.exists_cons
    exact trimStart_cons hfirst _
  rw [trim, List.append_assoc, trimStart_append hleft, hstart, trimEnd_append hright,
    trimEnd_of_plain fun _ => hkey.isBlank_of_mem]

/-! ## Values -/

theorem isTail_nil : IsTail [] := ⟨[], [], rfl, allBlank_nil, .inl rfl⟩

theorem isTail_iff {tail : List Char} :
    IsTail tail ↔ trimStart tail = [] ∨ (trimStart tail).head? = some ';' := by
  constructor
  · rintro ⟨blanks, metadata, rfl, hblanks, hmetadata⟩
    rw [trimStart_append hblanks]
    rcases hmetadata with rfl | hhead
    · exact .inl rfl
    · obtain ⟨rest, rfl⟩ := List.head?_eq_some_iff.mp hhead
      exact .inr (by rw [trimStart_cons (by decide)]; rfl)
  · intro hmetadata
    obtain ⟨blanks, hblanks, htail⟩ := exists_trimStart tail
    exact ⟨blanks, trimStart tail, htail, hblanks, hmetadata⟩

theorem quotedValue?_eq_ok_iff {quote : Char} {text value : List Char} :
    quotedValue? quote text = .ok value ↔
      ∃ tail, text = value ++ quote :: tail ∧ value ≠ [] ∧ quote ∉ value ∧ IsTail tail := by
  unfold quotedValue?
  cases hcut : cut? [quote] text with
  | none =>
      simp only [reduceCtorEq, false_iff]
      rintro ⟨tail, rfl, -⟩
      exact absurd (by simp) (cut?_singleton_eq_none_iff.mp hcut)
  | some parts =>
      obtain ⟨before, after⟩ := parts
      obtain ⟨htext, habsent⟩ := cut?_singleton_eq_some_iff.mp hcut
      constructor
      · intro hvalue
        simp only at hvalue
        split at hvalue
        · exact absurd hvalue (by simp)
        · next htail =>
          split at hvalue
          · exact absurd hvalue (by simp)
          · next hempty =>
            obtain rfl : before = value := by simpa using hvalue
            refine ⟨after, htext, by simpa using hempty, habsent, isTail_iff.mpr ?_⟩
            simpa using not_not.mp htail
      · rintro ⟨tail, hsame, hvalue, hquote, htail⟩
        have hparts := cut?_singleton_eq_some_iff.mpr ⟨hsame, hquote⟩
        rw [hcut, Option.some.injEq, Prod.mk.injEq] at hparts
        obtain ⟨rfl, rfl⟩ := hparts
        have hmetadata := isTail_iff.mp htail
        simp [hmetadata, hvalue]

theorem bareValue?_eq_ok_iff {text value : List Char} :
    bareValue? text = .ok value ↔
      ∃ tail, text = value ++ tail ∧ value ≠ [] ∧
        (∀ char ∈ value, isBlank char = false ∧ char ≠ ';') ∧ IsTail tail := by
  constructor
  · intro hvalue
    simp only [bareValue?] at hvalue
    split at hvalue
    · exact absurd hvalue (by simp)
    · next hempty =>
      split at hvalue
      · exact absurd hvalue (by simp)
      · next hblank =>
        obtain ⟨blanks, hblanks, hword⟩ := exists_trimEnd (text.takeWhile (· != ';'))
        have htext : text = text.takeWhile (· != ';') ++ text.dropWhile (· != ';') :=
          List.takeWhile_append_dropWhile.symm
        have hmetadata : text.dropWhile (· != ';') = [] ∨
            (text.dropWhile (· != ';')).head? = some ';' := by
          cases hrest : text.dropWhile (· != ';') with
          | nil => exact .inl rfl
          | cons first rest =>
              have hhead := List.head_dropWhile_not (· != ';') (l := text) (by simp [hrest])
              simp only [hrest, List.head_cons] at hhead
              exact .inr (by simpa using hhead)
        obtain rfl : trimEnd (text.takeWhile (· != ';')) = value := by simpa using hvalue
        refine ⟨blanks ++ text.dropWhile (· != ';'), ?_, by simpa using hempty, ?_,
          blanks, _, rfl, hblanks, hmetadata⟩
        · rw [← List.append_assoc, ← hword, ← htext]
        · intro char hchar
          refine ⟨by simpa using fun hb => hblank (List.any_eq_true.mpr ⟨char, hchar, hb⟩), ?_⟩
          have hmem : char ∈ text.takeWhile (· != ';') := by
            rw [hword]
            exact List.mem_append_left _ hchar
          simpa using List.mem_takeWhile_imp hmem
  · rintro ⟨tail, rfl, hvalue, hplain, blanks, metadata, rfl, hblanks, hmetadata⟩
    have hfront : ∀ char ∈ value ++ blanks, (char != ';') = true := by
      intro char hchar
      rw [bne_iff_ne]
      rcases List.mem_append.mp hchar with hchar | hchar
      · exact (hplain char hchar).2
      · rintro rfl
        exact hblanks.not_mem (by decide) hchar
    have hstop : metadata.takeWhile (· != ';') = [] := by
      rcases hmetadata with rfl | hhead
      · rfl
      · obtain ⟨rest, rfl⟩ := List.head?_eq_some_iff.mp hhead
        simp
    have hword : (value ++ (blanks ++ metadata)).takeWhile (· != ';') = value ++ blanks := by
      rw [← List.append_assoc, List.takeWhile_append_of_pos hfront, hstop, List.append_nil]
    have htrim : trimEnd (value ++ blanks) = value := by
      rw [trimEnd_append hblanks, trimEnd_of_plain fun char hchar => (hplain char hchar).1]
    have hany : value.any isBlank = false := by
      simpa using fun char hchar => (hplain char hchar).1
    simp [bareValue?, hword, htrim, hvalue, hany]

theorem isQuote_iff {char : Char} : isQuote char = true ↔ char = '\x27' ∨ char = '\x22' := by
  simp [isQuote]

theorem isBlank_of_isQuote {char : Char} (hquote : char = '\x27' ∨ char = '\x22') :
    isBlank char = false := by
  rcases hquote with rfl | rfl <;> decide

/-- A written value starts with a character that is not blank. -/
theorem Written.exists_cons {value word : List Char} (hwritten : Written value word) :
    ∃ first rest, word = first :: rest ∧ isBlank first = false := by
  cases hwritten with
  | quoted hquote => exact ⟨_, _, rfl, isBlank_of_isQuote hquote⟩
  | bare hvalue hplain =>
      obtain ⟨first, rest, rfl⟩ := List.exists_cons_of_ne_nil hvalue
      exact ⟨first, rest, rfl, (hplain first List.mem_cons_self).1⟩

/-- A written value ends with a character that is not blank. -/
theorem Written.exists_concat {value word : List Char} (hwritten : Written value word) :
    ∃ front last, word = front ++ [last] ∧ isBlank last = false := by
  cases hwritten with
  | quoted hquote => exact ⟨_, _, (List.cons_append ..).symm, isBlank_of_isQuote hquote⟩
  | bare hvalue hplain =>
      exact ⟨value.dropLast, value.getLast hvalue, (List.dropLast_append_getLast hvalue).symm,
        (hplain _ (List.getLast_mem hvalue)).1⟩

theorem Spells.trimStart_append {value text blanks : List Char} (hspells : Spells value text)
    (hblanks : AllBlank blanks) : trimStart (blanks ++ text) = text := by
  obtain ⟨word, tail, rfl, hwritten, -⟩ := hspells
  obtain ⟨first, rest, rfl, hfirst⟩ := hwritten.exists_cons
  rw [Text.trimStart_append hblanks]
  exact trimStart_cons hfirst _

theorem value?_eq_ok_iff {text value : List Char} :
    value? text = .ok value ↔ Spells value text := by
  cases text with
  | nil =>
      simp only [value?, reduceCtorEq, false_iff]
      rintro ⟨word, tail, htext, hwritten, -⟩
      obtain ⟨first, rest, rfl, -⟩ := hwritten.exists_cons
      exact absurd htext (by simp)
  | cons first rest =>
      simp only [value?]
      split
      · next hfirst =>
        have hquote := isQuote_iff.mp hfirst
        rw [quotedValue?_eq_ok_iff]
        constructor
        · rintro ⟨tail, rfl, hvalue, habsent, htail⟩
          exact ⟨_, tail, by simp, .quoted hquote hvalue habsent, htail⟩
        · rintro ⟨word, tail, htext, ⟨-, hvalue, habsent⟩ | ⟨hvalue, -, hbare⟩, htail⟩
          · simp only [List.cons_append, List.append_assoc, List.cons.injEq] at htext
            obtain ⟨rfl, rfl⟩ := htext
            exact ⟨tail, rfl, hvalue, habsent, htail⟩
          · obtain ⟨head, more, rfl⟩ := List.exists_cons_of_ne_nil hvalue
            obtain ⟨rfl, -⟩ := List.cons.inj htext
            simp only [List.head?_cons, ne_eq, Option.some.injEq] at hbare
            exact absurd hquote (not_or.mpr hbare)
      · next hfirst =>
        have hquote := mt isQuote_iff.mpr hfirst
        rw [bareValue?_eq_ok_iff]
        constructor
        · rintro ⟨tail, htext, hvalue, hplain, htail⟩
          refine ⟨value, tail, htext, .bare hvalue hplain ?_, htail⟩
          obtain ⟨head, more, rfl⟩ := List.exists_cons_of_ne_nil hvalue
          obtain ⟨rfl, -⟩ := List.cons.inj htext
          simpa using hquote
        · rintro ⟨word, tail, htext, ⟨hother, -, -⟩ | ⟨hvalue, hplain, -⟩, htail⟩
          · obtain ⟨rfl, -⟩ := List.cons.inj htext
            exact absurd hother hquote
          · exact ⟨tail, htext, hvalue, hplain, htail⟩

/-! ## Lines -/

theorem parts?_eq_ok_iff {line key value : List Char} :
    parts? line = .ok (key, value) ↔ Announces key value line := by
  unfold parts?
  cases hcut : cut? ['='] line with
  | none =>
      simp only [reduceCtorEq, false_iff]
      rintro ⟨left, middle, right, body, rfl, -⟩
      exact absurd (by simp) (cut?_singleton_eq_none_iff.mp hcut)
  | some parts =>
      obtain ⟨before, after⟩ := parts
      obtain ⟨htext, habsent⟩ := cut?_singleton_eq_some_iff.mp hcut
      constructor
      · intro hparts
        simp only at hparts
        split at hparts
        · next hname =>
          cases hvalue : value? (trimStart after) with
          | error flaw => simp [hvalue, Except.map] at hparts
          | ok found =>
              simp only [hvalue, Except.map, Except.ok.injEq, Prod.mk.injEq] at hparts
              obtain ⟨rfl, rfl⟩ := hparts
              obtain ⟨left, middle, hleft, hmiddle, hbefore⟩ := exists_trim before
              obtain ⟨right, hright, hafter⟩ := exists_trimStart after
              refine ⟨left, middle, right, trimStart after, ?_, hleft, hmiddle, hright,
                isName_iff.mp hname, value?_eq_ok_iff.mp hvalue⟩
              rw [← hafter, ← hbefore, htext]
        · exact absurd hparts (by simp)
      · rintro ⟨left, middle, right, body, hline, hleft, hmiddle, hright, hkey, hspells⟩
        have hequals : '=' ∉ left ++ key ++ middle := by
          simp only [List.mem_append, not_or]
          exact ⟨⟨hleft.not_mem (by decide), hkey.not_mem_equals⟩, hmiddle.not_mem (by decide)⟩
        have hparts := cut?_singleton_eq_some_iff.mpr ⟨hline, hequals⟩
        rw [hcut, Option.some.injEq, Prod.mk.injEq] at hparts
        obtain ⟨rfl, rfl⟩ := hparts
        have hvalue := value?_eq_ok_iff.mpr hspells
        simp only [hkey.trim_append hleft hmiddle, isName_iff.mpr hkey,
          hspells.trimStart_append hright, hvalue, if_true, Except.map]

theorem IsTail.append {tail blanks : List Char} (htail : IsTail tail) (hblanks : AllBlank blanks) :
    IsTail (tail ++ blanks) := by
  obtain ⟨front, metadata, rfl, hfront, rfl | hmetadata⟩ := htail
  · exact ⟨front ++ blanks, [], by simp, hfront.append hblanks, .inl rfl⟩
  · refine ⟨front, metadata ++ blanks, by simp, hfront, .inr ?_⟩
    rw [List.head?_append, hmetadata]
    rfl

theorem IsTail.trimEnd {tail : List Char} (htail : IsTail tail) : IsTail (trimEnd tail) := by
  obtain ⟨front, metadata, rfl, hfront, rfl | hmetadata⟩ := htail
  · rw [List.append_nil, ← List.nil_append front, trimEnd_append hfront]
    exact isTail_nil
  · obtain ⟨rest, rfl⟩ := List.head?_eq_some_iff.mp hmetadata
    rw [trimEnd_append_cons (by decide)]
    exact ⟨front, _, rfl, hfront, .inr rfl⟩

/-- Blanks at the ends of a line make no difference. -/
theorem announces_trim_iff {line key value : List Char} :
    Announces key value (trim line) ↔ Announces key value line := by
  constructor
  · rintro ⟨left, middle, right, body, htrim, hleft, hmiddle, hright, hkey, word, tail, rfl,
      hword, htail⟩
    obtain ⟨front, back, hfront, hback, hline⟩ := exists_trim line
    refine ⟨front ++ left, middle, right, word ++ (tail ++ back), ?_, hfront.append hleft, hmiddle,
      hright, hkey, word, tail ++ back, rfl, hword, htail.append hback⟩
    rw [hline, htrim]
    simp
  · rintro ⟨left, middle, right, body, rfl, hleft, hmiddle, hright, hkey, word, tail, rfl,
      hword, htail⟩
    refine ⟨[], middle, right, word ++ Text.trimEnd tail, ?_, allBlank_nil, hmiddle, hright, hkey,
      word, Text.trimEnd tail, rfl, hword, htail.trimEnd⟩
    obtain ⟨first, rest, rfl, hfirst⟩ := hkey.exists_cons
    obtain ⟨front, last, rfl, hlast⟩ := hword.exists_concat
    have hstart : trimStart (left ++ (first :: rest) ++ middle ++
        '=' :: (right ++ (front ++ [last] ++ tail))) =
          (first :: rest ++ middle ++ '=' :: right ++ front) ++ last :: tail := by
      simp only [List.append_assoc, List.cons_append, List.nil_append]
      rw [trimStart_append hleft, trimStart_cons hfirst]
    rw [trim, hstart, trimEnd_append_cons hlast]
    simp

/-! ## Offsets

A stored text is cut at byte offsets, and only between characters is there anything to cut: an
offset inside a character is none of the text's.  The cuts of the reader, made at the offsets of the
separators, are proved to fall between characters always, which is due to the separators being one
byte long. -/

/-- What stands in front of a byte offset and behind it; nothing where the offset is inside a
character. -/
def splitAtByte? : Nat → List Char → Option (List Char × List Char)
  | 0, text => some ([], text)
  | _ + 1, [] => none
  | offset + 1, first :: rest =>
    if first.utf8Size ≤ offset + 1 then
      (splitAtByte? (offset + 1 - first.utf8Size) rest).map fun (before, after) =>
        (first :: before, after)
    else none

def byteLength (text : List Char) : Nat := (text.map Char.utf8Size).sum

/-- Cuts at the first `separator`, which is taken for one byte. -/
def cutAtByte? (separator : Char) (text : List Char) : Option (Option (List Char × List Char)) :=
  match (cut? [separator] text).map fun (before, _) => byteLength before with
  | none => some none
  | some stop => do
    let (before, _) ← splitAtByte? stop text
    let (_, after) ← splitAtByte? (stop + 1) text
    return some (before, after)

/-- Reads a value by byte offsets, the first of them behind the opening quote. -/
def valueAtBytes? : List Char → Option (Except AnnouncementFlaw (List Char))
  | [] => some (.error .emptyValue)
  | first :: rest =>
    if isQuote first then do
      let (_, inner) ← splitAtByte? 1 (first :: rest)
      match ← cutAtByte? first inner with
      | none => return .error .unterminatedQuote
      | some (value, after) =>
        let tail := trimStart after
        if ¬(tail.isEmpty ∨ tail.head? = some ';') then return .error .trailingText
        else if value.isEmpty then return .error .emptyValue
        else return .ok value
    else some (bareValue? (first :: rest))

def partsAtBytes? (line : List Char) :
    Option (Except AnnouncementFlaw (List Char × List Char)) := do
  match ← cutAtByte? '=' line with
  | none => return .error .noEqualsSign
  | some (before, after) =>
    let key := trim before
    if isName key then return (← valueAtBytes? (trimStart after)).map fun value => (key, value)
    else return .error .invalidName

theorem splitAtByte?_append (left right : List Char) :
    splitAtByte? (byteLength left) (left ++ right) = some (left, right) := by
  induction left with
  | nil => simp [splitAtByte?, byteLength]
  | cons first rest ih =>
      have hpositive : 0 < first.utf8Size := first.utf8Size_pos
      have hlength : byteLength (first :: rest) = first.utf8Size + byteLength rest := by
        simp [byteLength]
      obtain ⟨offset, hoffset⟩ : ∃ offset, byteLength (first :: rest) = offset + 1 :=
        ⟨first.utf8Size + byteLength rest - 1, by omega⟩
      have hrest : offset + 1 - first.utf8Size = byteLength rest := by omega
      have hfits : first.utf8Size ≤ offset + 1 := by omega
      rw [hoffset, List.cons_append, splitAtByte?, if_pos hfits, hrest, ih]
      rfl

theorem cutAtByte?_eq {separator : Char} (hsize : separator.utf8Size = 1) (text : List Char) :
    cutAtByte? separator text = some (cut? [separator] text) := by
  unfold cutAtByte?
  cases hcut : cut? [separator] text with
  | none => rfl
  | some parts =>
      obtain ⟨before, after⟩ := parts
      obtain ⟨rfl, -⟩ := cut?_singleton_eq_some_iff.mp hcut
      have hbefore := splitAtByte?_append before (separator :: after)
      have hafter := splitAtByte?_append (before ++ [separator]) after
      have hlength : byteLength (before ++ [separator]) = byteLength before + 1 := by
        simp [byteLength, hsize]
      rw [hlength, List.append_assoc, List.singleton_append] at hafter
      simp [hbefore, hafter]

theorem utf8Size_of_isQuote {char : Char} (hquote : isQuote char = true) : char.utf8Size = 1 := by
  rcases isQuote_iff.mp hquote with rfl | rfl <;> decide

theorem valueAtBytes?_eq (text : List Char) : valueAtBytes? text = some (value? text) := by
  cases text with
  | nil => rfl
  | cons first rest =>
      simp only [valueAtBytes?, value?]
      split
      · next hquote =>
        have hsize := utf8Size_of_isQuote hquote
        have hinner : splitAtByte? 1 (first :: rest) = some ([first], rest) := by
          simpa [byteLength, hsize] using splitAtByte?_append [first] rest
        simp only [hinner, cutAtByte?_eq hsize, quotedValue?, Option.bind_eq_bind,
          Option.bind_some, Option.pure_def]
        cases cut? [first] rest with
        | none => rfl
        | some parts =>
            simp only
            split
            · rfl
            · split <;> rfl
      · rfl

theorem partsAtBytes?_eq (line : List Char) : partsAtBytes? line = some (parts? line) := by
  have hsize : Char.utf8Size '=' = 1 := by decide
  simp only [partsAtBytes?, parts?, cutAtByte?_eq hsize, valueAtBytes?_eq, Option.bind_eq_bind,
    Option.bind_some, Option.pure_def]
  cases cut? ['='] line with
  | none => rfl
  | some parts =>
      simp only
      split <;> rfl

/-! ## The reader -/

/-- What reading a line as an announcement comes to. -/
structure FollowsGrammar (line : String) : Prop where
  /-- Exactly what the line announces is read. -/
  accepted : ∀ key value, parse line = .ok ⟨key, value⟩ ↔
    Announces key.toList value.toList line.toList
  /-- A line that announces nothing is refused, and the refusal tells the line. -/
  refused : (¬∃ key value, Announces key value line.toList) →
    ∃ flaw, parse line = .error (.malformed flaw (String.ofList (trim line.toList)))
  /-- No cut falls inside a character. -/
  whole : partsAtBytes? (trim line.toList) = some (parts? (trim line.toList))

theorem parse_eq_ok_iff {line key value : String} :
    parse line = .ok ⟨key, value⟩ ↔ Announces key.toList value.toList line.toList := by
  rw [← announces_trim_iff, ← parts?_eq_ok_iff, parse]
  cases hparts : parts? (trim line.toList) with
  | error flaw => simp
  | ok found =>
      obtain ⟨foundKey, foundValue⟩ := found
      simp only [Except.ok.injEq, Binding.mk.injEq, Prod.mk.injEq, String.ofList_eq]

theorem parse_follows_grammar (line : String) : FollowsGrammar line := by
  refine ⟨fun _ _ => parse_eq_ok_iff, ?_, partsAtBytes?_eq _⟩
  intro hnothing
  cases hparts : parts? (trim line.toList) with
  | error flaw => exact ⟨flaw, by simp [parse, hparts]⟩
  | ok found =>
      obtain ⟨key, value⟩ := found
      exact absurd ⟨key, value, announces_trim_iff.mp (parts?_eq_ok_iff.mp hparts)⟩ hnothing

end Binding

end PromptHarness
