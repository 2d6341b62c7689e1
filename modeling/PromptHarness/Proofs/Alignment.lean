import Mathlib.Data.List.Basic
import PromptHarness.Proofs.Occurrence
import PromptHarness.Proofs.WellFormed

/-!
# Words that come through

A terminal puts more carriage returns into what is written to it, and reading bytes as a text drops
what is broken and puts U+FFFD for it.  Both leave plain ASCII alone, one item for one, and turn
every stretch of anything else into such a stretch (`Aligned`): none disappears, so what stood apart
does not come together, and none is new, so what stood together is not torn apart.  A word of plain
characters is therefore in what comes out exactly where it is in what goes in (`holds_shown`,
`holds_lossy`).
-/

namespace PromptHarness

/-! ## Aligned sequences -/

section Aligned

variable {α β γ : Type} {left : α → Option γ} {right : β → Option γ}

/-- The items with a mark correspond one to one, and between them stretches without marks stand on
both sides or on neither. -/
inductive Aligned (left : α → Option γ) (right : β → Option γ) : List α → List β → Prop
  | done : Aligned left right [] []
  | marked {item : α} {other : β} {mark : γ} {items : List α} {others : List β}
      (hleft : left item = some mark) (hright : right other = some mark)
      (hlater : Aligned left right items others) :
      Aligned left right (item :: items) (other :: others)
  | unmarked {stretch items : List α} {stretch' others : List β} (hstretch : stretch ≠ [])
      (hleft : ∀ item ∈ stretch, left item = none) (hstretch' : stretch' ≠ [])
      (hright : ∀ other ∈ stretch', right other = none)
      (hlater : Aligned left right items others) :
      Aligned left right (stretch ++ items) (stretch' ++ others)

namespace Aligned

variable {items : List α} {others : List β} {word : List γ}

theorem symm (haligned : Aligned left right items others) : Aligned right left others items := by
  induction haligned with
  | done => exact .done
  | marked hleft hright _ ih => exact .marked hright hleft ih
  | unmarked hstretch hleft hstretch' hright _ ih =>
      exact .unmarked hstretch' hright hstretch hleft ih

/-- Two items with the same mark, or both without one, stand side by side. -/
theorem cons {item : α} {other : β} (hsame : left item = right other)
    (hlater : Aligned left right items others) :
    Aligned left right (item :: items) (other :: others) := by
  cases hmark : left item with
  | some mark => exact .marked hmark (hsame ▸ hmark) hlater
  | none =>
      have hitem : ∀ first ∈ [item], left first = none := by simpa using hmark
      have hother : ∀ first ∈ [other], right first = none := by simpa using hsame ▸ hmark
      exact .unmarked (by simp) hitem (by simp) hother hlater

/-- A word of marks that one side begins with is what the other begins with, too. -/
theorem isPrefix (haligned : Aligned left right items others)
    (hfront : word.map some <+: items.map left) : word.map some <+: others.map right := by
  induction haligned generalizing word with
  | done => exact hfront
  | @marked item other mark items others hleft hright _ ih =>
      cases word with
      | nil => exact List.nil_prefix
      | cons first rest =>
          rw [List.map_cons, List.map_cons, List.cons_prefix_cons] at hfront ⊢
          exact ⟨hfront.1.trans (hleft.trans hright.symm), ih hfront.2⟩
  | @unmarked stretch items stretch' others hstretch hleft =>
      cases word with
      | nil => exact List.nil_prefix
      | cons first rest =>
          obtain ⟨item, stretch, rfl⟩ := List.exists_cons_of_ne_nil hstretch
          rw [List.cons_append, List.map_cons, List.map_cons, List.cons_prefix_cons,
            hleft item List.mem_cons_self] at hfront
          cases hfront.1

/-- No word of marks begins in a stretch without any. -/
theorem isInfix_of_unmarked {stretch : List α} (hleft : ∀ item ∈ stretch, left item = none)
    (hword : word ≠ []) (hfound : word.map some <:+: (stretch ++ items).map left) :
    word.map some <:+: items.map left := by
  induction stretch with
  | nil => exact hfound
  | cons item stretch ih =>
      rw [List.forall_mem_cons] at hleft
      obtain ⟨first, rest, rfl⟩ := List.exists_cons_of_ne_nil hword
      rw [List.cons_append, List.map_cons, List.map_cons, List.infix_cons_iff, hleft.1,
        List.cons_prefix_cons] at hfound
      rcases hfound with ⟨hfirst, -⟩ | hlater
      · cases hfirst
      · exact ih hleft.2 hlater

theorem isInfix (haligned : Aligned left right items others) (hword : word ≠ [])
    (hfound : word.map some <:+: items.map left) : word.map some <:+: others.map right := by
  induction haligned with
  | done => exact hfound
  | marked hleft hright hlater ih =>
      rw [List.map_cons, List.infix_cons_iff] at hfound
      rcases hfound with hfront | hbehind
      · exact ((Aligned.marked hleft hright hlater).isPrefix hfront).isInfix
      · exact List.infix_cons (ih hbehind)
  | unmarked _ hleft _ _ _ ih =>
      rw [List.map_append]
      exact List.infix_append_of_infix_right (ih (isInfix_of_unmarked hleft hword hfound))

/-- A word of marks is in one side exactly where it is in the other. -/
theorem isInfix_iff (haligned : Aligned left right items others) (hword : word ≠ []) :
    word.map some <:+: items.map left ↔ word.map some <:+: others.map right :=
  ⟨haligned.isInfix hword, haligned.symm.isInfix hword⟩

/-- Items that have one mark are the same item. -/
def Marks (mark : α → Option γ) : Prop :=
  ∀ item other found, mark item = some found → mark other = some found → item = other

theorem eq_of_map_mark {mark : α → Option γ} (hmarks : Marks mark) {needle found : List α}
    (hneedle : needle.map mark = word.map some) (hfound : found.map mark = word.map some) :
    needle = found := by
  induction word generalizing needle found with
  | nil =>
      rw [List.map_nil, List.map_eq_nil_iff] at hneedle hfound
      rw [hneedle, hfound]
  | cons first rest ih =>
      rw [List.map_cons, List.map_eq_cons_iff] at hneedle hfound
      obtain ⟨item, items, rfl, hitem, hitems⟩ := hneedle
      obtain ⟨other, others, rfl, hother, hothers⟩ := hfound
      rw [hmarks item other first hitem hother, ih hitems hothers]

/-- Items that all have marks are found by their marks. -/
theorem isInfix_iff_map_mark {mark : α → Option γ} (hmarks : Marks mark) {needle : List α}
    (hneedle : needle.map mark = word.map some) :
    needle <:+: items ↔ word.map some <:+: items.map mark := by
  constructor
  · intro hfound
    rw [← hneedle]
    exact hfound.map mark
  · intro hwithin
    obtain ⟨found, hfound, hsame⟩ := List.infix_map_iff.mp hwithin
    rw [eq_of_map_mark hmarks hneedle hsame.symm]
    exact hfound

/-- What is looked for is in one side exactly where what has the same marks is in the other. -/
theorem holds_eq [BEq α] [LawfulBEq α] [BEq β] [LawfulBEq β]
    (haligned : Aligned left right items others) (hleft : Marks left) (hright : Marks right)
    {needle : List α} {needle' : List β} (hword : word ≠ [])
    (hneedle : needle.map left = word.map some) (hneedle' : needle'.map right = word.map some) :
    Text.holds needle items = Text.holds needle' others := by
  rw [Bool.eq_iff_iff, Text.holds_iff_isInfix, Text.holds_iff_isInfix,
    isInfix_iff_map_mark hleft hneedle, isInfix_iff_map_mark hright hneedle',
    haligned.isInfix_iff hword]

end Aligned

end Aligned

namespace Text

/-! ## Plain characters -/

/-- The code of an ASCII character, but for those that end the lines of a terminal. -/
def mark (code : Nat) : Option Nat :=
  if code < 0x80 ∧ code ≠ 0x0a ∧ code ≠ 0x0d then some code else none

def byteMark (byte : UInt8) : Option Nat := mark byte.toNat

def charMark (char : Char) : Option Nat := mark char.toNat

theorem mark_of_le {code : Nat} (hcode : 0x80 ≤ code) : mark code = none := by
  rw [mark, if_neg (by omega)]

theorem eq_of_mark {code other found : Nat} (hcode : mark code = some found)
    (hother : mark other = some found) : code = other := by
  simp only [mark, Option.ite_none_right_eq_some, Option.some.injEq] at hcode hother
  rw [hcode.2, hother.2]

theorem marks_byteMark : Aligned.Marks byteMark :=
  fun _ _ _ hbyte hother => UInt8.toNat_inj.mp (eq_of_mark hbyte hother)

theorem marks_charMark : Aligned.Marks charMark :=
  fun _ _ _ hchar hother => Char.toNat_inj.mp (eq_of_mark hchar hother)

/-- The characters of the text are ASCII and none of them ends a line. -/
def IsPlain (text : String) : Prop := ∀ char ∈ text.toList, charMark char = some char.toNat

instance (text : String) : Decidable (IsPlain text) :=
  List.decidableBAll (fun char : Char => charMark char = some char.toNat) text.toList

theorem map_charMark {text : String} (hplain : IsPlain text) :
    text.toList.map charMark = (text.toList.map Char.toNat).map some := by
  rw [List.map_map]
  exact List.map_congr_left hplain

theorem map_byteMark_encode {text : String} (hplain : IsPlain text) :
    (encode text).map byteMark = (text.toList.map Char.toNat).map some := by
  rw [← map_charMark hplain, encode, List.map_flatMap]
  have hbytes : ∀ char ∈ text.toList,
      (String.utf8EncodeChar char).map byteMark = [charMark char] := by
    intro char hchar
    have hascii : char.toNat < 0x80 := by
      by_contra hbeyond
      have hmark := hplain char hchar
      rw [charMark, mark_of_le (Nat.not_lt.mp hbeyond)] at hmark
      cases hmark
    rw [utf8EncodeChar_ascii hascii, List.map_singleton, byteMark, toNat_toUInt8_ascii hascii,
      charMark]
  rw [List.flatMap_congr hbytes, List.map_eq_flatMap]

/-- The terminal adds to what is written only where a line ends. -/
theorem aligned_shown (bytes : Bytes) : Aligned byteMark byteMark bytes (Terminal.shown bytes) := by
  induction bytes with
  | nil => exact .done
  | cons byte rest ih =>
      unfold Terminal.shown at ih ⊢
      rw [List.flatMap_cons]
      split
      · next hnewline =>
        subst hnewline
        have hmark : ∀ other ∈ [Terminal.newline], byteMark other = none :=
          List.forall_mem_singleton.mpr rfl
        have hmarks : ∀ other ∈ [Terminal.carriageReturn, Terminal.newline],
            byteMark other = none := List.forall_mem_cons.mpr ⟨rfl, hmark⟩
        exact .unmarked (List.cons_ne_nil _ []) hmark (List.cons_ne_nil _ _) hmarks ih
      · exact .cons rfl ih

/-! ## Reading bytes -/

namespace Reader

/-- Whatever bytes complete the sequence, the character is beyond ASCII. -/
def LeadsBeyond (value : Nat) (low high : UInt8) : Nat → Prop
  | 0 => ∀ byte : UInt8, low ≤ byte → byte ≤ high →
      0x80 ≤ (Char.ofNat (value * 64 + (byte.toNat - 0x80))).toNat
  | more + 1 => ∀ byte : UInt8, low ≤ byte → byte ≤ high →
      LeadsBeyond (value * 64 + (byte.toNat - 0x80)) 0x80 0xbf more

/-- No ASCII byte belongs to the sequence, and no ASCII character comes of it. -/
def IsBeyond : Reader → Prop
  | ready => True
  | inside value low high more => 0x80 ≤ low ∧ LeadsBeyond value low high more

theorem IsBeyond.isSound {reader : Reader} (hbeyond : reader.IsBeyond) : reader.IsSound := by
  cases reader with
  | ready => trivial
  | inside => exact hbeyond.1

/-- What a first byte begins leads beyond ASCII, as no character has a spelling that is too long. -/
theorem begin_isBeyond (byte : UInt8) : (begin byte).2.IsBeyond := by
  have hbegins := begins byte
  generalize begin byte = begun at hbegins
  cases hbegins with
  | one => trivial
  | broken => trivial
  | two hbyte hlow hhigh =>
      refine ⟨UInt8.le_refl _, ?_⟩
      intro last hlast hlast'
      rw [UInt8.le_iff_toNat_le] at hlast hlast'
      have hbounds : 0x80 ≤ last.toNat ∧ last.toNat ≤ 0xbf := ⟨hlast, hlast'⟩
      rw [toNat_ofNat (by omega)]
      omega
  | @three lead low high hbyte hlead hlow hhigh hlong hscalar =>
      refine ⟨UInt8.le_iff_toNat_le.mpr hlow, ?_⟩
      intro second hsecond hsecond' last hlast hlast'
      rw [UInt8.le_iff_toNat_le] at hsecond hsecond' hlast hlast'
      have hbounds : 0x80 ≤ last.toNat ∧ last.toNat ≤ 0xbf := ⟨hlast, hlast'⟩
      rw [toNat_ofNat (by omega)]
      omega
  | @four lead low high hbyte hlead hlow hhigh hlong hscalar =>
      refine ⟨UInt8.le_iff_toNat_le.mpr hlow, ?_⟩
      intro second hsecond hsecond' third hthird hthird' last hlast hlast'
      rw [UInt8.le_iff_toNat_le] at hsecond hsecond' hthird hthird' hlast hlast'
      have hbounds : 0x80 ≤ third.toNat ∧ third.toNat ≤ 0xbf ∧
        0x80 ≤ last.toNat ∧ last.toNat ≤ 0xbf := ⟨hthird, hthird', hlast, hlast'⟩
      rw [toNat_ofNat (by omega)]
      omega

def text (reader : Reader) (bytes : Bytes) : List Char :=
  (reader.reads bytes).map (·.getD replacement)

theorem text_cons (reader : Reader) (byte : UInt8) (rest : Bytes) :
    reader.text (byte :: rest) =
      (reader.feed byte).1.map (·.getD replacement) ++ (reader.feed byte).2.text rest := by
  rw [text, reads_cons, List.map_append, text]

/-- The bytes of the sequence that stands open, of which nothing has come yet. -/
inductive Holds : Reader → Bytes → Prop
  | ready : Holds ready []
  | inside {value more : Nat} {low high : UInt8} {lead : Bytes} (hlead : lead ≠ [])
      (hmarks : ∀ byte ∈ lead, byteMark byte = none) : Holds (inside value low high more) lead

/-- Whatever stands open, the bytes behind it come aligned with their characters. -/
def Aligns (rest : Bytes) : Prop :=
  ∀ (reader : Reader) (lead : Bytes), reader.IsBeyond → reader.Holds lead →
    Aligned byteMark charMark (lead ++ rest) (reader.text rest)

theorem aligned_ascii {byte : UInt8} {rest : Bytes} (hascii : byte < 0x80)
    (hrest : Aligns rest) :
    Aligned byteMark charMark (byte :: rest) (Char.ofNat byte.toNat :: ready.text rest) := by
  have hcode : byte.toNat < 0x80 := UInt8.lt_iff_toNat_lt.mp hascii
  apply Aligned.cons
  · rw [byteMark, charMark, toNat_ofNat (by omega)]
  · exact hrest ready [] trivial .ready

/-- A character beyond ASCII comes of bytes beyond ASCII. -/
theorem aligned_beyond {lead rest : Bytes} {char : Char} {chars : List Char}
    (hchar : 0x80 ≤ char.toNat) (hlead : lead ≠ [])
    (hmarks : ∀ byte ∈ lead, byteMark byte = none)
    (hlater : Aligned byteMark charMark rest chars) :
    Aligned byteMark charMark (lead ++ rest) (char :: chars) := by
  have hmark : ∀ other ∈ [char], charMark other = none := by
    intro other hother
    rw [List.mem_singleton.mp hother]
    exact mark_of_le hchar
  exact .unmarked hlead hmarks (List.cons_ne_nil char []) hmark hlater

theorem replacement_beyond : 0x80 ≤ replacement.toNat := by decide

/-- A first byte is aligned with what it completes, or is the first of a sequence that stands open
then. -/
theorem aligned_begin {byte : UInt8} {rest : Bytes} (hrest : Aligns rest) :
    Aligned byteMark charMark (byte :: rest)
      ((begin byte).1.map (·.getD replacement) ++ (begin byte).2.text rest) := by
  by_cases hascii : byte < 0x80
  · have hbegin := @feed_ascii ready trivial byte hascii
    rw [feed_ready] at hbegin
    rw [hbegin]
    exact aligned_ascii hascii hrest
  · have hcode : 0x80 ≤ byte.toNat := UInt8.le_iff_toNat_le.mp (UInt8.not_lt.mp hascii)
    have hmarks : ∀ first ∈ [byte], byteMark first = none := by
      intro first hfirst
      rw [List.mem_singleton.mp hfirst]
      exact mark_of_le hcode
    have hbeyond := begin_isBeyond byte
    have hbegins := begins byte
    generalize begin byte = begun at hbeyond hbegins
    cases hbegins with
    | one hone => omega
    | two => exact hrest _ [byte] hbeyond (.inside (by simp) hmarks)
    | three => exact hrest _ [byte] hbeyond (.inside (by simp) hmarks)
    | four => exact hrest _ [byte] hbeyond (.inside (by simp) hmarks)
    | broken =>
        exact aligned_beyond replacement_beyond (by simp) hmarks (hrest ready [] trivial .ready)

theorem aligns (bytes : Bytes) : Aligns bytes := by
  induction bytes with
  | nil =>
      intro reader lead hbeyond hholds
      cases hholds with
      | ready => exact .done
      | inside hlead hmarks => exact aligned_beyond replacement_beyond hlead hmarks .done
  | cons byte rest ih =>
      intro reader lead hbeyond hholds
      rw [text_cons]
      cases hholds with
      | ready => exact aligned_begin ih
      -- The byte breaks the open sequence as ASCII, continues it, or breaks it and begins another.
      | @inside value more low high lead hlead hmarks =>
          by_cases hascii : byte < 0x80
          · rw [feed_ascii hbeyond.isSound hascii]
            exact aligned_beyond replacement_beyond hlead hmarks (aligned_ascii hascii ih)
          have hcode : 0x80 ≤ byte.toNat := UInt8.le_iff_toNat_le.mp (UInt8.not_lt.mp hascii)
          have hmore : ∀ other ∈ lead ++ [byte], byteMark other = none := by
            rw [List.forall_mem_append, List.forall_mem_singleton]
            exact ⟨hmarks, mark_of_le hcode⟩
          have hlonger : lead ++ byte :: rest = lead ++ [byte] ++ rest := by simp
          by_cases hrange : low ≤ byte ∧ byte ≤ high
          · have hleads := hbeyond.2
            simp only [feed, if_pos hrange]
            rw [hlonger]
            cases more with
            | zero =>
                have hchar : 0x80 ≤ (Char.ofNat (value * 64 + (byte.toNat - 0x80))).toNat :=
                  hleads byte hrange.1 hrange.2
                simp only [List.map_cons, List.map_nil, Option.getD_some, List.singleton_append]
                exact aligned_beyond hchar (by simp) hmore (ih ready [] trivial .ready)
            | succ more =>
                exact ih _ (lead ++ [byte]) ⟨UInt8.le_refl _, hleads byte hrange.1 hrange.2⟩
                  (.inside (by simp) hmore)
          · simp only [feed, if_neg hrange]
            exact aligned_beyond replacement_beyond hlead hmarks (aligned_begin ih)

end Reader

/-- Bytes come aligned with the characters that they are read as, broken ones with U+FFFD. -/
theorem aligned_lossyChars (bytes : Bytes) : Aligned byteMark charMark bytes (lossyChars bytes) :=
  Reader.aligns bytes .ready [] trivial .ready

section Holds

variable {text : String} (hplain : IsPlain text) (hfilled : text.toList ≠ []) (bytes : Bytes)

include hplain hfilled

/-- A plain text is on the terminal exactly where it has been written. -/
theorem holds_shown : holds (encode text) (Terminal.shown bytes) = holds (encode text) bytes :=
  ((aligned_shown bytes).holds_eq marks_byteMark marks_byteMark (by simpa using hfilled)
    (map_byteMark_encode hplain) (map_byteMark_encode hplain)).symm

/-- A plain text is in what bytes are read as exactly where it is in the bytes. -/
theorem holds_lossy : holds text.toList (lossy bytes).toList = holds (encode text) bytes := by
  rw [lossy, String.toList_ofList]
  exact ((aligned_lossyChars bytes).holds_eq marks_byteMark marks_charMark (by simpa using hfilled)
    (map_byteMark_encode hplain) (map_charMark hplain)).symm

end Holds

end Text

end PromptHarness
