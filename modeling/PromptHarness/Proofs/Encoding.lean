import Mathlib.Tactic.IntervalCases
import PromptHarness.Proofs.Decoding
import PromptHarness.Text.Lines
import PromptHarness.Process.Terminal
import PromptHarness.Shell.Language

/-!
# Text that comes back

What a text is written as in UTF-8 is read as that text again, whatever its characters are.
-/

namespace PromptHarness

namespace Text

namespace Reader

/-- A byte that continues a sequence carries six bits. -/
theorem feed_inside_last {value bits : Nat} {low high : UInt8} (hbits : bits < 64)
    (hlow : low.toNat ≤ bits + 128) (hhigh : bits + 128 ≤ high.toNat) :
    (inside value low high 0).feed (.ofNat (bits + 128)) =
      ([some (Char.ofNat (value * 64 + bits))], ready) := by
  have hbyte : (UInt8.ofNat (bits + 128)).toNat = bits + 128 := by
    rw [UInt8.toNat_ofNat']
    omega
  have hrange : low ≤ UInt8.ofNat (bits + 128) ∧ UInt8.ofNat (bits + 128) ≤ high := by
    rw [UInt8.le_iff_toNat_le, UInt8.le_iff_toNat_le, hbyte]
    exact ⟨hlow, hhigh⟩
  simp only [feed, if_pos hrange, hbyte, Nat.add_sub_cancel]

theorem feed_inside_more {value bits more : Nat} {low high : UInt8} (hbits : bits < 64)
    (hlow : low.toNat ≤ bits + 128) (hhigh : bits + 128 ≤ high.toNat) :
    (inside value low high (more + 1)).feed (.ofNat (bits + 128)) =
      ([], inside (value * 64 + bits) 0x80 0xbf more) := by
  have hbyte : (UInt8.ofNat (bits + 128)).toNat = bits + 128 := by
    rw [UInt8.toNat_ofNat']
    omega
  have hrange : low ≤ UInt8.ofNat (bits + 128) ∧ UInt8.ofNat (bits + 128) ≤ high := by
    rw [UInt8.le_iff_toNat_le, UInt8.le_iff_toNat_le, hbyte]
    exact ⟨hlow, hhigh⟩
  simp only [feed, if_pos hrange, hbyte, Nat.add_sub_cancel]

@[simp]
theorem feed_ready (byte : UInt8) : ready.feed byte = begin byte := rfl

theorem begin_one {code : Nat} (hascii : code ≤ 0x7f) :
    begin (.ofNat code) = ([some (Char.ofNat code)], ready) := by
  have hbyte : (UInt8.ofNat code).toNat = code := by
    rw [UInt8.toNat_ofNat']
    omega
  have hsmall : UInt8.ofNat code < 0x80 := by
    rw [UInt8.lt_iff_toNat_lt, hbyte]
    exact Nat.lt_succ_of_le hascii
  rw [begin, if_pos hsmall, hbyte]

theorem begin_two {lead : Nat} (hlow : 2 ≤ lead) (hhigh : lead < 32) :
    begin (.ofNat (lead + 192)) = ([], inside lead 0x80 0xbf 0) := by
  interval_cases lead <;> rfl

/-- The second byte of three is bounded from below behind `E0` and from above behind `ED`. -/
theorem begin_three {lead : Nat} (hlead : lead < 16) :
    ∃ low high : UInt8, begin (.ofNat (lead + 224)) = ([], inside lead low high 1) ∧
      (∀ bits, bits < 64 → (lead = 0 → 32 ≤ bits) → low.toNat ≤ bits + 128) ∧
      ∀ bits, bits < 64 → (lead = 13 → bits < 32) → bits + 128 ≤ high.toNat := by
  interval_cases lead
  all_goals exact ⟨_, _, rfl, by decide, by decide⟩

/-- The second byte of four is bounded from below behind `F0` and from above behind `F4`. -/
theorem begin_four {lead : Nat} (hlead : lead < 5) :
    ∃ low high : UInt8, begin (.ofNat (lead + 240)) = ([], inside lead low high 2) ∧
      (∀ bits, bits < 64 → (lead = 0 → 16 ≤ bits) → low.toNat ≤ bits + 128) ∧
      ∀ bits, bits < 64 → (lead = 4 → bits < 16) → bits + 128 ≤ high.toNat := by
  interval_cases lead
  all_goals exact ⟨_, _, rfl, by decide, by decide⟩

theorem utf8EncodeChar_eq (char : Char) :
    String.utf8EncodeChar char =
      if char.toNat ≤ 0x7f then [.ofNat char.toNat]
      else if char.toNat ≤ 0x7ff then
        [.ofNat (char.toNat / 64 % 32 + 192), .ofNat (char.toNat % 64 + 128)]
      else if char.toNat ≤ 0xffff then
        [.ofNat (char.toNat / 4096 % 16 + 224), .ofNat (char.toNat / 64 % 64 + 128),
          .ofNat (char.toNat % 64 + 128)]
      else
        [.ofNat (char.toNat / 262144 % 8 + 240), .ofNat (char.toNat / 4096 % 64 + 128),
          .ofNat (char.toNat / 64 % 64 + 128), .ofNat (char.toNat % 64 + 128)] := rfl

/-- The bytes of a character are read as that character. -/
theorem run_utf8EncodeChar (char : Char) :
    ready.run (String.utf8EncodeChar char) = ([some char], ready) := by
  have hvalid : char.toNat < 0xd800 ∨ 0xdfff < char.toNat ∧ char.toNat < 0x110000 := char.valid
  have hbits : ∀ count, count % 64 < 64 := fun count => Nat.mod_lt count (by decide)
  have hlow : ∀ bits, (0x80 : UInt8).toNat ≤ bits + 128 := Nat.le_add_left 128
  have hhigh : ∀ bits, bits < 64 → bits + 128 ≤ (0xbf : UInt8).toNat := by
    intro bits hsmall
    exact Nat.add_le_add_right (Nat.le_of_lt_succ hsmall) 128
  rw [utf8EncodeChar_eq]
  split
  · next hone =>
    rw [run_cons, feed_ready, begin_one hone, Char.ofNat_toNat, run_nil]
    rfl
  split
  · next hone htwo =>
    have hlead : 2 ≤ char.toNat / 64 % 32 ∧ char.toNat / 64 % 32 < 32 := by omega
    have hvalue : char.toNat / 64 % 32 * 64 + char.toNat % 64 = char.toNat := by omega
    simp only [run_cons, feed_ready, begin_two hlead.1 hlead.2,
      feed_inside_last (hbits _) (hlow _) (hhigh _ (hbits _)), hvalue, Char.ofNat_toNat, run_nil]
    rfl
  split
  · next htwo hthree =>
    obtain ⟨low, high, hbegin, hlow', hhigh'⟩ :=
      @begin_three (char.toNat / 4096 % 16) (Nat.mod_lt _ (by decide))
    have hsecond := hbits (char.toNat / 64)
    have hvalue : (char.toNat / 4096 % 16 * 64 + char.toNat / 64 % 64) * 64 + char.toNat % 64 =
        char.toNat := by omega
    simp only [run_cons, feed_ready, hbegin,
      feed_inside_more hsecond (hlow' _ hsecond (by omega)) (hhigh' _ hsecond (by omega)),
      feed_inside_last (hbits _) (hlow _) (hhigh _ (hbits _)), hvalue, Char.ofNat_toNat, run_nil]
    rfl
  · next hthree =>
    obtain ⟨low, high, hbegin, hlow', hhigh'⟩ :=
      @begin_four (char.toNat / 262144 % 8) (by omega)
    have hsecond := hbits (char.toNat / 4096)
    have hvalue : ((char.toNat / 262144 % 8 * 64 + char.toNat / 4096 % 64) * 64 +
        char.toNat / 64 % 64) * 64 + char.toNat % 64 = char.toNat := by omega
    simp only [run_cons, feed_ready, hbegin,
      feed_inside_more hsecond (hlow' _ hsecond (by omega)) (hhigh' _ hsecond (by omega)),
      feed_inside_more (hbits _) (hlow _) (hhigh _ (hbits _)),
      feed_inside_last (hbits _) (hlow _) (hhigh _ (hbits _)), hvalue, Char.ofNat_toNat, run_nil]
    rfl

/-- The bytes of a text are read as its characters. -/
theorem run_encode (text : String) :
    ready.run (encode text) = (text.toList.map some, ready) := by
  unfold encode
  induction text.toList with
  | nil => rfl
  | cons char rest ih =>
      rw [List.flatMap_cons, run_append, run_utf8EncodeChar, ih]
      rfl

end Reader

/-- What a text is written as is read as that text. -/
@[simp]
theorem lossy_encode (text : String) : lossy (encode text) = text := by
  rw [lossy, lossyChars, pieces_of_run (Reader.run_encode text), List.map_map]
  simp [Function.comp_def]

theorem encode_injective {left right : String} (hsame : encode left = encode right) :
    left = right := by
  rw [← lossy_encode left, hsame, lossy_encode]

@[simp]
theorem encode_append (left right : String) :
    encode (left ++ right) = encode left ++ encode right := by
  simp [encode]

/-- An ASCII byte is in the bytes of its own character only. -/
theorem toNat_of_mem_utf8EncodeChar {char : Char} {byte : UInt8} (hascii : byte.toNat < 0x80)
    (hmem : byte ∈ String.utf8EncodeChar char) : char.toNat = byte.toNat := by
  rw [Reader.utf8EncodeChar_eq] at hmem
  split at hmem
  · rw [List.mem_singleton] at hmem
    rw [hmem, UInt8.toNat_ofNat']
    omega
  -- All bytes of a longer sequence are beyond ASCII.
  · exfalso
    split at hmem
    · simp only [List.mem_cons, List.not_mem_nil, or_false] at hmem
      rcases hmem with rfl | rfl <;> rw [UInt8.toNat_ofNat'] at hascii <;> omega
    · split at hmem
      · simp only [List.mem_cons, List.not_mem_nil, or_false] at hmem
        rcases hmem with rfl | rfl | rfl <;> rw [UInt8.toNat_ofNat'] at hascii <;> omega
      · simp only [List.mem_cons, List.not_mem_nil, or_false] at hmem
        rcases hmem with rfl | rfl | rfl | rfl <;> rw [UInt8.toNat_ofNat'] at hascii <;> omega

/-! ## Newlines on a terminal -/

def withReturns (text : String) : String :=
  String.ofList (text.toList.flatMap fun char => if char = '\n' then ['\r', '\n'] else [char])

theorem shown_utf8EncodeChar (char : Char) :
    Terminal.shown (String.utf8EncodeChar char) =
      (if char = '\n' then ['\r', '\n'] else [char]).flatMap String.utf8EncodeChar := by
  by_cases hnewline : char = '\n'
  · subst hnewline
    rfl
  · have hplain : ∀ byte ∈ String.utf8EncodeChar char, byte ≠ Terminal.newline := by
      rintro byte hbyte rfl
      have hcode := toNat_of_mem_utf8EncodeChar (by decide) hbyte
      exact hnewline (Char.toNat_inj.mp hcode)
    have hshown : ∀ bytes : Bytes, (∀ byte ∈ bytes, byte ≠ Terminal.newline) →
        Terminal.shown bytes = bytes := by
      intro bytes hbytes
      induction bytes with
      | nil => rfl
      | cons byte rest ih =>
          have hrest := ih fun other hother => hbytes other (List.mem_cons_of_mem byte hother)
          unfold Terminal.shown at hrest ⊢
          rw [List.flatMap_cons, if_neg (hbytes byte List.mem_cons_self), hrest]
          rfl
    rw [if_neg hnewline, hshown _ hplain]
    exact (List.flatMap_singleton _ _).symm

/-- On a terminal a text shows with a carriage return in front of every newline. -/
theorem shown_encode (text : String) :
    Terminal.shown (encode text) = encode (withReturns text) := by
  unfold encode withReturns
  rw [String.toList_ofList]
  induction text.toList with
  | nil => rfl
  | cons char rest ih =>
      rw [List.flatMap_cons, List.flatMap_cons, List.flatMap_append, ← ih,
        ← shown_utf8EncodeChar]
      exact List.flatMap_append

/-! ## Lines of what is shown -/

def filledLines (text : String) : List String :=
  (((stretches '\n' text.toList).map (trimEndWhere (· == '\r'))).filter
    fun line => !line.all isBlank).map String.ofList

theorem trimEndWhere_concat_return (line : List Char) :
    trimEndWhere (· == '\r') (line ++ ['\r']) = trimEndWhere (· == '\r') line := by
  simp [trimEndWhere]

theorem trimEndWhere_dropReturn (line : List Char) :
    trimEndWhere (· == '\r') (dropReturn line) = trimEndWhere (· == '\r') line := by
  unfold dropReturn
  split
  · next hlast =>
    obtain ⟨front, rfl⟩ := List.getLast?_eq_some_iff.mp hlast
    rw [List.dropLast_concat, trimEndWhere_concat_return]
  · rfl

/-- What is cut off at the end of a line that goes on is not there in the first place. -/
theorem trimEndWhere_cons (drop : Char → Bool) (char : Char) {left right : List Char}
    (hsame : trimEndWhere drop left = trimEndWhere drop right) :
    trimEndWhere drop (char :: left) = trimEndWhere drop (char :: right) := by
  have hcons : ∀ line, trimEndWhere drop (char :: line) =
      if trimEndWhere drop line = [] then trimEndWhere drop [char]
      else char :: trimEndWhere drop line := by
    intro line
    unfold trimEndWhere
    rw [List.reverse_cons, List.dropWhile_append]
    split
    · next hempty => simp_all
    · next hfilled => simp_all
  rw [hcons left, hcons right, hsame]

theorem filled_closeLines (found : List (List Char)) :
    ((closeLines found).map (trimEndWhere (· == '\r'))).filter (fun line => !line.all isBlank) =
      (found.map (trimEndWhere (· == '\r'))).filter fun line => !line.all isBlank := by
  induction found using closeLines.induct with
  | case1 => rfl
  | case2 last hempty =>
      have hlast : last = [] := by simpa using hempty
      subst hlast
      rfl
  | case3 last hfilled => rw [closeLines, if_neg hfilled]
  | case4 stretch next others ih =>
      rw [closeLines, List.map_cons, List.map_cons, trimEndWhere_dropReturn, List.filter_cons,
        List.filter_cons, ih]

theorem map_stretches_withReturns (text : List Char) :
    (stretches '\n'
        (text.flatMap fun char => if char = '\n' then ['\r', '\n'] else [char])).map
      (trimEndWhere (· == '\r')) = (stretches '\n' text).map (trimEndWhere (· == '\r')) := by
  induction text with
  | nil => rfl
  | cons char rest ih =>
      rw [List.flatMap_cons]
      by_cases hnewline : char = '\n'
      · subst hnewline
        rw [if_pos rfl]
        simp only [List.cons_append, List.nil_append, stretches, Char.reduceEq, if_false, if_true,
          List.map_cons, ih]
        rfl
      · rw [if_neg hnewline]
        obtain ⟨first, others, hrest⟩ := List.exists_cons_of_ne_nil (stretches_ne_nil '\n' rest)
        obtain ⟨first', others', hshown⟩ := List.exists_cons_of_ne_nil
          (stretches_ne_nil '\n'
            (rest.flatMap fun char => if char = '\n' then ['\r', '\n'] else [char]))
        rw [hrest, hshown, List.map_cons, List.map_cons, List.cons.injEq] at ih
        simp only [List.cons_append, List.nil_append, stretches, if_neg hnewline, hrest, hshown,
          List.map_cons, ih.2, trimEndWhere_cons _ char ih.1]

/-- The carriage return that belongs to a line end goes with all others, and a blank end of a text is
no line of its own. -/
theorem printedLines_eq_filledLines (text : String) : printedLines text = filledLines text := by
  unfold printedLines printedLineList lineList filledLines
  rw [filled_closeLines]

/-- The lines of what a terminal shows are those of the text written to it. -/
theorem printedLines_withReturns (text : String) :
    printedLines (withReturns text) = filledLines text := by
  rw [printedLines_eq_filledLines]
  unfold filledLines withReturns
  rw [String.toList_ofList, map_stretches_withReturns]

end Text

namespace Shell

/-! ## Texts of the shell -/

/-- A text that a shell hands on is the one that it was given. -/
@[simp]
theorem Raw.text_raw (text : String) : Raw.text (raw text) = text := by
  rw [Raw.text, bytes_raw, Text.lossy_encode]

theorem toNat_ofNat_byte (byte : UInt8) : (Char.ofNat byte.toNat).toNat = byte.toNat := by
  have hvalid : byte.toNat.isValidChar := .inl (Nat.lt_trans byte.toNat_lt (by decide))
  rw [Char.ofNat, dif_pos hvalid]
  rfl

theorem raw_injective {left right : String} (hsame : raw left = raw right) : left = right := by
  rw [← Raw.text_raw left, hsame, Raw.text_raw]

theorem raw_append (left right : String) : raw (left ++ right) = raw left ++ raw right := by
  simp [raw, Raw.ofBytes]

theorem stretches_append {cut : Char} {front : List Char} (hfront : cut ∉ front)
    (rest : List Char) {first : List Char} {others : List (List Char)}
    (hrest : Text.stretches cut rest = first :: others) :
    Text.stretches cut (front ++ rest) = (front ++ first) :: others := by
  induction front with
  | nil => exact hrest
  | cons char front ih =>
      simp only [List.mem_cons, not_or] at hfront
      rw [List.cons_append, Text.stretches, if_neg (Ne.symm hfront.1), ih hfront.2]
      rfl

/-- Where characters are written as several and only the separator as itself, the stretches are
written as they are alone. -/
theorem stretches_flatMap {cut : Char} {spell : Char → List Char} (hcut : spell cut = [cut])
    (hothers : ∀ char, char ≠ cut → cut ∉ spell char) (text : List Char) :
    Text.stretches cut (text.flatMap spell) =
      (Text.stretches cut text).map fun stretch => stretch.flatMap spell := by
  induction text with
  | nil => rfl
  | cons char rest ih =>
      rw [List.flatMap_cons]
      by_cases hchar : char = cut
      · subst hchar
        rw [hcut, List.singleton_append, Text.stretches, if_pos rfl, Text.stretches, if_pos rfl, ih]
        rfl
      · obtain ⟨first, others, hrest⟩ :=
          List.exists_cons_of_ne_nil (Text.stretches_ne_nil cut rest)
        rw [hrest, List.map_cons] at ih
        rw [stretches_append (hothers char hchar) _ ih, Text.stretches, if_neg hchar, hrest]
        rfl

def spelled (char : Char) : Raw := Raw.ofBytes (String.utf8EncodeChar char)

theorem raw_ofList (chars : List Char) : raw (String.ofList chars) = chars.flatMap spelled := by
  rw [raw, Text.encode, String.toList_ofList, Raw.ofBytes, List.map_flatMap]
  rfl

section Ascii

variable {char : Char} (hascii : char.toNat < 0x80)
include hascii

theorem spelled_of_ascii : spelled char = [char] := by
  rw [spelled, Text.utf8EncodeChar_ascii hascii, Raw.ofBytes, List.map_singleton,
    Text.toNat_toUInt8_ascii hascii, Char.ofNat_toNat]

/-- An ASCII character is written as itself and comes in no other. -/
theorem not_mem_spelled {other : Char} (hother : other ≠ char) : char ∉ spelled other := by
  intro hmem
  obtain ⟨byte, hbyte, hchar⟩ := List.mem_map.mp hmem
  have hcode : char.toNat = byte.toNat := by
    rw [← hchar]
    exact toNat_ofNat_byte byte
  have hsame := Text.toNat_of_mem_utf8EncodeChar (hcode ▸ hascii) hbyte
  exact hother (Char.toNat_inj.mp (hsame.trans hcode.symm))

theorem mem_raw {text : String} (htext : char ∈ text.toList) : char ∈ raw text := by
  rw [← String.ofList_toList (s := text), raw_ofList, List.mem_flatMap]
  exact ⟨char, htext, by simp [spelled_of_ascii hascii]⟩

theorem not_mem_raw {text : String} (htext : char ∉ text.toList) : char ∉ raw text := by
  rw [← String.ofList_toList (s := text), raw_ofList]
  intro hmem
  obtain ⟨other, hother, hspelled⟩ := List.mem_flatMap.mp hmem
  refine not_mem_spelled hascii ?_ hspelled
  rintro rfl
  exact htext hother

/-- An ASCII character separates the same stretches of a text inside a shell. -/
theorem stretches_raw (text : String) :
    Text.stretches char (raw text) =
      (Text.stretches char text.toList).map fun stretch => raw (String.ofList stretch) := by
  have hstretches := stretches_flatMap (spelled_of_ascii hascii)
    (fun other hother => not_mem_spelled hascii hother) text.toList
  rw [← raw_ofList, String.ofList_toList] at hstretches
  rw [hstretches]
  exact List.map_congr_left fun stretch _ => (raw_ofList stretch).symm

/-- A text ends in an ASCII character inside a shell exactly where it does so outside. -/
theorem getLast?_raw_iff (text : String) :
    (raw text).getLast? = some char ↔ text.toList.getLast? = some char := by
  rcases List.eq_nil_or_concat text.toList with hnil | ⟨front, last, hchars⟩
  · obtain rfl : text = "" := String.toList_inj.mp hnil
    rfl
  · have hraw : raw text = front.flatMap spelled ++ spelled last := by
      rw [← String.ofList_toList (s := text), raw_ofList, hchars, List.concat_eq_append,
        List.flatMap_append, List.flatMap_singleton]
    rw [hraw, hchars, List.concat_eq_append, List.getLast?_concat]
    by_cases hlast : last = char
    · subst hlast
      simp [spelled_of_ascii hascii]
    · have hfilled : spelled last ≠ [] := by
        simp [spelled, Raw.ofBytes, String.utf8EncodeChar_ne_nil]
      have hend : (front.flatMap spelled ++ spelled last).getLast? = (spelled last).getLast? := by
        obtain ⟨before, final, hspelled⟩ := (List.eq_nil_or_concat (spelled last)).resolve_left hfilled
        rw [hspelled, List.concat_eq_append, ← List.append_assoc, List.getLast?_concat,
          List.getLast?_concat]
      rw [hend]
      constructor
      · intro hsome
        exact absurd (List.mem_of_getLast? hsome) (not_mem_spelled hascii hlast)
      · rintro ⟨⟩
        exact absurd rfl hlast

end Ascii

end Shell

end PromptHarness
