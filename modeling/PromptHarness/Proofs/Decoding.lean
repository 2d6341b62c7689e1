import PromptHarness.Text.Utf8

/-!
# Cutting bytes without changing the text

Reading bytes piece by piece may give another text than reading them at once, because a cut can fall
inside a character.  Behind ASCII it cannot: an ASCII byte ends whatever sequence stands open before
it, truncated ones included, and leaves the reader between characters.  So a stream that is cut
behind ASCII texts reads as its pieces do.
-/

namespace PromptHarness.Text

namespace Reader

/-- Inside a character no ASCII byte is waited for. -/
def IsSound : Reader → Prop
  | ready => True
  | inside _ low _ _ => 0x80 ≤ low

theorem begin_isSound (byte : UInt8) : (begin byte).2.IsSound := by
  unfold begin
  repeat' split
  all_goals simp [IsSound]

theorem feed_isSound (reader : Reader) (byte : UInt8) : (reader.feed byte).2.IsSound := by
  cases reader with
  | ready => exact begin_isSound byte
  | inside value low high more =>
      simp only [feed]
      split
      · cases more <;> simp [IsSound]
      · exact begin_isSound byte

theorem run_isSound {reader : Reader} (hsound : reader.IsSound) (bytes : Bytes) :
    (reader.run bytes).2.IsSound := by
  induction bytes generalizing reader with
  | nil => exact hsound
  | cons byte rest ih =>
      rw [run_cons]
      exact ih (feed_isSound reader byte)

/-- An ASCII byte breaks what stands open and is then read by itself. -/
theorem feed_ascii {reader : Reader} (hsound : reader.IsSound) {byte : UInt8}
    (hascii : byte < 0x80) :
    reader.feed byte = (reader.finish ++ [some (Char.ofNat byte.toNat)], ready) := by
  cases reader with
  | ready => simp [feed, begin, finish, hascii]
  | inside value low high more =>
      have houtside : ¬(low ≤ byte ∧ byte ≤ high) := by
        rintro ⟨hlow, -⟩
        exact absurd (UInt8.le_trans hsound hlow) (UInt8.not_le.mpr hascii)
      simp [feed, begin, finish, hascii, houtside]

end Reader

/-- The reader stands between characters behind the bytes. -/
def IsClean (bytes : Bytes) : Prop := (Reader.ready.run bytes).2 = .ready

theorem isClean_nil : IsClean [] := rfl

theorem pieces_of_run {bytes : Bytes} {found : List (Option Char)}
    (hrun : Reader.ready.run bytes = (found, .ready)) : pieces bytes = found := by
  simp [pieces, hrun, Reader.finish]

/-- Bytes behind a clean cut are read as if nothing stood before them. -/
theorem lossy_append {left : Bytes} (hclean : IsClean left) (right : Bytes) :
    lossy (left ++ right) = lossy left ++ lossy right := by
  have hpieces : pieces (left ++ right) = pieces left ++ pieces right := by
    unfold IsClean at hclean
    simp [pieces, Reader.run_append, hclean, Reader.finish]
  simp [lossy, lossyChars, hpieces]

/-- Behind any bytes an ASCII byte is read as its character, and the cut behind it is clean. -/
theorem run_concat_ascii (left : Bytes) {byte : UInt8} (hascii : byte < 0x80) :
    Reader.ready.run (left ++ [byte]) =
      (pieces left ++ [some (Char.ofNat byte.toNat)], .ready) := by
  have hsound := @Reader.run_isSound .ready trivial left
  simp [pieces, Reader.run_append, Reader.run_cons, Reader.feed_ascii hsound hascii]

def IsAscii (text : String) : Prop := ∀ char ∈ text.toList, char.toNat < 0x80

instance (text : String) : Decidable (IsAscii text) :=
  List.decidableBAll (fun char : Char => char.toNat < 0x80) text.toList

theorem utf8EncodeChar_ascii {char : Char} (hascii : char.toNat < 0x80) :
    String.utf8EncodeChar char = [char.toUInt8] := by
  apply String.utf8EncodeChar_eq_singleton
  rw [Char.utf8Size_eq_one_iff, UInt32.le_iff_toNat_le]
  exact Nat.le_of_lt_succ hascii

theorem toNat_toUInt8_ascii {char : Char} (hascii : char.toNat < 0x80) :
    char.toUInt8.toNat = char.toNat := by
  have hsmall : char.val.toNat < 0x80 := hascii
  have htruncated : char.toUInt8.toNat = char.val.toNat % 256 := UInt32.toNat_toUInt8 char.val
  rw [htruncated, Nat.mod_eq_of_lt (by omega)]
  rfl

/-- Behind any bytes an ASCII text is read as it is, and the cut behind it is clean. -/
theorem run_append_ascii {chars : List Char} (hascii : ∀ char ∈ chars, char.toNat < 0x80)
    (hchars : chars ≠ []) (left : Bytes) :
    Reader.ready.run (left ++ chars.flatMap String.utf8EncodeChar) =
      (pieces left ++ chars.map some, .ready) := by
  induction chars generalizing left with
  | nil => exact absurd rfl hchars
  | cons char rest ih =>
      have hchar : char.toNat < 0x80 := hascii char List.mem_cons_self
      have hbyte : char.toUInt8 < 0x80 := by
        rw [UInt8.lt_iff_toNat_lt, toNat_toUInt8_ascii hchar]
        exact hchar
      have hfirst := run_concat_ascii left hbyte
      rw [toNat_toUInt8_ascii hchar, Char.ofNat_toNat] at hfirst
      cases rest with
      | nil => simpa [utf8EncodeChar_ascii hchar] using hfirst
      | cons next rest =>
          have hlater := ih (fun other hother => hascii other (List.mem_cons_of_mem _ hother))
            (by simp) (left ++ [char.toUInt8])
          rw [pieces_of_run hfirst] at hlater
          simpa [utf8EncodeChar_ascii hchar] using hlater

/-- A cut behind an ASCII text is clean, whatever stands before the text. -/
theorem isClean_append_encode {text : String} (hascii : IsAscii text) (htext : text.toList ≠ [])
    (left : Bytes) : IsClean (left ++ encode text) := by
  simp [IsClean, encode, run_append_ascii hascii htext]

/-- An ASCII text is read as it is, and what stands before it is read as if it were alone. -/
theorem lossy_append_encode {text : String} (hascii : IsAscii text) (htext : text.toList ≠ [])
    (left : Bytes) : lossy (left ++ encode text) = lossy left ++ text := by
  have hpieces : pieces (left ++ encode text) = pieces left ++ text.toList.map some :=
    pieces_of_run (run_append_ascii hascii htext left)
  simp [lossy, lossyChars, hpieces, Function.comp_def]

end PromptHarness.Text
