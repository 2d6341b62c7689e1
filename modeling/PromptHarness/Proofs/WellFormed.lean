import PromptHarness.Proofs.Encoding

/-!
# Well-formed bytes

Bytes can be read as a text exactly where they are what that text is written as.  One direction is
that a text comes back from its bytes; the other takes one character at a time off the bytes: a
first byte that begins a sequence tells how many more there are and how they are bounded, and within
these bounds a character has one spelling only.
-/

namespace PromptHarness

namespace Text

namespace Reader

/-- The pieces of the bytes from here on, the one that their end breaks included. -/
def reads (reader : Reader) (bytes : Bytes) : List (Option Char) :=
  (reader.run bytes).1 ++ (reader.run bytes).2.finish

theorem reads_nil (reader : Reader) : reader.reads [] = reader.finish := rfl

theorem reads_cons (reader : Reader) (byte : UInt8) (rest : Bytes) :
    reader.reads (byte :: rest) = (reader.feed byte).1 ++ (reader.feed byte).2.reads rest := by
  simp [reads, run_cons]

/-- All that a first byte can begin, with the bounds that the second byte has then. -/
inductive Begins (byte : UInt8) : List (Option Char) × Reader → Prop
  | one (hascii : byte.toNat ≤ 0x7f) : Begins byte ([some (Char.ofNat byte.toNat)], ready)
  | two {lead : Nat} (hbyte : byte.toNat = lead + 192) (hlow : 2 ≤ lead) (hhigh : lead < 32) :
      Begins byte ([], inside lead 0x80 0xbf 0)
  | three {lead : Nat} {low high : UInt8} (hbyte : byte.toNat = lead + 224) (hlead : lead < 16)
      (hlow : 0x80 ≤ low.toNat) (hhigh : high.toNat ≤ 0xbf) (hlong : lead = 0 → 0xa0 ≤ low.toNat)
      (hscalar : lead = 13 → high.toNat ≤ 0x9f) : Begins byte ([], inside lead low high 1)
  | four {lead : Nat} {low high : UInt8} (hbyte : byte.toNat = lead + 240) (hlead : lead < 5)
      (hlow : 0x80 ≤ low.toNat) (hhigh : high.toNat ≤ 0xbf) (hlong : lead = 0 → 0x90 ≤ low.toNat)
      (hscalar : lead = 4 → high.toNat ≤ 0x8f) : Begins byte ([], inside lead low high 2)
  | broken : Begins byte ([none], ready)

theorem begins (byte : UInt8) : Begins byte (begin byte) := by
  have hnumber : ∀ other : UInt8, byte = other ↔ byte.toNat = other.toNat :=
    fun other => UInt8.toNat_inj.symm
  unfold begin
  simp only [UInt8.lt_iff_toNat_lt, hnumber]
  split
  · next hascii => exact .one (Nat.le_of_lt_succ hascii)
  split
  · exact .broken
  split
  · next hcontinues hlead =>
    have hlow : 0xc2 ≤ byte.toNat := Nat.not_lt.mp hcontinues
    have hhigh : byte.toNat < 0xe0 := hlead
    exact .two (by omega) (by omega) (by omega)
  split
  · next hbyte => exact .three hbyte (by decide) (by decide) (by decide) (by decide) (by decide)
  split
  · next hbyte => exact .three hbyte (by decide) (by decide) (by decide) (by decide) (by decide)
  split
  · next htwo hfirst hsurrogate hlead =>
    have hlow : ¬byte.toNat < 0xe0 := htwo
    have hne : ¬byte.toNat = 0xe0 := hfirst
    have hne' : ¬byte.toNat = 0xed := hsurrogate
    have hhigh : byte.toNat < 0xf0 := hlead
    exact .three (by omega) (by omega) (by decide) (by decide) (by omega) (by omega)
  split
  · next hbyte => exact .four hbyte (by decide) (by decide) (by decide) (by decide) (by decide)
  split
  · next hthree hfirst hlead =>
    have hlow : ¬byte.toNat < 0xf0 := hthree
    have hne : ¬byte.toNat = 0xf0 := hfirst
    have hhigh : byte.toNat < 0xf4 := hlead
    exact .four (by omega) (by omega) (by decide) (by decide) (by omega) (by omega)
  split
  · next hbyte => exact .four hbyte (by decide) (by decide) (by decide) (by decide) (by decide)
  · exact .broken

section Inside

variable {value : Nat} {low high : UInt8} {bytes : Bytes} {chars : List Char}

/-- Where a sequence is completed, a byte within its bounds comes next. -/
theorem exists_bits_of_reads {more : Nat} (hlow : 0x80 ≤ low.toNat) (hhigh : high.toNat ≤ 0xbf)
    (hreads : (inside value low high more).reads bytes = chars.map some) :
    ∃ bits rest, bytes = .ofNat (bits + 128) :: rest ∧ bits < 64 ∧ low.toNat ≤ bits + 128 ∧
      bits + 128 ≤ high.toNat := by
  cases bytes with
  | nil =>
      rw [reads_nil] at hreads
      cases chars with
      | nil => cases hreads
      | cons char later => simp [finish] at hreads
  | cons byte rest =>
      by_cases hrange : low ≤ byte ∧ byte ≤ high
      · rw [UInt8.le_iff_toNat_le, UInt8.le_iff_toNat_le] at hrange
        obtain ⟨hbehind, hbefore⟩ := hrange
        have hbyte : byte.toNat - 128 + 128 = byte.toNat :=
          Nat.sub_add_cancel (Nat.le_trans hlow hbehind)
        refine ⟨byte.toNat - 128, rest, ?_, by omega, ?_, ?_⟩
        · rw [hbyte, UInt8.ofNat_toNat]
        · rwa [hbyte]
        · rwa [hbyte]
      · rw [reads_cons] at hreads
        simp only [feed, if_neg hrange] at hreads
        cases chars with
        | nil => cases hreads
        | cons char later => simp at hreads

/-- The last byte of a sequence completes a character. -/
theorem exists_last_of_reads (hlow : 0x80 ≤ low.toNat) (hhigh : high.toNat ≤ 0xbf)
    (hreads : (inside value low high 0).reads bytes = chars.map some) :
    ∃ bits rest later, bytes = .ofNat (bits + 128) :: rest ∧ bits < 64 ∧
      chars = Char.ofNat (value * 64 + bits) :: later ∧ ready.reads rest = later.map some := by
  obtain ⟨bits, rest, rfl, hbits, hbehind, hbefore⟩ := exists_bits_of_reads hlow hhigh hreads
  rw [reads_cons, feed_inside_last hbits hbehind hbefore] at hreads
  cases chars with
  | nil => cases hreads
  | cons char later =>
      simp only [List.singleton_append, List.map_cons, List.cons.injEq, Option.some.injEq] at hreads
      exact ⟨bits, rest, later, rfl, hbits, by rw [hreads.1], hreads.2⟩

theorem exists_more_of_reads {more : Nat} (hlow : 0x80 ≤ low.toNat) (hhigh : high.toNat ≤ 0xbf)
    (hreads : (inside value low high (more + 1)).reads bytes = chars.map some) :
    ∃ bits rest, bytes = .ofNat (bits + 128) :: rest ∧ bits < 64 ∧ low.toNat ≤ bits + 128 ∧
      bits + 128 ≤ high.toNat ∧
      (inside (value * 64 + bits) 0x80 0xbf more).reads rest = chars.map some := by
  obtain ⟨bits, rest, rfl, hbits, hbehind, hbefore⟩ := exists_bits_of_reads hlow hhigh hreads
  rw [reads_cons, feed_inside_more hbits hbehind hbefore] at hreads
  exact ⟨bits, rest, rfl, hbits, hbehind, hbefore, hreads⟩

end Inside

theorem toNat_ofNat {code : Nat} (hcode : code < 0xd800 ∨ 0xdfff < code ∧ code < 0x110000) :
    (Char.ofNat code).toNat = code := by
  rw [Char.ofNat, dif_pos hcode]
  rfl

/-- A first byte and those that complete it are what a character is written as. -/
theorem exists_char_of_reads {byte : UInt8} {rest : Bytes} {chars : List Char}
    (hreads : ready.reads (byte :: rest) = chars.map some) :
    ∃ char later behind, chars = char :: later ∧
      byte :: rest = String.utf8EncodeChar char ++ behind ∧
      ready.reads behind = later.map some := by
  rw [reads_cons, feed_ready] at hreads
  have hbegins := begins byte
  generalize begin byte = begun at hbegins hreads
  have hbyte : byte = .ofNat byte.toNat := UInt8.ofNat_toNat.symm
  have htail : 0x80 ≤ (0x80 : UInt8).toNat ∧ (0xbf : UInt8).toNat ≤ 0xbf := by decide
  cases hbegins with
  | one hascii =>
      cases chars with
      | nil => cases hreads
      | cons char later =>
          simp only [List.singleton_append, List.map_cons, List.cons.injEq,
            Option.some.injEq] at hreads
          have hcode := @toNat_ofNat byte.toNat (by omega)
          refine ⟨char, later, rest, rfl, ?_, hreads.2⟩
          rw [← hreads.1, utf8EncodeChar_eq, hcode, if_pos hascii, ← hbyte]
          rfl
  | @two lead hfirst hlow hhigh =>
      obtain ⟨bits, behind, later, rfl, hbits, rfl, hbehind⟩ :=
        exists_last_of_reads htail.1 htail.2 hreads
      have hcode := @toNat_ofNat (lead * 64 + bits) (by omega)
      refine ⟨_, later, behind, rfl, ?_, hbehind⟩
      rw [utf8EncodeChar_eq, hcode, if_neg (by omega), if_pos (by omega),
        show (lead * 64 + bits) / 64 % 32 = lead by omega,
        show (lead * 64 + bits) % 64 = bits by omega, ← hfirst, ← hbyte]
      rfl
  | @three lead low high hfirst hlead hlow hhigh hlong hscalar =>
      obtain ⟨second, behind, rfl, hsecond, hbehind, hbefore, hmore⟩ :=
        exists_more_of_reads hlow hhigh hreads
      obtain ⟨third, behind, later, rfl, hthird, rfl, hlater⟩ :=
        exists_last_of_reads htail.1 htail.2 hmore
      have hcode := @toNat_ofNat ((lead * 64 + second) * 64 + third) (by omega)
      refine ⟨_, later, behind, rfl, ?_, hlater⟩
      rw [utf8EncodeChar_eq, hcode, if_neg (by omega), if_neg (by omega), if_pos (by omega),
        show ((lead * 64 + second) * 64 + third) / 4096 % 16 = lead by omega,
        show ((lead * 64 + second) * 64 + third) / 64 % 64 = second by omega,
        show ((lead * 64 + second) * 64 + third) % 64 = third by omega, ← hfirst, ← hbyte]
      rfl
  | @four lead low high hfirst hlead hlow hhigh hlong hscalar =>
      obtain ⟨second, behind, rfl, hsecond, hbehind, hbefore, hmore⟩ :=
        exists_more_of_reads hlow hhigh hreads
      obtain ⟨third, behind, rfl, hthird, -, -, hmore⟩ :=
        exists_more_of_reads htail.1 htail.2 hmore
      obtain ⟨fourth, behind, later, rfl, hfourth, rfl, hlater⟩ :=
        exists_last_of_reads htail.1 htail.2 hmore
      have hcode := @toNat_ofNat (((lead * 64 + second) * 64 + third) * 64 + fourth) (by omega)
      refine ⟨_, later, behind, rfl, ?_, hlater⟩
      rw [utf8EncodeChar_eq, hcode, if_neg (by omega), if_neg (by omega), if_neg (by omega),
        show (((lead * 64 + second) * 64 + third) * 64 + fourth) / 262144 % 8 = lead by omega,
        show (((lead * 64 + second) * 64 + third) * 64 + fourth) / 4096 % 64 = second by omega,
        show (((lead * 64 + second) * 64 + third) * 64 + fourth) / 64 % 64 = third by omega,
        show (((lead * 64 + second) * 64 + third) * 64 + fourth) % 64 = fourth by omega,
        ← hfirst, ← hbyte]
      rfl
  | broken =>
      cases chars with
      | nil => cases hreads
      | cons char later => simp at hreads

/-- Bytes in which nothing is broken are what their characters are written as. -/
theorem eq_encode_of_reads {bytes : Bytes} {chars : List Char}
    (hreads : ready.reads bytes = chars.map some) : encode (String.ofList chars) = bytes := by
  rw [encode, String.toList_ofList]
  induction chars generalizing bytes with
  | nil =>
      cases bytes with
      | nil => rfl
      | cons byte rest =>
          obtain ⟨char, later, behind, hchars, -⟩ := exists_char_of_reads hreads
          cases hchars
  | cons char later ih =>
      cases bytes with
      | nil => cases hreads
      | cons byte rest =>
          obtain ⟨first, others, behind, hchars, hbytes, hbehind⟩ := exists_char_of_reads hreads
          cases hchars
          rw [List.flatMap_cons, ih hbehind, hbytes]

end Reader

theorem mapM_id_eq_some_iff {α : Type} {found : List (Option α)} {values : List α} :
    found.mapM id = some values ↔ found = values.map some := by
  induction found generalizing values with
  | nil => cases values <;> simp
  | cons first rest ih =>
      cases first with
      | none => cases values <;> simp
      | some value =>
          cases values with
          | nil => simp [Option.bind_eq_some_iff]
          | cons head tail => simp [Option.bind_eq_some_iff, ih, and_comm]

/-- Bytes are read as a text exactly where they are what it is written as. -/
theorem strict?_eq_some_iff {bytes : Bytes} {text : String} :
    strict? bytes = some text ↔ encode text = bytes := by
  rw [strict?, Option.map_eq_some_iff]
  constructor
  · rintro ⟨chars, hfound, rfl⟩
    exact Reader.eq_encode_of_reads (mapM_id_eq_some_iff.mp hfound)
  · rintro rfl
    refine ⟨text.toList, ?_, String.ofList_toList⟩
    rw [mapM_id_eq_some_iff]
    exact pieces_of_run (Reader.run_encode text)

theorem strict?_eq_none_iff {bytes : Bytes} :
    strict? bytes = none ↔ ∀ text, encode text ≠ bytes := by
  rw [Option.eq_none_iff_forall_ne_some]
  exact forall_congr' fun text => not_congr strict?_eq_some_iff

end Text

end PromptHarness
