import PromptHarness.Proofs.Conversation
import PromptHarness.Proofs.Decoding

/-!
# What is read of what is typed

An answer without control characters that fits on a line goes to the terminal as one line, none of
its bytes being a key with a meaning of its own.  While only such answers are typed, the process
reads them whole and in their order, whichever way it reads: what it has read and what it can still
read are together the lines of all answers typed while the terminal was open (`Orderly`).
-/

namespace PromptHarness

namespace Text

/-- The bytes of a character that is not ASCII are none of ASCII. -/
theorem high_of_mem_utf8EncodeChar {char : Char} (hchar : 0x80 ≤ char.toNat) {byte : UInt8}
    (hbyte : byte ∈ String.utf8EncodeChar char) : 0x80 ≤ byte := by
  have hlong : ¬char.val.toNat ≤ 0x7f := by
    have hsame : char.val.toNat = char.toNat := rfl
    omega
  rw [UInt8.le_iff_toNat_le]
  simp only [String.utf8EncodeChar, hlong, if_false] at hbyte
  split at hbyte
  · simp only [List.mem_cons, List.not_mem_nil, or_false] at hbyte
    rcases hbyte with rfl | rfl <;> simp [UInt8.toNat_ofNat'] <;> omega
  · split at hbyte
    · simp only [List.mem_cons, List.not_mem_nil, or_false] at hbyte
      rcases hbyte with rfl | rfl | rfl <;> simp [UInt8.toNat_ofNat'] <;> omega
    · simp only [List.mem_cons, List.not_mem_nil, or_false] at hbyte
      rcases hbyte with rfl | rfl | rfl | rfl <;> simp [UInt8.toNat_ofNat'] <;> omega

end Text

namespace Terminal

theorem key_eq_plain {byte : UInt8} (hbyte : 0x20 ≤ byte) (hdelete : byte ≠ 0x7f) :
    key byte = .plain := by
  have hkeys : ∀ entry ∈ keys, entry.1 < 0x20 ∨ entry.1 = 0x7f := by decide
  have hnone : keys.lookup byte = none := by
    rw [List.lookup_eq_none_iff]
    intro entry hentry
    rw [bne_iff_ne]
    rintro rfl
    rcases hkeys entry hentry with hlow | hsame
    · exact absurd hbyte (UInt8.not_le.mpr hlow)
    · exact hdelete hsame
  simp [key, hnone]

theorem makeRoom_of_fits {terminal : Terminal} (hfits : terminal.line.length ≤ longestLine) :
    terminal.makeRoom = terminal := by
  have hroom : terminal.line.drop longestLine = [] := List.drop_eq_nil_of_le hfits
  simp [makeRoom, hroom]

/-- Plain keys only make the line longer. -/
theorem type_plain {terminal : Terminal} {bytes : Bytes}
    (hplain : ∀ byte ∈ bytes, key byte = .plain) (hquoting : terminal.quoting = false)
    (hfits : terminal.line.length + bytes.length ≤ longestLine) :
    terminal.type bytes = { terminal with line := bytes.reverse ++ terminal.line } := by
  induction bytes generalizing terminal with
  | nil => rfl
  | cons byte rest ih =>
      simp only [List.length_cons] at hfits
      have hpress : terminal.press byte = { terminal with line := byte :: terminal.line } := by
        have hroom : terminal.makeRoom = terminal := makeRoom_of_fits (by omega)
        simp [press, hroom, hquoting, hplain byte List.mem_cons_self, obey, put]
      have hcons : terminal.type (byte :: rest) = (terminal.press byte).type rest := rfl
      rw [hcons, hpress, ih]
      · simp
      · exact fun other hother => hplain other (List.mem_cons_of_mem _ hother)
      · exact hquoting
      · simp only [List.length_cons]
        omega

/-- Plain keys and the enter key behind them are sent off as one line. -/
theorem type_line {terminal : Terminal} {bytes : Bytes}
    (hplain : ∀ byte ∈ bytes, key byte = .plain) (hquoting : terminal.quoting = false)
    (hline : terminal.line = []) (hfits : bytes.length ≤ longestLine) :
    terminal.type (bytes ++ [newline]) =
      { terminal with sent := terminal.sent ++ [bytes ++ [newline]] } := by
  have hbytes : terminal.type bytes = { terminal with line := bytes.reverse } := by
    rw [type_plain hplain hquoting (by simpa [hline] using hfits), hline, List.append_nil]
  have hroom : (terminal.type bytes).makeRoom = terminal.type bytes := by
    apply makeRoom_of_fits
    simpa [hbytes] using hfits
  have happend : terminal.type (bytes ++ [newline]) = (terminal.type bytes).press newline := by
    simp [type]
  have henter : key newline = .enter := by decide
  rw [happend, press, hroom, hbytes]
  simp [hquoting, henter, obey, put, sendOff, hline]

/-- A piece of input that is one whole line. -/
def IsLine (piece : Bytes) : Prop := ∃ text, newline ∉ text ∧ piece = text ++ [newline]

theorem takePiece_line {piece : Bytes} (hline : IsLine piece) (rest : List Bytes) :
    takePiece (piece :: rest) = some (some piece, rest) := by
  obtain ⟨text, -, rfl⟩ := hline
  simp [takePiece]

theorem takeLine_line {piece : Bytes} (hline : IsLine piece) (rest : List Bytes) :
    takeLine [] (piece :: rest) = some (some piece, rest) := by
  obtain ⟨text, htext, rfl⟩ := hline
  have hbytes : ∀ byte ∈ text, (byte != newline) = true := by
    intro byte hbyte
    rw [bne_iff_ne]
    rintro rfl
    exact htext hbyte
  have hkept : (text ++ [newline]).takeWhile (· != newline) = text := by
    simp [List.takeWhile_append_of_pos hbytes]
  have hleft : (text ++ [newline]).dropWhile (· != newline) = [newline] := by
    simp [List.dropWhile_append_of_pos hbytes]
  simp [takeLine, hkept, hleft]

/-- Whichever way a process reads, it gets the first of the lines. -/
theorem take_lines {terminal later : Terminal} {portion : Portion} {input : Option Bytes}
    (hlines : ∀ piece ∈ terminal.sent, IsLine piece)
    (htake : terminal.take portion = some (input, later)) :
    ∃ piece rest, terminal.sent = piece :: rest ∧ input = some piece ∧
      later = { terminal with sent := rest } := by
  cases hsent : terminal.sent with
  | nil => cases portion <;> simp [take, takePiece, takeLine, hsent] at htake
  | cons piece rest =>
      have hline : IsLine piece := hlines piece (by simp [hsent])
      refine ⟨piece, rest, rfl, ?_⟩
      cases portion with
      | piece =>
          simp only [take, hsent, takePiece_line hline, Option.map_some] at htake
          cases htake
          exact ⟨rfl, rfl⟩
      | line =>
          simp only [take, hsent, takeLine_line hline, Option.map_some] at htake
          cases htake
          exact ⟨rfl, rfl⟩

end Terminal

/-! ## Answers -/

/-- The text has no control characters and fits on a line of the terminal. -/
structure IsTypable (text : String) : Prop where
  plain : ∀ char ∈ text.toList, 0x20 ≤ char.toNat ∧ char.toNat ≠ 0x7f
  fits : (Text.encode text).length ≤ Terminal.longestLine

instance (text : String) : Decidable (IsTypable text) :=
  have : Decidable (∀ char ∈ text.toList, 0x20 ≤ char.toNat ∧ char.toNat ≠ 0x7f) :=
    List.decidableBAll (fun char : Char => 0x20 ≤ char.toNat ∧ char.toNat ≠ 0x7f) text.toList
  decidable_of_iff ((∀ char ∈ text.toList, 0x20 ≤ char.toNat ∧ char.toNat ≠ 0x7f) ∧
      (Text.encode text).length ≤ Terminal.longestLine)
    ⟨fun htypable => ⟨htypable.1, htypable.2⟩, fun htypable => ⟨htypable.1, htypable.2⟩⟩

namespace IsTypable

variable {text : String}

theorem byte (htypable : IsTypable text) {byte : UInt8} (hbyte : byte ∈ Text.encode text) :
    0x20 ≤ byte ∧ byte ≠ 0x7f := by
  obtain ⟨char, hchar, hencoded⟩ := List.mem_flatMap.mp hbyte
  obtain ⟨hlow, hdelete⟩ := htypable.plain char hchar
  by_cases hascii : char.toNat < 0x80
  · rw [Text.utf8EncodeChar_ascii hascii, List.mem_singleton] at hencoded
    have hsame : byte.toNat = char.toNat := by
      rw [hencoded, Text.toNat_toUInt8_ascii hascii]
    constructor
    · rw [UInt8.le_iff_toNat_le, hsame]
      exact hlow
    · rintro rfl
      exact hdelete hsame.symm
  · have hhigh := Text.high_of_mem_utf8EncodeChar (Nat.not_lt.mp hascii) hencoded
    constructor
    · exact UInt8.le_trans (by decide) hhigh
    · rintro rfl
      exact absurd hhigh (by decide)

theorem key (htypable : IsTypable text) : ∀ byte ∈ Text.encode text, Terminal.key byte = .plain :=
  fun _ hbyte => Terminal.key_eq_plain (htypable.byte hbyte).1 (htypable.byte hbyte).2

theorem isLine (htypable : IsTypable text) : Terminal.IsLine (Link.keystrokes text) := by
  refine ⟨Text.encode text, ?_, rfl⟩
  intro hnewline
  exact absurd (htypable.byte hnewline).1 (by decide)

end IsTypable

namespace Position

/-- Only whole lines have been typed.  What has been read and what lies at the terminal are together
these lines, in their order, and lines are lost only where the terminal has been closed. -/
structure Orderly (position : Position) : Prop where
  wiring : position.link.wiring = .terminal
  line : position.link.terminal.line = []
  quoting : position.link.terminal.quoting = false
  typable : ∀ text ∈ position.typed, IsTypable text
  lines : ∃ lost, position.heard ++ position.link.terminal.sent ++ lost =
    position.typed.map Link.keystrokes ∧ (position.link.closed = false → lost = [])

namespace Orderly

variable {position later : Position}

theorem start (process : Process Ending) (files : Files) : Orderly (.start process files) :=
  ⟨rfl, rfl, rfl, by simp [Position.start], [], rfl, fun _ => rfl⟩

/-- All that has been read are the first of the lines typed. -/
theorem heard (horderly : Orderly position) :
    position.heard <+: position.typed.map Link.keystrokes := by
  obtain ⟨lost, hlines, -⟩ := horderly.lines
  exact ⟨position.link.terminal.sent ++ lost, by rw [← hlines, List.append_assoc]⟩

/-- While the terminal is open, no line is lost. -/
theorem readable (horderly : Orderly position) (hopen : position.link.closed = false) :
    position.heard ++ position.link.terminal.sent = position.typed.map Link.keystrokes := by
  obtain ⟨lost, hlines, hnone⟩ := horderly.lines
  rw [← hlines, hnone hopen, List.append_nil]

theorem isLine (horderly : Orderly position) :
    ∀ piece ∈ position.link.terminal.sent, Terminal.IsLine piece := by
  intro piece hpiece
  obtain ⟨lost, hlines, -⟩ := horderly.lines
  have htyped : piece ∈ position.typed.map Link.keystrokes := by
    rw [← hlines]
    simp [hpiece]
  obtain ⟨text, htext, rfl⟩ := List.mem_map.mp htyped
  exact (horderly.typable text htext).isLine

/-- Every step keeps the order, reading above all. -/
theorem change (horderly : Orderly position) (hchange : Change position later) :
    Orderly later := by
  obtain ⟨hwiring, hline, hquoting, htypable, lost, hlines, hnone⟩ := horderly
  cases hchange with
  | quiet next signals files => exact ⟨hwiring, hline, hquoting, htypable, lost, hlines, hnone⟩
  | tick next => exact ⟨hwiring, hline, hquoting, htypable, lost, hlines, hnone⟩
  | prints bytes next hopen =>
      obtain ⟨more, hmore⟩ := position.link.print_eq_receive bytes
      rw [hmore]
      exact ⟨hwiring, hline, hquoting, htypable, lost, hlines, hnone⟩
  | warns bytes next hopen =>
      obtain ⟨more, hmore⟩ := position.link.warn_eq_receive bytes
      rw [hmore]
      exact ⟨hwiring, hline, hquoting, htypable, lost, hlines, hnone⟩
  | reads portion next input link hopen hinput =>
      have hisLine := isLine ⟨hwiring, hline, hquoting, htypable, lost, hlines, hnone⟩
      unfold Link.input at hinput
      rw [hwiring] at hinput
      obtain ⟨⟨bytes, terminal⟩, htake, hsame⟩ := Option.map_eq_some_iff.mp hinput
      obtain ⟨piece, rest, hsent, rfl, rfl⟩ := Terminal.take_lines hisLine htake
      cases hsame
      refine ⟨rfl, hline, hquoting, htypable, lost, ?_, hnone⟩
      simpa [move, hsent] using hlines
  | closes next =>
      -- From here on lines may be lost: the terminal is not open any more.
      refine ⟨hwiring, hline, hquoting, htypable, lost, hlines, ?_⟩
      intro hopen
      exact absurd hopen (by simp [move, Link.close])

theorem reaches (horderly : Orderly position) (hreaches : position.Reaches later) :
    Orderly later := by
  induction hreaches with
  | refl => exact horderly
  | tail _ hstep ih => exact ih.change (change_of_step? hstep)

/-- An answer adds its line to those that can be read, or is lost at a closed terminal. -/
theorem answer (horderly : Orderly position) {exchange : Exchange}
    (hresponse : IsTypable exchange.response) (before after : Bytes) :
    Orderly (position.answer exchange before after) := by
  obtain ⟨hwiring, hline, hquoting, htypable, lost, hlines, hnone⟩ := horderly
  have htyped : ∀ text ∈ position.typed ++ [exchange.response], IsTypable text := by
    intro text htext
    rcases List.mem_append.mp htext with hearlier | hlast
    · exact htypable text hearlier
    · rw [List.mem_singleton.mp hlast]
      exact hresponse
  cases hclosed : position.link.closed with
  | true =>
      have htype : (position.answer exchange before after).link = position.link.take after := by
        simp [Link.type, hclosed]
      refine ⟨?_, ?_, ?_, htyped, lost ++ [Link.keystrokes exchange.response], ?_, ?_⟩
      · rw [htype]
        exact hwiring
      · rw [htype]
        exact hline
      · rw [htype]
        exact hquoting
      · rw [htype]
        simp [Position.answer, Link.take, ← hlines]
      · rw [htype]
        simp [hclosed]
  | false =>
      have hterminal : (position.answer exchange before after).link.terminal =
          { position.link.terminal with
            sent := position.link.terminal.sent ++ [Link.keystrokes exchange.response] } := by
        have hsent := Terminal.type_line hresponse.key hquoting hline hresponse.fits
        simpa [Link.type, Link.take, Link.keystrokes, hclosed] using hsent
      refine ⟨?_, ?_, ?_, htyped, [], ?_, fun _ => rfl⟩
      · simpa using hwiring
      · rw [hterminal]
        exact hline
      · rw [hterminal]
        exact hquoting
      · rw [hterminal]
        simp [Position.answer, ← hlines, hnone hclosed]

theorem conversed {time : Nat} {exchanges : List Exchange} (horderly : Orderly position)
    (htypable : ∀ exchange ∈ exchanges, IsTypable exchange.response)
    (hconversed : Conversed time position exchanges later) : Orderly later := by
  induction hconversed with
  | done => exact horderly
  | answered hfinds _ _ ih =>
      have hfirst := htypable _ List.mem_cons_self
      apply ih
      · exact (horderly.reaches hfinds.reaches).answer hfirst _ _
      · exact fun exchange hexchange => htypable exchange (List.mem_cons_of_mem _ hexchange)

end Orderly

end Position

end PromptHarness
