import Mathlib.Data.List.Basic
import PromptHarness.Assertion
import PromptHarness.Proofs.Encoding

/-!
# The lines of an output

A terminal puts a carriage return in front of every newline, and reading the lines of an output
undoes that.  This module says which lines can come of it (`IsPrinted`) and shows that an output is
read newline by newline, so that any lines of this kind come back when they are joined again.
-/

namespace PromptHarness

namespace Text

/-- A line that holds more than white space, goes on to no other line, and has no carriage return of
a terminal at its end. -/
structure IsPrinted (line : String) : Prop where
  filled : line.toList.all isBlank = false
  whole : '\n' ∉ line.toList
  trimmed : line.toList.getLast? ≠ some '\r'

/-! ## Reading -/

/-- What is cut off at the end of a text is nothing that it ends with then. -/
theorem getLast?_trimEndWhere {drop : Char → Bool} {text : List Char} {char : Char}
    (hlast : (trimEndWhere drop text).getLast? = some char) : drop char = false := by
  have hfirst := List.head?_dropWhile_not drop text.reverse
  rw [trimEndWhere, List.getLast?_reverse] at hlast
  simpa [hlast] using hfirst

theorem subset_trimEndWhere (drop : Char → Bool) (text : List Char) :
    trimEndWhere drop text ⊆ text := by
  intro char hchar
  rw [trimEndWhere, List.mem_reverse] at hchar
  exact List.mem_reverse.mp ((List.dropWhile_sublist drop).subset hchar)

theorem trimEndWhere_of_getLast? {drop : Char → Bool} {text : List Char}
    (hlast : ∀ char, text.getLast? = some char → drop char = false) :
    trimEndWhere drop text = text := by
  rw [← List.head?_reverse] at hlast
  unfold trimEndWhere
  cases hreverse : text.reverse with
  | nil => simpa using hreverse.symm
  | cons char rest =>
      rw [List.dropWhile_cons_of_neg (by simp [hlast char (by rw [hreverse]; rfl)]), ← hreverse,
        List.reverse_reverse]

theorem isPrinted_of_mem_filledLines {text line : String} (hline : line ∈ filledLines text) :
    IsPrinted line := by
  simp only [filledLines, List.mem_map, List.mem_filter, Bool.not_eq_true'] at hline
  obtain ⟨chars, ⟨⟨stretch, hstretch, rfl⟩, hfilled⟩, rfl⟩ := hline
  refine ⟨by simpa using hfilled, ?_, ?_⟩
  · rw [String.toList_ofList]
    exact fun hnewline => not_mem_of_mem_stretches hstretch (subset_trimEndWhere _ _ hnewline)
  · rw [String.toList_ofList]
    intro hlast
    exact absurd (getLast?_trimEndWhere hlast) (by decide)

/-- A text is read newline by newline. -/
theorem filledLines_append (left right : String) :
    filledLines (left ++ "\n" ++ right) = filledLines left ++ filledLines right := by
  have hchars : (left ++ "\n" ++ right).toList = left.toList ++ '\n' :: right.toList := by simp
  unfold filledLines
  rw [hchars, stretches_append_cons, List.map_append, List.filter_append, List.map_append]

/-! ## Joining -/

theorem filledLines_of_isPrinted {line : String} (hline : IsPrinted line) :
    filledLines line = [line] := by
  have htrimmed : trimEndWhere (· == '\r') line.toList = line.toList := by
    apply trimEndWhere_of_getLast?
    intro char hlast
    by_contra hreturn
    have hsame : char = '\r' := by simpa using hreturn
    exact hline.trimmed (hsame ▸ hlast)
  simp [filledLines, stretches_eq_singleton hline.whole, htrimmed, hline.filled]

/-- Lines that are joined by newlines come back. -/
theorem filledLines_intercalate {lines : List String} (hlines : ∀ line ∈ lines, IsPrinted line) :
    filledLines ("\n".intercalate lines) = lines := by
  induction lines with
  | nil => rfl
  | cons line later ih =>
      rw [List.forall_mem_cons] at hlines
      cases later with
      | nil => rw [String.intercalate_singleton, filledLines_of_isPrinted hlines.1]
      | cons next others =>
          rw [String.intercalate_cons_cons, filledLines_append, filledLines_of_isPrinted hlines.1,
            ih hlines.2]
          rfl

theorem withReturns_append (left right : String) :
    withReturns (left ++ right) = withReturns left ++ withReturns right := by
  simp [withReturns]

theorem withReturns_of_whole {line : String} (hwhole : '\n' ∉ line.toList) :
    withReturns line = line := by
  have hchars : line.toList.flatMap (fun char => if char = '\n' then ['\r', '\n'] else [char]) =
      line.toList.flatMap fun char => [char] := by
    apply List.flatMap_congr
    intro char hchar
    have hplain : char ≠ '\n' := fun hnewline => hwhole (hnewline ▸ hchar)
    rw [if_neg hplain]
  rw [withReturns, hchars, List.flatMap_singleton', String.ofList_toList]

/-- Lines joined by newlines are shown as lines joined by carriage returns and newlines. -/
theorem withReturns_intercalate {lines : List String} (hlines : ∀ line ∈ lines, IsPrinted line) :
    withReturns ("\n".intercalate lines) = "\r\n".intercalate lines := by
  induction lines with
  | nil => rfl
  | cons line later ih =>
      rw [List.forall_mem_cons] at hlines
      have hline := withReturns_of_whole hlines.1.whole
      cases later with
      | nil => rw [String.intercalate_singleton, String.intercalate_singleton, hline]
      | cons next others =>
          rw [String.intercalate_cons_cons, String.intercalate_cons_cons, withReturns_append,
            withReturns_append, hline, ih hlines.2]
          rfl

end Text

namespace CommandResult

theorem lines_eq_filledLines (result : CommandResult) :
    result.lines = Text.filledLines result.output :=
  Text.printedLines_eq_filledLines result.output

def showing (result : CommandResult) (output : String) : CommandResult :=
  { result with output := output }

/-- What it means that the lines of an output are those of the text that the terminal showed. -/
structure UndoesTerminal (result : CommandResult) : Prop where
  /-- The carriage returns that a terminal puts in front of the newlines change nothing. -/
  shown : (result.showing (Text.withReturns result.output)).lines = result.lines
  /-- An output is read newline by newline. -/
  behind : ∀ left right,
    (result.showing (left ++ "\n" ++ right)).lines =
      (result.showing left).lines ++ (result.showing right).lines
  printed : ∀ line ∈ result.lines, Text.IsPrinted line
  /-- Lines that can be printed come back when they are joined, whatever ends a line and whether or
  not the last one is ended. -/
  restored : ∀ lines, (∀ line ∈ lines, Text.IsPrinted line) →
    ∀ ending ∈ ["\n", "\r\n"],
      (result.showing (ending.intercalate lines)).lines = lines ∧
        (result.showing (ending.intercalate lines ++ ending)).lines = lines
  /-- Reading once more what has been read changes nothing. -/
  repeated : ∀ ending ∈ ["\n", "\r\n"],
    (result.showing (ending.intercalate result.lines)).lines = result.lines ∧
      (result.showing (ending.intercalate result.lines ++ ending)).lines = result.lines

theorem isPrinted_of_mem_lines {result : CommandResult} {line : String}
    (hline : line ∈ result.lines) : Text.IsPrinted line := by
  rw [lines_eq_filledLines] at hline
  exact Text.isPrinted_of_mem_filledLines hline

/-- A newline at the end of an output begins no line of its own. -/
theorem lines_concat_newline (result : CommandResult) (output : String) :
    (result.showing (output ++ "\n")).lines = (result.showing output).lines := by
  have hempty : output ++ "\n" = output ++ "\n" ++ "" := by simp
  rw [lines_eq_filledLines, lines_eq_filledLines]
  simp only [showing]
  rw [hempty, Text.filledLines_append]
  exact List.append_nil _

theorem lines_withReturns (result : CommandResult) (output : String) :
    (result.showing (Text.withReturns output)).lines = (result.showing output).lines := by
  rw [lines_eq_filledLines (result.showing output)]
  exact Text.printedLines_withReturns output

/-- Joined lines come back, and a line end behind the last one adds none. -/
theorem lines_joined (result : CommandResult) {lines : List String}
    (hlines : ∀ line ∈ lines, Text.IsPrinted line) {ending : String}
    (hending : ending ∈ ["\n", "\r\n"]) :
    (result.showing (ending.intercalate lines)).lines = lines ∧
      (result.showing (ending.intercalate lines ++ ending)).lines = lines := by
  have hjoined : (result.showing ("\n".intercalate lines)).lines = lines := by
    rw [lines_eq_filledLines]
    exact Text.filledLines_intercalate hlines
  have hended : (result.showing ("\n".intercalate lines ++ "\n")).lines = lines := by
    rw [lines_concat_newline, hjoined]
  simp only [List.mem_cons, List.not_mem_nil, or_false] at hending
  rcases hending with rfl | rfl
  · exact ⟨hjoined, hended⟩
  · -- What is joined in this way is what a terminal shows of the other.
    have hshown : "\r\n".intercalate lines ++ "\r\n" =
        Text.withReturns ("\n".intercalate lines ++ "\n") := by
      rw [Text.withReturns_append, Text.withReturns_intercalate hlines]
      rfl
    rw [hshown, ← Text.withReturns_intercalate hlines, lines_withReturns, lines_withReturns]
    exact ⟨hjoined, hended⟩

/-- The lines of every output are those of the text behind it. -/
theorem lines_undoTerminal (result : CommandResult) : result.UndoesTerminal where
  shown := result.lines_withReturns result.output
  behind := by
    intro left right
    simp only [lines_eq_filledLines, showing, Text.filledLines_append]
  printed := fun line hline => isPrinted_of_mem_lines hline
  restored := fun lines hlines ending hending => result.lines_joined hlines hending
  repeated := fun ending hending =>
    result.lines_joined (fun line hline => isPrinted_of_mem_lines hline) hending

end CommandResult

end PromptHarness
