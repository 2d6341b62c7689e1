import PromptHarness.Proofs.Decoding
import PromptHarness.Proofs.Runs

/-!
# The texts of a run

All texts that a run hands out are readings of what the process has written.  They are put together
from pieces that are read one by one, but every cut stands behind a cue, which is ASCII, so the
pieces read as the whole does (`Faithful`).  Nothing of it gets lost, comes twice or in another
order, and nothing that was typed comes in.
-/

namespace PromptHarness

theorem Cue.isAscii_literal (cue : Cue) : Text.IsAscii cue.literal := by
  cases cue <;> simp only [literal] <;> decide

theorem Cue.literal_ne_nil (cue : Cue) : cue.literal.toList ≠ [] := by
  cases cue <;> simp only [literal] <;> decide

theorem Terminal.shown_append (left right : Bytes) :
    shown (left ++ right) = shown left ++ shown right :=
  List.flatMap_append

namespace Position

/-- The terminal shows what the process has written, and the transcript is the text of all that has
been taken of it.  What has been taken ends between characters. -/
structure Faithful (position : Position) : Prop where
  wiring : position.link.wiring = .terminal
  shown : position.link.shown = Terminal.shown position.written
  taken : ∃ taken, position.link.shown = taken ++ position.link.unread ∧ Text.IsClean taken ∧
    position.transcript = Text.lossy taken

namespace Faithful

variable {position later : Position}

theorem start (process : Process Ending) (files : Files) : Faithful (.start process files) :=
  ⟨rfl, rfl, [], rfl, Text.isClean_nil, rfl⟩

/-- What has been taken and what has not read together as the whole does. -/
theorem transcript_append_rest (hfaithful : Faithful position) :
    position.transcript ++ position.rest = Text.lossy position.link.shown := by
  obtain ⟨taken, htaken, hclean, htranscript⟩ := hfaithful.taken
  rw [htaken, Text.lossy_append hclean, htranscript]
  rfl

/-- More bytes that the process writes are shown and wait to be taken. -/
theorem receive (hfaithful : Faithful position) (next : Process Ending) (bytes : Bytes) :
    Faithful { position.move next (position.link.receive (Terminal.shown bytes)) with
      written := position.written ++ bytes } := by
  obtain ⟨hwiring, hshown, taken, htaken, hclean, htranscript⟩ := hfaithful
  refine ⟨hwiring, ?_, taken, ?_, hclean, htranscript⟩
  · simp [move, Link.receive, Terminal.shown_append, hshown]
  · simp [move, Link.receive, htaken]

theorem change (hfaithful : Faithful position) (hchange : Change position later) :
    Faithful later := by
  cases hchange with
  | quiet next signals files => exact ⟨hfaithful.wiring, hfaithful.shown, hfaithful.taken⟩
  | tick next => exact ⟨hfaithful.wiring, hfaithful.shown, hfaithful.taken⟩
  | prints bytes next hopen =>
      simp only [Link.print, hfaithful.wiring]
      exact hfaithful.receive next bytes
  | warns bytes next hopen =>
      simp only [Link.warn, hfaithful.wiring]
      exact hfaithful.receive next bytes
  | reads portion next input link hopen hinput =>
      rw [Link.eq_of_input hinput]
      exact ⟨hfaithful.wiring, hfaithful.shown, hfaithful.taken⟩
  | closes next => exact ⟨hfaithful.wiring, hfaithful.shown, hfaithful.taken⟩

theorem reaches (hfaithful : Faithful position) (hreaches : position.Reaches later) :
    Faithful later := by
  induction hreaches with
  | refl => exact hfaithful
  | tail _ hstep ih => exact ih.change (change_of_step? hstep)

/-- Taking all up to the end of a cue cuts between characters, whatever stands before the cue. -/
theorem answer (hfaithful : Faithful position) {exchange : Exchange} {before after : Bytes}
    (hleft : Text.IsLeftmost exchange.cue.needle position.link.unread before after) :
    Faithful (position.answer exchange before after) := by
  obtain ⟨hwiring, hshown, taken, htaken, hclean, htranscript⟩ := hfaithful
  have hascii := exchange.cue.isAscii_literal
  have hliteral := exchange.cue.literal_ne_nil
  refine ⟨by simpa using hwiring, ?_, taken ++ before ++ exchange.cue.needle, ?_, ?_, ?_⟩
  · rw [link_answer, Link.shown_type]
    exact hshown
  · simp [htaken, hleft.1]
  · exact Text.isClean_append_encode hascii hliteral (taken ++ before)
  · calc
      position.transcript ++ Text.lossy before ++ exchange.cue.literal
          = Text.lossy taken ++ Text.lossy before ++ exchange.cue.literal := by rw [htranscript]
      _ = Text.lossy (taken ++ before) ++ exchange.cue.literal := by
          rw [Text.lossy_append hclean]
      _ = Text.lossy (taken ++ before ++ exchange.cue.needle) :=
          (Text.lossy_append_encode hascii hliteral (taken ++ before)).symm

theorem conversed {time : Nat} {exchanges : List Exchange} (hfaithful : Faithful position)
    (hconversed : Conversed time position exchanges later) : Faithful later := by
  induction hconversed with
  | done => exact hfaithful
  | answered hfinds hleft _ ih => exact ih ((hfaithful.reaches hfinds.reaches).answer hleft)

end Faithful

end Position

open Position

/-- What it means that the texts of a run are those of the bytes that came, the process having been
left at `final`. -/
structure KeepsText (exchanges : List Exchange) (final : Position)
    (outcome : Except Fault CommandResult) : Prop where
  /-- A result has all that the process has shown to its end, and by itself what came behind the
  last cue. -/
  result : ∀ result, outcome = .ok result →
    (∃ ending, final.process = .finished ending) ∧
      result.transcript = Text.lossy final.link.shown ∧
      (∃ rest, Text.Matched (exchanges.map (·.cue.needle)) final.link.shown rest ∧
        result.output = Text.lossy rest) ∧
      ∃ front, result.transcript = front ++ result.output
  violation : ∀ command step cue failure transcript,
    outcome = .error (.protocolViolation command step cue failure transcript) →
      transcript = Text.lossy final.link.shown
  late : ∀ command time output, outcome = .error (.exitTimeout command time output) →
    ∃ rest, Text.Matched (exchanges.map (·.cue.needle)) final.link.shown rest ∧
      output = Text.lossy rest
  unexpected : ∀ command expected actual output,
    outcome = .error (.unexpectedExitCode command expected actual output) →
      (∃ ending, final.process = .finished ending) ∧
        ∃ rest, Text.Matched (exchanges.map (·.cue.needle)) final.link.shown rest ∧
          output = Text.lossy rest

/-- No run loses, doubles or rearranges text, and none adds what was typed. -/
theorem run_keepsText (runner : Runner) (test : String) (invocation : Invocation)
    (machine : Machine) (process : Process Ending)
    (hstarts : runner.Starts test invocation machine process) :
    ∃ done last final,
      done <+: invocation.plan.exchanges ∧
      Conversed runner.promptTimeout (.start process machine.files) done last ∧
      last.Reaches final ∧
      (runner.lastLink test invocation machine process).shown = final.link.shown ∧
      final.link.shown = Terminal.shown final.written ∧
      KeepsText invocation.plan.exchanges final (runner.run test invocation machine).1.outcome := by
  obtain ⟨final, signals, hcourse, hlink⟩ := Runner.run_course hstarts
  have hshown : (runner.lastLink test invocation machine process).shown = final.link.shown := by
    rw [hlink]
  obtain ⟨done, last, hfront, hconversed, hreaches⟩ := hcourse.answered
  have hfinal : Faithful final :=
    ((Faithful.start process machine.files).conversed hconversed).reaches hreaches
  refine ⟨done, last, final, hfront, hconversed, hreaches, hshown, hfinal.shown, ?_⟩
  generalize (runner.run test invocation machine).1 = run at hcourse
  constructor
  case result =>
    intro result hresult
    cases hcourse with
    | stuck => cases hresult
    | overdue => cases hresult
    | ended hended =>
        obtain ⟨-, -, rfl⟩ := judge_eq_ok_iff.mp hresult
        have hmatched := hended.conversed.matched_reaches hended.reaches
        exact ⟨⟨_, hended.finished⟩, hfinal.transcript_append_rest, ⟨_, hmatched, rfl⟩, _, rfl⟩
    | nameless => cases hresult
  case violation =>
    intro command step cue failure transcript hviolation
    cases hcourse with
    | stuck =>
        cases hviolation
        exact hfinal.transcript_append_rest
    | overdue => cases hviolation
    | ended => exact absurd hviolation (judge_ne (by simp) (by simp))
    | nameless => cases hviolation
  case late =>
    intro command time output hlate
    cases hcourse with
    | stuck => cases hlate
    | overdue hconversed hwaited =>
        cases hlate
        exact ⟨_, hconversed.matched_reaches hwaited.reaches, rfl⟩
    | ended => exact absurd hlate (judge_ne (by simp) (by simp))
    | nameless => cases hlate
  case unexpected =>
    intro command expected actual output hunexpected
    cases hcourse with
    | stuck => cases hunexpected
    | overdue => cases hunexpected
    | ended hended =>
        obtain ⟨-, -, -, -, -, rfl⟩ := judge_eq_unexpectedExitCode_iff.mp hunexpected
        have hmatched := hended.conversed.matched_reaches hended.reaches
        exact ⟨⟨_, hended.finished⟩, _, hmatched, rfl⟩
    | nameless => cases hunexpected

/-- A process that breaks off in the middle of a character right before it asks. -/
def stutterer : Process Ending :=
  .print (0xe2 :: 0x82 :: Text.encode "password: ") <| .ask .line fun _ =>
    .print (0xac :: Text.encode "done\n") <| .finished (.exited 0)

theorem run_keepsText_stutterer :
    let runner : Runner := ⟨5000, 5000, none, "."⟩
    let invocation : Invocation := .lone ⟨[.password .master "secret" false]⟩ 0
    runner.Starts "stutters" invocation (.lone stutterer) stutterer ∧
      ∃ done last final,
        done <+: invocation.plan.exchanges ∧
        Conversed 5000 (.start stutterer (Machine.lone stutterer).files) done last ∧
        last.Reaches final ∧
        (runner.lastLink "stutters" invocation (.lone stutterer) stutterer).shown =
          final.link.shown ∧
        final.link.shown = Terminal.shown final.written ∧
        KeepsText invocation.plan.exchanges final
          (runner.run "stutters" invocation (.lone stutterer)).1.outcome := by
  intro runner invocation
  have hstarts : runner.Starts "stutters" invocation (.lone stutterer) stutterer :=
    runner.starts_lone rfl "stutters" _ 0 stutterer
  exact ⟨hstarts, run_keepsText runner "stutters" invocation _ stutterer hstarts⟩

end PromptHarness
