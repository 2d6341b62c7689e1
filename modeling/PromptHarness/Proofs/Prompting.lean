import PromptHarness.Assertion
import PromptHarness.Proofs.Alignment
import PromptHarness.Proofs.Transcript

/-!
# Passwords that were asked for

Whether a command asked for a password is looked up in the text of its run.  That text is put
together from pieces that were read one by one and has U+FFFD for all that is no text, but none of
this brings the cue into it or takes it away: the cue is in the text exactly where the process wrote
it (`run_seesPrompts`).
-/

namespace PromptHarness

open Position

theorem CommandResult.assertNoPasswordPrompt_eq_none_iff {result : CommandResult} :
    result.assertNoPasswordPrompt = none ↔
      Text.holds passwordCue.toList result.transcript.toList = false := by
  rw [assertNoPasswordPrompt, Verdict.require_eq_none_iff, Bool.not_eq_true']

/-- What it means that the assertion sees whether a password was asked for, the process having been
left at `final`. -/
structure SeesPrompts (plan : Plan) (final : Position) (result : CommandResult) : Prop where
  /-- The assertion passes exactly where the process has not written the cue. -/
  written : result.assertNoPasswordPrompt = none ↔
    Text.holds (Text.encode "password:") final.written = false
  /-- The cue is looked for in all that the terminal has shown, wherever that was cut. -/
  shown : result.assertNoPasswordPrompt = none ↔
    Text.holds (Text.encode "password:") final.link.shown = false
  /-- A password that the plan declares has been asked for. -/
  declared : ∀ credential value confirmed, Step.password credential value confirmed ∈ plan.steps →
    result.assertNoPasswordPrompt ≠ none

/-- A declared password is an exchange of the plan. -/
theorem Plan.mem_exchanges_of_password {plan : Plan} {credential : Credential} {value : String}
    {confirmed : Bool} (hstep : Step.password credential value confirmed ∈ plan.steps) :
    ⟨.password credential, value⟩ ∈ plan.exchanges := by
  rw [exchanges, List.mem_flatMap]
  refine ⟨_, hstep, ?_⟩
  cases confirmed <;> exact List.mem_cons_self

/-- Every result tells from the text of its run whether the process asked for a password. -/
theorem run_seesPrompts (runner : Runner) (test : String) (invocation : Invocation)
    (machine : Machine) {result : CommandResult}
    (hresult : (runner.run test invocation machine).1.outcome = .ok result) :
    ∃ process last final,
      runner.Starts test invocation machine process ∧
      Conversed runner.promptTimeout (.start process machine.files) invocation.plan.exchanges last ∧
      last.Reaches final ∧
      (∃ ending, final.process = .finished ending) ∧
      SeesPrompts invocation.plan final result := by
  obtain ⟨process, hstarts⟩ | ⟨error, herror⟩ := runner.starts_or_error test invocation machine
  case inr =>
    rw [Runner.run_of_error herror] at hresult
    cases hresult
  obtain ⟨final, signals, hcourse, -⟩ := Runner.run_course hstarts
  generalize (runner.run test invocation machine).1 = run at hcourse hresult
  cases hcourse with
  | stuck => cases hresult
  | overdue => cases hresult
  | nameless => cases hresult
  | @ended last ending hended =>
      obtain ⟨-, -, rfl⟩ := judge_eq_ok_iff.mp hresult
      have hfaithful : Faithful final :=
        ((Faithful.start process machine.files).conversed hended.conversed).reaches hended.reaches
      have hplain : Text.IsPlain "password:" := by decide
      have hfilled : "password:".toList ≠ [] := by decide
      have hread : Text.holds "password:".toList (final.transcript ++ final.rest).toList =
          Text.holds (Text.encode "password:") final.link.shown := by
        rw [hfaithful.transcript_append_rest]
        exact Text.holds_lossy hplain hfilled final.link.shown
      have hwritten : Text.holds (Text.encode "password:") final.link.shown =
          Text.holds (Text.encode "password:") final.written := by
        rw [hfaithful.shown]
        exact Text.holds_shown hplain hfilled final.written
      refine ⟨process, last, final, hstarts, hended.conversed, hended.reaches, ⟨_, hended.finished⟩,
        ?_⟩
      constructor
      case written =>
        rw [CommandResult.assertNoPasswordPrompt_eq_none_iff, ← hwritten, ← hread]
        rfl
      case shown =>
        rw [CommandResult.assertNoPasswordPrompt_eq_none_iff, ← hread]
        rfl
      case declared =>
        intro credential value confirmed hstep hpasses
        have hmatched := hended.conversed.matched_reaches hended.reaches
        have hneedle : Text.encode "password:" ∈ invocation.plan.exchanges.map (·.cue.needle) :=
          List.mem_map.mpr ⟨_, Plan.mem_exchanges_of_password hstep, rfl⟩
        have hlacking := CommandResult.assertNoPasswordPrompt_eq_none_iff.mp hpasses
        exact Bool.false_ne_true (hlacking.symm.trans (hread.trans (hmatched.holds hneedle)))

theorem run_seesPrompts_stutterer :
    let runner : Runner := ⟨5000, 5000, none, "."⟩
    let invocation : Invocation := .lone ⟨[.password .master "secret" false]⟩ 0
    let result : CommandResult :=
      ⟨" \ufffddone\r\n", "\ufffdpassword: \ufffddone\r\n", 0, 1⟩
    (runner.run "stutters" invocation (.lone stutterer)).1.outcome = .ok result ∧
      result.assertNoPasswordPrompt ≠ none ∧
      ∃ process last final,
        runner.Starts "stutters" invocation (.lone stutterer) process ∧
        Conversed 5000 (.start process (Machine.lone stutterer).files) invocation.plan.exchanges
          last ∧
        last.Reaches final ∧
        (∃ ending, final.process = .finished ending) ∧
        SeesPrompts invocation.plan final result := by
  intro runner invocation result
  have hresult : (runner.run "stutters" invocation (.lone stutterer)).1.outcome = .ok result := by
    rw [Runner.run_of_starts (runner.starts_lone rfl "stutters" _ 0 stutterer)]
    rfl
  obtain ⟨process, last, final, hstarts, hconversed, hreaches, hfinished, hsees⟩ :=
    run_seesPrompts runner "stutters" invocation (.lone stutterer) hresult
  exact ⟨hresult, hsees.declared .master "secret" false List.mem_cons_self, process, last, final,
    hstarts, hconversed, hreaches, hfinished, hsees⟩

end PromptHarness
