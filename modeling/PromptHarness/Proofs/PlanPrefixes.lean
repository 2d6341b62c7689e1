import PromptHarness.Proofs.Runs

/-!
# No looking ahead

A run that is stuck at a cue has used nothing of its plan but the exchanges before that cue and the
cue itself.  Two plans that agree so far are gone through in lock-step: each exchange they share
finds the same talk and leaves the same talk behind, and at the cue that is missed both stop with
the same reason.  Neither the answer declared there nor anything declared behind it has a part in
the run.
-/

namespace PromptHarness

namespace Talk

variable {time : Nat}

/-- Where the exchanges get stuck, it is at one of them. -/
theorem step_le_of_stuck {step number : Nat} {exchanges : List Exchange} {talk final : Talk}
    {phases : List Phase} {cue : Cue} {failure : CueFailure}
    (hstuck : converse time step exchanges talk =
      (phases, some (number, cue, failure), final)) : step ≤ number := by
  induction exchanges generalizing step talk phases with
  | nil => simp [converse] at hstuck
  | cons exchange later ih =>
      simp only [converse] at hstuck
      split at hstuck
      · simp only [Prod.mk.injEq, Option.some.injEq] at hstuck
        exact Nat.le_of_eq hstuck.2.1.1
      · simp only [Prod.mk.injEq] at hstuck
        have hlater := @ih _ _ _ (Prod.ext rfl (Prod.ext hstuck.2.1 hstuck.2.2))
        omega

/-- Exchanges that agree up to the cue at which the first get stuck get stuck there alike. -/
theorem converse_of_stuck {step : Nat} {exchanges others : List Exchange} {talk final : Talk}
    {phases : List Phase} {count : Nat} {cue : Cue} {failure : CueFailure}
    (hstuck : converse time step exchanges talk =
      (phases, some (step + count, cue, failure), final))
    (hbefore : others.take count = exchanges.take count)
    (hcue : others[count]?.map (·.cue) = exchanges[count]?.map (·.cue)) :
    converse time step others talk = (phases, some (step + count, cue, failure), final) := by
  induction exchanges generalizing step others talk phases count with
  | nil => simp [converse] at hstuck
  | cons exchange later ih =>
      obtain ⟨other, more, rfl⟩ : ∃ other more, others = other :: more := by
        cases others with
        | nil => cases count <;> simp at hbefore hcue
        | cons other more => exact ⟨other, more, rfl⟩
      cases count with
      | zero =>
          -- The first cue is the one that is missed: were it found, a later one would be told.
          have hsame : other.cue = exchange.cue := by simpa using hcue
          simp only [converse, hsame] at hstuck ⊢
          generalize talk.await (Text.holds (Text.encode exchange.cue.literal)) time = waited
            at hstuck ⊢
          obtain ⟨halt, held⟩ := waited
          cases hcut : Text.cut? (Text.encode exchange.cue.literal) held.link.unread with
          | none => simpa only [hcut] using hstuck
          | some parts =>
              simp only [hcut, Prod.mk.injEq] at hstuck
              have hlater := step_le_of_stuck (Prod.ext rfl (Prod.ext hstuck.2.1 hstuck.2.2))
              omega
      | succ count =>
          simp only [List.take_succ_cons, List.cons.injEq] at hbefore
          obtain ⟨rfl, hbefore⟩ := hbefore
          simp only [List.getElem?_cons_succ] at hcue
          simp only [converse] at hstuck ⊢
          generalize talk.await (Text.holds (Text.encode other.cue.literal)) time = waited
            at hstuck ⊢
          obtain ⟨halt, held⟩ := waited
          cases hcut : Text.cut? (Text.encode other.cue.literal) held.link.unread with
          | none =>
              simp only [hcut, Prod.mk.injEq, Option.some.injEq] at hstuck
              omega
          | some parts =>
              have hnumber : step + (count + 1) = step + 1 + count := by omega
              simp only [hcut, Prod.mk.injEq, hnumber] at hstuck
              have hlater := ih (Prod.ext rfl (Prod.ext hstuck.2.1 hstuck.2.2)) hbefore hcue
              simp only [hlater, hnumber, ← hstuck.1]

end Talk

/-- A verdict on an exit code is never about a cue. -/
theorem judge_ne_protocolViolation {command command' : String}
    {reserved : Option (Int × String)} {expected code : Int} {result : CommandResult} {step : Nat}
    {cue : Cue} {failure : CueFailure} {transcript : String} :
    judge command reserved expected code result ≠
      .error (.protocolViolation command' step cue failure transcript) := by
  rcases judge_cases command reserved expected code result with
    ⟨logFile, -, hjudge⟩ | ⟨-, -, hjudge⟩ | ⟨-, -, hjudge⟩
  all_goals
    rw [hjudge]
    simp

namespace Runner

variable {runner : Runner} {invocation : Invocation} {command : String}
  {reserved : Option (Int × String)} {process : Process Ending} {files : Files} {step : Nat}
  {cue : Cue} {failure : CueFailure} {transcript : String}

/-- A protocol violation comes from exchanges that got stuck. -/
theorem stuck_of_attend {command' : String}
    (houtcome : (runner.attend command reserved invocation process files).1.outcome =
      .error (.protocolViolation command' step cue failure transcript)) :
    ∃ phases talk,
      Talk.converse runner.promptTimeout 0 invocation.plan.exchanges
        ⟨process, .start .terminal files, ""⟩ = (phases, some (step, cue, failure), talk) := by
  simp only [attend] at houtcome
  generalize Talk.converse runner.promptTimeout 0 invocation.plan.exchanges
    ⟨process, .start .terminal files, ""⟩ = conversation at houtcome ⊢
  obtain ⟨phases, missed, talk⟩ := conversation
  cases missed with
  | some missed =>
      simp only [Except.error.injEq, Fault.protocolViolation.injEq] at houtcome
      obtain ⟨-, rfl, rfl, rfl, -⟩ := houtcome
      exact ⟨phases, talk, rfl⟩
  | none =>
      generalize talk.await (fun _ => false) runner.exitTimeout = waited at houtcome
      obtain ⟨halt, held⟩ := waited
      cases halt with
      | closed =>
          simp only at houtcome
          split at houtcome
          · exact absurd houtcome judge_ne_protocolViolation
          · cases houtcome
      | satisfied => cases houtcome
      | late => cases houtcome

theorem attend_of_stuck {command' : String} {plan : Plan}
    (houtcome : (runner.attend command reserved invocation process files).1.outcome =
      .error (.protocolViolation command' step cue failure transcript))
    (hbefore : plan.exchanges.take step = invocation.plan.exchanges.take step)
    (hcue : plan.exchanges[step]?.map (·.cue) = invocation.plan.exchanges[step]?.map (·.cue)) :
    runner.attend command reserved { invocation with plan := plan } process files =
      runner.attend command reserved invocation process files := by
  obtain ⟨phases, talk, hstuck⟩ := stuck_of_attend houtcome
  rw [← Nat.zero_add step] at hstuck
  have hother := Talk.converse_of_stuck hstuck hbefore hcue
  simp only [attend, hstuck, hother]

/-- A run that is stuck at a cue would have gone alike, to the last detail, with any plan that
agrees with its own on the exchanges before that cue and on the cue. -/
theorem run_ignores_rest_of_plan {runner : Runner} {test command : String}
    {invocation : Invocation} {machine : Machine} {step : Nat} {cue : Cue} {failure : CueFailure}
    {transcript : String} {plan : Plan}
    (houtcome : (runner.run test invocation machine).1.outcome =
      .error (.protocolViolation command step cue failure transcript))
    (hbefore : plan.exchanges.take step = invocation.plan.exchanges.take step)
    (hcue : plan.exchanges[step]?.map (·.cue) = invocation.plan.exchanges[step]?.map (·.cue)) :
    runner.run test { invocation with plan := plan } machine =
      runner.run test invocation machine := by
  -- What is started, and how, has nothing to do with the plan.
  have hdressed : runner.dressed test { invocation with plan := plan } =
      runner.dressed test invocation := rfl
  simp only [run, hdressed] at houtcome ⊢
  split
  · rfl
  · next hstart =>
    simp only [hstart] at houtcome
    simp only [attend_of_stuck houtcome hbefore hcue]

def inquirer : Process Ending :=
  .print (Text.encode "password: ") <| .ask .line fun _ =>
    .print (Text.encode "sure? (y/n) ") <| .ask .line fun _ => .finished (.exited 0)

/-- A second password is expected of it in vain, whatever is declared as that password and behind
it. -/
theorem run_ignores_rest_of_plan_inquirer :
    let runner : Runner := ⟨5000, 5000, none, "."⟩
    let plan : Plan := ⟨[.password .master "open" false, .password .secret "new" false]⟩
    let other : Plan :=
      ⟨[.password .master "open" false, .password .secret "old" true, .yesNo "y"]⟩
    (runner.run "asks" (.lone plan 0) (.lone inquirer)).1.outcome =
        .error (.protocolViolation "/run" 1 (.password .secret) (.unseen 5000)
          "password: sure? (y/n) ") ∧
      runner.run "asks" (.lone other 0) (.lone inquirer) =
        runner.run "asks" (.lone plan 0) (.lone inquirer) := by
  intro runner plan other
  have houtcome : (runner.run "asks" (.lone plan 0) (.lone inquirer)).1.outcome =
      .error (.protocolViolation "/run" 1 (.password .secret) (.unseen 5000)
        "password: sure? (y/n) ") := by
    rw [run_of_starts (runner.starts_lone rfl "asks" plan 0 inquirer)]
    rfl
  exact ⟨houtcome, @run_ignores_rest_of_plan _ _ _ (.lone plan 0) _ _ _ _ _ other houtcome
    (by decide) (by decide)⟩

end Runner

end PromptHarness
