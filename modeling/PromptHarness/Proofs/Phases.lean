import PromptHarness.Proofs.Runs

/-!
# The phases of a run

The phases that a run goes through and what comes of it are put together in different places, and
yet each tells the other (`PhasesAgree`).  The code of a phase `exited` is that of the process's own
ending.  The memory checker's code is looked at before the expected one, but since the two always
differ, no verdict stands in the way of another.
-/

namespace PromptHarness

open Position

/-! ## Reading phases -/

def Phase.isPrompt : Phase → Bool
  | consumingPrompt _ => true
  | _ => false

@[simp]
theorem length_prompts (step count : Nat) : (prompts step count).length = count := by
  simp [prompts]

theorem isPrompt_of_mem_prompts {step count : Nat} {phase : Phase}
    (hphase : phase ∈ prompts step count) : phase.isPrompt = true := by
  obtain ⟨number, -, rfl⟩ := List.mem_map.mp hphase
  rfl

/-- The phases of the prompts can be told from those behind them. -/
theorem prompts_append_inj {count count' : Nat} {first first' : Phase} {rest rest' : List Phase}
    (hfirst : first.isPrompt = false) (hfirst' : first'.isPrompt = false) :
    prompts 0 count ++ first :: rest = prompts 0 count' ++ first' :: rest' ↔
      count = count' ∧ first = first' ∧ rest = rest' := by
  constructor
  · intro hsame
    have hfront : ∀ count (first : Phase) rest, first.isPrompt = false →
        (prompts 0 count ++ first :: rest).takeWhile Phase.isPrompt = prompts 0 count := by
      intro count first rest hfirst
      rw [List.takeWhile_append_of_pos fun phase => isPrompt_of_mem_prompts]
      simp [hfirst]
    have hprompts : prompts 0 count = prompts 0 count' := by
      rw [← hfront count first rest hfirst, hsame, hfront count' first' rest' hfirst']
    have hcount : count = count' := by
      rw [← length_prompts 0 count, hprompts, length_prompts]
    rw [hprompts, List.append_cancel_left_eq, List.cons.injEq] at hsame
    exact ⟨hcount, hsame⟩
  · rintro ⟨rfl, rfl, rfl⟩
    rfl

def Phase.isOver : Phase → Bool
  | failed => true
  | exited _ => true
  | _ => false

theorem isOver_of_mem_prompts {step count : Nat} {phase : Phase}
    (hphase : phase ∈ prompts step count) : phase.isOver = false := by
  obtain ⟨number, -, rfl⟩ := List.mem_map.mp hphase
  rfl

/-- The ways that a run through `count` exchanges can go, as its phases tell them. -/
inductive Way where
  | unstarted
  | stuck (step : Nat)
  | undrained
  | ended (code : Int)

def Way.phases (count : Nat) : Way → List Phase
  | unstarted => []
  | stuck step => prompts 0 (step + 1) ++ [.failed]
  | undrained => prompts 0 count ++ [.drainingOutput, .failed]
  | ended code => prompts 0 count ++ [.drainingOutput, .exited code]

theorem Way.phases_inj (count : Nat) (way other : Way) :
    way.phases count = other.phases count ↔ way = other := by
  constructor
  · intro hsame
    cases way <;> cases other <;> simp only [phases] at hsame
    case unstarted.unstarted => rfl
    case stuck.stuck step step' =>
      obtain ⟨hstep, -, -⟩ := (prompts_append_inj rfl rfl).mp hsame
      rw [Nat.succ.inj hstep]
    case undrained.undrained => rfl
    case ended.ended code code' =>
      obtain ⟨-, -, hrest⟩ := (prompts_append_inj rfl rfl).mp hsame
      cases hrest
      rfl
    case undrained.ended code =>
      obtain ⟨-, -, hrest⟩ := (prompts_append_inj rfl rfl).mp hsame
      cases hrest
    case ended.undrained code =>
      obtain ⟨-, -, hrest⟩ := (prompts_append_inj rfl rfl).mp hsame
      cases hrest
    case stuck.undrained step => cases ((prompts_append_inj rfl rfl).mp hsame).2.1
    case stuck.ended step code => cases ((prompts_append_inj rfl rfl).mp hsame).2.1
    case undrained.stuck step => cases ((prompts_append_inj rfl rfl).mp hsame).2.1
    case ended.stuck code step => cases ((prompts_append_inj rfl rfl).mp hsame).2.1
    all_goals simp at hsame
  · rintro rfl
    rfl

/-- Nothing comes behind a phase in which a run is over. -/
theorem Way.isOver_of_mem_dropLast (count : Nat) (way : Way) :
    ∀ phase ∈ (way.phases count).dropLast, phase.isOver = false := by
  have hprompts : ∀ count (last : Phase), ∀ phase ∈ (prompts 0 count ++ [last]).dropLast,
      phase.isOver = false := by
    intro count last phase hphase
    rw [List.dropLast_concat] at hphase
    exact isOver_of_mem_prompts hphase
  have hdraining : ∀ last : Phase, ∀ phase ∈ (prompts 0 count ++ [.drainingOutput, last]).dropLast,
      phase.isOver = false := by
    intro last phase hphase
    rw [List.dropLast_append_cons, List.mem_append] at hphase
    rcases hphase with hprompt | hlast
    · exact isOver_of_mem_prompts hprompt
    · rw [List.mem_singleton.mp hlast]
      rfl
  cases way with
  | unstarted => simp [phases]
  | stuck step => exact hprompts (step + 1) .failed
  | undrained => exact hdraining .failed
  | ended code => exact hdraining (.exited code)

/-! ## Phases and outcome -/

/-- What it means that the phases of a run through `count` exchanges tell its outcome, and the
outcome its phases. -/
structure PhasesAgree (count exitTimeout : Nat) (command : String)
    (reserved : Option (Int × String)) (expected : Int) (run : Run) : Prop where
  spawn : run.phases = [] ↔ ∃ failure, run.outcome = .error (.spawn command failure)
  violation : ∀ step, run.phases = prompts 0 (step + 1) ++ [.failed] ↔
    ∃ cue failure transcript,
      run.outcome = .error (.protocolViolation command step cue failure transcript)
  /-- A prompt that fails is one of the plan. -/
  step : ∀ step, run.phases = prompts 0 (step + 1) ++ [.failed] → step < count
  /-- Where draining fails, the time was up or nothing could be made of the ending. -/
  late : run.phases = prompts 0 count ++ [.drainingOutput, .failed] ↔
    (∃ output, run.outcome = .error (.exitTimeout command exitTimeout output)) ∨
      run.outcome = .error (.io .unknownSignal)
  /-- There are no other phases to go through. -/
  cases : run.phases = [] ∨ (∃ step, run.phases = prompts 0 (step + 1) ++ [.failed]) ∨
    run.phases = prompts 0 count ++ [.drainingOutput, .failed] ∨
      ∃ code, run.phases = prompts 0 count ++ [.drainingOutput, .exited code]
  /-- The verdict on an exit code that is expected. -/
  accepted : ∀ code, run.phases = prompts 0 count ++ [.drainingOutput, .exited code] →
    ((∃ result, run.outcome = .ok result) ↔ code = expected)
  /-- The verdict on an exit code that is reserved. -/
  defect : ∀ code, run.phases = prompts 0 count ++ [.drainingOutput, .exited code] →
    ∀ logFile, run.outcome = .error (.memoryDefect command code logFile) ↔
      reserved = some (code, logFile)
  /-- The verdict on any other exit code. -/
  unexpected : ∀ code, run.phases = prompts 0 count ++ [.drainingOutput, .exited code] →
    ((∃ output, run.outcome = .error (.unexpectedExitCode command expected code output)) ↔
      code ≠ expected ∧ ∀ logFile, reserved ≠ some (code, logFile))
  /-- A code that is reserved is never expected. -/
  exclusive : ∀ code logFile, reserved = some (code, logFile) → code ≠ expected
  terminal : ∀ phase ∈ run.phases.dropLast, phase.isOver = false

/-- The phases agree with the outcome if the way that the run has gone does. -/
theorem phasesAgree_of_way {count exitTimeout : Nat} {command : String}
    {reserved : Option (Int × String)} {expected : Int} {run : Run} (way : Way)
    (hphases : run.phases = way.phases count)
    (hspawn : way = .unstarted ↔ ∃ failure, run.outcome = .error (.spawn command failure))
    (hviolation : ∀ step, way = .stuck step ↔ ∃ cue failure transcript,
      run.outcome = .error (.protocolViolation command step cue failure transcript))
    (hstep : ∀ step, way = .stuck step → step < count)
    (hlate : way = .undrained ↔
      (∃ output, run.outcome = .error (.exitTimeout command exitTimeout output)) ∨
        run.outcome = .error (.io .unknownSignal))
    (haccepted : ∀ code, way = .ended code →
      ((∃ result, run.outcome = .ok result) ↔ code = expected))
    (hdefect : ∀ code, way = .ended code → ∀ logFile,
      run.outcome = .error (.memoryDefect command code logFile) ↔ reserved = some (code, logFile))
    (hunexpected : ∀ code, way = .ended code →
      ((∃ output, run.outcome = .error (.unexpectedExitCode command expected code output)) ↔
        code ≠ expected ∧ ∀ logFile, reserved ≠ some (code, logFile)))
    (hexclusive : ∀ code logFile, reserved = some (code, logFile) → code ≠ expected) :
    PhasesAgree count exitTimeout command reserved expected run := by
  have hway : ∀ other : Way, run.phases = other.phases count ↔ way = other := by
    intro other
    rw [hphases, way.phases_inj]
  constructor
  case spawn => exact (hway .unstarted).trans hspawn
  case violation => exact fun step => (hway (.stuck step)).trans (hviolation step)
  case step => exact fun step hstuck => hstep step ((hway (.stuck step)).mp hstuck)
  case late => exact (hway .undrained).trans hlate
  case cases =>
    cases way with
    | unstarted => exact .inl hphases
    | stuck step => exact .inr (.inl ⟨step, hphases⟩)
    | undrained => exact .inr (.inr (.inl hphases))
    | ended code => exact .inr (.inr (.inr ⟨code, hphases⟩))
  case accepted => exact fun code hended => haccepted code ((hway (.ended code)).mp hended)
  case defect => exact fun code hended => hdefect code ((hway (.ended code)).mp hended)
  case unexpected => exact fun code hended => hunexpected code ((hway (.ended code)).mp hended)
  case exclusive => exact hexclusive
  case terminal =>
    rw [hphases]
    exact way.isOver_of_mem_dropLast count

theorem Runner.Course.phasesAgree {runner : Runner} {command : String}
    {reserved : Option (Int × String)} {invocation : Invocation} {start final : Position}
    {run : Run} (hcourse : runner.Course command reserved invocation start final run)
    (hexclusive : ∀ code logFile, reserved = some (code, logFile) → code ≠ invocation.expected) :
    PhasesAgree invocation.plan.exchanges.length runner.exitTimeout command reserved
      invocation.expected run := by
  cases hcourse with
  | @stuck done exchange last halt hmissed hwaited =>
      obtain ⟨rest, hexchanges⟩ := hmissed.next
      have hlength : done.length < invocation.plan.exchanges.length := by
        rw [hexchanges, List.length_append, List.length_cons]
        omega
      apply phasesAgree_of_way (.stuck done.length) rfl
      case hstep =>
        rintro step ⟨⟩
        exact hlength
      case hexclusive => exact hexclusive
      all_goals simp
  | overdue =>
      apply phasesAgree_of_way .undrained rfl
      case hexclusive => exact hexclusive
      all_goals simp
  | @ended last ending =>
      apply phasesAgree_of_way (.ended ending.code) rfl
      case hspawn => simp [judge_ne]
      case hviolation => simp [judge_ne]
      case hstep => simp
      case hlate => simp [judge_ne]
      case haccepted =>
        rintro code ⟨⟩
        constructor
        · rintro ⟨result, hresult⟩
          exact (judge_eq_ok_iff.mp hresult).2.1
        · intro hexpected
          refine ⟨_, judge_eq_ok_iff.mpr ⟨?_, hexpected, rfl⟩⟩
          intro logFile hreserved
          exact hexclusive _ logFile hreserved hexpected
      case hdefect =>
        rintro code ⟨⟩ logFile
        simp [judge_eq_memoryDefect_iff]
      case hunexpected =>
        rintro code ⟨⟩
        constructor
        · rintro ⟨output, hverdict⟩
          obtain ⟨hnone, hother, -⟩ := judge_eq_unexpectedExitCode_iff.mp hverdict
          exact ⟨hother, hnone⟩
        · rintro ⟨hother, hnone⟩
          exact ⟨_, judge_eq_unexpectedExitCode_iff.mpr ⟨hnone, hother, rfl, rfl, rfl, rfl⟩⟩
      case hexclusive => exact hexclusive
  | nameless =>
      apply phasesAgree_of_way .undrained rfl
      case hexclusive => exact hexclusive
      all_goals simp

/-- The phases of every run agree with its outcome.  Where the process has exited, the code is that
of its own ending, which has a name; where nothing can be made of its ending, it has died by a signal
without a name.  Conversely an ending with a name makes the run exit with its code, and one without
a name makes it fail.  However the run goes, the process is gone when it is over. -/
theorem run_phasesAgree (runner : Runner) (test : String) (invocation : Invocation)
    (machine : Machine) :
    PhasesAgree invocation.plan.exchanges.length runner.exitTimeout
        (runner.command test invocation) (runner.reserved test invocation) invocation.expected
        (runner.run test invocation machine).1 ∧
      ∀ process, runner.Starts test invocation machine process →
        (∀ code, .exited code ∈ (runner.run test invocation machine).1.phases →
          ∃ last final ending,
            Conversed runner.promptTimeout (.start process machine.files)
              invocation.plan.exchanges last ∧
            last.Reaches final ∧ final.process = .finished ending ∧ ending.isNamed = true ∧
            code = ending.code) ∧
        ((runner.run test invocation machine).1.outcome = .error (.io .unknownSignal) →
          ∃ last final signal,
            Conversed runner.promptTimeout (.start process machine.files)
              invocation.plan.exchanges last ∧
            last.Reaches final ∧ final.process = .finished (.signaled signal) ∧
            Ending.signalName? signal = none) ∧
        (∀ last final ending, runner.Ended invocation.plan.exchanges (.start process machine.files)
            last final ending →
          (ending.isNamed = true → (runner.run test invocation machine).1.phases =
            prompts 0 invocation.plan.exchanges.length ++
              [.drainingOutput, .exited ending.code]) ∧
          (ending.isNamed = false → (runner.run test invocation machine).1 =
            ⟨prompts 0 invocation.plan.exchanges.length ++ [.drainingOutput, .failed],
              .error (.io .unknownSignal)⟩)) ∧
        (runner.run test invocation machine).2.child? machine.nextNumber = none := by
  constructor
  · have hexclusive := @Runner.reserved_ne runner test invocation
    rcases runner.starts_or_error test invocation machine with ⟨process, hstarts⟩ | ⟨error, herror⟩
    · obtain ⟨final, signals, hcourse, -⟩ := Runner.run_course hstarts
      exact hcourse.phasesAgree fun code logFile => hexclusive
    · rw [Runner.run_of_error herror]
      apply phasesAgree_of_way .unstarted rfl
      case hexclusive => exact fun code logFile => hexclusive
      all_goals simp
  · intro process hstarts
    refine ⟨?_, ?_, ?_, Runner.child?_run hstarts⟩
    · intro code hexited
      obtain ⟨last, final, ending, hended, hnamed, rfl⟩ :=
        (Runner.exited_mem_phases_iff hstarts).mp hexited
      exact ⟨last, final, ending, hended.conversed, hended.reaches, hended.finished, hnamed, rfl⟩
    · intro hunknown
      obtain ⟨last, final, signal, hended, hnameless⟩ :=
        Runner.exists_ended_of_unknownSignal hstarts hunknown
      exact ⟨last, final, signal, hended.conversed, hended.reaches, hended.finished, hnameless⟩
    · intro last final ending hended
      rw [Runner.run_of_starts hstarts]
      refine ⟨fun hnamed => ?_, fun hnameless => hended.attend_nameless hnameless _ _⟩
      rw [hended.attend hnamed]

/-- A process that dies by a signal without a name makes the run fail behind the prompts although it
has not outlived the time. -/
theorem run_fails_of_nameless :
    let casualty : Process Ending := .finished (.signaled 34)
    let runner : Runner := ⟨5000, 5000, none, "."⟩
    let run := (runner.run "dies" (.lone .empty 0) (.lone casualty)).1
    run.phases = [.drainingOutput, .failed] ∧
      run.phases ≠ [.drainingOutput, .exited (Ending.signaled 34).code] ∧
      run.outcome = .error (.io .unknownSignal) ∧
      ∀ command time output, run.outcome ≠ .error (.exitTimeout command time output) := by
  intro casualty runner run
  have hrun : run.phases = [.drainingOutput, .failed] ∧
      run.outcome = .error (.io .unknownSignal) := by
    simp only [run]
    rw [Runner.run_of_starts (runner.starts_lone rfl "dies" .empty 0 casualty)]
    exact ⟨rfl, rfl⟩
  obtain ⟨hphases, houtcome⟩ := hrun
  refine ⟨hphases, ?_, houtcome, ?_⟩
  · rw [hphases]
    decide
  · rw [houtcome]
    simp

end PromptHarness
