import PromptHarness.Runner

/-!
# Verdicts

An exit code that is reserved for the memory checker means a defect, an expected one that all is
well, and every other one is unexpected.  The reserved code is looked at first, but it is never the
expected one.
-/

namespace PromptHarness

namespace Runner

def command (runner : Runner) (test : String) (invocation : Invocation) : String :=
  commandLine (runner.dressed test invocation).1 (runner.dressed test invocation).2.1

/-- The code reserved for the memory checker and its log file, if there is a checker. -/
def reserved (runner : Runner) (test : String) (invocation : Invocation) :
    Option (Int × String) :=
  (runner.dressed test invocation).2.2

/-- The code reserved for the memory checker is never expected of the command. -/
theorem reserved_ne {runner : Runner} {test : String} {invocation : Invocation} {code : Int}
    {logFile : String} (hreserved : runner.reserved test invocation = some (code, logFile)) :
    code ≠ invocation.expected := by
  unfold reserved dressed at hreserved
  split at hreserved
  · cases hreserved
  · cases hreserved
    exact Checker.reservedCode_ne invocation.expected

end Runner

/-- The three verdicts on an exit code. -/
theorem judge_cases (command : String) (reserved : Option (Int × String)) (expected code : Int)
    (result : CommandResult) :
    (∃ logFile, reserved = some (code, logFile) ∧
      judge command reserved expected code result = .error (.memoryDefect command code logFile)) ∨
    ((∀ logFile, reserved ≠ some (code, logFile)) ∧ code = expected ∧
      judge command reserved expected code result = .ok result) ∨
    ((∀ logFile, reserved ≠ some (code, logFile)) ∧ code ≠ expected ∧
      judge command reserved expected code result =
        .error (.unexpectedExitCode command expected code result.output)) := by
  by_cases hreserved : ∃ logFile, reserved = some (code, logFile)
  · obtain ⟨logFile, hreserved⟩ := hreserved
    exact .inl ⟨logFile, hreserved, by simp [judge, hreserved]⟩
  · have hplain : judge command reserved expected code result =
        judge.plain command expected code result := by
      unfold judge
      split
      · next reservedCode logFile =>
        rw [if_neg]
        rintro rfl
        exact hreserved ⟨logFile, rfl⟩
      · rfl
    have hnone : ∀ logFile, reserved ≠ some (code, logFile) :=
      fun logFile hsome => hreserved ⟨logFile, hsome⟩
    by_cases hexpected : code = expected
    · exact .inr (.inl ⟨hnone, hexpected, by rw [hplain, judge.plain, if_pos hexpected]⟩)
    · exact .inr (.inr ⟨hnone, hexpected, by rw [hplain, judge.plain, if_neg hexpected]⟩)

section Verdict

variable {command : String} {reserved : Option (Int × String)} {expected code : Int}
  {result : CommandResult}

theorem judge_eq_ok_iff {other : CommandResult} :
    judge command reserved expected code result = .ok other ↔
      (∀ logFile, reserved ≠ some (code, logFile)) ∧ code = expected ∧ other = result := by
  rcases judge_cases command reserved expected code result with
    ⟨logFile, hreserved, hjudge⟩ | ⟨hnone, hexpected, hjudge⟩ | ⟨hnone, hexpected, hjudge⟩
  · rw [hjudge]
    simp [hreserved]
  · subst hexpected
    rw [hjudge]
    simp [hnone, eq_comm]
  · rw [hjudge]
    simp [hexpected]

theorem judge_eq_memoryDefect_iff {command' logFile : String} {code' : Int} :
    judge command reserved expected code result = .error (.memoryDefect command' code' logFile) ↔
      reserved = some (code, logFile) ∧ command' = command ∧ code' = code := by
  rcases judge_cases command reserved expected code result with
    ⟨logFile', hreserved, hjudge⟩ | ⟨hnone, -, hjudge⟩ | ⟨hnone, -, hjudge⟩
  · rw [hjudge, hreserved]
    constructor
    · rintro ⟨⟩
      exact ⟨rfl, rfl, rfl⟩
    · rintro ⟨hsame, rfl, rfl⟩
      cases hsame
      rfl
  · simp [hjudge, hnone]
  · simp [hjudge, hnone]

theorem judge_eq_unexpectedExitCode_iff {command' output : String} {expected' actual : Int} :
    judge command reserved expected code result =
        .error (.unexpectedExitCode command' expected' actual output) ↔
      (∀ logFile, reserved ≠ some (code, logFile)) ∧ code ≠ expected ∧ command' = command ∧
        expected' = expected ∧ actual = code ∧ output = result.output := by
  rcases judge_cases command reserved expected code result with
    ⟨logFile, hreserved, hjudge⟩ | ⟨-, hexpected, hjudge⟩ | ⟨hnone, hexpected, hjudge⟩
  · rw [hjudge]
    simp [hreserved]
  · rw [hjudge]
    simp [hexpected]
  · rw [hjudge]
    simp [hnone, hexpected, eq_comm]

/-- The three verdicts told by the code, where one is reserved that is not expected. -/
theorem judge_reserved {logFile : String} {reserved : Int} (hne : reserved ≠ expected) :
    (judge command (some (reserved, logFile)) expected code result =
        .error (.memoryDefect command reserved logFile) ↔ code = reserved) ∧
    ((∃ other, judge command (some (reserved, logFile)) expected code result = .ok other) ↔
      code = expected) ∧
    ((∃ output, judge command (some (reserved, logFile)) expected code result =
        .error (.unexpectedExitCode command expected code output)) ↔
      code ≠ reserved ∧ code ≠ expected) := by
  have hother : (∀ logFile', some (reserved, logFile) ≠ some (code, logFile')) ↔
      code ≠ reserved := by
    constructor
    · rintro hnone rfl
      exact hnone logFile rfl
    · rintro hcode logFile' ⟨⟩
      exact hcode rfl
  refine ⟨?_, ?_, ?_⟩
  · rw [judge_eq_memoryDefect_iff]
    simp [eq_comm]
  · constructor
    · rintro ⟨other, hverdict⟩
      exact (judge_eq_ok_iff.mp hverdict).2.1
    · rintro rfl
      exact ⟨result, judge_eq_ok_iff.mpr ⟨hother.mpr hne.symm, rfl, rfl⟩⟩
  · constructor
    · rintro ⟨output, hverdict⟩
      obtain ⟨hnone, hexpected, -⟩ := judge_eq_unexpectedExitCode_iff.mp hverdict
      exact ⟨hother.mp hnone, hexpected⟩
    · rintro ⟨hcode, hexpected⟩
      exact ⟨_, judge_eq_unexpectedExitCode_iff.mpr
        ⟨hother.mpr hcode, hexpected, rfl, rfl, rfl, rfl⟩⟩

/-- Only an exit code that is reserved, expected or neither is judged. -/
theorem judge_ne {fault : Fault} (hmemory : ∀ command code logFile,
      fault ≠ .memoryDefect command code logFile)
    (hunexpected : ∀ command expected actual output,
      fault ≠ .unexpectedExitCode command expected actual output) :
    judge command reserved expected code result ≠ .error fault := by
  rcases judge_cases command reserved expected code result with
    ⟨logFile, -, hjudge⟩ | ⟨-, -, hjudge⟩ | ⟨-, -, hjudge⟩
  · simp [hjudge, (hmemory _ _ _).symm]
  · simp [hjudge]
  · simp [hjudge, (hunexpected _ _ _ _).symm]

end Verdict

end PromptHarness
