import PromptHarness.Announcement
import PromptHarness.Home
import PromptHarness.Machine

/-!
# The variables that a process finds

A process is given the variables of the machine and behind them those that it is started with, and
of two entries for one name it finds the later.  Entries arrive as they were set, unless there is an
equals sign in the name, and there is none in the names of the home's variables or in a name that
was announced.
-/

namespace PromptHarness

namespace Environment

theorem value?_append (first second : Environment) (name : String) :
    value? (first ++ second) name = (value? second name).or (value? first name) := by
  unfold value?
  rw [List.reverse_append, List.lookup_append]

theorem value?_singleton (key value name : String) :
    value? [(key, value)] name = if key = name then some value else none := by
  by_cases hsame : key = name
  · subst hsame
    simp [value?]
  · have hdifferent : (name == key) = false := by simpa using Ne.symm hsame
    simp [value?, List.lookup_cons, hdifferent, hsame]

/-- An entry that is set only where there is something to set. -/
theorem value?_toList {α : Type} (key : String) (text : α → String) (value : Option α)
    (name : String) :
    value? (value.map fun value => (key, text value)).toList name =
      if key = name then value.map text else none := by
  cases value with
  | none => simp [value?]
  | some value => exact value?_singleton key (text value) name

/-- An entry arrives as it was set if there is no equals sign in its name behind the first
character. -/
theorem received_eq {entry : String × String} (hname : '=' ∉ entry.1.toList.tail) :
    received entry = entry := by
  unfold received
  split
  · rfl
  · next first rest hchars =>
    rw [hchars, List.tail_cons] at hname
    rw [if_neg]
    simpa using hname

end Environment

/-! ## Announced names -/

namespace Binding

/-- Only a name is ever announced. -/
theorem isName_of_parse {line : String} {binding : Binding} (hparse : parse line = .ok binding) :
    isName binding.key.toList = true := by
  simp only [parse] at hparse
  split at hparse
  · next key value hparts =>
    cases hparse
    rw [String.toList_ofList]
    unfold parts? at hparts
    split at hparts
    · cases hparts
    · next before after _ =>
      dsimp only at hparts
      split at hparts
      · next hname =>
        cases hvalue : value? (Text.trimStart after) with
        | error flaw =>
            rw [hvalue] at hparts
            cases hparts
        | ok value =>
            rw [hvalue] at hparts
            cases hparts
            exact hname
      · cases hparts
  · cases hparse

theorem received_entry {binding : Binding} (hname : isName binding.key.toList = true) :
    Environment.received binding.entry = binding.entry := by
  apply Environment.received_eq
  change '=' ∉ binding.key.toList.tail
  cases hchars : binding.key.toList with
  | nil => simp
  | cons first rest =>
      rw [hchars, isName, Bool.and_eq_true, List.all_eq_true] at hname
      intro hequals
      have hrest := hname.2 '=' hequals
      exact absurd hrest (by decide)

end Binding

/-! ## The variables of a home -/

namespace Home

/-- The names of the variables that a home sets. -/
def variableNames : List String := ["HOME", "EDITOR", "EDITOR_ENV"]

def setting? (home : Home) (name : String) : Option String :=
  if name = "HOME" then some home.root
  else if name = "EDITOR" then home.editor.map home.editorPath
  else if name = "EDITOR_ENV" then home.payload
  else none

theorem value?_environment (home : Home) (name : String) :
    Environment.value? home.environment name = home.setting? name := by
  have hpayload := Environment.value?_toList "EDITOR_ENV" id home.payload name
  have heditor := Environment.value?_toList "EDITOR" home.editorPath home.editor name
  unfold environment setting?
  rw [Environment.value?_append, Environment.value?_append, Environment.value?_singleton, heditor]
  simp only [id] at hpayload
  rw [hpayload]
  -- No two of the names are the same, so it does not matter in which order they are set.
  by_cases hroot : name = "HOME"
  · subst hroot
    simp
  · by_cases hedit : name = "EDITOR"
    · subst hedit
      simp
    · by_cases htext : name = "EDITOR_ENV"
      · subst htext
        simp
      · simp [hroot, hedit, htext, Ne.symm hroot, Ne.symm hedit, Ne.symm htext]

/-- In a home that has just been made nothing is chosen yet. -/
theorem eq_of_setup {root : String} {editorDirectory : Option String} {files later : Files}
    {home : Home} (hsetup : setup root editorDirectory files = (.ok home, later)) :
    home = ⟨root, editorDirectory.getD (Path.join root editorsName), none, none, false⟩ := by
  cases editorDirectory with
  | none =>
      cases hsetup
      rfl
  | some directory =>
      simp only [setup] at hsetup
      split at hsetup
      · cases hsetup
        rfl
      · cases hsetup

/-- Tearing a home down changes nothing of what is chosen in it. -/
theorem home_teardown (home : Home) (files : Files) :
    (home.teardown files).2.1 = { home with tornDown := true } := by
  unfold teardown
  split
  · next htorn => rw [← htorn]
  · dsimp only
    split <;> rfl

theorem name_of_mem_environment {home : Home} {entry : String × String}
    (hentry : entry ∈ home.environment) : entry.1 ∈ variableNames := by
  simp only [environment, List.mem_append, List.mem_singleton, Option.mem_toList,
    Option.map_eq_some_iff] at hentry
  rcases hentry with (rfl | ⟨editor, -, rfl⟩) | ⟨payload, -, rfl⟩
  · simp [variableNames]
  · simp [variableNames]
  · simp [variableNames]

theorem map_received_environment (home : Home) :
    home.environment.map Environment.received = home.environment := by
  have hplain : ∀ name ∈ variableNames, '=' ∉ name.toList.tail := by decide
  have hsame : ∀ entry ∈ home.environment, Environment.received entry = id entry := by
    intro entry hentry
    exact Environment.received_eq (hplain _ (name_of_mem_environment hentry))
  rw [List.map_congr_left hsame, List.map_id]

end Home

end PromptHarness
