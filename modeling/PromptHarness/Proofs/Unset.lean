import PromptHarness.Proofs.Layers
import PromptHarness.Proofs.Variables

/-!
# Variables that are set to nothing

A variable that is set to the empty text counts as one that is not set, whichever of the settings it
is for.  The one exception is the variable that names the document: its empty text is taken for a
path, to which no file ever belongs, so that there are no settings at all
(`Settings.load_withoutEmpty`).
-/

namespace PromptHarness

namespace Environment

/-- The variables without those of some names that are set to the empty text. -/
def withoutEmpty (environment : Environment) (names : List String) : Environment :=
  environment.filter fun entry =>
    !(names.contains entry.1 && environment.value? entry.1 == some "")

/-- Dropping variables by their names leaves the values of the others as they are. -/
theorem value?_filter (environment : Environment) (keep : String → Bool) (name : String) :
    value? (environment.filter fun entry => keep entry.1) name =
      if keep name then environment.value? name else none := by
  rw [value?, ← List.filter_reverse, lookup_filter environment.reverse keep name]
  rfl

theorem value?_withoutEmpty (environment : Environment) (names : List String) (name : String) :
    (environment.withoutEmpty names).value? name =
      if name ∈ names ∧ environment.value? name = some "" then none
      else environment.value? name := by
  have hkeep := environment.value?_filter
    (fun name => !(names.contains name && environment.value? name == some "")) name
  rw [withoutEmpty, hkeep]
  by_cases hempty : name ∈ names ∧ environment.value? name = some ""
  · simp [hempty]
  · rw [if_neg hempty, if_pos]
    rw [not_and_or] at hempty
    simpa using hempty

/-- A variable that is kept has the value that it had. -/
theorem value?_withoutEmpty_of_filled {environment : Environment} {names : List String}
    {name : String} (hfilled : name ∈ names → environment.value? name ≠ some "") :
    (environment.withoutEmpty names).value? name = environment.value? name := by
  rw [value?_withoutEmpty, if_neg]
  rintro ⟨hname, hempty⟩
  exact hfilled hname hempty

end Environment

namespace Settings

variable {read : String → Except FileError Bytes} {environment : Environment}
  {names : List String}

/-- Whoever looks for a value that is not empty does not see whether empty ones have been dropped. -/
theorem given?_withoutEmpty (environment : Environment) (names : List String) (name : String) :
    given? (environment.withoutEmpty names) name = given? environment name := by
  rw [given?, given?, Environment.value?_withoutEmpty]
  split
  · next hempty =>
    rw [hempty.2]
    rfl
  · rfl

theorem checkerOf_withoutEmpty (environment : Environment) (names : List String) :
    checkerOf (environment.withoutEmpty names) = checkerOf environment := by
  rw [checkerOf, checkerOf, given?_withoutEmpty, given?_withoutEmpty]

theorem override_withoutEmpty (settings : Settings) (environment : Environment)
    (names : List String) :
    settings.override (environment.withoutEmpty names) = settings.override environment := by
  rw [override, override, checkerOf_withoutEmpty, given?_withoutEmpty, given?_withoutEmpty,
    given?_withoutEmpty]

/-- Only the layers below the environment can tell that empty variables have been dropped. -/
theorem load_withoutEmpty_eq (read : String → Except FileError Bytes) (environment : Environment)
    (names : List String) :
    load read (environment.withoutEmpty names) =
      (ofLowerLayers read (environment.withoutEmpty names)).bind (·.override environment) := by
  rw [load_eq]
  simp only [override_withoutEmpty]

theorem load_withoutEmpty_of_filled
    (hfilled : "KP_HARNESS_CONFIG" ∈ names →
      environment.value? "KP_HARNESS_CONFIG" ≠ some "") :
    load read (environment.withoutEmpty names) = load read environment := by
  rw [load_withoutEmpty_eq, load_eq, ofLowerLayers, ofLowerLayers,
    Environment.value?_withoutEmpty_of_filled hfilled]

/-! ## A document without a name -/

/-- No file belongs to the empty path. -/
theorem read_nameless (files : Files) : files.read "" = .error .missing := rfl

theorem load_of_nameless (files : Files)
    (hnameless : environment.value? "KP_HARNESS_CONFIG" = some "") :
    load files.read environment = .error (.settings (.unreadable "" (.file .missing))) := by
  rw [load_eq, ofLowerLayers, hnameless]
  simp only [ofFile, read_nameless]
  rfl

theorem fault_of_checkerOf {fault : Fault} (hchecker : checkerOf environment = .error fault) :
    fault = .settings .unsplittableOptions := by
  unfold checkerOf at hchecker
  split at hchecker
  · cases hchecker
  · split at hchecker
    · cases hchecker
    · split at hchecker
      · cases hchecker
      · cases hchecker
        rfl

/-- Without the document there is no fault but that of the environment itself. -/
theorem override_ne_unreadable (settings : Settings) (environment : Environment) (path : String)
    (failure : IoFailure) :
    settings.override environment ≠ .error (.settings (.unreadable path failure)) := by
  rw [override]
  cases hchecker : checkerOf environment with
  | ok checker => simp [bind, Except.bind, pure, Except.pure]
  | error fault =>
      obtain rfl := fault_of_checkerOf hchecker
      simp [bind, Except.bind]

/-- What becomes of the settings when the variables of some names are dropped that are set to the
empty text. -/
structure IgnoresEmpty (files : Files) (environment : Environment) (names : List String) :
    Prop where
  /-- The settings or the fault stay the same, unless it is the name of the document that is
  dropped. -/
  same : load files.read (environment.withoutEmpty names) = load files.read environment ↔
    ("KP_HARNESS_CONFIG" ∈ names → environment.value? "KP_HARNESS_CONFIG" ≠ some "")
  /-- An empty name is taken for a path, to which no file belongs. -/
  nameless : environment.value? "KP_HARNESS_CONFIG" = some "" →
    load files.read environment = .error (.settings (.unreadable "" (.file .missing)))
  /-- Once it is dropped, the environment and the defaults make the settings. -/
  dropped : "KP_HARNESS_CONFIG" ∈ names →
    environment.value? "KP_HARNESS_CONFIG" = some "" →
    load files.read (environment.withoutEmpty names) = default.override environment

/-- Empty variables make no difference to the settings, but for the one that names the document. -/
theorem load_withoutEmpty (files : Files) (environment : Environment) (names : List String) :
    IgnoresEmpty files environment names := by
  have hdropped : "KP_HARNESS_CONFIG" ∈ names →
      environment.value? "KP_HARNESS_CONFIG" = some "" →
      load files.read (environment.withoutEmpty names) = default.override environment := by
    intro hname hnameless
    rw [load_withoutEmpty_eq, ofLowerLayers, Environment.value?_withoutEmpty,
      if_pos ⟨hname, hnameless⟩]
    rfl
  constructor
  case same =>
    constructor
    · intro hsame hname hnameless
      rw [hdropped hname hnameless, load_of_nameless files hnameless] at hsame
      exact override_ne_unreadable _ _ _ _ hsame
    · exact load_withoutEmpty_of_filled
  case nameless => exact load_of_nameless files
  case dropped => exact hdropped

/-- With nothing but an empty name for the document there are no settings, while without any
variable there are the defaults. -/
theorem load_fails_of_nameless :
    let environment := [("KP_HARNESS_CONFIG", "")]
    Environment.withoutEmpty environment variableNames = [] ∧
      load Files.empty.read [] = .ok default ∧
      load Files.empty.read environment =
        .error (.settings (.unreadable "" (.file .missing))) := by
  intro environment
  have hdropped : Environment.withoutEmpty environment variableNames = [] := by decide
  exact ⟨hdropped, rfl, load_of_nameless Files.empty rfl⟩

end Settings

end PromptHarness
