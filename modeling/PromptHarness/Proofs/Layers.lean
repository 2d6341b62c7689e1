import PromptHarness.Proofs.Documents

/-!
# Settings by layers

The environment wins over the document that it names, and the document wins over the defaults, each
setting for itself; only the memory checker with its options comes from one layer as a whole.  There
are settings unless the document cannot be read or the options of a checker that the environment
names cannot be split.
-/

namespace PromptHarness

namespace Settings

variable {read : String → Except FileError Bytes} {environment : Environment} {name : String}

/-! ## Variables -/

/-- A variable is set to a text that is not empty. -/
def Sets (environment : Environment) (name text : String) : Prop :=
  environment.value? name = some text ∧ text ≠ ""

/-- A setting is what a variable that is set makes of it, and without one what it would be
otherwise. -/
def Decides {α : Type} (environment : Environment) (name : String) (ofText : String → α)
    (otherwise setting : α) : Prop :=
  (∀ text, Sets environment name text → setting = ofText text) ∧
    ((∀ text, ¬Sets environment name text) → setting = otherwise)

theorem given?_eq_some_iff {text : String} :
    given? environment name = some text ↔ Sets environment name text := by
  rw [given?, Option.filter_eq_some_iff, Sets]
  simp

theorem given?_eq_none_iff :
    given? environment name = none ↔ ∀ text, ¬Sets environment name text := by
  rw [Option.eq_none_iff_forall_ne_some]
  exact forall_congr' fun text => not_congr given?_eq_some_iff

theorem decides_of_eq {α : Type} {ofText : String → α} {otherwise setting : α}
    (hsetting : setting = (given? environment name).elim otherwise ofText) :
    Decides environment name ofText otherwise setting := by
  rw [hsetting]
  constructor
  · intro text hset
    rw [given?_eq_some_iff.mpr hset]
    rfl
  · intro hunset
    rw [given?_eq_none_iff.mpr hunset]
    rfl

theorem decides_or (environment : Environment) (name : String) (otherwise : Option String) :
    Decides environment name some otherwise ((given? environment name).or otherwise) := by
  refine decides_of_eq ?_
  cases given? environment name with
  | none => rfl
  | some text => rfl

theorem decides_getD (environment : Environment) (name otherwise : String) :
    Decides environment name id otherwise ((given? environment name).getD otherwise) := by
  refine decides_of_eq ?_
  cases given? environment name with
  | none => rfl
  | some text => rfl

theorem given?_congr {other : Environment} (hsame : other.value? name = environment.value? name) :
    given? other name = given? environment name := by
  rw [given?, given?, hsame]

/-! ## The document -/

/-- What the document gives that the environment names, if it names one. -/
inductive FileGives (read : String → Except FileError Bytes) (environment : Environment) :
    Given → Prop where
  | unnamed {given : Given} (hunnamed : environment.value? "KP_HARNESS_CONFIG" = none)
      (hgives : Gives [] given) : FileGives read environment given
  | named {path document : String} {given : Given}
      (hnamed : environment.value? "KP_HARNESS_CONFIG" = some path)
      (hread : read path = .ok (Text.encode document)) (hgives : Describes document given) :
      FileGives read environment given

def ofLowerLayers (read : String → Except FileError Bytes) (environment : Environment) :
    Except Fault Settings :=
  match environment.value? "KP_HARNESS_CONFIG" with
  | some path => ofFile path (read path)
  | none => .ok default

theorem load_eq (read : String → Except FileError Bytes) (environment : Environment) :
    load read environment =
      (ofLowerLayers read environment).bind (·.override environment) := by
  rw [load, ofLowerLayers]
  cases environment.value? "KP_HARNESS_CONFIG" with
  | none => rfl
  | some path => rfl

theorem ofLowerLayers_eq_ok_iff {settings : Settings} :
    ofLowerLayers read environment = .ok settings ↔
      ∃ given, FileGives read environment given ∧ settings = given.onto default := by
  rw [ofLowerLayers]
  cases hnamed : environment.value? "KP_HARNESS_CONFIG" with
  | none =>
      constructor
      · rintro ⟨⟩
        exact ⟨_, .unnamed hnamed (gives_nil_iff.mpr rfl), rfl⟩
      · rintro ⟨given, hfile, rfl⟩
        cases hfile with
        | unnamed hunnamed hgives =>
            obtain rfl := gives_nil_iff.mp hgives
            rfl
        | named hother hread hgives => cases hnamed.symm.trans hother
  | some path =>
      refine ofFile_eq_ok_iff.trans ⟨?_, ?_⟩
      · rintro ⟨document, given, hread, hgives, hsettings⟩
        exact ⟨given, .named hnamed hread hgives, hsettings⟩
      · rintro ⟨given, hfile, hsettings⟩
        cases hfile with
        | unnamed hunnamed hgives => cases hnamed.symm.trans hunnamed
        | named hother hread hgives =>
            cases hnamed.symm.trans hother
            exact ⟨_, given, hread, hgives, hsettings⟩

/-! ## The memory checker -/

/-- What the environment says of a memory checker cannot be understood. -/
def Unsplittable (environment : Environment) : Prop :=
  ∃ command options, Sets environment "VALGRIND_COMMAND" command ∧
    Sets environment "VALGRIND_OPTIONS" options ∧ Text.words? options = none

theorem checkerOf_of_unset (hunset : ∀ command, ¬Sets environment "VALGRIND_COMMAND" command) :
    checkerOf environment = .ok none := by
  rw [checkerOf, given?_eq_none_iff.mpr hunset]

theorem checkerOf_of_sets {command : String}
    (hcommand : Sets environment "VALGRIND_COMMAND" command) :
    checkerOf environment =
      match (given? environment "VALGRIND_OPTIONS").elim (some []) Text.words? with
      | some options => .ok (some ⟨command, options⟩)
      | none => .error (.settings .unsplittableOptions) := by
  rw [checkerOf, given?_eq_some_iff.mpr hcommand]
  cases given? environment "VALGRIND_OPTIONS" with
  | none => rfl
  | some options =>
      cases hwords : Text.words? options with
      | none => simp only [Option.elim_some, hwords]
      | some words => simp only [Option.elim_some, hwords]

theorem checkerOf_eq_error_iff :
    (∃ fault, checkerOf environment = .error fault) ↔ Unsplittable environment := by
  by_cases hset : ∃ command, Sets environment "VALGRIND_COMMAND" command
  · obtain ⟨command, hcommand⟩ := hset
    rw [checkerOf_of_sets hcommand]
    constructor
    · rintro ⟨fault, hfault⟩
      split at hfault
      · cases hfault
      · next hwords =>
        cases hoptions : given? environment "VALGRIND_OPTIONS" with
        | none =>
            rw [hoptions] at hwords
            cases hwords
        | some options =>
            rw [hoptions] at hwords
            exact ⟨command, options, hcommand, given?_eq_some_iff.mp hoptions, hwords⟩
    · rintro ⟨-, options, -, hoptions, hwords⟩
      rw [given?_eq_some_iff.mpr hoptions, Option.elim_some, hwords]
      exact ⟨_, rfl⟩
  · rw [checkerOf_of_unset (not_exists.mp hset)]
    refine iff_of_false (by simp) ?_
    rintro ⟨command, options, hcommand, -⟩
    exact hset ⟨command, hcommand⟩

/-! ## All layers -/

def variableNames : List String :=
  ["KP_HARNESS_CONFIG", "KP", "EDITOR_PATH", "KP_HARNESS_LOG_DIR", "VALGRIND_COMMAND",
    "VALGRIND_OPTIONS"]

/-- Why there are no settings. -/
inductive Fails (read : String → Except FileError Bytes) (environment : Environment) : Prop where
  /-- The document that is named is not there as a text. -/
  | unreadable (path : String) (hnamed : environment.value? "KP_HARNESS_CONFIG" = some path)
      (hunreadable : ∀ document, read path ≠ .ok (Text.encode document))
  | malformed (path document : String)
      (hnamed : environment.value? "KP_HARNESS_CONFIG" = some path)
      (hread : read path = .ok (Text.encode document))
      (hmalformed : ∀ given, ¬Describes document given)
  | unsplittable (hunsplittable : Unsplittable environment)

theorem Fails.of_nothing_given (hnothing : ∀ given, ¬FileGives read environment given) :
    Fails read environment := by
  cases hnamed : environment.value? "KP_HARNESS_CONFIG" with
  | none => exact absurd (.unnamed hnamed (gives_nil_iff.mpr rfl)) (hnothing _)
  | some path =>
      by_cases hread : ∃ document, read path = .ok (Text.encode document)
      · obtain ⟨document, hread⟩ := hread
        exact .malformed path document hnamed hread fun given hgives =>
          hnothing given (.named hnamed hread hgives)
      · exact .unreadable path hnamed (not_exists.mp hread)

theorem Fails.unsplittable_of_given {given : Given} (hfails : Fails read environment)
    (hgives : FileGives read environment given) : Unsplittable environment := by
  cases hgives with
  | unnamed hunnamed hgives =>
      cases hfails with
      | unreadable path hnamed hunreadable => cases hunnamed.symm.trans hnamed
      | malformed path document hnamed hread hmalformed => cases hunnamed.symm.trans hnamed
      | unsplittable hunsplittable => exact hunsplittable
  | named hnamed hread hgives =>
      cases hfails with
      | unreadable path hother hunreadable =>
          cases hnamed.symm.trans hother
          exact absurd hread (hunreadable _)
      | malformed path document hother hsame hmalformed =>
          cases hnamed.symm.trans hother
          have hdocument := Text.encode_injective (Except.ok.inj (hread.symm.trans hsame))
          exact absurd hgives (hdocument ▸ hmalformed _)
      | unsplittable hunsplittable => exact hunsplittable

/-- The settings that an environment makes of what a document gives. -/
structure Layers (environment : Environment) (given : Given) (settings : Settings) : Prop where
  program : Decides environment "KP" some given.program settings.program
  editorDirectory :
    Decides environment "EDITOR_PATH" some given.editorDirectory settings.editorDirectory
  logDirectory :
    Decides environment "KP_HARNESS_LOG_DIR" id (given.logDirectory.getD ".") settings.logDirectory
  /-- The options of a checker that the environment names are not those of the document. -/
  checker : ∀ command, Sets environment "VALGRIND_COMMAND" command →
    ∃ options, Decides environment "VALGRIND_OPTIONS" Text.words? (some []) (some options) ∧
      settings.checker = some ⟨command, options⟩
  checkerOfDocument : (∀ command, ¬Sets environment "VALGRIND_COMMAND" command) →
    settings.checker = given.checker
  promptTimeout : settings.promptTimeout = given.promptTimeout.getD 10000
  exitTimeout : settings.exitTimeout = given.exitTimeout.getD 30000
  agentTimeout : settings.agentTimeout = given.agentTimeout.getD 5000
  memoryLimit : settings.memoryLimit = given.memoryLimit.getD 16777216
  operationsLimit : settings.operationsLimit = given.operationsLimit.getD 32768

theorem override_eq_ok_iff {settings outcome : Settings} :
    settings.override environment = .ok outcome ↔
      ∃ checker, checkerOf environment = .ok checker ∧
        outcome = { settings with
          program := (given? environment "KP").or settings.program
          editorDirectory := (given? environment "EDITOR_PATH").or settings.editorDirectory
          logDirectory := (given? environment "KP_HARNESS_LOG_DIR").getD settings.logDirectory
          checker := checker.or settings.checker } := by
  rw [override]
  cases checkerOf environment with
  | error fault => simp [bind, Except.bind]
  | ok checker => simp [bind, Except.bind, pure, Except.pure, eq_comm]

/-- What the environment does not say, the document or the defaults do. -/
theorem layers_of_override {given : Given} {settings : Settings}
    (hoverride : (given.onto default).override environment = .ok settings) :
    Layers environment given settings := by
  obtain ⟨checker, hchecker, rfl⟩ := override_eq_ok_iff.mp hoverride
  constructor
  case program =>
    have hbelow : (given.onto default).program = given.program := Option.or_none
    exact hbelow ▸ decides_or environment "KP" _
  case editorDirectory =>
    have hbelow : (given.onto default).editorDirectory = given.editorDirectory := Option.or_none
    exact hbelow ▸ decides_or environment "EDITOR_PATH" _
  case logDirectory => exact decides_getD environment "KP_HARNESS_LOG_DIR" _
  case checker =>
    intro command hcommand
    rw [checkerOf_of_sets hcommand] at hchecker
    split at hchecker
    · next options hoptions =>
      cases hchecker
      exact ⟨options, decides_of_eq hoptions.symm, rfl⟩
    · cases hchecker
  case checkerOfDocument =>
    intro hunset
    rw [checkerOf_of_unset hunset] at hchecker
    cases hchecker
    exact Option.or_none
  all_goals rfl

theorem load_eq_error_iff :
    (∃ fault, load read environment = .error fault) ↔ Fails read environment := by
  rw [load_eq]
  cases hlower : ofLowerLayers read environment with
  | error fault =>
      refine iff_of_true ⟨fault, rfl⟩ (.of_nothing_given fun given hgives => ?_)
      cases hlower.symm.trans (ofLowerLayers_eq_ok_iff.mpr ⟨given, hgives, rfl⟩)
  | ok settings =>
      obtain ⟨given, hgives, rfl⟩ := ofLowerLayers_eq_ok_iff.mp hlower
      have hunsplittable : Fails read environment ↔ Unsplittable environment :=
        ⟨fun hfails => hfails.unsplittable_of_given hgives, .unsplittable⟩
      rw [hunsplittable, ← checkerOf_eq_error_iff, Except.bind, override]
      cases checkerOf environment with
      | error fault => exact iff_of_true ⟨fault, rfl⟩ ⟨fault, rfl⟩
      | ok checker => exact iff_of_false (by rintro ⟨_, ⟨⟩⟩) (by rintro ⟨_, ⟨⟩⟩)

/-- What `load` makes of the document and the environment. -/
structure Layered (read : String → Except FileError Bytes) (environment : Environment) :
    Prop where
  fails : (∃ fault, load read environment = .error fault) ↔ Fails read environment
  loads : ∀ settings, load read environment = .ok settings →
    ∃ given, FileGives read environment given ∧ Layers environment given settings
  /-- The options of a checker do nothing where the environment names no checker. -/
  idle : (∀ command, ¬Sets environment "VALGRIND_COMMAND" command) →
    ∀ other : Environment,
      (∀ name ∈ variableNames, name ≠ "VALGRIND_OPTIONS" →
        other.value? name = environment.value? name) →
      load read other = load read environment
  same : ∀ other : Environment,
    (∀ name ∈ variableNames, other.value? name = environment.value? name) →
    load read other = load read environment

theorem load_congr {other : Environment}
    (hsame : ∀ name ∈ variableNames, name ≠ "VALGRIND_OPTIONS" →
      other.value? name = environment.value? name)
    (hchecker : checkerOf other = checkerOf environment) :
    load read other = load read environment := by
  have hgiven : ∀ name ∈ variableNames, name ≠ "VALGRIND_OPTIONS" →
      given? other name = given? environment name :=
    fun name hname hother => given?_congr (hsame name hname hother)
  unfold load override
  rw [hsame "KP_HARNESS_CONFIG" (by decide) (by decide), hchecker,
    hgiven "KP" (by decide) (by decide), hgiven "EDITOR_PATH" (by decide) (by decide),
    hgiven "KP_HARNESS_LOG_DIR" (by decide) (by decide)]

/-- Settings come from the environment, the document that it names, and the defaults, in this
order, and from nothing else. -/
theorem load_layered (read : String → Except FileError Bytes) (environment : Environment) :
    Layered read environment where
  fails := load_eq_error_iff
  loads := by
    intro settings hload
    rw [load_eq] at hload
    cases hlower : ofLowerLayers read environment with
    | error fault =>
        rw [hlower] at hload
        cases hload
    | ok lower =>
        obtain ⟨given, hgives, rfl⟩ := ofLowerLayers_eq_ok_iff.mp hlower
        rw [hlower] at hload
        exact ⟨given, hgives, layers_of_override hload⟩
  idle := by
    intro hunset other hsame
    have hcommand : given? other "VALGRIND_COMMAND" = given? environment "VALGRIND_COMMAND" :=
      given?_congr (hsame "VALGRIND_COMMAND" (by decide) (by decide))
    have hunset' := given?_eq_none_iff.mp (hcommand.trans (given?_eq_none_iff.mpr hunset))
    exact load_congr hsame ((checkerOf_of_unset hunset').trans (checkerOf_of_unset hunset).symm)
  same := by
    intro other hsame
    refine load_congr (fun name hname _ => hsame name hname) ?_
    unfold checkerOf
    rw [given?_congr (hsame "VALGRIND_COMMAND" (by decide)),
      given?_congr (hsame "VALGRIND_OPTIONS" (by decide))]

example :
    load (fun _ => .ok (Text.encode "kp = 'a'\nprompt_timeout_ms = 2500\n"))
      [("KP_HARNESS_CONFIG", "settings"), ("KP", "b"), ("VALGRIND_OPTIONS", "'")] =
        .ok { default with program := some "b", promptTimeout := 2500 } := by
  rfl

end Settings

end PromptHarness
