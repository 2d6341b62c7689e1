import Mathlib.Data.List.Forall2
import PromptHarness.Proofs.WellFormed
import PromptHarness.Settings

/-!
# What a document gives

The table of a document that can be read has one value for each key, whatever tokens it was made
from.  So the settings that are read from it entry by entry are those that stand under their keys,
and where a key is not there the setting stays as it was.  What a value means is said by relations
between values and settings, and the readers compute these.
-/

namespace PromptHarness

namespace Toml

/-! ## Distinct keys -/

namespace Table

def HasDistinctKeys (table : Table) : Prop :=
  (table.entries.map (·.1)).Nodup

variable {table outcome : Table} {key : String} {path : List String} {value : Value}

theorem hasDistinctKeys_new (origin : Origin) : (new origin).HasDistinctKeys :=
  List.nodup_nil

theorem not_mem_keys_of_find? (hnone : (table.find? key).isSome ≠ true) :
    key ∉ table.entries.map (·.1) := by
  rw [ne_eq, Option.not_isSome_iff_eq_none, find?, List.lookup_eq_none_iff] at hnone
  intro hkey
  obtain ⟨entry, hentry, rfl⟩ := List.mem_map.mp hkey
  simpa using hnone entry hentry

theorem HasDistinctKeys.put (htable : table.HasDistinctKeys) (key : String) (value : Value) :
    (table.put key value).HasDistinctKeys := by
  unfold Table.put HasDistinctKeys
  split
  · have hkeys : (fun entry : String × Value => entry.1) ∘
        (fun entry => if entry.1 = key then (key, value) else entry) = (·.1) := by
      funext entry
      by_cases hsame : entry.1 = key
      · simp [hsame]
      · simp [hsame]
    rw [List.map_map, hkeys]
    exact htable
  · next hnew =>
    rw [List.map_append, List.nodup_append]
    refine ⟨htable, by simp, ?_⟩
    rintro old hold _ hmem rfl
    rw [List.mem_singleton.mp hmem] at hold
    exact not_mem_keys_of_find? hnew hold

/-- A change at the end of a path puts one value into the table at its beginning, or is a change of
that table. -/
theorem HasDistinctKeys.reach {dotted : Bool} {change : Table → Option Table}
    (htable : table.HasDistinctKeys)
    (hchange : ∀ changed, change table = some changed → changed.HasDistinctKeys)
    (hreach : table.reach dotted change path = some outcome) : outcome.HasDistinctKeys := by
  cases path with
  | nil => exact hchange outcome hreach
  | cons key rest =>
      have hputs : ∀ (inner : Option Table) (value : Table → Value),
          (inner.bind fun inner => some (table.put key (value inner))) = some outcome →
            outcome.HasDistinctKeys := by
        intro inner value hput
        obtain ⟨inner, -, hlast⟩ := Option.bind_eq_some_iff.mp hput
        cases hlast
        exact htable.put key _
      unfold Table.reach at hreach
      split at hreach
      · exact hputs _ Table.toValue hreach
      · split at hreach
        · exact hputs _ Table.toValue hreach
        · cases hreach
      · next items _ =>
        split at hreach
        · exact hputs _ (fun inner => .array true (items.dropLast ++ [inner.toValue])) hreach
        · cases hreach
      · cases hreach

theorem HasDistinctKeys.assign (htable : table.HasDistinctKeys)
    (hassign : table.assign path key value = some outcome) : outcome.HasDistinctKeys := by
  refine htable.reach (fun changed hchanged => ?_) hassign
  split at hchanged
  · cases hchanged
  · split at hchanged
    · cases hchanged
    · cases hchanged
      exact htable.put key value

theorem HasDistinctKeys.openTable (htable : table.HasDistinctKeys)
    (hopen : table.openTable path key = some outcome) : outcome.HasDistinctKeys := by
  refine htable.reach (fun changed hchanged => ?_) hopen
  split at hchanged
  · cases hchanged
    exact htable.put key _
  · cases hchanged
    exact htable.put key _
  · cases hchanged

theorem HasDistinctKeys.openItem (htable : table.HasDistinctKeys)
    (hopen : table.openItem path key = some outcome) : outcome.HasDistinctKeys := by
  refine htable.reach (fun changed hchanged => ?_) hopen
  split at hchanged
  · cases hchanged
    exact htable.put key _
  · cases hchanged
    exact htable.put key _
  · cases hchanged

end Table

/-! ## The reader -/

namespace Reader

/-- A step of the reader leaves one value for each key at the root, if it is possible. -/
def LeavesDistinct (step : Option Reader) : Prop :=
  ∀ next, step = some next → next.root.HasDistinctKeys

variable {reader : Reader} {token : Token}

theorem leavesDistinct_none : LeavesDistinct none := by
  rintro next ⟨⟩

theorem leavesDistinct_bind {α : Type} {first : Option α} {rest : α → Option Reader}
    (hrest : ∀ result, first = some result → LeavesDistinct (rest result)) :
    LeavesDistinct (first.bind rest) := by
  intro next hnext
  obtain ⟨result, hfirst, hlast⟩ := Option.bind_eq_some_iff.mp hnext
  exact hrest result hfirst next hlast

theorem leavesDistinct_some (hroot : reader.root.HasDistinctKeys) :
    LeavesDistinct (some reader) := by
  rintro next ⟨⟩
  exact hroot

theorem leavesDistinct_enter (hroot : reader.root.HasDistinctKeys) (mode : Mode) :
    LeavesDistinct (reader.enter mode) := by
  rintro next ⟨⟩
  exact hroot

theorem leavesDistinct_settle (hroot : reader.root.HasDistinctKeys) (value : Value) (frame : Frame)
    (outer : List Frame) : LeavesDistinct (reader.settle value frame outer) := by
  cases frame with
  | line path key =>
      refine leavesDistinct_bind fun root hreach => leavesDistinct_some ?_
      exact hroot.reach (fun changed hchanged => hroot.assign hchanged) hreach
  | array items => exact leavesDistinct_enter hroot _
  | inline table path key =>
      exact leavesDistinct_bind fun changed _ => leavesDistinct_enter hroot _

theorem leavesDistinct_close (hroot : reader.root.HasDistinctKeys) (value : Value)
    (frames : List Frame) : LeavesDistinct (reader.close value frames) := by
  cases frames with
  | nil => exact leavesDistinct_none
  | cons frame outer => exact leavesDistinct_settle hroot value frame outer

theorem leavesDistinct_beginValue (hroot : reader.root.HasDistinctKeys) (frame : Frame)
    (outer : List Frame) (token : Token) :
    LeavesDistinct (reader.beginValue frame outer token) := by
  unfold beginValue
  split
  · exact leavesDistinct_enter hroot _
  · split
    · exact leavesDistinct_enter hroot _
    · exact leavesDistinct_none
  · exact leavesDistinct_settle hroot _ _ _
  · exact leavesDistinct_enter hroot _
  · exact leavesDistinct_enter hroot _
  · split
    · exact leavesDistinct_none
    · exact leavesDistinct_enter hroot _
  · split
    · exact leavesDistinct_none
    · exact leavesDistinct_enter hroot _
  · exact leavesDistinct_none

theorem leavesDistinct_between (hroot : reader.root.HasDistinctKeys) (token : Token) :
    LeavesDistinct (reader.between token) := by
  unfold between
  split
  all_goals
    first
    | exact leavesDistinct_some hroot
    | exact leavesDistinct_enter hroot _
    | exact leavesDistinct_close hroot _ _
    | exact leavesDistinct_none

theorem leavesDistinct_endScalar (hroot : reader.root.HasDistinctKeys) (chars : List Char)
    (frame : Frame) (outer : List Frame) (token : Token) :
    LeavesDistinct (reader.endScalar chars frame outer token) := by
  refine leavesDistinct_bind fun value _ => leavesDistinct_bind fun settled hsettled => ?_
  exact leavesDistinct_between (leavesDistinct_settle hroot _ _ _ settled hsettled) token

theorem leavesDistinct_openHeader (hroot : reader.root.HasDistinctKeys) (listed : Bool)
    (path : List String) (key : String) :
    LeavesDistinct (reader.openHeader listed path key) := by
  cases listed with
  | true =>
      exact leavesDistinct_bind fun root hopen => leavesDistinct_some (hroot.openItem hopen)
  | false =>
      exact leavesDistinct_bind fun root hopen => leavesDistinct_some (hroot.openTable hopen)

theorem leavesDistinct_feed (hroot : reader.root.HasDistinctKeys) (token : Token) :
    LeavesDistinct (reader.feed token) := by
  have hstays : LeavesDistinct (some reader) := leavesDistinct_some hroot
  have henters : ∀ mode, LeavesDistinct (reader.enter mode) := leavesDistinct_enter hroot
  have hends : ∀ chars frame outer, LeavesDistinct (reader.endScalar chars frame outer token) :=
    fun _ _ _ => leavesDistinct_endScalar hroot _ _ _ token
  have hreads : ∀ (key : Option KeyReader) (mode : KeyReader → Mode),
      LeavesDistinct (key.bind fun key => reader.enter (mode key)) :=
    fun _ _ => leavesDistinct_bind fun _ _ => henters _
  have hfinds : ∀ (ends : Option (List String × String)) (mode : List String → String → Mode),
      LeavesDistinct (ends.bind fun found => reader.enter (mode found.1 found.2)) :=
    fun _ _ => leavesDistinct_bind fun _ _ => henters _
  unfold feed
  cases reader.mode with
  | lineStart =>
      simp only
      split
      · exact hstays
      · exact hstays
      · exact henters _
      · exact hreads _ .key
  | headerStart =>
      simp only
      split
      · exact henters _
      · exact hreads _ (.header false)
  | header listed key =>
      simp only
      split
      · refine leavesDistinct_bind fun found _ => ?_
        cases listed with
        | true => exact henters _
        | false => exact leavesDistinct_openHeader hroot false found.1 found.2
      · exact hreads _ (.header listed)
  | headerEnd path key =>
      simp only
      split
      · exact leavesDistinct_openHeader hroot _ _ _
      · exact leavesDistinct_none
  | key key =>
      simp only
      split
      · exact hfinds _ fun path last => .value (.line path last) []
      · exact hreads _ .key
  | value frame outer => exact leavesDistinct_beginValue hroot _ _ _
  | item items outer =>
      simp only
      split
      · exact hstays
      · exact hstays
      · exact leavesDistinct_close hroot _ _
      · exact leavesDistinct_beginValue hroot _ _ _
  | field table outer =>
      simp only
      split
      · exact hstays
      · exact hstays
      · exact leavesDistinct_close hroot _ _
      · exact hreads _ fun key => .inlineKey key table outer
  | inlineKey key table outer =>
      simp only
      split
      · exact hfinds _ fun path last => .value (.inline table path last) outer
      · exact hfinds _ fun path last => .inlineEquals path last table outer
      · exact hreads _ fun key => .inlineKey key table outer
  | inlineEquals path key table outer =>
      simp only
      split
      · exact hstays
      · exact hstays
      · exact henters _
      · exact leavesDistinct_none
  | scalar chars frame outer =>
      simp only
      split
      · exact henters _
      · exact henters _
      · split
        · exact henters _
        · exact hends _ _ _
      · exact hends _ _ _
  | dateGap chars frame outer =>
      simp only
      split
      · exact henters _
      · exact hends _ _ _
  | afterItem items outer => exact leavesDistinct_between hroot _
  | afterField table outer => exact leavesDistinct_between hroot _
  | lineEnd => exact leavesDistinct_between hroot _

theorem hasDistinctKeys_of_foldlM {tokens : List Token} {outcome : Reader}
    (hroot : reader.root.HasDistinctKeys)
    (hrun : tokens.foldlM feed reader = some outcome) : outcome.root.HasDistinctKeys := by
  induction tokens generalizing reader with
  | nil =>
      cases hrun
      exact hroot
  | cons token tokens ih =>
      obtain ⟨next, hnext, hrest⟩ := Option.bind_eq_some_iff.mp hrun
      exact ih (leavesDistinct_feed hroot token next hnext) hrest

end Reader

theorem hasDistinctKeys_of_parse? {document : List Char} {table : Table}
    (hparse : parse? document = some table) : table.HasDistinctKeys := by
  obtain ⟨tokens, -, hrest⟩ := Option.bind_eq_some_iff.mp hparse
  obtain ⟨reader, hrun, hend⟩ := Option.bind_eq_some_iff.mp hrest
  have hroot : reader.root.HasDistinctKeys :=
    Reader.hasDistinctKeys_of_foldlM (Table.hasDistinctKeys_new .header) hrun
  split at hend
  · cases hend
    exact hroot
  · cases hend

end Toml

namespace Settings

/-! ## Values -/

inductive IsText : Toml.Value → String → Prop where
  | intro (text : String) : IsText (.text text.toList) text

/-- Only numbers that 64 bits hold are read. -/
inductive IsNumber : Toml.Value → Nat → Prop where
  | intro {number : Nat} (hsmall : number < 2 ^ 64) : IsNumber (.integer number) number

inductive IsTexts : Toml.Value → List String → Prop where
  | intro (tables : Bool) {items : List Toml.Value} {texts : List String}
      (htexts : List.Forall₂ IsText items texts) : IsTexts (.array tables items) texts

/-- Of a table the two entries count, and of an array the first two values. -/
inductive IsChecker : Toml.Value → Checker → Prop where
  | table (origin : Toml.Origin) {entries : List (String × Toml.Value)} {value : Toml.Value}
      {command : String} {options : Option (List String)}
      (hvalue : entries.lookup "command" = some value) (hcommand : IsText value command)
      (hoptions : Option.Rel IsTexts (entries.lookup "options") options) :
      IsChecker (.table origin entries) ⟨command, options.getD []⟩
  | array (tables : Bool) {value : Toml.Value} {rest : List Toml.Value} {command : String}
      {options : Option (List String)} (hcommand : IsText value command)
      (hoptions : Option.Rel IsTexts rest.head? options) :
      IsChecker (.array tables (value :: rest)) ⟨command, options.getD []⟩

/-- A reader finds exactly what values mean. -/
def Computes {α : Type} (read : Toml.Value → Option α) (Means : Toml.Value → α → Prop) : Prop :=
  ∀ value found, read value = some found ↔ Means value found

/-- Where there is a value the reader has to find something in it. -/
theorem Computes.rel_iff {α : Type} {read : Toml.Value → Option α}
    {Means : Toml.Value → α → Prop} (hread : Computes read Means) {value? : Option Toml.Value}
    {found : Option α} :
    Option.Rel Means value? found ↔
      (∀ value, value? = some value → (read value).isSome) ∧ found = value?.bind read := by
  cases value? with
  | none =>
      constructor
      · rintro ⟨⟩
        exact ⟨by simp, rfl⟩
      · rintro ⟨-, rfl⟩
        exact .none
  | some value =>
      constructor
      · rintro (hmeans | _)
        have hfound := (hread _ _).mpr hmeans
        refine ⟨?_, hfound.symm⟩
        rintro _ ⟨⟩
        rw [hfound]
        rfl
      · rintro ⟨hsome, rfl⟩
        obtain ⟨result, hresult⟩ := Option.isSome_iff_exists.mp (hsome value rfl)
        rw [Option.bind_some, hresult]
        exact .some ((hread _ _).mp hresult)

theorem computes_text? : Computes text? IsText := by
  intro value text
  constructor
  · intro hread
    cases value with
    | text chars =>
        obtain rfl := Option.some_inj.mp hread
        simpa using IsText.intro (String.ofList chars)
    | _ => cases hread
  · rintro ⟨text⟩
    simp [text?]

theorem computes_number? : Computes number? IsNumber := by
  intro value number
  constructor
  · intro hread
    cases value with
    | integer found =>
        rw [number?, Option.ite_none_right_eq_some] at hread
        obtain ⟨⟨hnonneg, hsmall⟩, hnumber⟩ := hread
        obtain ⟨number, rfl⟩ := Int.eq_ofNat_of_zero_le hnonneg
        obtain rfl := Option.some_inj.mp hnumber
        exact .intro (Int.ofNat_lt.mp hsmall)
    | _ => cases hread
  · rintro ⟨hsmall⟩
    have hbounds : (0 : Int) ≤ number ∧ (number : Int) < Nat.pow 2 64 :=
      ⟨Int.natCast_nonneg number, Int.ofNat_lt.mpr hsmall⟩
    rw [number?, if_pos hbounds, Int.toNat_natCast]

theorem mapM_eq_some_iff {items : List Toml.Value} {texts : List String} :
    items.mapM text? = some texts ↔ List.Forall₂ IsText items texts := by
  induction items generalizing texts with
  | nil =>
      rw [List.forall₂_nil_left_iff, List.mapM_nil, Option.pure_def, Option.some_inj, eq_comm]
  | cons item items ih =>
      simp only [List.forall₂_cons_left_iff, List.mapM_cons, Option.bind_eq_bind,
        Option.bind_eq_some_iff, Option.pure_def, Option.some_inj, ih, computes_text? item]
      constructor
      · rintro ⟨text, htext, texts, htexts, rfl⟩
        exact ⟨text, texts, htext, htexts, rfl⟩
      · rintro ⟨text, texts, htext, htexts, rfl⟩
        exact ⟨text, htext, texts, htexts, rfl⟩

theorem computes_texts? : Computes texts? IsTexts := by
  intro value texts
  constructor
  · intro hread
    cases value with
    | array tables items => exact .intro tables (mapM_eq_some_iff.mp hread)
    | _ => cases hread
  · rintro ⟨tables, htexts⟩
    exact mapM_eq_some_iff.mpr htexts

/-- The options that are read are those that are there, and otherwise none. -/
theorem elim_texts?_eq_some_iff {value? : Option Toml.Value} {texts : List String} :
    value?.elim (some []) texts? = some texts ↔
      ∃ options, Option.Rel IsTexts value? options ∧ texts = options.getD [] := by
  cases value? with
  | none =>
      constructor
      · rintro ⟨⟩
        exact ⟨none, .none, rfl⟩
      · rintro ⟨options, ⟨⟩, rfl⟩
        rfl
  | some value =>
      refine (computes_texts? value texts).trans ⟨fun htexts => ⟨_, .some htexts, rfl⟩, ?_⟩
      rintro ⟨options, htexts | _, rfl⟩
      exact htexts

/-- Both forms of a checker are read alike once their two values are found. -/
theorem readPair_eq_some_iff {value : Toml.Value} {value? : Option Toml.Value} {checker : Checker} :
    ((text? value).bind fun command =>
        (value?.elim (some []) texts?).bind fun options => some ⟨command, options⟩) =
      some checker ↔
      ∃ command options, IsText value command ∧ Option.Rel IsTexts value? options ∧
        checker = ⟨command, options.getD []⟩ := by
  simp only [Option.bind_eq_some_iff, computes_text? value, elim_texts?_eq_some_iff,
    Option.some_inj]
  constructor
  · rintro ⟨command, hcommand, -, ⟨options, hoptions, rfl⟩, rfl⟩
    exact ⟨command, options, hcommand, hoptions, rfl⟩
  · rintro ⟨command, options, hcommand, hoptions, rfl⟩
    exact ⟨command, hcommand, _, ⟨options, hoptions, rfl⟩, rfl⟩

theorem computes_checker? : Computes checker? IsChecker := by
  intro value checker
  constructor
  · intro hread
    unfold checker? at hread
    split at hread
    · next origin entries =>
      obtain ⟨value, hvalue, hread⟩ := Option.bind_eq_some_iff.mp hread
      obtain ⟨command, options, hcommand, hoptions, rfl⟩ := readPair_eq_some_iff.mp hread
      exact .table origin hvalue hcommand hoptions
    · next tables value rest =>
      obtain ⟨command, options, hcommand, hoptions, rfl⟩ := readPair_eq_some_iff.mp hread
      exact .array tables hcommand hoptions
    · cases hread
  · rintro (⟨origin, hvalue, hcommand, hoptions⟩ | ⟨tables, hcommand, hoptions⟩)
    · refine Option.bind_eq_some_iff.mpr ⟨_, hvalue, ?_⟩
      exact readPair_eq_some_iff.mpr ⟨_, _, hcommand, hoptions, rfl⟩
    · exact readPair_eq_some_iff.mpr ⟨_, _, hcommand, hoptions, rfl⟩

/-! ## Entries -/

/-- What a document gives, as far as it gives it. -/
structure Given where
  program : Option String
  editorDirectory : Option String
  checker : Option Checker
  logDirectory : Option String
  promptTimeout : Option Nat
  exitTimeout : Option Nat
  agentTimeout : Option Nat
  memoryLimit : Option Nat
  operationsLimit : Option Nat

/-- What the entries of a document give, each setting under its own key. -/
structure Gives (entries : List (String × Toml.Value)) (given : Given) : Prop where
  program : Option.Rel IsText (entries.lookup "kp") given.program
  editorDirectory : Option.Rel IsText (entries.lookup "editor_dir") given.editorDirectory
  checker : Option.Rel IsChecker (entries.lookup "instrumentation") given.checker
  logDirectory : Option.Rel IsText (entries.lookup "instrumentation_log_dir") given.logDirectory
  promptTimeout : Option.Rel IsNumber (entries.lookup "prompt_timeout_ms") given.promptTimeout
  exitTimeout : Option.Rel IsNumber (entries.lookup "exit_timeout_ms") given.exitTimeout
  agentTimeout : Option.Rel IsNumber (entries.lookup "agent_timeout_ms") given.agentTimeout
  memoryLimit : Option.Rel IsNumber (entries.lookup "init_memlimit") given.memoryLimit
  operationsLimit : Option.Rel IsNumber (entries.lookup "init_opslimit") given.operationsLimit

def textKeys : List String := ["kp", "editor_dir", "instrumentation_log_dir"]

def numberKeys : List String :=
  ["prompt_timeout_ms", "exit_timeout_ms", "agent_timeout_ms", "init_memlimit", "init_opslimit"]

/-- A value can be read under a key; under a key that means nothing any value can. -/
def Fits (key : String) (value : Toml.Value) : Prop :=
  (key ∈ textKeys → (text? value).isSome) ∧
    (key = "instrumentation" → (checker? value).isSome) ∧
      (key ∈ numberKeys → (number? value).isSome)

instance (key : String) (value : Toml.Value) : Decidable (Fits key value) :=
  inferInstanceAs (Decidable (_ ∧ _ ∧ _))

namespace Given

/-- What the readers find, key by key. -/
def ofEntries (entries : List (String × Toml.Value)) : Given where
  program := (entries.lookup "kp").bind text?
  editorDirectory := (entries.lookup "editor_dir").bind text?
  checker := (entries.lookup "instrumentation").bind checker?
  logDirectory := (entries.lookup "instrumentation_log_dir").bind text?
  promptTimeout := (entries.lookup "prompt_timeout_ms").bind number?
  exitTimeout := (entries.lookup "exit_timeout_ms").bind number?
  agentTimeout := (entries.lookup "agent_timeout_ms").bind number?
  memoryLimit := (entries.lookup "init_memlimit").bind number?
  operationsLimit := (entries.lookup "init_opslimit").bind number?

def onto (given : Given) (settings : Settings) : Settings where
  program := given.program.or settings.program
  editorDirectory := given.editorDirectory.or settings.editorDirectory
  checker := given.checker.or settings.checker
  logDirectory := given.logDirectory.getD settings.logDirectory
  promptTimeout := given.promptTimeout.getD settings.promptTimeout
  exitTimeout := given.exitTimeout.getD settings.exitTimeout
  agentTimeout := given.agentTimeout.getD settings.agentTimeout
  memoryLimit := given.memoryLimit.getD settings.memoryLimit
  operationsLimit := given.operationsLimit.getD settings.operationsLimit

end Given

theorem lookup_cons (key name : String) (value : Toml.Value)
    (rest : List (String × Toml.Value)) :
    ((key, value) :: rest).lookup name = if key = name then some value else rest.lookup name := by
  by_cases hname : key = name
  · simp [hname]
  · rw [if_neg hname, List.lookup_cons, beq_false_of_ne (Ne.symm hname)]

/-- An entry is read exactly where its value fits, and then like a document of that entry only. -/
theorem assign_eq (settings : Settings) (key : String) (value : Toml.Value) :
    settings.assign key value =
      if Fits key value then some ((Given.ofEntries [(key, value)]).onto settings) else none := by
  unfold assign
  split
  case h_10 hkp heditor hchecker hlog hprompt hexit hagent hmemory hoperations =>
    simp only [imp_false] at hkp heditor hchecker hlog hprompt hexit hagent hmemory hoperations
    simp [Fits, textKeys, numberKeys, Given.ofEntries, Given.onto, lookup_cons, *]
  case h_1 | h_2 | h_4 =>
    cases hread : text? value with
    | none => simp [Fits, textKeys, hread]
    | some text =>
        simp [Fits, textKeys, numberKeys, Given.ofEntries, Given.onto, lookup_cons, hread]
  case h_3 =>
    cases hread : checker? value with
    | none => simp [Fits, hread]
    | some found =>
        simp [Fits, textKeys, numberKeys, Given.ofEntries, Given.onto, lookup_cons, hread]
  case h_5 | h_6 | h_7 | h_8 | h_9 =>
    cases hread : number? value with
    | none => simp [Fits, numberKeys, hread]
    | some number =>
        simp [Fits, textKeys, numberKeys, Given.ofEntries, Given.onto, lookup_cons, hread]

section OneByOne

variable {key : String} {entries : List (String × Toml.Value)}

theorem lookup_bind_of_new {α : Type} (hnew : key ∉ entries.map (·.1)) (value : Toml.Value)
    (name : String) (read : Toml.Value → Option α) :
    (((key, value) :: entries).lookup name).bind read =
      ((entries.lookup name).bind read).or (([(key, value)].lookup name).bind read) := by
  rw [lookup_cons, lookup_cons]
  by_cases hname : key = name
  · have hnone : entries.lookup name = none := by
      rw [List.lookup_eq_none_iff]
      intro entry hentry
      have hne : name ≠ entry.1 := by
        rintro rfl
        exact hnew (hname ▸ List.mem_map_of_mem hentry)
      simpa using hne
    rw [if_pos hname, if_pos hname, hnone]
    rfl
  · rw [if_neg hname, if_neg hname]
    exact (Option.or_none).symm

/-- The first of several entries can be read before the rest, as none of those has its key. -/
theorem onto_ofEntries_cons (hnew : key ∉ entries.map (·.1)) (value : Toml.Value)
    (settings : Settings) :
    (Given.ofEntries ((key, value) :: entries)).onto settings =
      (Given.ofEntries entries).onto ((Given.ofEntries [(key, value)]).onto settings) := by
  simp only [Given.ofEntries, Given.onto, lookup_bind_of_new hnew value, Option.or_assoc,
    Option.getD_or]

theorem foldlM_assign (hkeys : (entries.map (·.1)).Nodup) (settings : Settings) :
    entries.foldlM (fun settings entry => settings.assign entry.1 entry.2) settings =
      if ∀ entry ∈ entries, Fits entry.1 entry.2 then
        some ((Given.ofEntries entries).onto settings)
      else none := by
  induction entries generalizing settings with
  | nil => rfl
  | cons entry entries ih =>
      obtain ⟨key, value⟩ := entry
      -- No later entry has this key, so it is read as the whole list gives it.
      obtain ⟨hnew, hrest⟩ := List.nodup_cons.mp hkeys
      rw [List.foldlM_cons, assign_eq, onto_ofEntries_cons hnew]
      by_cases hfits : Fits key value
      · rw [if_pos hfits]
        simp only [List.forall_mem_cons, hfits, true_and]
        exact ih hrest _
      · rw [if_neg hfits, if_neg fun hall => hfits (hall _ List.mem_cons_self)]
        rfl

theorem lookup_eq_some_iff_mem (hkeys : (entries.map (·.1)).Nodup) {value : Toml.Value} :
    entries.lookup key = some value ↔ (key, value) ∈ entries := by
  constructor
  · intro hlookup
    obtain ⟨before, after, rfl, -⟩ := List.lookup_eq_some_iff.mp hlookup
    simp
  · intro hmem
    induction entries with
    | nil => cases hmem
    | cons entry entries ih =>
        obtain ⟨name, first⟩ := entry
        obtain ⟨hnew, hrest⟩ := List.nodup_cons.mp hkeys
        rw [lookup_cons]
        cases hmem with
        | head => exact if_pos rfl
        | tail _ hmem =>
            have hother : name ≠ key := by
              rintro rfl
              exact hnew (List.mem_map.mpr ⟨_, hmem, rfl⟩)
            rw [if_neg hother]
            exact ih hrest hmem

/-- With one value for each key, an entry is what is found under its key. -/
theorem gives_iff (hkeys : (entries.map (·.1)).Nodup) {given : Given} :
    Gives entries given ↔
      (∀ entry ∈ entries, Fits entry.1 entry.2) ∧ given = Given.ofEntries entries := by
  have hfound : ∀ {name value}, entries.lookup name = some value ↔ (name, value) ∈ entries :=
    lookup_eq_some_iff_mem hkeys
  constructor
  · rintro ⟨hprogram, heditor, hchecker, hlog, hprompt, hexit, hagent, hmemory, hoperations⟩
    rw [computes_text?.rel_iff] at hprogram heditor hlog
    rw [computes_checker?.rel_iff] at hchecker
    rw [computes_number?.rel_iff] at hprompt hexit hagent hmemory hoperations
    have htexts : ∀ name ∈ textKeys, ∀ value, entries.lookup name = some value →
        (text? value).isSome := by
      simp only [textKeys, List.forall_mem_cons]
      exact ⟨hprogram.1, heditor.1, hlog.1, by simp⟩
    have hnumbers : ∀ name ∈ numberKeys, ∀ value, entries.lookup name = some value →
        (number? value).isSome := by
      simp only [numberKeys, List.forall_mem_cons]
      exact ⟨hprompt.1, hexit.1, hagent.1, hmemory.1, hoperations.1, by simp⟩
    constructor
    · intro entry hentry
      refine ⟨fun hkey => htexts _ hkey _ (hfound.mpr hentry), ?_,
        fun hkey => hnumbers _ hkey _ (hfound.mpr hentry)⟩
      intro hkey
      exact hchecker.1 _ (hkey ▸ hfound.mpr hentry)
    · rw [Given.ofEntries, ← hprogram.2, ← heditor.2, ← hchecker.2, ← hlog.2, ← hprompt.2,
        ← hexit.2, ← hagent.2, ← hmemory.2, ← hoperations.2]
  · rintro ⟨hfits, rfl⟩
    have htext : ∀ name ∈ textKeys,
        Option.Rel IsText (entries.lookup name) ((entries.lookup name).bind text?) :=
      fun name hname => computes_text?.rel_iff.mpr
        ⟨fun value hvalue => (hfits _ (hfound.mp hvalue)).1 hname, rfl⟩
    have hnumber : ∀ name ∈ numberKeys,
        Option.Rel IsNumber (entries.lookup name) ((entries.lookup name).bind number?) :=
      fun name hname => computes_number?.rel_iff.mpr
        ⟨fun value hvalue => (hfits _ (hfound.mp hvalue)).2.2 hname, rfl⟩
    exact {
      program := htext _ (by decide)
      editorDirectory := htext _ (by decide)
      checker := computes_checker?.rel_iff.mpr
        ⟨fun value hvalue => (hfits _ (hfound.mp hvalue)).2.1 rfl, rfl⟩
      logDirectory := htext _ (by decide)
      promptTimeout := hnumber _ (by decide)
      exitTimeout := hnumber _ (by decide)
      agentTimeout := hnumber _ (by decide)
      memoryLimit := hnumber _ (by decide)
      operationsLimit := hnumber _ (by decide) }

theorem gives_nil_iff {given : Given} : Gives [] given ↔ given = Given.ofEntries [] := by
  have hkeys : (([] : List (String × Toml.Value)).map (·.1)).Nodup := List.nodup_nil
  exact (gives_iff hkeys).trans (and_iff_right (List.forall_mem_nil _))

end OneByOne

/-! ## Documents -/

/-- A document that can be read, with what it gives. -/
inductive Describes (document : String) (given : Given) : Prop where
  | intro (table : Toml.Table) (hparse : Toml.parse? document.toList = some table)
      (hgives : Gives table.entries given)

theorem ofDocument?_eq_some_iff {document : String} {settings : Settings} :
    ofDocument? document = some settings ↔
      ∃ given, Describes document given ∧ settings = given.onto default := by
  unfold ofDocument?
  constructor
  · intro hread
    obtain ⟨table, hparse, hread⟩ := Option.bind_eq_some_iff.mp hread
    have hkeys := Toml.hasDistinctKeys_of_parse? hparse
    rw [foldlM_assign hkeys] at hread
    split at hread
    · next hfits =>
      have hgives := (gives_iff hkeys).mpr ⟨hfits, rfl⟩
      exact ⟨_, .intro table hparse hgives, (Option.some_inj.mp hread).symm⟩
    · cases hread
  · rintro ⟨given, ⟨table, hparse, hgives⟩, rfl⟩
    have hkeys := Toml.hasDistinctKeys_of_parse? hparse
    obtain ⟨hfits, rfl⟩ := (gives_iff hkeys).mp hgives
    rw [hparse]
    exact (foldlM_assign hkeys default).trans (if_pos hfits)

theorem ofDocument_eq_ok_iff {document : String} {settings : Settings} :
    ofDocument document = .ok settings ↔
      ∃ given, Describes document given ∧ settings = given.onto default := by
  rw [← ofDocument?_eq_some_iff, ofDocument]
  cases ofDocument? document with
  | none => simp
  | some found => simp

theorem ofFile_eq_ok_iff {path : String} {content : Except FileError Bytes} {settings : Settings} :
    ofFile path content = .ok settings ↔
      ∃ document given, content = .ok (Text.encode document) ∧ Describes document given ∧
        settings = given.onto default := by
  cases content with
  | error reason => simp [ofFile]
  | ok bytes =>
      rw [ofFile]
      cases htext : Text.strict? bytes with
      | none =>
          refine iff_of_false (by simp) ?_
          rintro ⟨document, given, ⟨⟩, -⟩
          exact Text.strict?_eq_none_iff.mp htext document rfl
      | some document =>
          obtain rfl := Text.strict?_eq_some_iff.mp htext
          refine ofDocument_eq_ok_iff.trans ⟨fun ⟨given, hgiven⟩ => ⟨_, given, rfl, hgiven⟩, ?_⟩
          rintro ⟨other, given, hsame, hgiven⟩
          exact ⟨given, Text.encode_injective (Except.ok.inj hsame) ▸ hgiven⟩

end Settings

end PromptHarness
