import PromptHarness.Proofs.Performing
import PromptHarness.Proofs.Variables

/-!
# The variables of a shell that begins

A shell takes over each variable that it is given under a name it can use, puts the place where it is
beside them, and hands on what it has taken over and no more.
-/

namespace PromptHarness

namespace Environment

theorem value?_eq_some_of_mem {environment : Environment} {name value : String}
    (hnames : (environment.map (·.1)).Nodup) (hmem : (name, value) ∈ environment) :
    value? environment name = some value := by
  obtain ⟨before, after, rfl⟩ := List.append_of_mem hmem
  have hlater : ∀ entry ∈ after, entry.1 ≠ name := by
    intro entry hentry hsame
    have hbehind := (List.nodup_append.mp (List.map_append ▸ hnames)).2.1
    rw [List.map_cons, List.nodup_cons] at hbehind
    exact hbehind.1 (List.mem_map.mpr ⟨entry, hentry, hsame⟩)
  have hnone : value? after name = none := by
    rw [value?, List.lookup_eq_none_iff]
    intro entry hentry
    simpa using Ne.symm (hlater entry (List.mem_reverse.mp hentry))
  rw [value?_append, ← List.singleton_append, value?_append, value?_singleton, hnone]
  simp

theorem mem_of_value? {environment : Environment} {name value : String}
    (hvalue : value? environment name = some value) : (name, value) ∈ environment := by
  obtain ⟨before, after, hentries, -⟩ := List.lookup_eq_some_iff.mp hvalue
  rw [← List.mem_reverse, hentries]
  simp

end Environment

namespace Shell

/-! ## One variable more -/

def putIn (known : List Variable) (entry : Variable) : List Variable :=
  if (known.find? (·.name = entry.name)).isSome then
    known.map fun other => if other.name = entry.name then entry else other
  else known ++ [entry]

theorem Scope.put_eq (scope : Scope) (entry : Variable) :
    scope.put entry = { scope with known := putIn scope.known entry } := by
  unfold put putIn find?
  split
  · rfl
  · rfl

section PutIn

variable {known : List Variable} {entry other : Variable}

theorem find?_putIn (known : List Variable) (entry : Variable) (name : Raw) :
    (putIn known entry).find? (·.name = name) =
      if entry.name = name then some entry else known.find? (·.name = name) := by
  unfold putIn
  split
  · next hthere =>
    have hnames : ∀ other : Variable,
        (if other.name = entry.name then entry else other).name = other.name := by
      intro other
      split
      · next hsame => exact hsame.symm
      · rfl
    rw [List.find?_map]
    have hsought : ((fun other : Variable => decide (other.name = name)) ∘
        fun other => if other.name = entry.name then entry else other) =
          fun other => decide (other.name = name) := by
      funext other
      simp [hnames other]
    rw [hsought]
    by_cases hname : entry.name = name
    · subst hname
      obtain ⟨found, hfound⟩ := Option.isSome_iff_exists.mp hthere
      have hsame : found.name = entry.name := by simpa using List.find?_some hfound
      simp [hfound, hsame]
    · rw [if_neg hname]
      cases hfind : known.find? fun other => decide (other.name = name) with
      | none => rfl
      | some found =>
          have hsame : found.name = name := by simpa using List.find?_some hfind
          have hother : found.name ≠ entry.name := fun hsame' => hname (hsame'.symm.trans hsame)
          simp [hother]
  · next hmissing =>
    rw [List.find?_append]
    by_cases hname : entry.name = name
    · subst hname
      simp only [Bool.not_eq_true, Option.isSome_eq_false_iff, Option.isNone_iff_eq_none] at hmissing
      simp [hmissing]
    · simp [hname]

theorem mem_putIn (hother : other ∈ putIn known entry) : other = entry ∨ other ∈ known := by
  unfold putIn at hother
  split at hother
  · obtain ⟨held, hheld, rfl⟩ := List.mem_map.mp hother
    split
    · exact .inl rfl
    · exact .inr hheld
  · rcases List.mem_append.mp hother with hknown | hlast
    · exact .inr hknown
    · exact .inl (List.mem_singleton.mp hlast)

theorem nodup_putIn (hnames : (known.map (·.name)).Nodup) (entry : Variable) :
    ((putIn known entry).map (·.name)).Nodup := by
  unfold putIn
  split
  · have hsame : (known.map fun other => if other.name = entry.name then entry else other).map
        (·.name) = known.map (·.name) := by
      rw [List.map_map]
      refine List.map_congr_left fun other _ => ?_
      simp only [Function.comp_apply]
      split
      · next hsame => exact hsame.symm
      · rfl
    rw [hsame]
    exact hnames
  · next hmissing =>
    have hfresh : entry.name ∉ known.map (·.name) := by
      intro hmem
      obtain ⟨other, hother, hsame⟩ := List.mem_map.mp hmem
      refine hmissing (List.find?_isSome.mpr ⟨other, hother, ?_⟩)
      simpa using hsame
    rw [List.map_append, List.map_singleton, ← List.concat_eq_append]
    exact List.Nodup.concat hfresh hnames

end PutIn

/-! ## What a shell begins with -/

/-- A variable that was given. -/
def handed (entry : String × String) : Variable := ⟨raw entry.1, some (raw entry.2), true, false⟩

/-- A shell takes over what it is given under the name. -/
def IsTaken (name : String) : Prop := isName (raw name) = true ∧ raw name ≠ raw "IFS"

instance (name : String) : Decidable (IsTaken name) :=
  inferInstanceAs (Decidable (isName (raw name) = true ∧ raw name ≠ raw "IFS"))

def usualVariables : List Variable :=
  usual.map fun entry => ⟨entry.1, some entry.2, false, false⟩

def taken (environment : Environment) : List Variable :=
  environment.foldl (fun known entry => if IsTaken entry.1 then putIn known (handed entry) else known)
    usualVariables

theorem taken_concat (environment : Environment) (entry : String × String) :
    taken (environment ++ [entry]) =
      if IsTaken entry.1 then putIn (taken environment) (handed entry) else taken environment := by
  rw [taken, List.foldl_append]
  rfl

/-- Under a name that it can use a shell knows the value given last. -/
theorem find?_taken {name : String} (hname : IsTaken name) (environment : Environment) :
    (taken environment).find? (·.name = raw name) =
      ((environment.value? name).map fun value => handed (name, value)).or
        (usualVariables.find? (·.name = raw name)) := by
  induction environment using List.reverseRecOn with
  | nil => rfl
  | append_singleton rest entry ih =>
      obtain ⟨key, value⟩ := entry
      rw [taken_concat, Environment.value?_append, Environment.value?_singleton]
      by_cases hkey : key = name
      · subst hkey
        rw [if_pos hname, find?_putIn, if_pos (show (handed (key, value)).name = raw key from rfl)]
        simp
      · have hother : (handed (key, value)).name ≠ raw name := fun hsame => hkey (raw_injective hsame)
        rw [if_neg hkey, Option.none_or, ← ih]
        split
        · rw [find?_putIn, if_neg hother]
        · rfl

theorem nodup_taken (environment : Environment) :
    ((taken environment).map (·.name)).Nodup := by
  induction environment using List.reverseRecOn with
  | nil => decide +kernel
  | append_singleton rest entry ih =>
      rw [taken_concat]
      split
      · exact nodup_putIn ih (handed entry)
      · exact ih

theorem mem_taken {environment : Environment} {item : Variable}
    (hitem : item ∈ taken environment) :
    item ∈ usualVariables ∨
      ∃ entry ∈ environment, IsTaken entry.1 ∧ item = handed entry := by
  induction environment using List.reverseRecOn with
  | nil => exact .inl hitem
  | append_singleton rest entry ih =>
      have hlater : item ∈ taken rest → item ∈ usualVariables ∨
          ∃ other ∈ rest ++ [entry], IsTaken other.1 ∧ item = handed other := by
        intro hbefore
        rcases ih hbefore with husual | ⟨other, hother, htaken, hsame⟩
        · exact .inl husual
        · exact .inr ⟨other, List.mem_append_left [entry] hother, htaken, hsame⟩
      rw [taken_concat] at hitem
      split at hitem
      · next htaken =>
        rcases mem_putIn hitem with hlast | hbefore
        · exact .inr ⟨entry, by simp, htaken, hlast⟩
        · exact hlater hbefore
      · exact hlater hitem

section Start

variable {launch : Launcher} {working : Place} {name : Raw} {arguments : List Raw}
  {environment : Environment}

theorem foldl_put (environment : Environment) (scope : Scope) :
    environment.foldl
        (fun scope entry =>
          if isName (raw entry.1) ∧ raw entry.1 ≠ raw "IFS" then
            scope.put ⟨raw entry.1, some (raw entry.2), true, false⟩
          else scope)
        scope =
      { scope with
        known := environment.foldl
          (fun known entry => if IsTaken entry.1 then putIn known (handed entry) else known)
          scope.known } := by
  induction environment generalizing scope with
  | nil => rfl
  | cons entry rest ih =>
      rw [List.foldl_cons, List.foldl_cons]
      by_cases htaken : IsTaken entry.1
      · rw [if_pos htaken, if_pos (show isName (raw entry.1) ∧ raw entry.1 ≠ raw "IFS" from htaken),
          Scope.put_eq, ih]
        rfl
      · rw [if_neg htaken, if_neg (show ¬(isName (raw entry.1) ∧ raw entry.1 ≠ raw "IFS") from htaken),
          ih]

def placeVariable (working : Place) : Variable :=
  ⟨raw "PWD", some ('/' :: ['/'].intercalate (working.map raw)), true, false⟩

theorem Scope.start_eq (launch : Launcher) (working : Place) (name : Raw) (arguments : List Raw)
    (environment : Environment) :
    ∃ scope : Scope, Scope.start launch working name arguments environment = scope ∧
      scope.IsPlain ∧ scope.launch = launch ∧ scope.working = working ∧
      scope.arguments = arguments ∧
      scope.descriptors = [(0, .input), (1, .output), (2, .errors)] ∧ scope.status = 0 ∧
      scope.known = putIn (taken environment) (placeVariable working) := by
  refine ⟨_, rfl, ?_⟩
  unfold Scope.start
  dsimp only
  rw [foldl_put, put_eq]
  exact ⟨⟨rfl, rfl, rfl, rfl, rfl, rfl, rfl⟩, rfl, rfl, rfl, rfl, rfl, rfl⟩

end Start

/-! ## What a shell hands on -/

def placeEntry (working : Place) : String × String :=
  ("PWD", Raw.text ('/' :: ['/'].intercalate (working.map raw)))

/-- The entry that programs are given for a variable, if they are. -/
def entryOf? (item : Variable) : Option (String × String) :=
  if item.exported then
    item.value.map fun value => (Raw.text item.name, Raw.text value)
  else none

theorem Scope.perm_environment (scope : Scope) :
    scope.environment.Perm (scope.known.filterMap entryOf?) := by
  have hsorted := (List.mergeSort_perm scope.known
    fun left right => drawer left.name ≤ drawer right.name).filterMap entryOf?
  exact hsorted

/-- The scope knows each variable once, and hands on only what it has been given. -/
structure Scope.Carries (scope : Scope) (environment : Environment) : Prop where
  names : (scope.known.map (·.name)).Nodup
  given : ∀ item ∈ scope.known, item.exported = true →
    ∃ entry ∈ environment, isName (raw entry.1) = true ∧ item.name = raw entry.1 ∧
      ∃ value, item.value = some value ∧ Raw.text value = entry.2

namespace Scope.Carries

variable {scope : Scope} {environment : Environment}

theorem exists_of_mem (hcarries : scope.Carries environment) {entry : String × String}
    (hentry : entry ∈ scope.environment) :
    entry ∈ environment ∧ isName (raw entry.1) = true := by
  obtain ⟨item, hitem, hsome⟩ :=
    List.mem_filterMap.mp (scope.perm_environment.mem_iff.mp hentry)
  unfold entryOf? at hsome
  split at hsome
  · next hexported =>
    obtain ⟨given, hgiven, hname, hsame, value, hvalue, htext⟩ :=
      hcarries.given item hitem hexported
    rw [hvalue, Option.map_some, Option.some.injEq, hsame, Raw.text_raw, htext] at hsome
    subst hsome
    exact ⟨hgiven, hname⟩
  · cases hsome

theorem nodup_environment (hcarries : scope.Carries environment) :
    (scope.environment.map (·.1)).Nodup := by
  have hnames : ((scope.known.filterMap entryOf?).map (·.1)).Nodup := by
    rw [List.Nodup, List.pairwise_map, List.pairwise_filterMap]
    have hknown := List.pairwise_map.mp hcarries.names
    refine hknown.imp_of_mem fun {left right} hleft hright hdiffers => ?_
    intro first hfirst second hsecond hsame
    unfold entryOf? at hfirst hsecond
    split at hfirst
    · next hleftExported =>
      split at hsecond
      · next hrightExported =>
        obtain ⟨entry, -, -, hname, value, hvalue, -⟩ := hcarries.given left hleft hleftExported
        obtain ⟨entry', -, -, hname', value', hvalue', -⟩ :=
          hcarries.given right hright hrightExported
        rw [hvalue, hname, Option.map_some, Option.some.injEq, Raw.text_raw] at hfirst
        rw [hvalue', hname', Option.map_some, Option.some.injEq, Raw.text_raw] at hsecond
        subst hfirst hsecond
        exact hdiffers (by rw [hname, hname', hsame])
      · cases hsecond
    · cases hfirst
  exact (scope.perm_environment.map (·.1)).nodup_iff.mpr hnames

theorem subperm_environment (hcarries : scope.Carries environment) :
    scope.environment.Subperm environment :=
  List.subperm_of_subset hcarries.nodup_environment.of_map fun _ hentry =>
    (hcarries.exists_of_mem hentry).1

end Scope.Carries

section Start

variable {launch : Launcher} {working : Place} {name : Raw} {arguments : List Raw}
  {environment : Environment}

theorem isNameRest_of_mem {name : Raw} (hname : isName name = true) {char : Char}
    (hmem : char ∈ name) : isNameRest char = true := by
  cases name with
  | nil => cases hname
  | cons first rest =>
      rw [isName, Bool.and_eq_true] at hname
      rcases List.mem_cons.mp hmem with rfl | hrest
      · simp only [isNameStart, isNameRest, Char.isAlphanum, Bool.or_eq_true] at hname ⊢
        rcases hname.1 with halpha | hlow
        · exact .inl (.inl halpha)
        · exact .inr hlow
      · exact List.all_eq_true.mp hname.2 char hrest

theorem isName_pwd : isName (raw "PWD") = true := by decide +kernel

theorem Scope.carries_start :
    (Scope.start launch working name arguments environment).Carries
      (environment ++ [placeEntry working]) := by
  obtain ⟨scope, hstart, -, -, -, -, -, -, hknown⟩ :=
    Scope.start_eq launch working name arguments environment
  rw [hstart]
  constructor
  case names =>
    rw [hknown]
    exact nodup_putIn (nodup_taken environment) _
  case given =>
    intro item hitem hexported
    rw [hknown] at hitem
    rcases mem_putIn hitem with rfl | htaken
    · exact ⟨placeEntry working, by simp, isName_pwd, rfl, _, rfl, rfl⟩
    · rcases mem_taken htaken with husual | ⟨entry, hentry, hname, rfl⟩
      · obtain ⟨entry, -, rfl⟩ := List.mem_map.mp husual
        cases hexported
      · exact ⟨entry, List.mem_append_left _ hentry, hname.1, rfl, _, rfl, Raw.text_raw entry.2⟩

theorem Scope.find?_start {key : String} (hkey : IsTaken key) (hplace : key ≠ "PWD") :
    (Scope.start launch working name arguments environment).find? (raw key) =
      ((environment.value? key).map fun value => handed (key, value)).or
        (usualVariables.find? (·.name = raw key)) := by
  obtain ⟨scope, hstart, -, -, -, -, -, -, hknown⟩ :=
    Scope.start_eq launch working name arguments environment
  have hother : (placeVariable working).name ≠ raw key :=
    fun hsame => hplace (raw_injective hsame).symm
  rw [hstart, Scope.find?, hknown, find?_putIn, if_neg hother, find?_taken hkey]

/-- A shell knows the value that it was given. -/
theorem Scope.value?_start {key value : String} (hkey : IsTaken key) (hplace : key ≠ "PWD")
    (hvalue : environment.value? key = some value) :
    (Scope.start launch working name arguments environment).value? (raw key) =
      some (raw value) := by
  rw [Scope.value?, Scope.find?_start hkey hplace, hvalue]
  rfl

/-- A shell hands on the value that it was given. -/
theorem Scope.value?_environment_start {key : String} (hkey : IsTaken key) (hplace : key ≠ "PWD") :
    (Scope.start launch working name arguments environment).environment.value? key =
      environment.value? key := by
  have hcarries := @Scope.carries_start launch working name arguments environment
  have hfind := @Scope.find?_start launch working name arguments environment key hkey hplace
  generalize Scope.start launch working name arguments environment = scope at hcarries hfind
  cases hvalue : environment.value? key with
  | some value =>
      rw [hvalue] at hfind
      have hknown : handed (key, value) ∈ scope.known := List.mem_of_find?_eq_some hfind
      have hentry : (key, value) ∈ scope.environment := by
        rw [scope.perm_environment.mem_iff, List.mem_filterMap]
        refine ⟨_, hknown, ?_⟩
        simp [entryOf?, handed]
      exact Environment.value?_eq_some_of_mem hcarries.nodup_environment hentry
  | none =>
      cases hother : scope.environment.value? key with
      | none => rfl
      | some value =>
          rcases List.mem_append.mp (hcarries.exists_of_mem (Environment.mem_of_value? hother)).1 with
            hgiven | hlast
          · rw [Environment.value?, List.lookup_eq_none_iff] at hvalue
            exact absurd (hvalue _ (List.mem_reverse.mpr hgiven)) (by simp)
          · exact absurd (congrArg Prod.fst (List.mem_singleton.mp hlast)) hplace

end Start

/-! ## Programs that a shell finds -/

namespace Task

variable {scope : Scope} {files : Files} {program : String}

theorem raw_join (directory : String) (hprogram : Path.isAbsolute program = false) :
    raw (Path.join directory program) =
      if (raw directory).isEmpty then raw program
      else if (raw directory).getLast? = some '/' then raw directory ++ raw program
      else raw directory ++ '/' :: raw program := by
  have hempty : (raw directory).isEmpty = directory.isEmpty := by
    rw [Bool.eq_iff_iff, List.isEmpty_iff, String.isEmpty_iff]
    exact ⟨fun hnil => raw_injective hnil, fun hnone => hnone ▸ rfl⟩
  simp only [Path.join, hprogram, Bool.false_or, hempty, @getLast?_raw_iff '/' (by decide),
    beq_iff_eq]
  split
  · rfl
  · split
    · exact raw_append directory program
    · rw [raw_append, raw_append, List.append_assoc]
      rfl

/-- A shell finds a program in the directories that a search finds it in. -/
theorem isSome_locate {directories : List String} {error : FileError} {path : String}
    (hplain : '/' ∉ raw program) (hprogram : Path.isAbsolute program = false)
    (hdirectories : ∀ directory ∈ directories, raw directory ∈ searchPath scope)
    (hsearch : Executable.search files program directories error = .ok path) :
    (locate scope files (raw program)).isSome = true := by
  obtain ⟨directory, hdirectory, rfl, found, hinspect⟩ := Executable.exists_of_search hsearch
  have hfile : files.isFile (Path.join directory program) = true :=
    Executable.isFile_of_inspect hinspect
  have hbare : (raw program).contains '/' = false := by simpa using hplain
  simp only [locate, hbare, Bool.false_eq_true, if_false]
  rw [List.findSome?_isSome_iff]
  refine ⟨raw directory, hdirectories directory hdirectory, ?_⟩
  simp only [← raw_join directory hprogram, Raw.text_raw, hfile, if_true, Option.isSome_some]

/-- A shell finds the programs that its own surroundings lead to. -/
theorem isSome_locate_start {launch : Launcher} {working place : Place} {name : Raw}
    {arguments : List Raw} {operands : List String} {environment : Environment}
    (hreceived : environment.map Environment.received = environment)
    (hplain : '/' ∉ program.toList)
    (hleads : Executable.Leads files ⟨program, operands, environment⟩ place) :
    (locate (Scope.start launch working name arguments environment) files (raw program)).isSome =
      true := by
  obtain ⟨path, content, hresolve, -⟩ := hleads
  have hslash : program.toList.contains '/' = false := by simpa using hplain
  have hprogram : Path.isAbsolute program = false := Path.isAbsolute_eq_false hplain
  have hpath : IsTaken "PATH" := by decide +kernel
  simp only [Executable.resolve, hslash, hreceived, Bool.false_eq_true, if_false] at hresolve
  split at hresolve
  · cases hresolve
  · refine isSome_locate (not_mem_raw (by decide) hplain) hprogram ?_ hresolve
    cases hvalue : environment.value? "PATH" with
    | some value =>
        intro directory hdirectory
        rw [searchPath, Scope.value?_start hpath (by decide) hvalue, Option.getD_some,
          stretches_raw (by decide), List.mem_map]
        obtain ⟨stretch, hstretch, rfl⟩ := List.mem_map.mp hdirectory
        exact ⟨stretch, hstretch, rfl⟩
    | none =>
        have husual : (Scope.start launch working name arguments environment).value? (raw "PATH") =
            some (raw "/usr/local/sbin:/usr/local/bin:/usr/sbin:/usr/bin:/sbin:/bin") := by
          rw [Scope.value?, Scope.find?_start hpath (by decide), hvalue]
          decide +kernel
        rw [searchPath, husual]
        decide +kernel

end Task

end Shell

end PromptHarness
