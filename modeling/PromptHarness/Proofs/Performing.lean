import Mathlib
import PromptHarness.Shell
import PromptHarness.Proofs.Encoding
import PromptHarness.Proofs.Outcomes
import PromptHarness.Proofs.WritablePaths

/-!
# What simple commands come to

A word whose parameters stand in quotes becomes one field, which says what its parts say and nothing
else.  From there on, one lemma for each thing that a shell does tells what it comes to: calling a
builtin or a program, sending the output into a file, performing one line after the other.
-/

namespace PromptHarness.Shell

/-! ## Parameters -/

namespace Scope

variable {scope : Scope}

theorem not_isDigit_of_isNameStart {char : Char} (hstart : isNameStart char = true) :
    ¬char.isDigit = true := by
  rw [isNameStart, Bool.or_eq_true, beq_iff_eq] at hstart
  rcases hstart with halpha | rfl
  · simp [Char.isAlpha, Char.isUpper, Char.isLower, Char.isDigit, UInt32.le_iff_toNat_le]
      at halpha ⊢
    omega
  · decide

/-- A parameter with a name of letters is a variable. -/
theorem parameter?_of_isName {name : Raw} (hname : isName name = true) :
    scope.parameter? name = scope.value? name := by
  unfold parameter?
  split
  · cases hname
  · cases hname
  · cases hname
  · cases hname
  · cases hname
  · rw [if_neg]
    intro hdigits
    cases name with
    | nil => cases hname
    | cons first rest =>
        rw [List.all_cons, Bool.and_eq_true] at hdigits
        rw [isName, Bool.and_eq_true] at hname
        exact absurd hdigits.1 (not_isDigit_of_isNameStart hname.1)

theorem parameter?_first : scope.parameter? ['1'] = scope.arguments[0]? := by
  have hnumber : (String.ofList ['1']).toNat? = some 1 := by cbv
  simp [parameter?, hnumber]

end Scope

/-! ## Words that are quoted -/

/-- What a part says that stands in quotes and has a value. -/
def Part.spoken? (scope : Scope) : Part → Option Raw
  | .text true chars => some chars
  | .parameter true name .value => if isArguments name then none else scope.parameter? name
  | _ => none

/-- No crumb falls apart from its neighbours. -/
def IsWhole (crumbs : List Crumb) : Prop :=
  ∀ crumb ∈ crumbs, crumb ≠ .cut ∧ ∀ char, crumb ≠ .char char .value

theorem isWhole_crumbs (chars : Raw) : IsWhole (crumbs true chars) := by
  intro crumb hcrumb
  simp only [crumbs, if_true, List.cons_append, List.nil_append, List.mem_cons,
    List.mem_map] at hcrumb
  rcases hcrumb with rfl | ⟨char, -, rfl⟩
  · simp
  · simp

theorem IsWhole.append {left right : List Crumb} (hleft : IsWhole left) (hright : IsWhole right) :
    IsWhole (left ++ right) := by
  intro crumb hcrumb
  rcases List.mem_append.mp hcrumb with hfirst | hsecond
  · exact hleft crumb hfirst
  · exact hright crumb hsecond

/-- A crumb that does not fall apart is added to the field that may go on. -/
theorem add_of_whole {crumb : Crumb} (hcut : crumb ≠ .cut)
    (hvalue : ∀ char, crumb ≠ .char char .value) (separators separator : List Char)
    (split : Split) :
    split.add separators crumb =
      ⟨split.ended, some ((wholly separator [crumb]).reverse ++ split.open?.getD []), .none⟩ := by
  cases crumb with
  | presence => simp [Split.add, wholly]
  | cut => exact absurd rfl hcut
  | char char origin =>
      have horigin : origin ≠ .value := by
        rintro rfl
        exact hvalue char rfl
      simp [Split.add, horigin, wholly]

theorem foldl_add_of_isWhole {found : List Crumb} (hwhole : IsWhole found) (hfilled : found ≠ [])
    (separators separator : List Char) (split : Split) :
    found.foldl (Split.add separators) split =
      ⟨split.ended, some ((wholly separator found).reverse ++ split.open?.getD []), .none⟩ := by
  induction found generalizing split with
  | nil => exact absurd rfl hfilled
  | cons crumb rest ih =>
      have hcrumb := hwhole crumb List.mem_cons_self
      have hrest : IsWhole rest := fun other hother => hwhole other (List.mem_cons_of_mem crumb hother)
      rw [List.foldl_cons, add_of_whole hcrumb.1 hcrumb.2 separators separator]
      by_cases hempty : rest = []
      · rw [hempty, List.foldl_nil]
      · rw [ih hrest hempty]
        simp [wholly]

/-- What is whole becomes one field. -/
theorem fields_of_isWhole {found : List Crumb} (hwhole : IsWhole found) (hfilled : found ≠ [])
    (separators separator : List Char) : fields separators found = [wholly separator found] := by
  rw [fields, foldl_add_of_isWhole hwhole hfilled separators separator]
  simp [Split.finish]

/-- A character that stands for itself in a pattern. -/
def Glyph.IsTame (glyph : Glyph) : Prop :=
  glyph.quoted = true ∨ glyph.char ≠ '*' ∧ glyph.char ≠ '?' ∧ glyph.char ≠ '[' ∧ glyph.char ≠ '\x5c'

theorem protect_of_isTame {field : List Glyph} (htame : ∀ glyph ∈ field, glyph.IsTame) :
    protect field = field := by
  induction field with
  | nil => rfl
  | cons glyph rest ih =>
      have hrest := ih fun other hother => htame other (List.mem_cons_of_mem glyph hother)
      unfold protect
      split
      · next next quoted more hsame =>
        cases hsame
        have hglyph := htame ⟨'\x5c', false⟩ List.mem_cons_self
        simp [Glyph.IsTame] at hglyph
      · next hsame =>
        cases hsame
        rw [hrest]
      · next hsame => cases hsame

theorem isOpen_ofGlyphs {field : List Glyph} (htame : ∀ glyph ∈ field, glyph.IsTame) (fuel : Nat) :
    (Pattern.ofGlyphs fuel field).isOpen = false := by
  induction field generalizing fuel with
  | nil => cases fuel <;> rfl
  | cons glyph rest ih =>
      have hrest := ih fun other hother => htame other (List.mem_cons_of_mem glyph hother)
      have hglyph := htame glyph List.mem_cons_self
      cases fuel with
      | zero => rfl
      | succ fuel =>
          unfold Pattern.ofGlyphs
          split
          · next hsame => cases hsame
          · next hsame =>
            cases hsame
            simp [Glyph.IsTame] at hglyph
          · next hsame =>
            cases hsame
            simp [Glyph.IsTame] at hglyph
          · next hsame =>
            cases hsame
            simp [Glyph.IsTame] at hglyph
          · next hsame =>
            cases hsame
            exact hrest fuel

/-! ## Tasks -/

/-- Nothing is switched on and nothing is to be done about signals, functions, aliases or jobs. -/
structure Scope.IsPlain (scope : Scope) : Prop where
  options : scope.options = []
  functions : scope.functions = []
  aliases : scope.aliases = []
  traps : scope.traps = []
  arrived : scope.arrived = []
  doom : scope.doom = none
  jobs : scope.jobs = []

theorem Scope.IsPlain.change {scope : Scope} (hplain : scope.IsPlain)
    (descriptors : List (Nat × Stream)) (status line : Nat) (wordStatus : Option Nat) :
    Scope.IsPlain { scope with
      descriptors := descriptors, status := status, line := line, wordStatus := wordStatus } :=
  ⟨hplain.options, hplain.functions, hplain.aliases, hplain.traps, hplain.arrived, hplain.doom,
    hplain.jobs⟩

namespace Task

variable {scope : Scope} {world : World} {run : Command → Task Raw}

/-- Whatever the files are called, a field without open characters stands for what it says. -/
theorem outcome?_spread {field : List Glyph} (htame : ∀ glyph ∈ field, glyph.IsTame) :
    (spread field).outcome? scope world = some ((.ok [unquoted field], scope), world) := by
  have hclosed : (pattern field).isOpen = false := by
    rw [pattern, Pattern.ofWord, protect_of_isTame htame]
    exact isOpen_ofGlyphs htame _
  rw [spread, outcome?_bind_of outcome?_get, hclosed]
  simp

/-- A part in quotes gives the crumbs of what it says. -/
theorem outcome?_part {first : Part} {text : Raw} (hspoken : first.spoken? scope = some text)
    (front assigned last : Bool) :
    (part run front assigned last first).outcome? scope world =
      some ((.ok (crumbs true text), scope), world) := by
  unfold Part.spoken? at hspoken
  split at hspoken
  · cases hspoken
    simp [part, crumbs]
  · next name =>
    split at hspoken
    · cases hspoken
    · next hplain =>
      simp only [part, parameter]
      rw [outcome?_bind_of outcome?_get, valueCrumbs?, if_neg hplain, hspoken]
      rfl
  · cases hspoken

/-- The crumbs of a word in quotes are those of what its parts say. -/
theorem outcome?_parts {word : Word} {texts : List Raw}
    (hspoken : word.mapM (Part.spoken? scope) = some texts) (front assigned : Bool) :
    (parts run front assigned word).outcome? scope world =
      some ((.ok (texts.flatMap (crumbs true)), scope), world) := by
  induction word generalizing texts front with
  | nil =>
      cases hspoken
      rfl
  | cons first rest ih =>
      rw [List.mapM_cons] at hspoken
      cases hfirst : first.spoken? scope with
      | none => simp [hfirst] at hspoken
      | some text =>
          cases hrest : rest.mapM (Part.spoken? scope) with
          | none => simp [hfirst, hrest] at hspoken
          | some others =>
              have htexts : texts = text :: others := by simpa [hfirst, hrest, eq_comm] using hspoken
              -- The arguments in one go are no part that says something.
              have hplain : ∀ more, first :: rest ≠
                  .text true [] :: .parameter true ['@'] .value :: more := by
                rintro more hsame
                cases hsame
                simp [Part.spoken?, isArguments] at hrest
              rw [parts, outcome?_bind_of (outcome?_part hfirst front assigned rest.isEmpty),
                outcome?_bind_of (ih hrest false), htexts]
              · rfl
              · intro more hnil hmore
                exact hplain more (by rw [hnil, hmore])

theorem isWhole_flatMap (texts : List Raw) : IsWhole (texts.flatMap (crumbs true)) := by
  induction texts with
  | nil =>
      intro crumb hcrumb
      cases hcrumb
  | cons text rest ih =>
      rw [List.flatMap_cons]
      exact (isWhole_crumbs text).append ih

theorem wholly_flatMap (separator : Raw) (texts : List Raw) :
    wholly separator (texts.flatMap (crumbs true)) = glyphs true texts.flatten := by
  induction texts with
  | nil => rfl
  | cons text rest ih =>
      rw [List.flatMap_cons, List.flatten_cons]
      unfold wholly at ih ⊢
      rw [List.flatMap_append, ih]
      simp [crumbs, glyphs, List.flatMap_map]
      exact List.map_eq_flatMap.symm

theorem unquoted_glyphs (quoted : Bool) (chars : Raw) : unquoted (glyphs quoted chars) = chars := by
  rw [unquoted, glyphs, List.map_map]
  exact List.map_id chars

/-- A word whose crumbs hang together becomes one field. -/
theorem outcome?_expand_of_parts {word : Word} {found : List Crumb}
    (hparts : (parts run true false word).outcome? scope world = some ((.ok found, scope), world))
    (hwhole : IsWhole found) (hfilled : found ≠ [])
    (htame : ∀ glyph ∈ wholly [] found, glyph.IsTame) :
    (expand run word).outcome? scope world =
      some ((.ok [unquoted (wholly [] found)], scope), world) := by
  have hspread : ([wholly [] found].mapM spread).outcome? scope world =
      some ((.ok [[unquoted (wholly [] found)]], scope), world) :=
    outcome?_mapM_cons (outcome?_spread htame) rfl
  rw [expand, outcome?_bind_of hparts, outcome?_bind_of outcome?_get,
    fields_of_isWhole hwhole hfilled scope.separators [], outcome?_bind_of hspread]
  rfl

/-- A word in quotes becomes one field, which is what its parts say together, whatever that is. -/
theorem outcome?_expand {word : Word} {texts : List Raw}
    (hspoken : word.mapM (Part.spoken? scope) = some texts) (hfilled : texts ≠ []) :
    (expand run word).outcome? scope world = some ((.ok [texts.flatten], scope), world) := by
  have hcrumbs : texts.flatMap (crumbs true) ≠ [] := by
    obtain ⟨text, rest, rfl⟩ := List.exists_cons_of_ne_nil hfilled
    simp [crumbs]
  have htame : ∀ glyph ∈ wholly [] (texts.flatMap (crumbs true)), glyph.IsTame := by
    rw [wholly_flatMap]
    intro glyph hglyph
    obtain ⟨char, -, rfl⟩ := List.mem_map.mp hglyph
    exact .inl rfl
  rw [outcome?_expand_of_parts (outcome?_parts hspoken true false) (isWhole_flatMap texts) hcrumbs
    htame, wholly_flatMap, unquoted_glyphs]

theorem outcome?_expandWhole {word : Word} {texts : List Raw}
    (hspoken : word.mapM (Part.spoken? scope) = some texts) (assigned : Bool) :
    (expandWhole run assigned word).outcome? scope world =
      some ((.ok (glyphs true texts.flatten), scope), world) := by
  rw [expandWhole, outcome?_bind_of (outcome?_parts hspoken true assigned),
    outcome?_bind_of outcome?_get, wholly_flatMap]
  rfl

/-! ## Names -/

theorem homeOf_eq_none {chars : Raw} (hplain : '~' ∉ chars) (last : Bool) :
    homeOf scope last chars = none := by
  unfold homeOf
  split
  · simp at hplain
  · rfl

theorem writtenCrumbs_of_plain {chars : Raw} (hplain : '~' ∉ chars) {fuel : Nat}
    (hfuel : chars.length < fuel) (front last : Bool) :
    writtenCrumbs scope front false last fuel chars = chars.map (.char · .written) := by
  induction chars generalizing fuel front with
  | nil =>
      obtain ⟨fuel, rfl⟩ := Nat.exists_eq_succ_of_ne_zero (Nat.ne_of_gt hfuel)
      cases front <;> rfl
  | cons char rest ih =>
      obtain ⟨fuel, rfl⟩ := Nat.exists_eq_succ_of_ne_zero (Nat.ne_of_gt (Nat.zero_lt_of_lt hfuel))
      have hrest := fun front => ih (fun hmem => hplain (List.mem_cons_of_mem char hmem))
        (Nat.lt_of_succ_lt_succ hfuel) front
      cases front with
      | false => simp [writtenCrumbs, hrest]
      | true => simp [writtenCrumbs, hrest, homeOf_eq_none hplain]

/-- A name that is written as it is becomes itself. -/
theorem outcome?_expand_name {chars : Raw} (hfilled : chars ≠ [])
    (hname : chars.all isNameRest = true) :
    (expand run [.text false chars]).outcome? scope world =
      some ((.ok [chars], scope), world) := by
  have hchars : ∀ char ∈ chars, isNameRest char = true := List.all_eq_true.mp hname
  have hplain : '~' ∉ chars := fun hmem => absurd (hchars _ hmem) (by decide)
  have hcrumbs : (parts run true false [.text false chars]).outcome? scope world =
      some ((.ok (chars.map (.char · .written)), scope), world) := by
    have hwritten : (part run true false true (.text false chars)).outcome? scope world =
        some ((.ok (chars.map (.char · .written)), scope), world) := by
      rw [part, outcome?_bind_of outcome?_get, writtenCrumbs_of_plain hplain (by omega)]
      rfl
    simp only [parts, List.isEmpty_nil]
    rw [outcome?_bind_of hwritten]
    simp
  have hwhole : IsWhole (chars.map (.char · .written)) := by
    intro crumb hcrumb
    obtain ⟨char, -, rfl⟩ := List.mem_map.mp hcrumb
    simp
  have hwholly : wholly [] (chars.map (.char · .written)) = glyphs false chars := by
    rw [wholly, List.flatMap_map]
    exact List.map_eq_flatMap.symm
  have htame : ∀ glyph ∈ glyphs false chars, glyph.IsTame := by
    intro glyph hglyph
    obtain ⟨char, hchar, rfl⟩ := List.mem_map.mp hglyph
    have hfree : ∀ other, isNameRest other = false → char ≠ other := by
      rintro other hother rfl
      exact absurd (hchars _ hchar) (by simp [hother])
    exact .inr ⟨hfree _ (by decide), hfree _ (by decide), hfree _ (by decide), hfree _ (by decide)⟩
  rw [outcome?_expand_of_parts hcrumbs hwhole (by simpa using hfilled) (hwholly ▸ htame), hwholly,
    unquoted_glyphs]

/-! ## Plain commands -/

/-- What a word says whose parts all stand in quotes. -/
def saying? (scope : Scope) (word : Word) : Option Raw :=
  if word.isEmpty then none else (word.mapM (Part.spoken? scope)).map List.flatten

theorem spoken?_text (chars : Raw) : Part.spoken? scope (.text true chars) = some chars := rfl

theorem spoken?_variable {name value : Raw} (hname : isName name = true)
    (hvalue : scope.value? name = some value) :
    Part.spoken? scope (.parameter true name .value) = some value := by
  have hplain : isArguments name = false := by
    rw [isArguments, Bool.or_eq_false_iff, beq_eq_false_iff_ne, beq_eq_false_iff_ne]
    constructor
    · rintro rfl
      cases hname
    · rintro rfl
      cases hname
  simp only [Part.spoken?, hplain, Bool.false_eq_true, if_false]
  rw [Scope.parameter?_of_isName hname, hvalue]

theorem saying?_first {value : Raw} (harguments : scope.arguments[0]? = some value) :
    saying? scope [.text true [], .parameter true ['1'] .value] = some value := by
  have hspoken : Part.spoken? scope (.parameter true ['1'] .value) = some value := by
    rw [← harguments, ← Scope.parameter?_first]
    rfl
  simp [saying?, hspoken, spoken?_text]

theorem outcome?_expand_saying {word : Word} {value : Raw}
    (hsaying : saying? scope word = some value) :
    (expand run word).outcome? scope world = some ((.ok [value], scope), world) := by
  unfold saying? at hsaying
  split at hsaying
  · cases hsaying
  · next hfilled =>
    obtain ⟨texts, hspoken, rfl⟩ := Option.map_eq_some_iff.mp hsaying
    refine outcome?_expand hspoken ?_
    rintro rfl
    cases word with
    | nil => exact hfilled rfl
    | cons first rest => 
      rw [List.mapM_cons] at hspoken
      cases hfirst : first.spoken? scope <;> cases hrest : rest.mapM (Part.spoken? scope) <;>
        simp [hfirst, hrest] at hspoken

theorem outcome?_expandWhole_saying {word : Word} {value : Raw}
    (hsaying : saying? scope word = some value) (assigned : Bool) :
    (expandWhole run assigned word).outcome? scope world =
      some ((.ok (glyphs true value), scope), world) := by
  unfold saying? at hsaying
  split at hsaying
  · cases hsaying
  · obtain ⟨texts, hspoken, rfl⟩ := Option.map_eq_some_iff.mp hsaying
    exact outcome?_expandWhole hspoken assigned

/-- A command's name and what its operands say are its fields. -/
theorem outcome?_fieldsOf {name : Raw} {operands : List Word} {values : List Raw} {fuel : Nat}
    (hfilled : name ≠ []) (hname : name.all isNameRest = true)
    (hplain : ["export", "readonly", "local"].contains (String.ofList name) = false)
    (hoperands : operands.mapM (saying? scope) = some values) :
    (fieldsOf ([.text false name] :: operands) (fuel + 1)).outcome? scope world =
      some ((.ok (name :: values), scope), world) := by
  have hsaid : (operands.mapM (expand (fun command => capture command fuel))).outcome? scope world =
      some ((.ok (values.map fun value => [value]), scope), world) := by
    induction operands generalizing values with
    | nil =>
        cases hoperands
        rfl
    | cons word rest ih =>
        rw [List.mapM_cons] at hoperands
        cases hword : saying? scope word with
        | none => simp [hword] at hoperands
        | some value =>
            cases hrest : rest.mapM (saying? scope) with
            | none => simp [hword, hrest] at hoperands
            | some others =>
                obtain rfl : value :: others = values := by simpa [hword, hrest] using hoperands
                exact outcome?_mapM_cons (outcome?_expand_saying hword) (ih hrest)
  have hall := outcome?_mapM_cons (outcome?_expand_name hfilled hname) hsaid
  simp only [fieldsOf, List.head?_cons, Option.bind_some, plain?, hplain, Bool.false_eq_true,
    false_and, if_false]
  rw [outcome?_bind_of hall]
  have hflat : ([name] :: values.map fun value => [value]).flatten = name :: values := by
    rw [List.flatten_cons, ← List.flatMap_def]
    simp
  rw [hflat]
  rfl

variable {α : Type} {after : Scope} {left : World}

theorem outcome?_restoring {task : Task α} {value : α}
    (htask : task.outcome? scope world = some ((.ok value, after), left))
    (restore : Scope → Scope) :
    (restoring restore task).outcome? scope world =
      some ((.ok value, restore after), left) := by
  rw [restoring, outcome?_tryCatch_of]
  rw [outcome?_bind_of htask, outcome?_bind_of (outcome?_modify restore), outcome?_pure]

theorem isOn_of_isPlain (hplain : scope.IsPlain) (option : Char) : scope.isOn option = false := by
  rw [Scope.isOn, hplain.options]
  rfl

theorem outcome?_attend (hplain : scope.IsPlain) (fuel : Nat) :
    (attend (fuel + 1)).outcome? scope world = some ((.ok (), scope), world) := by
  have hgather : gather.outcome? scope world = some ((.ok (), scope), world) := by
    rw [gather, outcome?_bind_of outcome?_get]
    simp [isWary, hplain.traps]
  rw [attend, outcome?_bind_of hgather, outcome?_bind_of outcome?_get, hplain.doom, hplain.arrived]
  rfl

theorem outcome?_checkFailure (hplain : scope.IsPlain) (tested : Bool) :
    (checkFailure tested).outcome? scope world = some ((.ok (), scope), world) := by
  rw [checkFailure, outcome?_bind_of outcome?_get]
  simp [isOn_of_isPlain hplain]

theorem outcome?_traced (hplain : scope.IsPlain) (descriptors : List (Nat × Stream))
    (values : List (Raw × Raw)) (fields : List Raw) :
    (traced descriptors values fields).outcome? scope world = some ((.ok (), scope), world) := by
  have htrace : ∀ other : Scope, other.options = [] →
      (trace values fields).outcome? other world = some ((.ok (), other), world) := by
    intro other hother
    rw [trace, outcome?_bind_of outcome?_get]
    simp [Scope.isOn, hother]
  rw [traced, outcome?_bind_of outcome?_get, outcome?_bind_of (outcome?_modify _)]
  exact outcome?_bind_of (htrace { scope with descriptors := descriptors } hplain.options) _

/-- A command of words without settings performs what its name stands for, with its descriptors
redirected. -/
theorem outcome?_simple {words : List Word} {name : Raw} {values : List Raw}
    {redirections : List Redirection} {fuel : Nat} {tested : Bool} {before ready : Scope}
    {between : World}
    (hfields : (fieldsOf words (fuel + 1)).outcome? { scope with wordStatus := none } world =
        some ((.ok (name :: values), before), world))
    (hexec : name ≠ raw "exec")
    (hredirect : (redirect redirections (fuel + 1)).outcome? before world =
      some ((.ok true, ready), between))
    (hready : ready.IsPlain)
    (hcall : (call tested true name values (fuel + 1)).outcome? ready between =
        some ((.ok (), after), left)) :
    (simple tested [] words redirections (fuel + 2)).outcome? scope world =
      some ((.ok (), { after with descriptors := before.descriptors }), left) := by
  have hassign : (assignAll [] (fuel + 1)).outcome? ready between =
      some ((.ok [], ready), between) := rfl
  rw [simple, outcome?_bind_of (outcome?_modify _), outcome?_bind_of hfields,
    outcome?_bind_of outcome?_get]
  have hkeeps : ¬((name :: values).headD [] = raw "exec" ∧ (name :: values).length = 1) :=
    fun hkeeps => hexec hkeeps.1
  simp only [hkeeps, if_false]
  refine outcome?_restoring (?_ : _ = some ((Except.ok (), after), left)) _
  rw [outcome?_bind_of hredirect]
  simp only [Bool.not_true, Bool.false_eq_true, if_false]
  -- Without settings there is nothing to put back and nothing to hand on.
  refine (outcome?_restoring (?_ : _ = some ((Except.ok (), after), left)) _).trans (by split <;> rfl)
  rw [outcome?_bind_of hassign, outcome?_bind_of (outcome?_traced hready _ _ _)]
  split
  · rw [outcome?_bind_of (outcome?_modify _)]
    exact hcall
  · exact hcall

theorem outcome?_evaluate (hplain : scope.IsPlain) {line : Nat} {words : List Word}
    {settings : List (Raw × Word)} {redirections : List Redirection} {fuel : Nat} {tested : Bool}
    (hsimple : (simple tested settings words redirections (fuel + 1)).outcome?
      { scope with line := line } world = some ((.ok (), after), left))
    (hafter : after.IsPlain) :
    (evaluate tested (.simple line settings words redirections) (fuel + 2)).outcome? scope world =
      some ((.ok (), after), left) := by
  simp only [evaluate]
  rw [outcome?_bind_of outcome?_get]
  simp only [isOn_of_isPlain hplain, Bool.false_eq_true, if_false]
  rw [outcome?_bind_of (outcome?_modify _), outcome?_bind_of hsimple,
    outcome?_bind_of (outcome?_attend hafter fuel), outcome?_checkFailure hafter]

/-- A command of the shell itself gives the code. -/
theorem outcome?_call_builtin (hplain : scope.IsPlain) {name : Raw} {arguments : List Raw}
    {builtin : Builtin} {code fuel : Nat} {tested functions : Bool}
    (hbuiltin : Builtin.all.lookup (String.ofList name) = some builtin)
    (hperformed : (builtin arguments).outcome? { scope with speaker := name } world =
      some ((.ok code, after), left)) :
    (call tested functions name arguments (fuel + 1)).outcome? scope world =
      some ((.ok (), { after with status := code, speaker := scope.speaker }), left) := by
  simp only [call]
  rw [outcome?_bind_of outcome?_get]
  simp only [hplain.functions, List.lookup_nil, ite_self, hbuiltin]
  rw [forgiving, outcome?_tryCatch_of]
  rw [asSpeaker, outcome?_bind_of outcome?_get, outcome?_bind_of (outcome?_modify _)]
  refine outcome?_restoring
    (?_ : _ = some ((Except.ok (), { after with status := code }), left)) _
  rw [outcome?_bind_of hperformed]
  rfl

/-- A program gives the code. -/
theorem outcome?_call_program (hplain : scope.IsPlain) {name : Raw} {arguments : List Raw}
    {code fuel : Nat} {tested functions : Bool}
    (hbuiltin : isBuiltin name = false)
    (hperformed : (launch name arguments).outcome? scope world = some ((.ok code, after), left)) :
    (call tested functions name arguments (fuel + 1)).outcome? scope world =
      some ((.ok (), { after with status := code }), left) := by
  rw [isBuiltin, Bool.or_eq_false_iff] at hbuiltin
  have hnone : Builtin.all.lookup (String.ofList name) = none := by simpa using hbuiltin.2
  simp only [call]
  rw [outcome?_bind_of outcome?_get]
  simp only [hplain.functions, List.lookup_nil, ite_self, hnone, hbuiltin.1, Bool.false_eq_true,
    if_false]
  rw [outcome?_bind_of hperformed]
  rfl

/-! ## Writing to a file -/

theorem outcome?_emit_file {place : Place} {descriptor : Nat}
    (hfile : scope.descriptors.lookup descriptor = some (.file place)) {given : Bytes}
    (hgiven : given ≠ []) :
    (emit descriptor given).outcome? scope world =
      some ((.ok (), scope), world.store (world.files.append place given)) := by
  rw [emit]
  simp only [List.isEmpty_iff, hgiven, if_false]
  rw [outcome?_bind_of outcome?_get, hfile]
  rfl

theorem outcome?_emit_errors {descriptor : Nat}
    (herrors : scope.descriptors.lookup descriptor = some .errors) (given : Bytes) :
    (emit descriptor given).outcome? scope world = some ((.ok (), scope), world.write given) := by
  rw [emit]
  split
  · next hempty =>
    rw [List.isEmpty_iff] at hempty
    subst hempty
    simp [World.write]
  · rw [outcome?_bind_of outcome?_get, herrors]
    rfl

/-- What a command says goes to the end of the file that its output is redirected to. -/
theorem outcome?_say_file {place : Place}
    (hfile : scope.descriptors.lookup 1 = some (.file place)) (given : Raw) :
    (Builtin.say given).outcome? scope world = some ((.ok 0, scope),
      if given = [] then world else world.store (world.files.append place given.bytes)) := by
  rw [Builtin.say, outcome?_bind_of outcome?_get]
  by_cases hgiven : given = []
  · simp [hgiven]
  · have hbytes : given.bytes ≠ [] := by simpa [Raw.bytes] using hgiven
    simp only [List.isEmpty_iff, hgiven, if_false, hfile]
    rw [outcome?_bind_of (outcome?_emit_file hfile hbytes)]
    rfl

/-- A format that asks for a text gives that text as it is. -/
theorem printed_text (value : Raw) : printed (raw "%s") [value] = (⟨value, [], [], false⟩, none) := by
  have hlayout : (Layout.mk [] 0 none).text value = value := by
    simp [Layout.text, Layout.pad]
  have hdirect : Printing.direct ⟨[], [value], [], false⟩ ⟨[], 0, none⟩ 's' =
      some ⟨value, [], [], false⟩ := by
    simp [Printing.direct, Printing.take, Printing.write, hlayout]
  have hraw : raw "%s" = ['%', 's'] := rfl
  have hdigits : digits 10 ['s'] = (0, ['s']) := by decide +kernel
  have honce : Printing.once 3 ['%', 's'] ⟨[], [value], [], false⟩ =
      (⟨value, [], [], false⟩, none) := by
    simp [Printing.once, Printing.measure, hdigits, hdirect]
  rw [hraw]
  simp [printed, Printing.uses, honce]

theorem outcome?_printf_text {place : Place}
    (hfile : scope.descriptors.lookup 1 = some (.file place)) (value : Raw) :
    (Builtin.printf [raw "%s", value]).outcome? scope world = some ((.ok 0, scope),
      if value = [] then world else world.store (world.files.append place value.bytes)) := by
  have hoptions : (Builtin.optionsOf "" "" [raw "%s", value]).outcome? scope world =
      some ((.ok ([], [raw "%s", value]), scope), world) := rfl
  rw [Builtin.printf, outcome?_bind_of hoptions]
  simp only [printed_text]
  have hsilent : (([] : List Raw).forM complain).outcome? scope world =
      some ((.ok (), scope), world) := rfl
  rw [outcome?_bind_of hsilent, outcome?_bind_of (outcome?_say_file hfile value)]
  rfl

def streamNames : List String := ["/dev/tty", "/dev/stdin", "/dev/stdout", "/dev/stderr"]

theorem seen_eq (hworking : scope.working = world.files.working) :
    scope.seen world.files = world.files := by
  rw [Scope.seen, hworking]

theorem outcome?_alter_of {effect : Files → Files} {files : Files}
    (hworking : scope.working = world.files.working) (heffect : effect world.files = files)
    (hkept : files.working = world.files.working) :
    (alter effect).outcome? scope world = some ((.ok (), scope), world.store files) := by
  rw [alter, outcome?_bind_of outcome?_get, outcome?_alter, seen_eq hworking, heffect, ← hkept]

/-- Opening a file for writing empties it, or makes it. -/
theorem outcome?_openFile (hplain : scope.IsPlain) {path name : String} {directory : Place}
    (hworking : scope.working = world.files.working) (hordinary : path ∉ streamNames)
    (hspot : world.files.IsSpot path directory name) :
    (openFile .forWriting (raw path)).outcome? scope world =
      some ((.ok (.ok (.file (directory ++ [name]))), scope),
        world.store (world.files.putAt (directory ++ [name]) [] Files.plainMode)) := by
  have hnames : ∀ other ∈ streamNames, raw path ≠ raw other := by
    intro other hother hsame
    exact hordinary (raw_injective hsame ▸ hother)
  have hput := hspot.put [] Files.plainMode
  have halter : (alter fun files => (files.put path [] Files.plainMode).toOption.getD files).outcome?
      scope world = some ((.ok (), scope),
        world.store (world.files.putAt (directory ++ [name]) [] Files.plainMode)) :=
    outcome?_alter_of hworking (by rw [hput]; rfl) rfl
  rw [openFile, outcome?_bind_of outcome?_files, outcome?_bind_of outcome?_get, seen_eq hworking]
  simp only [Raw.text_raw, hnames "/dev/tty" (by decide), hnames "/dev/stdin" (by decide),
    hnames "/dev/stdout" (by decide), hnames "/dev/stderr" (by decide), if_false, hspot.stat]
  rcases hspot.free with hnone | ⟨content, mode, hsome⟩
  · simp only [hnone, hput]
    rw [outcome?_bind_of halter, hspot.placeOf]
    rfl
  · simp only [hsome, isOn_of_isPlain hplain, Bool.false_eq_true, if_false]
    rw [outcome?_bind_of halter, hspot.placeOf]
    rfl

/-- Output that is redirected to a file goes to its place. -/
theorem outcome?_redirect (hplain : scope.IsPlain) {word : Word} {path name : String}
    {directory : Place} {fuel : Nat}
    (hworking : scope.working = world.files.working) (hordinary : path ∉ streamNames)
    (hspot : world.files.IsSpot path directory name)
    (hsaying : saying? scope word = some (raw path)) :
    (redirect [.file 1 .forWriting word] (fuel + 2)).outcome? scope world =
      some ((.ok true,
          { scope with
            descriptors := (1, .file (directory ++ [name])) ::
              scope.descriptors.filter (·.1 ≠ 1) }),
        world.store (world.files.putAt (directory ++ [name]) [] Files.plainMode)) := by
  have hdirected : (redirectTo (.file 1 .forWriting word) (raw path)).outcome? scope world =
      some ((.ok true,
          { scope with
            descriptors := (1, .file (directory ++ [name])) ::
              scope.descriptors.filter (·.1 ≠ 1) }),
        world.store (world.files.putAt (directory ++ [name]) [] Files.plainMode)) := by
    simp only [redirectTo]
    rw [outcome?_bind_of (outcome?_openFile hplain hworking hordinary hspot)]
    rfl
  simp only [redirect, wordOf]
  rw [outcome?_bind_of (outcome?_expandWhole_saying hsaying false), unquoted_glyphs,
    outcome?_bind_of hdirected]
  rfl

/-! ## Running programs -/

theorem outcome?_settle (hplain : scope.IsPlain) :
    settle.outcome? scope world = some ((.ok (), scope), world) := by
  have hjobs := hplain.jobs
  obtain ⟨⟩ := scope
  subst hjobs
  rfl

theorem outcome?_forget (hplain : scope.IsPlain) :
    forget.outcome? scope world = some ((.ok (), scope), world) := by
  have hjobs := hplain.jobs
  obtain ⟨⟩ := scope
  subst hjobs
  rfl

theorem outcome?_notice (hplain : scope.IsPlain) :
    notice.outcome? scope world = some ((.ok (), scope), world) := by
  have hjobs := hplain.jobs
  obtain ⟨⟩ := scope
  subst hjobs
  rfl

/-- A program that is found does its work and gives its code. -/
theorem outcome?_launch (hplain : scope.IsPlain) {name : Raw} {arguments : List Raw}
    {process : Process Ending} {code : Nat}
    (hworking : scope.working = world.files.working) (hfilled : name ≠ [])
    (hlocate : (locate scope world.files name).isSome = true)
    (hlaunch : scope.launch world.files ⟨name.text, arguments.map Raw.text, scope.environment⟩ =
      .ok process)
    (hconduct : (conduct process).outcome? scope world = some ((.ok (.exited code), scope), left)) :
    (launch name arguments).outcome? scope world = some ((.ok code, scope), left) := by
  have hempty : name.isEmpty = false := by simpa using hfilled
  have hfound : (locate scope world.files name).isNone = false := by simpa using hlocate
  rw [launch, outcome?_bind_of (outcome?_settle hplain), outcome?_bind_of outcome?_get,
    outcome?_bind_of outcome?_files, seen_eq hworking]
  simp only [hempty, hfound, hlaunch, Bool.false_eq_true, and_false, if_false]
  rw [outcome?_bind_of (outcome?_forget hplain), outcome?_bind_of hconduct,
    outcome?_bind_of (outcome?_notice hplain)]
  rfl

/-! ## Scripts -/

theorem outcome?_perform_command {tested begun : Bool} {source rest : Source} {command : Command}
    {fuel : Nat} {middle : Scope} {between : World}
    (hline : line.run { source with aliases := scope.aliases } = .ok (some command, rest))
    (hcommand : (evaluate tested command fuel).outcome? scope world =
      some ((.ok (), middle), between))
    (hrest : (perform tested true rest fuel).outcome? middle between =
      some ((.ok (), after), left)) :
    (perform tested begun source (fuel + 1)).outcome? scope world =
      some ((.ok (), after), left) := by
  simp only [perform]
  rw [outcome?_bind_of outcome?_get, hline]
  simp only
  rw [outcome?_bind_of hcommand, hrest]

theorem outcome?_perform_blank {tested begun : Bool} {source rest : Source} {fuel : Nat}
    (hline : line.run { source with aliases := scope.aliases } = .ok (none, rest))
    (hheld : rest.held = none)
    (hrest : (perform tested begun rest fuel).outcome? scope world =
      some ((.ok (), after), left)) :
    (perform tested begun source (fuel + 1)).outcome? scope world =
      some ((.ok (), after), left) := by
  simp only [perform]
  rw [outcome?_bind_of outcome?_get, hline]
  simp only [hheld]
  exact hrest

theorem outcome?_perform_end {tested : Bool} {source rest : Source} {fuel : Nat}
    (hline : line.run { source with aliases := scope.aliases } = .ok (none, rest))
    (hheld : rest.held = some (.mark .ending)) :
    (perform tested true source (fuel + 1)).outcome? scope world =
      some ((.ok (), scope), world) := by
  simp only [perform]
  rw [outcome?_bind_of outcome?_get, hline]
  simp [hheld]

theorem outcome?_whole {task : Task Unit} {fuel : Nat}
    (htask : task.outcome? scope world = some ((.ok (), after), left)) (hafter : after.IsPlain) :
    (whole task (fuel + 2)).outcome? scope world = some ((.ok (), after), left) := by
  have hended : (do task; return none : Task (Option Nat)).outcome? scope world =
      some ((.ok none, after), left) := by
    rw [outcome?_bind_of htask]
    rfl
  have hfinish : (finish (fuel + 1)).outcome? after left = some ((.ok (), after), left) := by
    rw [finish, outcome?_bind_of outcome?_get, hafter.traps]
    rfl
  rw [whole, outcome?_bind_of (outcome?_tryCatch_of hended _)]
  exact outcome?_tryCatch_of hfinish _

end Task

/-- A shell whose task is done ends with the code of the last command. -/
theorem outcome?_session {scope after : Scope} {world left : World} {task : Task Unit}
    (htask : task.outcome? scope world = some ((.ok (), after), left)) (hafter : after.IsPlain) :
    (session scope task).outcome? world = some (.exited after.status, left) := by
  have hwhole : (Task.whole task longestRun).outcome? scope world =
      some ((.ok (), after), left) := Task.outcome?_whole htask hafter
  unfold Task.outcome? at hwhole
  rw [session, Process.outcome?_bind, hwhole]
  rfl

end PromptHarness.Shell
