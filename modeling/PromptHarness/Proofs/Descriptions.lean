import Mathlib.Data.List.Basic
import PromptHarness.Proofs.Exchanges
import PromptHarness.Proofs.Occurrence

/-!
# What descriptions tell

The texts that describe a plan are put together from one piece for each step, and each piece ends
with a character that stands nowhere else in it.  So a text can be cut into its pieces again, and two
texts are the same exactly where their pieces are (`Text.flatMap_terminated_inj`).  The piece of a
step tells its shape and nothing about its answer, and that of an exchange tells the cue and how many
bytes the answer has.
-/

namespace PromptHarness

/-! ## Texts in pieces -/

namespace Text

/-- Two texts can be cut in one way only behind the first occurrence of a character. -/
theorem append_cons_inj {last : Char} {before before' after after' : List Char}
    (hbefore : last ∉ before) (hbefore' : last ∉ before') :
    before ++ last :: after = before' ++ last :: after' ↔ before = before' ∧ after = after' := by
  constructor
  · intro hsame
    have hcut : cut? [last] (before ++ last :: after) = some (before, after) :=
      cut?_singleton_eq_some_iff.mpr ⟨rfl, hbefore⟩
    have hcut' : cut? [last] (before ++ last :: after) = some (before', after') :=
      cut?_singleton_eq_some_iff.mpr ⟨hsame, hbefore'⟩
    simpa using hcut.symm.trans hcut'
  · rintro ⟨rfl, rfl⟩
    rfl

/-- Pieces that are written one behind the other, each with its end, can be told apart if the end
begins with a character that is in none of them. -/
theorem flatMap_terminated_inj {pieces others : List (List Char)} {last : Char}
    (rest : List Char) (hpieces : ∀ piece ∈ pieces, last ∉ piece)
    (hothers : ∀ piece ∈ others, last ∉ piece) :
    pieces.flatMap (· ++ last :: rest) = others.flatMap (· ++ last :: rest) ↔
      pieces = others := by
  constructor
  · intro hsame
    induction pieces generalizing others with
    | nil =>
        cases others with
        | nil => rfl
        | cons other others => simp at hsame
    | cons piece pieces ih =>
        cases others with
        | nil => simp at hsame
        | cons other others =>
            simp only [List.mem_cons, forall_eq_or_imp] at hpieces hothers
            simp only [List.flatMap_cons, List.append_assoc, List.cons_append] at hsame
            obtain ⟨rfl, hrest⟩ := (append_cons_inj hpieces.1 hothers.1).mp hsame
            rw [ih hpieces.2 hothers.2 (List.append_cancel_left hrest)]
  · rintro rfl
    rfl

/-- With one more separator at its end, a list between separators falls into pieces that all end
alike. -/
theorem intercalate_append_separator (separator : List Char) {items : List (List Char)}
    (hitems : items ≠ []) :
    separator.intercalate items ++ separator = items.flatMap (· ++ separator) := by
  induction items with
  | nil => exact absurd rfl hitems
  | cons item items ih =>
      cases items with
      | nil => simp [List.intercalate]
      | cons next later =>
          rw [List.intercalate_cons_cons, List.append_assoc, ih (by simp)]
          simp

theorem intercalate_eq_nil_iff {separator : List Char} {items : List (List Char)}
    (hitems : ∀ item ∈ items, item ≠ []) : separator.intercalate items = [] ↔ items = [] := by
  cases items with
  | nil => simp [List.intercalate]
  | cons item items =>
      have hitem : item ≠ [] := hitems item (by simp)
      cases items with
      | nil => simpa [List.intercalate] using hitem
      | cons next later => simp [List.intercalate_cons_cons, hitem]

/-- Pieces between separators can be told apart as well, each with an ending of its own, if the
ending and the separator behind it begin with such a character. -/
theorem separated_inj {pieces others : List (List Char)} {ending separator rest : List Char}
    {last : Char} (hending : ending ++ separator = last :: rest)
    (hpieces : ∀ piece ∈ pieces, piece ≠ [] ∧ last ∉ piece)
    (hothers : ∀ piece ∈ others, piece ≠ [] ∧ last ∉ piece) :
    separator.intercalate (pieces.map (· ++ ending)) =
      separator.intercalate (others.map (· ++ ending)) ↔ pieces = others := by
  have hnil : ∀ {list : List (List Char)}, (∀ piece ∈ list, piece ≠ [] ∧ last ∉ piece) →
      (separator.intercalate (list.map (· ++ ending)) = [] ↔ list = []) := by
    intro list hlist
    rw [intercalate_eq_nil_iff, List.map_eq_nil_iff]
    intro item hitem
    obtain ⟨piece, hpiece, rfl⟩ := List.mem_map.mp hitem
    exact List.append_ne_nil_of_left_ne_nil (hlist piece hpiece).1 ending
  have hflat : ∀ {list : List (List Char)}, list ≠ [] →
      separator.intercalate (list.map (· ++ ending)) ++ separator =
        list.flatMap (· ++ last :: rest) := by
    intro list hlist
    rw [intercalate_append_separator separator (by simpa using hlist), List.flatMap_map]
    simp only [List.append_assoc, hending]
  constructor
  · intro hsame
    by_cases hempty : pieces = []
    · have hother := (hnil hpieces).mpr hempty
      rw [hsame, hnil hothers] at hother
      rw [hempty, hother]
    · have hother : others ≠ [] := by
        intro hother
        rw [(hnil hothers).mpr hother, hnil hpieces] at hsame
        exact hempty hsame
      have hwhole := congrArg (· ++ separator) hsame
      simp only [hflat hempty, hflat hother] at hwhole
      exact (flatMap_terminated_inj rest (fun piece hpiece => (hpieces piece hpiece).2)
        fun piece hpiece => (hothers piece hpiece).2).mp hwhole
  · rintro rfl
    rfl

end Text

/-- Two functions that tell the same of any two elements tell the same of any two lists. -/
theorem map_eq_map_iff_of_eq_iff {α β γ : Type} {first : α → β} {second : α → γ}
    (htell : ∀ x y, first x = first y ↔ second x = second y) {xs ys : List α} :
    xs.map first = ys.map first ↔ xs.map second = ys.map second := by
  induction xs generalizing ys with
  | nil => simp [eq_comm]
  | cons x xs ih =>
      cases ys with
      | nil => simp
      | cons y ys => simp only [List.map_cons, List.cons.injEq, htell, ih]

/-- Descriptions that each end with a character they do not have before it can be told apart in a
row, if they can be one by one. -/
theorem Text.described_inj {α β : Type} {describe stem : α → String} {tell : α → β} {last : Char}
    (hdescribe : ∀ item, (describe item).toList = (stem item).toList ++ [last])
    (hstem : ∀ item, (stem item).toList ≠ [] ∧ last ∉ (stem item).toList)
    (htell : ∀ item other, (stem item).toList = (stem other).toList ↔ tell item = tell other)
    (items others : List α) :
    ", ".intercalate (items.map describe) = ", ".intercalate (others.map describe) ↔
      items.map tell = others.map tell := by
  have htext : ∀ items : List α, (", ".intercalate (items.map describe)).toList =
      [',', ' '].intercalate ((items.map fun item => (stem item).toList).map (· ++ [last])) := by
    intro items
    simp [String.toList_intercalate, Function.comp_def, hdescribe]
  have hpieces : ∀ items : List α, ∀ piece ∈ items.map fun item => (stem item).toList,
      piece ≠ [] ∧ last ∉ piece := by
    intro items piece hpiece
    obtain ⟨item, -, rfl⟩ := List.mem_map.mp hpiece
    exact hstem item
  rw [← String.toList_inj, htext, htext,
    separated_inj (by rfl) (hpieces items) (hpieces others)]
  exact map_eq_map_iff_of_eq_iff htell

theorem map_pair_eq_iff {α β γ : Type} {first : α → β} {second : α → γ} {xs ys : List α} :
    xs.map (fun x => (first x, second x)) = ys.map (fun y => (first y, second y)) ↔
      xs.map first = ys.map first ∧ xs.map second = ys.map second := by
  constructor
  · intro hsame
    have hfirst := congrArg (List.map Prod.fst) hsame
    have hsecond := congrArg (List.map Prod.snd) hsame
    simp only [List.map_map, Function.comp_def] at hfirst hsecond
    exact ⟨hfirst, hsecond⟩
  · rintro ⟨hfirst, hsecond⟩
    rw [← List.zip_map', ← List.zip_map', hfirst, hsecond]

/-! ## The shape of a plan -/

/-- What a step asks for, without the answer. -/
inductive Shape where
  | password (credential : Credential) (confirmed : Bool)
  | yesNo
  deriving Repr, DecidableEq

def Step.shape : Step → Shape
  | password credential _ confirmed => .password credential confirmed
  | yesNo _ => .yesNo

def Plan.shape (plan : Plan) : List Shape := plan.steps.map Step.shape

/-- The step of a shape whose answer is empty. -/
def Shape.step : Shape → Step
  | password credential confirmed => .password credential "" confirmed
  | yesNo => .yesNo ""

theorem Shape.shape_step (shape : Shape) : shape.step.shape = shape := by
  cases shape <;> rfl

namespace Step

theorem label_eq_iff (step other : Step) :
    step.label.toList = other.label.toList ↔ step.shape = other.shape := by
  rcases step with ⟨_ | _, _, _ | _⟩ | _ <;> rcases other with ⟨_ | _, _, _ | _⟩ | _ <;>
    simp [label, shape]

theorem label_ne_nil (step : Step) : step.label.toList ≠ [] := by
  rcases step with ⟨_ | _, _, _ | _⟩ | _ <;> simp [label]

theorem label_ne_noPrompts (step : Step) : step.label.toList ≠ "no prompts".toList := by
  rcases step with ⟨_ | _, _, _ | _⟩ | _ <;> simp [label]

theorem not_mem_label (step : Step) : ',' ∉ step.label.toList ∧ ')' ∉ step.label.toList := by
  rcases step with ⟨_ | _, _, _ | _⟩ | _ <;> simp [label]

/-- The description of a step up to the bracket that ends it. -/
def stem (step : Step) : String := "PromptStep(" ++ step.label

theorem toList_describe (step : Step) : step.describe.toList = step.stem.toList ++ [')'] :=
  String.toList_append

theorem stem_eq_iff (step other : Step) :
    step.stem.toList = other.stem.toList ↔ step.shape = other.shape := by
  rw [String.toList_inj, stem, stem, String.append_right_inj, ← String.toList_inj, label_eq_iff]

theorem not_mem_stem (step : Step) : ')' ∉ step.stem.toList := by
  rw [stem, String.toList_append, List.mem_append, not_or]
  exact ⟨by decide, step.not_mem_label.2⟩

theorem stem_ne_nil (step : Step) : step.stem.toList ≠ [] := by
  rw [stem, String.toList_append]
  exact List.append_ne_nil_of_right_ne_nil _ step.label_ne_nil

end Step

namespace Plan

variable {plan other : Plan}

/-- The words of a summary, between which the commas stand. -/
def words (plan : Plan) : List (List Char) :=
  if plan.steps.isEmpty then ["no prompts".toList] else plan.steps.map (·.label.toList)

theorem toList_summary (plan : Plan) :
    plan.summary.toList = [',', ' '].intercalate (plan.words.map (· ++ [])) := by
  unfold summary words
  split
  · simp [List.intercalate]
  · simp [String.toList_intercalate, Function.comp_def]

theorem of_mem_words {word : List Char} (hword : word ∈ plan.words) : word ≠ [] ∧ ',' ∉ word := by
  unfold words at hword
  split at hword
  · obtain rfl := List.mem_singleton.mp hword
    exact ⟨by decide, by decide⟩
  · obtain ⟨step, -, rfl⟩ := List.mem_map.mp hword
    exact ⟨step.label_ne_nil, step.not_mem_label.1⟩

theorem words_eq_iff : plan.words = other.words ↔ plan.shape = other.shape := by
  rcases plan with ⟨_ | ⟨step, steps⟩⟩ <;> rcases other with ⟨_ | ⟨step', steps'⟩⟩
  case nil.nil => exact iff_of_true rfl rfl
  case nil.cons =>
      refine iff_of_false (fun hsame => ?_) (by simp [shape])
      exact step'.label_ne_noPrompts (List.cons.inj hsame).1.symm
  case cons.nil =>
      refine iff_of_false (fun hsame => ?_) (by simp [shape])
      exact step.label_ne_noPrompts (List.cons.inj hsame).1
  case cons.cons => exact map_eq_map_iff_of_eq_iff Step.label_eq_iff

theorem summary_eq_iff : plan.summary = other.summary ↔ plan.shape = other.shape := by
  rw [← String.toList_inj, toList_summary, toList_summary,
    Text.separated_inj (by rfl) (fun _ => of_mem_words) (fun _ => of_mem_words), words_eq_iff]

theorem describe_eq_iff : plan.describe = other.describe ↔ plan.shape = other.shape := by
  simp only [describe, describeRecord, List.map_cons, List.map_nil, String.intercalate_singleton,
    String.append_left_inj, String.append_right_inj]
  exact Text.described_inj Step.toList_describe
    (fun step => ⟨step.stem_ne_nil, step.not_mem_stem⟩) Step.stem_eq_iff plan.steps other.steps

/-- The lines of the steps, each with the comma and the newline at its end. -/
theorem lines_eq_iff {steps others : List Step} :
    String.join (steps.map fun step => "        " ++ step.describe ++ ",\n") =
      String.join (others.map fun step => "        " ++ step.describe ++ ",\n") ↔
        steps.map Step.shape = others.map Step.shape := by
  have hlines : ∀ steps : List Step,
      (String.join (steps.map fun step => "        " ++ step.describe ++ ",\n")).toList =
        (steps.map fun step => ("        " ++ step.stem).toList).flatMap
          (· ++ ')' :: [',', '\n']) := by
    intro steps
    simp [List.flatMap_map, Step.toList_describe]
  have hpieces : ∀ steps : List Step,
      ∀ piece ∈ steps.map fun step => ("        " ++ step.stem).toList, ')' ∉ piece := by
    intro steps piece hpiece
    obtain ⟨step, -, rfl⟩ := List.mem_map.mp hpiece
    rw [String.toList_append, List.mem_append, not_or]
    exact ⟨by decide, step.not_mem_stem⟩
  rw [← String.toList_inj, hlines, hlines,
    Text.flatMap_terminated_inj _ (hpieces steps) (hpieces others)]
  apply map_eq_map_iff_of_eq_iff
  intro step other
  rw [String.toList_inj, String.append_right_inj, ← String.toList_inj, Step.stem_eq_iff]

def listing (plan : Plan) : String :=
  if plan.steps.isEmpty then "[]"
  else "[\n" ++ String.join (plan.steps.map fun step => "        " ++ step.describe ++ ",\n") ++
    "    ]"

theorem describeLong_eq (plan : Plan) :
    plan.describeLong = "PromptPlan \x7b\n    steps: " ++ plan.listing ++ ",\n\x7d" := rfl

theorem listing_empty_ne (step : Step) (steps : List Step) :
    listing ⟨[]⟩ ≠ listing ⟨step :: steps⟩ := by
  intro hsame
  have hsecond := congrArg (·.toList[1]?) hsame
  simp [listing] at hsecond

theorem listing_eq_iff : plan.listing = other.listing ↔ plan.shape = other.shape := by
  rcases plan with ⟨_ | ⟨step, steps⟩⟩ <;> rcases other with ⟨_ | ⟨step', steps'⟩⟩
  case nil.nil => exact iff_of_true rfl rfl
  case nil.cons => exact iff_of_false (listing_empty_ne step' steps') (by simp [shape])
  case cons.nil => exact iff_of_false (listing_empty_ne step steps).symm (by simp [shape])
  case cons.cons =>
      simp only [listing, List.isEmpty_cons, Bool.false_eq_true, if_false]
      rw [String.append_left_inj, String.append_right_inj]
      exact lines_eq_iff

theorem describeLong_eq_iff : plan.describeLong = other.describeLong ↔ plan.shape = other.shape := by
  rw [describeLong_eq, describeLong_eq, String.append_left_inj, String.append_right_inj,
    listing_eq_iff]

end Plan

/-! ## The descriptions of exchanges -/

theorem Cue.name_inj {cue other : Cue} : cue.name.toList = other.name.toList ↔ cue = other := by
  rcases cue with (_ | _) | _ | _ <;> rcases other with (_ | _) | _ | _ <;> simp [name]

theorem Cue.not_mem_name (cue : Cue) : ',' ∉ cue.name.toList ∧ '\x7d' ∉ cue.name.toList := by
  rcases cue with (_ | _) | _ | _ <;> decide

/-- The digits of a number tell which one it is. -/
theorem toString_inj {number other : Nat} : toString number = toString other ↔ number = other := by
  constructor
  · intro hdigits
    have hnumber := congrArg (fun digits => Nat.ofDigitChars 10 digits.toList 0) hdigits
    simpa [Nat.toList_repr, Nat.ofDigitChars_toDigits] using hnumber
  · rintro rfl
    rfl

namespace Exchange

/-- The description of an exchange up to the brace that ends it. -/
def stem (exchange : Exchange) : String :=
  "Exchange \x7b cue: " ++ (exchange.cue.name ++ ("," ++ (" response_len: " ++
    (toString exchange.response.utf8ByteSize ++ " "))))

theorem toList_describe (exchange : Exchange) :
    exchange.describe.toList = exchange.stem.toList ++ ['\x7d'] := by
  unfold stem
  simp [describe, describeRecord]

theorem stem_eq_iff (exchange other : Exchange) : exchange.stem.toList = other.stem.toList ↔
    (exchange.cue, exchange.response.utf8ByteSize) =
      (other.cue, other.response.utf8ByteSize) := by
  have hcomma : ∀ name rest : String,
      (name ++ ("," ++ rest)).toList = name.toList ++ ',' :: rest.toList := by
    intro name rest
    simp
  unfold stem
  rw [String.toList_inj, String.append_right_inj, ← String.toList_inj, hcomma, hcomma,
    Text.append_cons_inj exchange.cue.not_mem_name.1 other.cue.not_mem_name.1,
    Cue.name_inj, String.toList_inj, String.append_right_inj, String.append_left_inj,
    toString_inj, Prod.mk.injEq]

theorem not_mem_stem (exchange : Exchange) : '\x7d' ∉ exchange.stem.toList := by
  have hdigits : '\x7d' ∉ Nat.toDigits 10 exchange.response.utf8ByteSize := by
    intro hmem
    exact absurd (Nat.isDigit_of_mem_toDigits (by decide) (by decide) hmem) (by decide)
  unfold stem
  simp [exchange.cue.not_mem_name.2, hdigits]

theorem stem_ne_nil (exchange : Exchange) : exchange.stem.toList ≠ [] := by
  unfold stem
  simp

/-- The exchanges' description tells their cues and how long their answers are, and nothing else. -/
theorem describeAll_eq_iff {exchanges others : List Exchange} :
    describeAll exchanges = describeAll others ↔
      exchanges.map (fun exchange => (exchange.cue, exchange.response.utf8ByteSize)) =
        others.map fun exchange => (exchange.cue, exchange.response.utf8ByteSize) := by
  rw [describeAll, describeAll, String.append_left_inj, String.append_right_inj]
  exact Text.described_inj toList_describe
    (fun exchange => ⟨exchange.stem_ne_nil, exchange.not_mem_stem⟩) stem_eq_iff exchanges others

end Exchange

namespace Plan

/-- With empty answers for those it has, a plan has the same cues. -/
theorem exchanges_blank (plan : Plan) :
    (Plan.mk (plan.shape.map Shape.step)).exchanges =
      (plan.exchanges.map (·.cue)).map (⟨·, ""⟩) := by
  have hstep : ∀ step : Step, step.shape.step.exchanges =
      (step.exchanges.map (·.cue)).map (⟨·, ""⟩) := by
    intro step
    rcases step with ⟨_, _, _ | _⟩ | _ <;> rfl
  rw [exchanges, exchanges, shape, List.map_map, List.flatMap_map, List.map_flatMap,
    List.map_flatMap]
  exact congrArg (fun unfold => plan.steps.flatMap unfold) (funext hstep)

/-- The cues of a plan tell its shape, and nothing else. -/
theorem cues_eq_iff {plan other : Plan} :
    plan.exchanges.map (·.cue) = other.exchanges.map (·.cue) ↔ plan.shape = other.shape := by
  have hblank : Function.Injective fun cue : Cue => Exchange.mk cue "" := by
    intro cue cue' hsame
    exact congrArg Exchange.cue hsame
  have hstep : Function.Injective Shape.step :=
    Function.LeftInverse.injective Shape.shape_step
  rw [← hblank.list_map.eq_iff, ← exchanges_blank, ← exchanges_blank, exchanges_injective.eq_iff,
    Plan.mk.injEq, hstep.list_map.eq_iff]

/-- What describes a plan or its exchanges tells the shape of the plan, so it is the same whatever
the answers are and differs between any two shapes.  Beside that nothing is told but how many bytes
each answer has, and that only where the exchanges are described one by one. -/
theorem descriptions_tell_shape (plan other : Plan) :
    (plan.summary = other.summary ↔ plan.shape = other.shape) ∧
    (plan.describe = other.describe ↔ plan.shape = other.shape) ∧
    (plan.describeLong = other.describeLong ↔ plan.shape = other.shape) ∧
    (Exchange.describeAll plan.exchanges = Exchange.describeAll other.exchanges ↔
      plan.shape = other.shape ∧ plan.exchanges.map (·.response.utf8ByteSize) =
        other.exchanges.map (·.response.utf8ByteSize)) := by
  refine ⟨summary_eq_iff, describe_eq_iff, describeLong_eq_iff, ?_⟩
  rw [Exchange.describeAll_eq_iff, ← cues_eq_iff, map_pair_eq_iff]

end Plan

end PromptHarness
