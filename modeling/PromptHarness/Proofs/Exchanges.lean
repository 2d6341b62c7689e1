import Mathlib.Data.List.Basic
import PromptHarness.Plan

/-!
# Plans and their exchanges

A plan is put together by declarations, one after the other, and each adds its own exchanges behind
those there are: none if the value is absent, else one for the cue of the value and, where a password
is to be confirmed, one more for the confirmation.  Nothing of a plan is lost by going over to its
exchanges.  `Step.ofExchanges?` reads them back, since a confirmation always belongs to the password
in front of it; so plans with the same exchanges are the same, and the lists in which each
confirmation stands behind the password that it confirms are those that come from a plan.
-/

namespace PromptHarness

/-! ## Declaring steps -/

/-- What may be declared of a command: that it asks for a password or a question, and the answer to
give, unless it is absent. -/
inductive Declaration where
  | master (value : Option String) (confirmed : Bool)
  | secret (value : Option String) (confirmed : Bool)
  | yesNo (value : Option String)
  deriving Repr, DecidableEq

/-- What asking for a password adds to the exchanges of a plan. -/
def Credential.exchanges (credential : Credential) (confirmed : Bool) :
    Option String → List Exchange
  | none => []
  | some value =>
    ⟨.password credential, value⟩ :: if confirmed then [⟨.confirm, value⟩] else []

/-- What a declaration adds to the exchanges of a plan. -/
def Declaration.exchanges : Declaration → List Exchange
  | master value confirmed => Credential.master.exchanges confirmed value
  | secret value confirmed => Credential.secret.exchanges confirmed value
  | yesNo none => []
  | yesNo (some value) => [⟨.yesNo, value⟩]

namespace Plan

def declare (plan : Plan) : Declaration → Plan
  | .master value confirmed => plan.master value confirmed
  | .secret value confirmed => plan.secret value confirmed
  | .yesNo value => plan.yesNo value

def ofDeclarations (declarations : List Declaration) : Plan :=
  declarations.foldl declare empty

@[simp]
theorem exchanges_empty : empty.exchanges = [] := rfl

theorem exchanges_expect (plan : Plan) (step : Option Step) :
    (plan.expect step).exchanges = plan.exchanges ++ step.toList.flatMap Step.exchanges := by
  simp [exchanges, expect]

/-- The exchanges of a password that is declared. -/
theorem exchanges_password (plan : Plan) (credential : Credential) (value : Option String)
    (confirmed : Bool) :
    (plan.expect (value.map (.password credential · confirmed))).exchanges =
      plan.exchanges ++ credential.exchanges confirmed value := by
  rw [exchanges_expect]
  cases value with
  | none => rfl
  | some value => cases confirmed <;> rfl

/-- A declaration leaves the exchanges there are, and adds its own behind them. -/
theorem exchanges_declare (plan : Plan) (declaration : Declaration) :
    (plan.declare declaration).exchanges = plan.exchanges ++ declaration.exchanges := by
  cases declaration with
  | master value confirmed => exact plan.exchanges_password .master value confirmed
  | secret value confirmed => exact plan.exchanges_password .secret value confirmed
  | yesNo value =>
      cases value with
      | none => exact plan.exchanges_expect none
      | some value => exact plan.exchanges_expect (some (.yesNo value))

theorem exchanges_foldl_declare (plan : Plan) (declarations : List Declaration) :
    (declarations.foldl declare plan).exchanges =
      plan.exchanges ++ declarations.flatMap Declaration.exchanges := by
  induction declarations generalizing plan with
  | nil => simp
  | cons declaration later ih =>
      rw [List.foldl_cons, ih, exchanges_declare, List.flatMap_cons, List.append_assoc]

end Plan

def Step.declaration : Step → Declaration
  | password .master value confirmed => .master (some value) confirmed
  | password .secret value confirmed => .secret (some value) confirmed
  | yesNo value => .yesNo (some value)

theorem Plan.declare_declaration (plan : Plan) (step : Step) :
    plan.declare step.declaration = ⟨plan.steps ++ [step]⟩ := by
  cases step with
  | password credential value confirmed => cases credential <;> rfl
  | yesNo value => rfl

theorem Plan.foldl_declare_declaration (plan : Plan) (steps : List Step) :
    (steps.map Step.declaration).foldl declare plan = ⟨plan.steps ++ steps⟩ := by
  induction steps generalizing plan with
  | nil => simp
  | cons step later ih => simp [declare_declaration, ih]

/-! ## Reading exchanges back -/

namespace Step

/-- The steps that make these exchanges, if there are any: a confirmation belongs to the password in
front of it. -/
def ofExchanges? : List Exchange → Option (List Step)
  | [] => some []
  | ⟨.password credential, value⟩ :: ⟨.confirm, again⟩ :: later =>
    if again = value then (ofExchanges? later).map (password credential value true :: ·) else none
  | ⟨.password credential, value⟩ :: later =>
    (ofExchanges? later).map (password credential value false :: ·)
  | ⟨.yesNo, value⟩ :: later => (ofExchanges? later).map (yesNo value :: ·)
  | ⟨.confirm, _⟩ :: _ => none

/-- A password without a confirmation behind it is a step of its own. -/
theorem ofExchanges?_password (credential : Credential) (value : String) {later : List Exchange}
    (hlater : later.head?.map (·.cue) ≠ some .confirm) :
    ofExchanges? (⟨.password credential, value⟩ :: later) =
      (ofExchanges? later).map (password credential value false :: ·) := by
  match later with
  | [] => rfl
  | ⟨.password _, _⟩ :: _ => rfl
  | ⟨.yesNo, _⟩ :: _ => rfl
  | ⟨.confirm, _⟩ :: _ => simp at hlater

/-- No step begins with a confirmation. -/
theorem head?_exchanges (steps : List Step) :
    (steps.flatMap exchanges).head?.map (·.cue) ≠ some .confirm := by
  match steps with
  | [] => simp
  | password _ _ false :: _ => simp [exchanges]
  | password _ _ true :: _ => simp [exchanges]
  | yesNo _ :: _ => simp [exchanges]

theorem ofExchanges?_exchanges (steps : List Step) :
    ofExchanges? (steps.flatMap exchanges) = some steps := by
  induction steps with
  | nil => rfl
  | cons step later ih =>
      match step with
      | password credential value false =>
          have hread := ofExchanges?_password credential value (head?_exchanges later)
          rwa [ih] at hread
      | password credential value true => simp [exchanges, ofExchanges?, ih]
      | yesNo value => simp [exchanges, ofExchanges?, ih]

end Step

/-- Nothing of a plan is lost by going over to its exchanges. -/
theorem Plan.exchanges_injective : Function.Injective Plan.exchanges := by
  have hread : Function.LeftInverse
      (fun exchanges => ⟨(Step.ofExchanges? exchanges).getD []⟩) Plan.exchanges := by
    intro plan
    change Plan.mk ((Step.ofExchanges? (plan.steps.flatMap Step.exchanges)).getD []) = plan
    rw [Step.ofExchanges?_exchanges]
    rfl
  exact hread.injective

/-! ## The exchanges that come from plans -/

/-- Every confirmation stands right behind a password that is answered alike. -/
def ConfirmsPasswords (exchanges : List Exchange) : Prop :=
  ∀ before value after, exchanges = before ++ ⟨.confirm, value⟩ :: after →
    ∃ earlier credential, before = earlier ++ [⟨.password credential, value⟩]

namespace ConfirmsPasswords

variable {exchanges : List Exchange}

theorem nil : ConfirmsPasswords [] := by
  intro before value after hsplit
  simp at hsplit

theorem cons {exchange : Exchange} (hcue : exchange.cue ≠ .confirm)
    (hlater : ConfirmsPasswords exchanges) : ConfirmsPasswords (exchange :: exchanges) := by
  intro before value after hsplit
  cases before with
  | nil =>
      obtain ⟨rfl, -⟩ := List.cons.inj hsplit
      exact absurd rfl hcue
  | cons first before =>
      obtain ⟨rfl, hrest⟩ := List.cons.inj hsplit
      obtain ⟨earlier, credential, rfl⟩ := hlater before value after hrest
      exact ⟨exchange :: earlier, credential, rfl⟩

theorem confirmed (credential : Credential) (value : String)
    (hlater : ConfirmsPasswords exchanges) :
    ConfirmsPasswords (⟨.password credential, value⟩ :: ⟨.confirm, value⟩ :: exchanges) := by
  intro before again after hsplit
  match before with
  | [] => simp at hsplit
  | [first] =>
      simp only [List.cons_append, List.nil_append, List.cons.injEq, Exchange.mk.injEq] at hsplit
      obtain ⟨rfl, ⟨-, rfl⟩, -⟩ := hsplit
      exact ⟨[], credential, rfl⟩
  | first :: second :: before =>
      simp only [List.cons_append, List.cons.injEq] at hsplit
      obtain ⟨rfl, rfl, hrest⟩ := hsplit
      obtain ⟨earlier, other, rfl⟩ := hlater before again after hrest
      exact ⟨_ :: _ :: earlier, other, rfl⟩

/-- What stands behind a confirmation has no part in it. -/
theorem of_append {later : List Exchange} (hconfirms : ConfirmsPasswords (exchanges ++ later)) :
    ConfirmsPasswords exchanges := by
  rintro before value after rfl
  exact hconfirms before value (after ++ later) (by simp)

theorem of_steps (steps : List Step) : ConfirmsPasswords (steps.flatMap Step.exchanges) := by
  induction steps with
  | nil => exact .nil
  | cons step later ih =>
      match step with
      | .password credential value false => exact ih.cons (by simp)
      | .password credential value true => exact ih.confirmed credential value
      | .yesNo value => exact ih.cons (by simp)

/-- The steps are found from the end, since a confirmation tells that of which it is one. -/
theorem exists_steps {exchanges : List Exchange} (hconfirms : ConfirmsPasswords exchanges) :
    ∃ steps : List Step, steps.flatMap Step.exchanges = exchanges := by
  rcases List.eq_nil_or_concat' exchanges with rfl | ⟨before, ⟨cue, value⟩, rfl⟩
  · exact ⟨[], rfl⟩
  · cases cue with
    | password credential =>
        obtain ⟨steps, hsteps⟩ := exists_steps hconfirms.of_append
        exact ⟨steps ++ [.password credential value false], by simp [hsteps, Step.exchanges]⟩
    | yesNo =>
        obtain ⟨steps, hsteps⟩ := exists_steps hconfirms.of_append
        exact ⟨steps ++ [.yesNo value], by simp [hsteps, Step.exchanges]⟩
    | confirm =>
        obtain ⟨earlier, credential, rfl⟩ := hconfirms before value [] rfl
        obtain ⟨steps, hsteps⟩ := exists_steps hconfirms.of_append.of_append
        exact ⟨steps ++ [.password credential value true], by simp [hsteps, Step.exchanges]⟩
termination_by exchanges.length

end ConfirmsPasswords

/-- Plans and their exchanges correspond one to one: the exchanges are those of the declarations, in
their order; no two plans have the same; and a list of exchanges is that of a plan exactly where
every confirmation stands right behind a password that is answered alike. -/
theorem Plan.exchanges_correspond :
    (∀ declarations, (ofDeclarations declarations).exchanges =
      declarations.flatMap Declaration.exchanges) ∧
    (∀ plan : Plan, ∃ declarations, ofDeclarations declarations = plan) ∧
    (∀ plan other : Plan, plan = other ↔ plan.exchanges = other.exchanges) ∧
    ∀ exchanges, (∃ plan : Plan, plan.exchanges = exchanges) ↔ ConfirmsPasswords exchanges := by
  refine ⟨?declared, ?made, ?unique, ?image⟩
  case declared =>
    intro declarations
    exact empty.exchanges_foldl_declare declarations
  case made =>
    intro plan
    exact ⟨plan.steps.map Step.declaration, empty.foldl_declare_declaration plan.steps⟩
  case unique => exact fun plan other => exchanges_injective.eq_iff.symm
  case image =>
    intro exchanges
    constructor
    · rintro ⟨plan, rfl⟩
      exact .of_steps plan.steps
    · intro hconfirms
      obtain ⟨steps, hsteps⟩ := hconfirms.exists_steps
      exact ⟨⟨steps⟩, hsteps⟩

end PromptHarness
