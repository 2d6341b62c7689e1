import PromptHarness.Proofs.Exchanges
import PromptHarness.Proofs.Surroundings

/-!
# What subcommands are called with and ask for

A subcommand has a form: its word, what stands behind the word, its operands, and which answers it
can be asked for.  A session calls the program by that form, word for word, and declares just the
prompts that the form lets through, so that a new password is always confirmed and one that is
generated never asked for (`Session.run_requests`).
-/

namespace PromptHarness

/-- What a subcommand is called with, and which answers it can be asked for. -/
structure Form where
  word : String
  options : List String
  operands : List String
  asksMaster : Bool
  /-- The master password is asked for once more. -/
  confirmsMaster : Bool
  /-- A new password is asked for, and once more. -/
  asksSecret : Bool
  asksYesNo : Bool
  deriving Repr, DecidableEq

namespace Form

def line (form : Form) : List String := form.word :: form.options ++ form.operands

/-- A subcommand that asks for the master password only. -/
def opening (word : String) (options operands : List String) : Form :=
  ⟨word, options, operands, true, false, false, false⟩

/-- What is declared of the subcommand: the answers that it can be asked for, of those given. -/
def declarations (form : Form) (prompts : Prompts) : List Declaration :=
  [.master (if form.asksMaster then prompts.master else none) form.confirmsMaster,
    .secret (if form.asksSecret then prompts.password else none) true,
    .yesNo (if form.asksYesNo then prompts.yesNo else none)]

def exchanges (form : Form) (prompts : Prompts) : List Exchange :=
  (form.declarations prompts).flatMap Declaration.exchanges

end Form

namespace Plan

/-- What is absent is not declared. -/
@[simp]
theorem expect_none (plan : Plan) : plan.expect none = plan := by
  simp [expect]

@[simp]
theorem master_none (plan : Plan) (confirmed : Bool) : plan.master none confirmed = plan :=
  plan.expect_none

@[simp]
theorem secret_none (plan : Plan) (confirmed : Bool) : plan.secret none confirmed = plan :=
  plan.expect_none

@[simp]
theorem yesNo_none (plan : Plan) : plan.yesNo none = plan := plan.expect_none

end Plan

namespace Command

/-- The form of a command, unless it is called with arguments as they are.  A new password is asked
for unless it is generated or, where a safe is edited, only its metadata are. -/
def form? (options : List String) (limits : Nat × Nat) : Command → Option Form
  | raw _ _ => none
  | init path => some
    { Form.opening "init"
        ["--memlimit", toString limits.1, "--opslimit", toString limits.2] path.toList with
      confirmsMaster := true }
  | create name => some
    { Form.opening "create" options [name] with asksSecret := decide ("-g" ∉ options) }
  | edit name => some
    { Form.opening "edit" options [name] with
      asksSecret := decide ("-g" ∉ options ∧ ("-m" ∈ options → "-p" ∈ options))
      asksYesNo := true }
  | rename old new => some (.opening "rename" options [old, new])
  | cat name => some (.opening "cat" options [name])
  | delete name => some (.opening "delete" options [name])
  | openSafe name => some (.opening "open" options [name])
  | list prefixes => some { Form.opening "ls" [] prefixes with asksMaster := false }

variable {command : Command} {options : List String} {limits : Nat × Nat} {prompts : Prompts}
  {form : Form}

theorem arguments_of_form (hform : command.form? options limits = some form) :
    command.arguments options limits = form.line := by
  cases command with
  | raw arguments plan => cases hform
  | _ =>
      cases hform
      rfl

theorem createPassword_eq (options : List String) (prompts : Prompts) :
    createPassword options prompts = if "-g" ∉ options then prompts.password else none := by
  by_cases hgenerate : "-g" ∈ options <;> simp [createPassword, generateOption, hgenerate]

theorem editPassword_eq (options : List String) (prompts : Prompts) :
    editPassword options prompts =
      if "-g" ∉ options ∧ ("-m" ∈ options → "-p" ∈ options) then prompts.password else none := by
  by_cases hgenerate : "-g" ∈ options
  · simp [editPassword, generateOption, hgenerate]
  · by_cases hmetadata : "-m" ∈ options <;> by_cases hpassword : "-p" ∈ options <;>
      simp [editPassword, generateOption, metadataOption, passwordOption, hgenerate, hmetadata,
        hpassword]

/-- Only a password that is given can be confirmed. -/
theorem secret_of_generate (plan : Plan) (options : List String) (password : Option String)
    (hgenerate : "-g" ∈ options → password = none) :
    plan.secret password (!options.contains generateOption) = plan.secret password true := by
  by_cases hcontains : "-g" ∈ options
  · rw [hgenerate hcontains]
    rfl
  · simp [generateOption, hcontains]

theorem forCreate_createPassword (options : List String) (prompts : Prompts) :
    Plan.forCreate prompts.master (createPassword options prompts)
        (options.contains generateOption) =
      (Plan.empty.master prompts.master false).secret
        (if "-g" ∉ options then prompts.password else none) true := by
  rw [Plan.forCreate, secret_of_generate, createPassword_eq]
  intro hgenerate
  rw [createPassword_eq, if_neg (not_not_intro hgenerate)]

theorem forCreate_editPassword (options : List String) (prompts : Prompts) :
    Plan.forCreate prompts.master (editPassword options prompts)
        (options.contains generateOption) =
      (Plan.empty.master prompts.master false).secret
        (if "-g" ∉ options ∧ ("-m" ∈ options → "-p" ∈ options) then prompts.password else none)
        true := by
  rw [Plan.forCreate, secret_of_generate, editPassword_eq]
  intro hgenerate
  rw [editPassword_eq, if_neg fun hasks => hasks.1 hgenerate]

/-- The plan of a subcommand is the one that its form declares. -/
theorem plan_of_form (hform : command.form? options limits = some form) (prompts : Prompts) :
    command.plan options prompts = .ofDeclarations (form.declarations prompts) := by
  have hopening : ∀ plan : Plan, (plan.secret none true).yesNo none = plan := by simp
  cases command with
  | raw arguments plan => cases hform
  | init path =>
      cases hform
      exact (hopening _).symm
  | create name =>
      cases hform
      rw [plan, forCreate_createPassword]
      simp [Plan.ofDeclarations, Plan.declare, Form.declarations, Form.opening]
  | edit name =>
      cases hform
      rw [plan, Plan.forEdit, forCreate_editPassword]
      simp only [Plan.ofDeclarations, List.foldl_cons, List.foldl_nil, Plan.declare,
        Form.declarations, Form.opening, decide_eq_true_eq, if_true]
  | list prefixes =>
      cases hform
      exact ((hopening _).trans (Plan.empty.master_none false)).symm
  | _ =>
      cases hform
      exact (hopening _).symm

theorem exchanges_of_form (hform : command.form? options limits = some form) (prompts : Prompts) :
    (command.plan options prompts).exchanges = form.exchanges prompts := by
  rw [plan_of_form hform]
  exact Plan.empty.exchanges_foldl_declare (form.declarations prompts)

/-- A password that is generated is asked for by no subcommand. -/
theorem asksSecret_of_generate (hform : command.form? options limits = some form)
    (hgenerate : "-g" ∈ options) : form.asksSecret = false := by
  cases command with
  | raw arguments plan => cases hform
  | create name =>
      cases hform
      exact decide_eq_false (not_not_intro hgenerate)
  | edit name =>
      cases hform
      exact decide_eq_false fun hasks => hasks.1 hgenerate
  | _ =>
      cases hform
      rfl

end Command

/-! ## New passwords -/

/-- Every new password is asked for once more right behind, and answered alike. -/
def ConfirmsSecrets (exchanges : List Exchange) : Prop :=
  ∀ before value after, exchanges = before ++ ⟨.password .secret, value⟩ :: after →
    ∃ rest, after = ⟨.confirm, value⟩ :: rest

namespace ConfirmsSecrets

variable {exchanges : List Exchange}

theorem nil : ConfirmsSecrets [] := by
  intro before value after hsplit
  simp at hsplit

theorem cons {exchange : Exchange} (hcue : exchange.cue ≠ .password .secret)
    (hlater : ConfirmsSecrets exchanges) : ConfirmsSecrets (exchange :: exchanges) := by
  intro before value after hsplit
  cases before with
  | nil =>
      obtain ⟨rfl, -⟩ := List.cons.inj hsplit
      exact absurd rfl hcue
  | cons first before =>
      obtain ⟨rfl, hrest⟩ := List.cons.inj hsplit
      exact hlater before value after hrest

theorem confirmed (value : String) (hlater : ConfirmsSecrets exchanges) :
    ConfirmsSecrets (⟨.password .secret, value⟩ :: ⟨.confirm, value⟩ :: exchanges) := by
  intro before other after hsplit
  cases before with
  | nil =>
      simp only [List.nil_append, List.cons.injEq, Exchange.mk.injEq] at hsplit
      obtain ⟨⟨-, rfl⟩, rfl⟩ := hsplit
      exact ⟨exchanges, rfl⟩
  | cons first before =>
      obtain ⟨-, hrest⟩ := List.cons.inj hsplit
      exact hlater.cons (by simp) before other after hrest

end ConfirmsSecrets

/-- A password brings no other cues than its own and that of its confirmation. -/
theorem Credential.cue_of_mem {credential : Credential} {confirmed : Bool} {value : Option String}
    {exchange : Exchange} (hmem : exchange ∈ credential.exchanges confirmed value) :
    exchange.cue = .password credential ∨ exchange.cue = .confirm := by
  cases value with
  | none => cases hmem
  | some value =>
      rcases List.mem_cons.mp hmem with rfl | hconfirm
      · exact .inl rfl
      · cases confirmed with
        | false => cases hconfirm
        | true =>
            obtain rfl := List.mem_singleton.mp hconfirm
            exact .inr rfl

namespace Form

variable {form : Form}

/-- The exchanges of the three declarations, one behind the other. -/
theorem exchanges_eq (form : Form) (prompts : Prompts) :
    form.exchanges prompts =
      Credential.master.exchanges form.confirmsMaster
          (if form.asksMaster then prompts.master else none) ++
        (Credential.secret.exchanges true (if form.asksSecret then prompts.password else none) ++
          Declaration.exchanges (.yesNo (if form.asksYesNo then prompts.yesNo else none))) := by
  simp [exchanges, declarations, Declaration.exchanges]

theorem confirmsSecrets (form : Form) (prompts : Prompts) :
    ConfirmsSecrets (form.exchanges prompts) := by
  have hyesNo : ∀ answer, ConfirmsSecrets (Declaration.exchanges (.yesNo answer)) := by
    intro answer
    cases answer with
    | none => exact .nil
    | some value => exact ConfirmsSecrets.nil.cons (by simp)
  have hsecret : ∀ password answer, ConfirmsSecrets
      (Credential.secret.exchanges true password ++ Declaration.exchanges (.yesNo answer)) := by
    intro password answer
    cases password with
    | none => exact hyesNo answer
    | some value => exact (hyesNo answer).confirmed value
  rw [exchanges_eq]
  cases (if form.asksMaster then prompts.master else none) with
  | none => exact hsecret _ _
  | some value =>
      cases form.confirmsMaster with
      | false => exact (hsecret _ _).cons (by simp)
      | true => exact ((hsecret _ _).cons (by simp)).cons (by simp)

/-- Where no new password is asked for, none is declared. -/
theorem cue_ne_of_mem (hasks : form.asksSecret = false) {prompts : Prompts} {exchange : Exchange}
    (hmem : exchange ∈ form.exchanges prompts) : exchange.cue ≠ .password .secret := by
  rw [exchanges_eq, hasks] at hmem
  rcases List.mem_append.mp hmem with hmaster | hlater
  · rcases Credential.cue_of_mem hmaster with hcue | hcue <;> simp [hcue]
  · cases hanswer : (if form.asksYesNo then prompts.yesNo else none) with
    | none => simp [hanswer, Credential.exchanges, Declaration.exchanges] at hlater
    | some value =>
        simp only [hanswer, Bool.false_eq_true, if_false, Credential.exchanges, List.nil_append,
          Declaration.exchanges, List.mem_singleton] at hlater
        simp [hlater]

end Form

/-! ## What a session does for a subcommand -/

namespace Session

/-- A run in which the program is called with a line and asked what the exchanges answer, under the
memory checker if the session has one. -/
structure CallsProgram (session : Session) (machine : Machine) (line : List String)
    (exchanges : List Exchange) (expected : Int) (run : Run) : Prop where
  plain : session.settings.checker = none →
    session.runner.Performs machine
      ⟨session.program, line,
        (machine.environment ++ session.environment).map Environment.received⟩
      none exchanges expected run
  /-- A memory checker is called with what is its own, and behind it with the program and what that
  is called with. -/
  checked : ∀ checker, session.settings.checker = some checker →
    session.runner.Performs machine
      ⟨checker.command,
        ["--log-file=" ++ Checker.logFile session.settings.logDirectory session.test,
            "--error-exitcode=" ++ toString (Checker.reservedCode expected)] ++
          checker.options ++ session.program :: line,
        (machine.environment ++ session.environment).map Environment.received⟩
      (some (Checker.reservedCode expected,
        Checker.logFile session.settings.logDirectory session.test))
      exchanges expected run

/-- What a session does for a subcommand of a form. -/
structure Requested (session : Session) (command : Command) (options : List String)
    (prompts : Prompts) (machine : Machine) (form : Form) : Prop where
  called : session.CallsProgram machine form.line (form.exchanges prompts) prompts.expected
    (session.run command options prompts machine).1
  confirmed : ConfirmsSecrets (form.exchanges prompts)
  generated : "-g" ∈ options →
    ∀ exchange ∈ form.exchanges prompts, exchange.cue ≠ .password .secret
  /-- The short form goes without options and with the usual answers. -/
  usual : ∀ short, command.form? []
      (session.settings.memoryLimit, session.settings.operationsLimit) = some short →
    session.CallsProgram machine short.line
      (short.exchanges ⟨some "test master password", some "test password", none, 0⟩) 0
      (session.runUsual command machine).1
  usual_eq : session.runUsual command machine =
    session.run command [] ⟨some "test master password", some "test password", none, 0⟩ machine

theorem callsProgram_run {session : Session} {command : Command} {options : List String}
    {form : Form} (prompts : Prompts) (machine : Machine)
    (hform : command.form? options
      (session.settings.memoryLimit, session.settings.operationsLimit) = some form) :
    session.CallsProgram machine form.line (form.exchanges prompts) prompts.expected
      (session.run command options prompts machine).1 := by
  have harguments := Command.arguments_of_form hform
  have hreceives := session.receives_call command options prompts machine
  unfold Receives at hreceives
  rw [Command.exchanges_of_form hform] at hreceives
  constructor
  case plain =>
    intro hchecker
    have hrunner : session.runner.checker = none := hchecker
    simp only [call, Runner.call, Runner.reserved, Runner.dressed, hrunner, invocation, harguments]
      at hreceives
    exact hreceives
  case checked =>
    intro checker hchecker
    have hrunner : session.runner.checker = some checker := hchecker
    simp only [call, Runner.call, Runner.reserved, Runner.dressed, hrunner, invocation, harguments]
      at hreceives
    exact hreceives

/-- A subcommand is called by its form and asks for what its form lets through. -/
theorem run_requests (session : Session) (options : List String) (prompts : Prompts)
    (machine : Machine) {command : Command} {form : Form}
    (hform : command.form? options
      (session.settings.memoryLimit, session.settings.operationsLimit) = some form) :
    Requested session command options prompts machine form where
  called := callsProgram_run prompts machine hform
  confirmed := form.confirmsSecrets prompts
  generated := by
    intro hgenerate exchange hmem
    exact Form.cue_ne_of_mem (Command.asksSecret_of_generate hform hgenerate) hmem
  usual := by
    intro short hshort
    exact callsProgram_run .default machine hshort
  usual_eq := rfl

/-- An edit of the metadata under a memory checker asks for no new password, but may ask whether to
go on. -/
theorem run_requests_metadata :
    let session := { ofProgram "/safes" "/home" with
      settings := { Settings.default with checker := some ⟨"/run", ["-q"]⟩ } }
    let machine := Machine.lone (.finished (.exited 0))
    let prompts := { Prompts.default with yesNo := some "y" }
    let form : Form := ⟨"edit", ["-m", "-f"], ["a b"], true, false, false, true⟩
    (Command.edit "a b").form? ["-m", "-f"]
        (session.settings.memoryLimit, session.settings.operationsLimit) = some form ∧
      form.exchanges prompts =
        [⟨.password .master, "test master password"⟩, ⟨.yesNo, "y"⟩] ∧
      Requested session (.edit "a b") ["-m", "-f"] prompts machine form := by
  intro session machine prompts form
  have hform : (Command.edit "a b").form? ["-m", "-f"]
      (session.settings.memoryLimit, session.settings.operationsLimit) = some form := by
    decide +kernel
  exact ⟨hform, rfl, run_requests session ["-m", "-f"] prompts machine hform⟩

end Session

end PromptHarness
