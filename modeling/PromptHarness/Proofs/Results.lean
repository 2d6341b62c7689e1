import PromptHarness.Actor
import PromptHarness.Proofs.Processes

/-!
# The result that a session holds

Every command replaces the result of the one before it, by nothing if it fails, and nothing else that
happens in a session touches it.  So what a session holds is told by the latest run (`latest?`), the
one by which the store was made included.
-/

namespace PromptHarness

theorem toOption_eq_some_iff {ε α : Type} {outcome : Except ε α} {value : α} :
    outcome.toOption = some value ↔ outcome = .ok value := by
  cases outcome with
  | error fault => simp [Except.toOption]
  | ok other => simp [Except.toOption]

theorem toOption_eq_none_iff {ε α : Type} {outcome : Except ε α} :
    outcome.toOption = none ↔ ∃ fault, outcome = .error fault := by
  cases outcome with
  | error fault => simp [Except.toOption]
  | ok other => simp [Except.toOption]

namespace Session

/-! ## The latest run -/

def Event.run? : Event → Option Run
  | ran run => some run
  | _ => none

/-- The run of the most recent command. -/
def latest? (events : List Event) : Option Run := (events.filterMap Event.run?).getLast?

theorem latest?_append (before after : List Event) :
    latest? (before ++ after) = (latest? after).or (latest? before) := by
  rw [latest?, List.filterMap_append, List.getLast?_append]
  rfl

theorem latest?_singleton (event : Event) : latest? [event] = event.run? := by
  cases event <;> rfl

theorem latest?_eq_none_iff {events : List Event} :
    latest? events = none ↔ ∀ event ∈ events, event.run? = none := by
  rw [latest?, List.getLast?_eq_none_iff, List.filterMap_eq_nil_iff]

section Course

variable {root : String} {session later : Session} {machine laterMachine : Machine}
  {event : Event} {opening events : List Event}

theorem session_run (session : Session) (command : Command) (options : List String)
    (prompts : Prompts) (machine : Machine) :
    (session.run command options prompts machine).2.1 =
      { session with last := (session.run command options prompts machine).1.outcome.toOption } := rfl

theorem Happens.last (hhappens : Happens session machine event later laterMachine) :
    later.last = event.run?.elim session.last (·.outcome.toOption) := by
  cases hhappens with
  | ran => rfl
  | selected => rfl
  | acted => rfl
  | toreDown => rfl

theorem Lasts.last (hlasts : Lasts session machine events later laterMachine) :
    later.last = (latest? events).elim session.last (·.outcome.toOption) := by
  induction hlasts with
  | opened => rfl
  | @later events event _ _ _ _ _ hhappens ih =>
      rw [hhappens.last, ih, latest?_append, latest?_singleton]
      cases event.run? <;> rfl

/-! ## What was run to open a session -/

/-- The ways to a session, with the run of the command by which its store was made. -/
inductive OpenedBy (root : String) (session : Session) (machine : Machine) : List Event → Prop
  | bare {settings : Settings} {test : String} {before : Machine}
      (hbegin : begin settings root test before = (.ok session, machine)) :
      OpenedBy root session machine []
  | stored {settings : Settings} {test : String} {before : Machine} {begun : Session}
      {begunMachine : Machine} {phases : List Phase}
      (hbegin : begin settings root test before = (.ok begun, begunMachine))
      (hopen : openStore settings root test before = (phases, .ok session, machine)) :
      OpenedBy root session machine [.ran (begun.run (.init none) [] .default begunMachine).1]
  | here {given : Environment} {settings : Settings} {test : String} {before : Machine}
      {begun : Session} {begunMachine : Machine} {phases : List Phase}
      (hload : Settings.load before.files.read (before.environment ++ given) = .ok settings)
      (hbegin : begin settings root test { before with environment := before.environment ++ given } =
        (.ok begun, begunMachine))
      (hopen : openHere given root test before = (phases, .ok session, machine)) :
      OpenedBy root session machine [.ran (begun.run (.init none) [] .default begunMachine).1]

theorem OpenedBy.opened (hopened : OpenedBy root session machine opening) :
    Opened root session machine := by
  cases hopened with
  | bare hbegin => exact .bare hbegin
  | stored _ hopen => exact .stored hopen
  | here _ _ hopen => exact .here hopen

theorem openStore_of_run {settings : Settings} {test : String} {before begunMachine : Machine}
    {begun : Session} {result : CommandResult}
    (hbegin : begin settings root test before = (.ok begun, begunMachine))
    (hmade : (begun.run (.init none) [] .default begunMachine).1.outcome = .ok result) :
    openStore settings root test before =
      ((begun.run (.init none) [] .default begunMachine).1.phases,
        .ok (begun.run (.init none) [] .default begunMachine).2.1,
        (begun.run (.init none) [] .default begunMachine).2.2) := by
  simp only [openStore, hbegin, hmade]

theorem last_of_openStore {settings : Settings} {test : String} {before begunMachine : Machine}
    {begun : Session} {phases : List Phase}
    (hbegin : begin settings root test before = (.ok begun, begunMachine))
    (hopen : openStore settings root test before = (phases, .ok session, machine)) :
    session.last = (begun.run (.init none) [] .default begunMachine).1.outcome.toOption := by
  obtain ⟨other, otherMachine, hother, hsession⟩ := begun_of_openStore hopen
  obtain ⟨rfl, rfl⟩ : begun = other ∧ begunMachine = otherMachine := by
    simpa using hbegin.symm.trans hother
  rw [hsession]
  rfl

theorem OpenedBy.last (hopened : OpenedBy root session machine opening) :
    session.last = (latest? opening).bind (·.outcome.toOption) := by
  cases hopened with
  | bare hbegin =>
      obtain ⟨program, rfl⟩ := eq_of_begin hbegin
      rfl
  | stored hbegin hopen => exact last_of_openStore hbegin hopen
  | here hload hbegin hopen =>
      obtain ⟨settings, after, hload', hstore⟩ := store_of_openHere hopen
      obtain rfl := Except.ok.inj (hload.symm.trans hload')
      exact last_of_openStore hbegin hstore

end Course

/-! ## What a session holds -/

/-- A session holds the result of the latest of the runs, and of none before it. -/
structure HoldsLatest (events : List Event) (session : Session) (machine : Machine) : Prop where
  last : ∀ result, session.last = some result ↔
    ∃ run, latest? events = some run ∧ run.outcome = .ok result
  nothing : session.last = none ↔
    ∀ run, latest? events = some run → ∃ fault, run.outcome = .error fault
  text : ∀ result, session.last = some result →
    session.stdout = result.output ∧ session.stdoutLines = result.lines
  noText : session.last = none → session.stdout = "" ∧ session.stdoutLines = []
  /-- Only commands change what is held. -/
  spared : ∀ more later laterMachine, Lasts session machine more later laterMachine →
    (∀ event ∈ more, event.run? = none) → later.last = session.last
  /-- A command that fails takes the result away and nothing else, nor is the agent reaped. -/
  failed : ∀ child command options prompts fault,
    (session.run command options prompts (machine.equip child)).1.outcome = .error fault →
      (session.run command options prompts (machine.equip child)).2.1 =
          { session with last := none } ∧
        (session.run command options prompts (machine.equip child)).2.2.numbers = machine.numbers

theorem HoldsLatest.of_last {events : List Event} {session : Session} {machine : Machine}
    (hlast : session.last = (latest? events).bind (·.outcome.toOption))
    (hnumbered : machine.IsNumbered) : HoldsLatest events session machine where
  last := by
    intro result
    rw [hlast, Option.bind_eq_some_iff]
    simp only [toOption_eq_some_iff]
  nothing := by
    rw [hlast, Option.bind_eq_none_iff]
    simp only [toOption_eq_none_iff]
  text := by
    intro result hresult
    simp only [stdout, stdoutLines, hresult, Option.elim_some, and_self]
  noText := by
    intro hnone
    simp only [stdout, stdoutLines, hnone, Option.elim_none, and_self]
  spared := by
    intro more later laterMachine hlasts hmore
    rw [hlasts.last, latest?_eq_none_iff.mpr hmore]
    rfl
  failed := by
    intro child command options prompts fault hfault
    constructor
    · rw [session_run, hfault]
      rfl
    · have hequipped : (machine.equip child).IsNumbered := hnumbered
      exact (Runner.numbers_run hequipped session.runner session.test _).1

/-- No result of an earlier command is ever held. -/
theorem lasts_holdsLatest {root : String} {session later : Session} {machine laterMachine : Machine}
    {opening events : List Event} (hopened : OpenedBy root session machine opening)
    (hnumbered : machine.IsNumbered) (hlasts : Lasts session machine events later laterMachine) :
    HoldsLatest (opening ++ events) later laterMachine := by
  apply HoldsLatest.of_last
  · rw [hlasts.last, hopened.last, latest?_append]
    cases latest? events <;> rfl
  · exact (hlasts.tended (hopened.opened.tended hnumbered)).isNumbered

def asking : Program :=
  Action.program [.print (Text.encode "password: "), .readLine, .print (Text.encode "confirm: "),
    .readLine, .exitUnlessSame 1]

theorem lasts_holdsLatest_failing :
    let machine := (housing "/home" (Machine.lone (.finished (.exited 0)))).equip asking
    let opening := (ofProgram "/run" "/home").run (.init none) [] .default machine
    let failing := .command (Action.program [.exit 3]) (.list []) [] .default
    let steps := [.selectEditor .save none, .withAgent Agent.caller [failing], .teardown]
    let later := (performAll steps opening.2.1 opening.2.2).2
    OpenedBy "/home" opening.2.1 opening.2.2 [.ran opening.1] ∧ opening.2.2.IsNumbered ∧
      opening.2.1.last.isSome = true ∧ later.1.last = none ∧
      HoldsLatest ([.ran opening.1] ++ eventsAll steps opening.2.1 opening.2.2) later.1 later.2 := by
  intro machine opening failing steps later
  have hmade : opening.1.outcome.toOption.isSome = true := by
    simp only [opening, machine]
    decide +kernel
  have hopened : OpenedBy "/home" opening.2.1 opening.2.2 [.ran opening.1] := by
    obtain ⟨result, hresult⟩ := Option.isSome_iff_exists.mp hmade
    have hbegin : begin { Settings.default with program := some "/run" } "/home" "case"
        ((Machine.lone (.finished (.exited 0))).equip asking) =
          (.ok (ofProgram "/run" "/home"), machine) := rfl
    exact .stored hbegin (openStore_of_run hbegin (toOption_eq_some_iff.mp hresult))
  have hnumbered : opening.2.2.IsNumbered := by
    have hnone : opening.2.2.numbers = [] := by
      simp only [opening, machine]
      decide +kernel
    simp [Machine.IsNumbered, hnone]
  have hlast : later.1.last = none := by
    simp only [later, steps, failing, opening, machine]
    decide +kernel
  exact ⟨hopened, hnumbered, hmade, hlast,
    lasts_holdsLatest hopened hnumbered (lasts_performAll steps opening.2.1 opening.2.2)⟩

end Session

end PromptHarness
