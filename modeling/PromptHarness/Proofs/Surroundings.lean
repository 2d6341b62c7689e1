import PromptHarness.Proofs.Events
import PromptHarness.Proofs.Runs
import PromptHarness.Proofs.Variables

/-!
# What commands find in their environment

Where a session stands is told by its events (`Told`): which editor was selected last, which payload,
and what an agent announced that has not been given up since.  A command is given the variables of
the home and behind them the one that was announced, so what was announced counts even before the
home; only where no agent announces one of the home's names do commands find the home as it is.
-/

namespace PromptHarness

/-- The value that a binding gives to a variable. -/
def Binding.valueOf? (binding : Binding) (name : String) : Option String :=
  if binding.key = name then some binding.value else none

namespace Session

/-! ## What events tell -/

def Event.choice? : Event → Option (Editor × Option String)
  | selected editor payload => some (editor, payload)
  | _ => none

/-- What an event means to the agent; tearing a session down kills it. -/
def Event.answer? : Event → Option Agent.Answer
  | agent answer => some answer
  | toreDown => some .killed
  | _ => none

/-- What an agent has announced itself with. -/
def Event.started? : Event → Option Binding
  | agent answer => answer.started?
  | _ => none

def choices (events : List Event) : List (Editor × Option String) :=
  events.filterMap Event.choice?

def selected? (events : List Event) : Option Editor := ((choices events).map (·.1)).getLast?

def payload? (events : List Event) : Option String := ((choices events).filterMap (·.2)).getLast?

/-- What an agent announced that has not been stopped, killed or torn down since. -/
def announced? (events : List Event) : Option Binding :=
  Agent.bound (events.filterMap Event.answer?)

/-- The value that the agent running behind the events has announced for a variable. -/
def announcedValue? (events : List Event) (name : String) : Option String :=
  (announced? events).bind (·.valueOf? name)

theorem announced?_concat (events : List Event) (event : Event) :
    announced? (events ++ [event]) =
      event.answer?.elim (announced? events) (Agent.Answer.bound (announced? events)) := by
  rw [announced?, List.filterMap_append, Agent.bound, List.foldl_append]
  cases hanswer : event.answer? with
  | none => simp [hanswer, announced?, Agent.bound]
  | some answer => simp [hanswer, announced?, Agent.bound]

theorem mem_of_announced {events : List Event} {binding : Binding}
    (hannounced : announced? events = some binding) :
    .agent (.started (.ok binding)) ∈ events := by
  have hlatest := List.mem_of_getLast? (Agent.started_of_bound hannounced)
  obtain ⟨answer, hanswer, hstarted⟩ := List.mem_filterMap.mp hlatest
  obtain ⟨event, hevent, hevent'⟩ := List.mem_filterMap.mp hanswer
  obtain rfl := Agent.Answer.eq_of_started hstarted
  cases event with
  | agent answer =>
      cases hevent'
      exact hevent
  | _ => cases hevent'

/-! ## Sessions that have been opened -/

/-- A session with its home at `root`, in which nothing has happened yet. -/
structure Fresh (root : String) (session : Session) : Prop where
  root : session.home.root = root
  editor : session.home.editor = none
  payload : session.home.payload = none
  standing : session.home.tornDown = false
  running : session.agent.running = none

/-- The ways to a session with its home at `root`. -/
inductive Opened (root : String) (session : Session) (machine : Machine) : Prop
  | bare {settings : Settings} {test : String} {before : Machine}
      (hbegin : begin settings root test before = (.ok session, machine))
  | stored {settings : Settings} {test : String} {before : Machine} {phases : List Phase}
      (hopen : openStore settings root test before = (phases, .ok session, machine))
  | here {given : Environment} {test : String} {before : Machine} {phases : List Phase}
      (hopen : openHere given root test before = (phases, .ok session, machine))

theorem eq_of_begin {settings : Settings} {root test : String} {machine later : Machine}
    {session : Session} (hbegin : begin settings root test machine = (.ok session, later)) :
    ∃ program, session =
      ⟨settings, program,
        ⟨root, settings.editorDirectory.getD (Path.join root Home.editorsName), none, none, false⟩,
        { Agent.ofProgram program settings.agentTimeout with environment := [("HOME", root)] },
        none, test⟩ := by
  unfold begin at hbegin
  split at hbegin
  · cases hbegin
  · next program _ =>
    split at hbegin
    · cases hbegin
    · next hsetup =>
      obtain rfl := Home.eq_of_setup hsetup
      cases hbegin
      exact ⟨program, rfl⟩

theorem fresh_of_begin {settings : Settings} {root test : String} {machine later : Machine}
    {session : Session} (hbegin : begin settings root test machine = (.ok session, later)) :
    session.Fresh root := by
  obtain ⟨program, rfl⟩ := eq_of_begin hbegin
  exact ⟨rfl, rfl, rfl, rfl, rfl⟩

theorem begun_of_openStore {settings : Settings} {root test : String} {machine later : Machine}
    {session : Session} {phases : List Phase}
    (hopen : openStore settings root test machine = (phases, .ok session, later)) :
    ∃ begun middle, begin settings root test machine = (.ok begun, middle) ∧
      session = (begun.run (.init none) [] .default middle).2.1 := by
  unfold openStore at hopen
  split at hopen
  · cases hopen
  · next begun middle hbegin =>
    refine ⟨begun, middle, hbegin, ?_⟩
    dsimp only at hopen
    split at hopen
    · cases hopen
      rfl
    · cases hopen

theorem store_of_openHere {given : Environment} {root test : String} {machine later : Machine}
    {session : Session} {phases : List Phase}
    (hopen : openHere given root test machine = (phases, .ok session, later)) :
    ∃ settings after,
      Settings.load machine.files.read (machine.environment ++ given) = .ok settings ∧
      openStore settings root test { machine with environment := machine.environment ++ given } =
        (phases, .ok session, after) := by
  unfold openHere at hopen
  dsimp only at hopen
  split at hopen
  · cases hopen
  · next settings hload =>
    refine ⟨settings, ?_⟩
    generalize openStore _ _ _ _ = result at hopen ⊢
    obtain ⟨phases, outcome, after⟩ := result
    cases hopen
    exact ⟨after, hload, rfl⟩

theorem fresh_of_openStore {settings : Settings} {root test : String} {machine later : Machine}
    {session : Session} {phases : List Phase}
    (hopen : openStore settings root test machine = (phases, .ok session, later)) :
    session.Fresh root := by
  obtain ⟨begun, middle, hbegin, rfl⟩ := begun_of_openStore hopen
  obtain ⟨hroot, heditor, hpayload, hstanding, hrunning⟩ := fresh_of_begin hbegin
  exact ⟨hroot, heditor, hpayload, hstanding, hrunning⟩

theorem Opened.fresh {root : String} {session : Session} {machine : Machine}
    (hopened : Opened root session machine) : session.Fresh root := by
  cases hopened with
  | bare hbegin => exact fresh_of_begin hbegin
  | stored hopen => exact fresh_of_openStore hopen
  | here hopen =>
      obtain ⟨settings, after, -, hstore⟩ := store_of_openHere hopen
      exact fresh_of_openStore hstore

/-! ## Where a session stands -/

/-- Where a session with this home and these variables of the machine stands behind some events. -/
structure Told (home : Home) (ambient : Environment) (events : List Event) (later : Session)
    (machine : Machine) : Prop where
  root : later.home.root = home.root
  editorDirectory : later.home.editorDirectory = home.editorDirectory
  editor : later.home.editor = selected? events
  payload : later.home.payload = payload? events
  binding : later.agent.binding? = announced? events
  /-- Only names are announced. -/
  named : ∀ binding, .agent (.started (.ok binding)) ∈ events →
    Binding.isName binding.key.toList = true
  ambient : machine.environment = ambient

theorem Fresh.told {root : String} {session : Session} (hfresh : session.Fresh root)
    (machine : Machine) : Told session.home machine.environment [] session machine where
  root := rfl
  editorDirectory := rfl
  editor := hfresh.editor
  payload := hfresh.payload
  binding := Agent.binding?_eq_none hfresh.running
  named := by simp
  ambient := rfl

theorem choices_concat (events : List Event) (event : Event) :
    choices (events ++ [event]) = choices events ++ event.choice?.toList := by
  rw [choices, List.filterMap_append]
  cases hchoice : event.choice? with
  | none => simp [hchoice, choices]
  | some choice => simp [hchoice, choices]

theorem selected?_concat (events : List Event) (event : Event) :
    selected? (events ++ [event]) = (event.choice?.map (·.1)).or (selected? events) := by
  rw [selected?, choices_concat, List.map_append, List.getLast?_append]
  cases event.choice? with
  | none => rfl
  | some choice => rfl

theorem payload?_concat (events : List Event) (event : Event) :
    payload? (events ++ [event]) = (event.choice?.bind (·.2)).or (payload? events) := by
  rw [payload?, choices_concat, List.filterMap_append, List.getLast?_append]
  cases event.choice? with
  | none => rfl
  | some choice =>
      obtain ⟨editor, payload⟩ := choice
      cases payload <;> rfl

theorem Told.later {home : Home} {ambient : Environment} {events : List Event} {event : Event}
    {session later : Session} {machine laterMachine : Machine}
    (htold : Told home ambient events session machine)
    (hhappens : Happens session machine event later laterMachine) :
    Told home ambient (events ++ [event]) later laterMachine := by
  have hnamed : (∀ binding, event = .agent (.started (.ok binding)) →
        Binding.isName binding.key.toList = true) →
      ∀ binding, .agent (.started (.ok binding)) ∈ events ++ [event] →
        Binding.isName binding.key.toList = true := by
    intro hevent binding hmem
    rcases List.mem_append.mp hmem with hbefore | hlast
    · exact htold.named binding hbefore
    · exact hevent binding (List.mem_singleton.mp hlast).symm
  -- An event that chooses nothing leaves both choices, and one that answers nothing the binding.
  obtain ⟨hroot, hdirectory, heditor, hpayload, hbinding, -, hambient⟩ := htold
  cases hhappens with
  | ran child command options prompts =>
      refine ⟨hroot, hdirectory, ?_, ?_, ?_, hnamed (by simp), ?_⟩
      · rw [selected?_concat]
        exact heditor
      · rw [payload?_concat]
        exact hpayload
      · rw [announced?_concat]
        exact hbinding
      · exact (Runner.environment_run _ _ _ _).trans hambient
  | selected editor payload =>
      refine ⟨hroot, hdirectory, ?_, ?_, ?_, hnamed (by simp), hambient⟩
      · rw [selected?_concat]
        rfl
      · rw [payload?_concat, ← hpayload]
        rfl
      · rw [announced?_concat]
        exact hbinding
  | acted act =>
      refine ⟨hroot, hdirectory, ?_, ?_, ?_, hnamed ?_, ?_⟩
      · rw [selected?_concat]
        exact heditor
      · rw [payload?_concat]
        exact hpayload
      · rw [announced?_concat, ← hbinding]
        exact Agent.binding?_perform _ _ act
      · intro binding hevent
        obtain ⟨line, hparse⟩ := Agent.parse_of_perform (Event.agent.inj hevent)
        exact Binding.isName_of_parse hparse
      · exact (Agent.environment_perform _ _ act).trans hambient
  | toreDown =>
      have hhome : (session.teardown machine).2.1.home =
          { session.home with tornDown := true } := Home.home_teardown session.home _
      refine ⟨?_, ?_, ?_, ?_, ?_, hnamed (by simp), ?_⟩
      · rw [hhome]
        exact hroot
      · rw [hhome]
        exact hdirectory
      · rw [hhome, selected?_concat]
        exact heditor
      · rw [hhome, payload?_concat]
        exact hpayload
      · rw [announced?_concat]
        exact Agent.binding?_eq_none (Agent.running_kill _ _)
      · exact (Agent.environment_perform session.agent machine .kill).trans hambient

theorem Lasts.told {root : String} {session later : Session} {machine laterMachine : Machine}
    {events : List Event} (hopened : Opened root session machine)
    (hlasts : Lasts session machine events later laterMachine) :
    Told session.home machine.environment events later laterMachine := by
  induction hlasts with
  | opened => exact hopened.fresh.told machine
  | later _ hhappens ih => exact ih.later hhappens

/-! ## What a command finds -/

/-- The call of a command, as its process receives it. -/
def call (session : Session) (command : Command) (options : List String) (prompts : Prompts)
    (machine : Machine) : Call :=
  session.runner.call session.test (session.invocation command options prompts) machine

/-- The run of a command makes this call, and goes through the exchanges of the command. -/
def Receives (session : Session) (command : Command) (options : List String) (prompts : Prompts)
    (machine : Machine) (received : Call) : Prop :=
  session.runner.Performs machine received
    (session.runner.reserved session.test (session.invocation command options prompts))
    (command.plan options prompts).exchanges prompts.expected
    (session.run command options prompts machine).1

theorem receives_call (session : Session) (command : Command) (options : List String)
    (prompts : Prompts) (machine : Machine) :
    session.Receives command options prompts machine
      (session.call command options prompts machine) :=
  session.runner.run_performs session.test (session.invocation command options prompts) machine

section Call

variable {home : Home} {ambient : Environment} {events : List Event} {later : Session}
  {machine : Machine}

theorem Told.environment_call (htold : Told home ambient events later machine) (child : Program)
    (command : Command) (options : List String) (prompts : Prompts) :
    (later.call command options prompts (machine.equip child)).environment =
      ambient.map Environment.received ++ later.home.environment ++
        ((announced? events).map Binding.entry).toList := by
  have hbinding : ((announced? events).map Binding.entry).toList.map Environment.received =
      ((announced? events).map Binding.entry).toList := by
    cases hannounced : announced? events with
    | none => rfl
    | some binding =>
        have hname := htold.named binding (mem_of_announced hannounced)
        simp [Binding.received_entry hname]
  have hambient : (machine.equip child).environment = ambient := htold.ambient
  simp only [call, Runner.call, invocation, environment]
  rw [hambient, htold.binding, List.map_append, List.map_append, Home.map_received_environment,
    hbinding, List.append_assoc]

/-- What was announced counts before the home, and the home before the machine. -/
theorem Told.value?_call (htold : Told home ambient events later machine) (child : Program)
    (command : Command) (options : List String) (prompts : Prompts) (name : String) :
    Environment.value? (later.call command options prompts (machine.equip child)).environment name =
      (announcedValue? events name).or ((later.home.setting? name).or
        (Environment.value? (ambient.map Environment.received) name)) := by
  have hannounced : Environment.value? ((announced? events).map Binding.entry).toList name =
      announcedValue? events name := by
    unfold announcedValue?
    cases announced? events with
    | none => rfl
    | some binding => exact Environment.value?_singleton binding.key binding.value name
  rw [htold.environment_call, Environment.value?_append, Environment.value?_append, hannounced,
    Home.value?_environment]

theorem Told.editorPath (htold : Told home ambient events later machine) :
    later.home.editor.map later.home.editorPath = (selected? events).map home.editorPath := by
  rw [htold.editor]
  congr 1
  funext editor
  rw [Home.editorPath, Home.editorPath, htold.editorDirectory]

end Call

theorem announcedValue?_eq_none {events : List Event} {name : String}
    (hnames : ∀ binding, announced? events = some binding → binding.key ≠ name) :
    announcedValue? events name = none := by
  unfold announcedValue?
  cases hannounced : announced? events with
  | none => rfl
  | some binding => exact if_neg (hnames binding hannounced)

/-- A command finds the home as it was chosen, besides that what an agent has announced, and for
the rest what the machine has. -/
structure Finds (root : String) (home : Home) (ambient : Environment) (events : List Event)
    (found : Environment) : Prop where
  root : found.value? "HOME" = some root
  editor : found.value? "EDITOR" =
    ((selected? events).map home.editorPath).or (ambient.value? "EDITOR")
  payload : found.value? "EDITOR_ENV" = (payload? events).or (ambient.value? "EDITOR_ENV")
  others : ∀ name ∉ Home.variableNames,
    found.value? name = (announcedValue? events name).or (ambient.value? name)

theorem Told.finds {home : Home} {ambient : Environment} {events : List Event} {later : Session}
    {machine : Machine} (htold : Told home ambient events later machine)
    (hnames : ∀ binding, .agent (.started (.ok binding)) ∈ events →
      binding.key ∉ Home.variableNames)
    (child : Program) (command : Command) (options : List String) (prompts : Prompts) :
    Finds home.root home (ambient.map Environment.received) events
      (later.call command options prompts (machine.equip child)).environment := by
  have hnone : ∀ name ∈ Home.variableNames, announcedValue? events name = none := by
    intro name hname
    apply announcedValue?_eq_none
    rintro binding hannounced rfl
    exact hnames binding (mem_of_announced hannounced) hname
  have hvalue := htold.value?_call child command options prompts
  constructor
  case root =>
    rw [hvalue, hnone _ (by simp [Home.variableNames]), ← htold.root]
    rfl
  case editor =>
    rw [hvalue, hnone _ (by simp [Home.variableNames]), ← htold.editorPath]
    rfl
  case payload =>
    rw [hvalue, hnone _ (by simp [Home.variableNames]), ← htold.payload]
    rfl
  case others =>
    intro name hname
    have hsetting : later.home.setting? name = none := by
      simp only [Home.variableNames, List.mem_cons, List.not_mem_nil, or_false, not_or] at hname
      simp [Home.setting?, hname]
    rw [hvalue, hsetting, Option.none_or]

/-! ## When no agent announces a name of the home -/

/-- No agent is left behind the event. -/
def Event.endsAgent : Event → Bool
  | agent (.stopped _) => true
  | agent .killed => true
  | toreDown => true
  | _ => false

/-- Only where an agent starts does one come to be announced. -/
theorem announced?_append_eq_none {before after : List Event} (hbefore : announced? before = none)
    (hafter : ∀ event ∈ after, event.started? = none) :
    announced? (before ++ after) = none := by
  induction after using List.reverseRecOn with
  | nil => rwa [List.append_nil]
  | append_singleton after event ih =>
      have hnone := ih fun other hother => hafter other (List.mem_append_left [event] hother)
      have hevent := hafter event (by simp)
      rw [← List.append_assoc, announced?_concat, hnone]
      cases event with
      | agent answer =>
          cases answer with
          | started outcome =>
              cases outcome with
              | ok binding => cases hevent
              | error fault => rfl
          | _ => rfl
      | _ => rfl

theorem announced?_eq_none_of_ends {before after : List Event} {last : Event}
    (hends : last.endsAgent = true) (hafter : ∀ event ∈ after, event.started? = none) :
    announced? (before ++ last :: after) = none := by
  have hlast : announced? (before ++ [last]) = none := by
    rw [announced?_concat]
    cases last with
    | agent answer =>
        cases answer with
        | stopped outcome => rfl
        | killed => rfl
        | _ => cases hends
    | toreDown => rfl
    | _ => cases hends
  rw [List.append_cons]
  exact announced?_append_eq_none hlast hafter

/-- What the commands of a session find that was opened and has gone on with some events. -/
structure Surrounded (root : String) (session : Session) (machine : Machine) (events : List Event)
    (later : Session) (laterMachine : Machine) : Prop where
  /-- Whatever is run next, its process receives a call in which it finds the home. -/
  finds : ∀ child command options prompts, ∃ received,
    later.Receives command options prompts (laterMachine.equip child) received ∧
      Finds root session.home (machine.environment.map Environment.received) events
        received.environment
  ambient : laterMachine.environment = machine.environment
  /-- Once an agent is given up, however that went, it is as if none had been started. -/
  forgotten : ∀ before last after, events = before ++ last :: after → last.endsAgent = true →
    (∀ event ∈ after, event.started? = none) →
    ∀ others other otherMachine, Lasts session machine others other otherMachine →
      choices others = choices events → (∀ event ∈ others, event.started? = none) →
      ∀ child command options prompts, ∃ received received',
        later.Receives command options prompts (laterMachine.equip child) received ∧
          other.Receives command options prompts (otherMachine.equip child) received' ∧
          received.environment = received'.environment
  /-- Whatever steps are performed next, the session goes on with events. -/
  steps : ∀ steps, Lasts session machine (events ++ eventsAll steps later laterMachine)
    (performAll steps later laterMachine).2.1 (performAll steps later laterMachine).2.2

/-- The variables of a home depend on the choices made in it only. -/
theorem Told.environment_eq {home : Home} {ambient : Environment} {events others : List Event}
    {later other : Session} {machine otherMachine : Machine}
    (htold : Told home ambient events later machine)
    (hother : Told home ambient others other otherMachine)
    (hchoices : choices others = choices events) :
    later.home.environment = other.home.environment := by
  have heditor : later.home.editor.map later.home.editorPath =
      other.home.editor.map other.home.editorPath := by
    rw [htold.editorPath, hother.editorPath, selected?, selected?, hchoices]
  have hentry := congrArg (Option.map ("EDITOR", ·)) heditor
  rw [Option.map_map, Option.map_map] at hentry
  have hpayload : later.home.payload = other.home.payload := by
    rw [htold.payload, hother.payload, payload?, payload?, hchoices]
  unfold Home.environment
  rw [htold.root, hother.root, hpayload]
  exact congrArg (fun entry => [("HOME", home.root)] ++ entry.toList ++ _) hentry

/-- As long as no agent announces a name of the home, commands find what was chosen and what is
announced. -/
theorem lasts_surrounded {root : String} {session later : Session} {machine laterMachine : Machine}
    {events : List Event} (hopened : Opened root session machine)
    (hlasts : Lasts session machine events later laterMachine)
    (hnames : ∀ binding, .agent (.started (.ok binding)) ∈ events →
      binding.key ∉ Home.variableNames) :
    Surrounded root session machine events later laterMachine := by
  have htold := hlasts.told hopened
  constructor
  case finds =>
    intro child command options prompts
    have hfinds := htold.finds hnames child command options prompts
    rw [hopened.fresh.root] at hfinds
    exact ⟨_, later.receives_call command options prompts _, hfinds⟩
  case ambient => exact htold.ambient
  case forgotten =>
    intro before last after hevents hends hafter others other otherMachine hothers hchoices hnever
      child command options prompts
    have hother := hothers.told hopened
    have hnone : announced? events = none := by
      rw [hevents]
      exact announced?_eq_none_of_ends hends hafter
    have hnone' : announced? others = none := by
      exact @announced?_append_eq_none [] others rfl hnever
    refine ⟨_, _, later.receives_call command options prompts _,
      other.receives_call command options prompts _, ?_⟩
    rw [htold.environment_call, hother.environment_call, hnone, hnone',
      htold.environment_eq hother hchoices]
  case steps =>
    intro steps
    exact hlasts.append (lasts_performAll steps later laterMachine)

/-- A session with its home at `root`, for a program that is named by its path. -/
def ofProgram (program root : String) : Session where
  settings := { Settings.default with program := some program }
  program := program
  home := ⟨root, Path.join root Home.editorsName, none, none, false⟩
  agent :=
    { Agent.ofProgram program Settings.default.agentTimeout with environment := [("HOME", root)] }
  last := none
  test := "case"

def housing (root : String) (machine : Machine) : Machine :=
  { machine with
    files := Home.installEditors (Path.join root Home.editorsName)
      (machine.files.makeDirectory (machine.files.placeOf root)) }

theorem opened_ofProgram (program root : String) (machine : Machine) :
    Opened root (ofProgram program root) (housing root machine) := by
  have hbegin : begin { Settings.default with program := some program } root "case" machine =
      (.ok (ofProgram program root), housing root machine) := rfl
  exact .bare hbegin

theorem lasts_surrounded_caller :
    let session := ofProgram "/run" "/home"
    let machine := housing "/home" (Machine.lone (.finished (.exited 0)))
    let steps := [.selectEditor .save (some "text"), .startAgent Agent.caller, .stopAgent,
      .selectEditor .date none, .startAgent Agent.caller]
    let events := eventsAll steps session machine
    Opened "/home" session machine ∧
      (∀ binding, .agent (.started (.ok binding)) ∈ events →
        binding.key ∉ Home.variableNames) ∧
      selected? events = some .date ∧ payload? events = some "text" ∧
      announced? events = some ⟨"KP_AGENT_SOCK", "/tmp/kp"⟩ ∧
      Surrounded "/home" session machine events (performAll steps session machine).2.1
        (performAll steps session machine).2.2 := by
  intro session machine steps events
  have hopened : Opened "/home" session machine := opened_ofProgram _ _ _
  have hstarted : events.filterMap Event.started? =
      [⟨"KP_AGENT_SOCK", "/tmp/kp"⟩, ⟨"KP_AGENT_SOCK", "/tmp/kp"⟩] := by
    simp only [events, steps, session, machine]
    decide +kernel
  have hnames : ∀ binding, .agent (.started (.ok binding)) ∈ events →
      binding.key ∉ Home.variableNames := by
    intro binding hevent
    have hbinding : binding ∈ events.filterMap Event.started? :=
      List.mem_filterMap.mpr ⟨_, hevent, rfl⟩
    rw [hstarted] at hbinding
    obtain rfl : binding = ⟨"KP_AGENT_SOCK", "/tmp/kp"⟩ := by simpa using hbinding
    decide
  have hannounced : announced? events = some ⟨"KP_AGENT_SOCK", "/tmp/kp"⟩ := by
    simp only [events, steps, session, machine]
    decide +kernel
  exact ⟨hopened, hnames, rfl, rfl, hannounced,
    lasts_surrounded hopened (lasts_performAll steps session machine) hnames⟩

end Session

end PromptHarness
