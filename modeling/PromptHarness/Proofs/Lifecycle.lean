import Mathlib.Data.List.Induction
import PromptHarness.Agent
import PromptHarness.Proofs.Children

/-!
# The life of an agent

Whatever is done with what starts and stops agents, and whatever happens to an agent meanwhile, at
most one process is kept: the one of the agent that is said to be running, until it is stopped or
killed.  `Starting` and `Stopping` list all that starting and stopping can come to.  Every act keeps
the children of the machine in order (`Tended`), and what is said to be bound is what the answers to
the acts tell (`bound`).
-/

namespace PromptHarness

namespace Machine

/-- The processes from number `first` on that have not been reaped. -/
def unreapedFrom (first : Nat) (machine : Machine) : List Nat :=
  machine.numbers.filter (first ≤ ·)

def IsNumbered (machine : Machine) : Prop :=
  ∀ number ∈ machine.numbers, number < machine.nextNumber

end Machine

namespace Agent

/-- What is done with a controller of agents, or happens to its agent. -/
inductive Act where
  /-- From here on the installed programs do what `child` does, and the agent is started. -/
  | start (child : Program)
  | stop
  | kill
  /-- Time passes, in which the agent may end by itself. -/
  | pass (time : Nat)
  /-- The agent is waited for until it has ended by itself. -/
  | waitDead
  /-- Something else puts an end to the agent. -/
  | die (ending : Ending)

inductive Answer where
  | started (outcome : Except Fault Binding)
  | stopped (outcome : Except Fault Unit)
  | killed
  | nothing

def perform : Act → Agent → Machine → Answer × Agent × Machine
  | .start child, agent, machine =>
      let (outcome, agent, machine) := agent.start (machine.equip child)
      (.started outcome, agent, machine)
  | .stop, agent, machine =>
      let (outcome, agent, machine) := agent.stop machine
      (.stopped outcome, agent, machine)
  | .kill, agent, machine =>
      let (agent, machine) := agent.kill machine
      (.killed, agent, machine)
  | .pass time, agent, machine => (.nothing, agent, machine.pass time)
  | .waitDead, agent, machine => (.nothing, agent, agent.waitDead machine)
  | .die ending, agent, machine =>
      (.nothing, agent, agent.running.elim machine fun running =>
        machine.update running.number ⟨.finished ending, .fresh, 0⟩)

def performAll : List Act → Agent → Machine → List Answer × Agent × Machine
  | [], agent, machine => ([], agent, machine)
  | act :: later, agent, machine =>
      let (answer, agent, machine) := agent.perform act machine
      let (answers, agent, machine) := performAll later agent machine
      (answer :: answers, agent, machine)

/-- The binding behind an answer, by the one before it. -/
def Answer.bound (before : Option Binding) : Answer → Option Binding
  | started (.ok binding) => some binding
  | started (.error _) => before
  | stopped _ => none
  | killed => none
  | nothing => before

/-- The binding that was announced and not given up since. -/
def bound (answers : List Answer) : Option Binding := answers.foldl Answer.bound none

def Answer.started? : Answer → Option Binding
  | started (.ok binding) => some binding
  | _ => none

theorem Answer.eq_of_started {answer : Answer} {binding : Binding}
    (hstarted : answer.started? = some binding) : answer = started (.ok binding) := by
  cases answer with
  | started outcome =>
      cases outcome with
      | ok other =>
          cases hstarted
          rfl
      | error fault => cases hstarted
  | _ => cases hstarted

/-- What is bound is what the latest start that succeeded gave. -/
theorem started_of_bound {answers : List Answer} {binding : Binding}
    (hbound : bound answers = some binding) :
    (answers.filterMap Answer.started?).getLast? = some binding := by
  induction answers using List.reverseRecOn with
  | nil => cases hbound
  | append_singleton answers answer ih =>
      rw [bound, List.foldl_append] at hbound
      rw [List.filterMap_append]
      cases answer with
      | started outcome =>
          cases outcome with
          | ok announced =>
              obtain rfl : announced = binding := by simpa [Answer.bound] using hbound
              simp [Answer.started?]
          | error fault => simpa [Answer.started?] using ih hbound
      | stopped outcome => cases hbound
      | killed => cases hbound
      | nothing => simpa [Answer.started?] using ih hbound

/-! ## Starting and stopping -/

theorem parse_of_announcement {halt : Halt} {timeout : Nat} {bytes : Bytes} {binding : Binding}
    (hannounced : announcement halt timeout bytes = .ok binding) :
    ∃ line, Binding.parse line = .ok binding := by
  unfold announcement at hannounced
  split at hannounced
  · cases hannounced
  · dsimp only at hannounced
    split at hannounced
    · cases hannounced
    · split at hannounced
      · cases hannounced
      · next line _ =>
        refine ⟨line, ?_⟩
        cases hparse : Binding.parse line with
        | error failure =>
            rw [hparse] at hannounced
            cases hannounced
        | ok parsed =>
            rw [hparse] at hannounced
            cases hannounced
            rfl

/-- All that starting an agent can come to. -/
inductive Starting (agent : Agent) (machine : Machine) :
    Except Fault Binding × Agent × Machine → Prop
  | refused {running : RunningAgent} (hrunning : agent.running = some running) :
      Starting agent machine
        (.error (.agentAlreadyRunning running.binding.key), agent, machine)
  | unstarted {fault : Fault} (hrunning : agent.running = none) :
      Starting agent machine (.error fault, agent, machine)
  /-- The process has not announced itself, so it has been killed and reaped. -/
  | dismissed {fault : Fault} {number : Nat} {process : Process Ending} {started : Machine}
      {files : Files} (hrunning : agent.running = none)
      (hstart : machine.start agent.program agent.arguments agent.environment =
        .ok (number, process, started)) :
      Starting agent machine (.error fault, agent, { started with files := files }.reap number)
  | announced {line : String} {binding : Binding} {number : Nat} {process : Process Ending}
      {started : Machine} {files : Files} {child : Child} (hrunning : agent.running = none)
      (hstart : machine.start agent.program agent.arguments agent.environment =
        .ok (number, process, started))
      (hparse : Binding.parse line = .ok binding) :
      Starting agent machine (.ok binding, { agent with running := some ⟨number, binding⟩ },
        ({ started with files := files }.update number child).advance number 0)

theorem starting (agent : Agent) (machine : Machine) :
    Starting agent machine (agent.start machine) := by
  unfold start
  split
  · next running hrunning => exact .refused hrunning
  · next hrunning =>
    split
    · exact .unstarted hrunning
    · next number process started hstart =>
      dsimp only
      split
      · exact .dismissed hrunning hstart
      · next binding hannounced =>
        obtain ⟨line, hparse⟩ := parse_of_announcement hannounced
        exact .announced hrunning hstart hparse

/-- All that stopping an agent can come to. -/
inductive Stopping (agent : Agent) (machine : Machine) :
    Except Fault Unit × Agent × Machine → Prop
  | idle (hrunning : agent.running = none) : Stopping agent machine (.ok (), agent, machine)
  /-- Its process is not there, which does not happen as long as nobody else reaps it. -/
  | lost {running : RunningAgent} (hrunning : agent.running = some running)
      (hlost : running.number ∉ machine.numbers) :
      Stopping agent machine (.ok (), { agent with running := none }, machine)
  | taken {running : RunningAgent} {outcome : Except Fault Unit} {files : Files}
      {lateness : Nat → Nat} (hrunning : agent.running = some running) :
      Stopping agent machine (outcome, { agent with running := none },
        { machine.advance running.number 0 with files := files, lateness := lateness }.reap
          running.number)

theorem stopping (agent : Agent) (machine : Machine) :
    Stopping agent machine (agent.stop machine) := by
  unfold stop
  split
  · next hrunning => exact .idle hrunning
  · next running hrunning =>
    dsimp only
    split
    · next hnone =>
      rw [Machine.child?_eq_none_iff, Machine.numbers_advance] at hnone
      exact .lost hrunning hnone
    · split
      · exact .taken hrunning
      · split
        · exact .taken hrunning
        · exact .taken hrunning

theorem stop_of_stopped {agent : Agent} {machine : Machine} (hstopped : agent.running = none) :
    agent.stop machine = (.ok (), agent, machine) := by
  simp only [stop, hstopped]

/-! ## What every act keeps -/

/-- The children of the machine are the process of the running agent, which has a number from
`first` on, and the `others`, which were there before. -/
structure Tended (first : Nat) (others : List Nat) (agent : Agent) (machine : Machine) : Prop where
  numbers : machine.numbers = agent.number?.toList ++ others
  own : ∀ number ∈ agent.number?, first ≤ number ∧ number < machine.nextNumber
  others : ∀ number ∈ others, number < first
  later : first ≤ machine.nextNumber

namespace Tended

variable {first : Nat} {others : List Nat} {agent : Agent} {machine : Machine}

theorem of_stopped (hstopped : agent.running = none) (hnumbered : machine.IsNumbered) :
    Tended machine.nextNumber machine.numbers agent machine where
  numbers := by simp [number?, hstopped]
  own := by simp [number?, hstopped]
  others := hnumbered
  later := Nat.le_refl _

theorem child (htended : Tended first others agent machine) :
    ∀ number ∈ agent.number?, number ∈ machine.numbers := by
  intro number hnumber
  rw [htended.numbers]
  exact List.mem_append_left others (Option.mem_toList.mpr hnumber)

theorem unreaped (htended : Tended first others agent machine) :
    machine.unreapedFrom first = agent.number?.toList := by
  rw [Machine.unreapedFrom, htended.numbers, List.filter_append]
  have hothers : others.filter (first ≤ ·) = [] := by
    rw [List.filter_eq_nil_iff]
    intro number hnumber
    simpa using htended.others number hnumber
  have hown : agent.number?.toList.filter (first ≤ ·) = agent.number?.toList := by
    rw [List.filter_eq_self]
    intro number hnumber
    simpa using (htended.own number (Option.mem_toList.mp hnumber)).1
  rw [hothers, hown, List.append_nil]

/-- Only the numbers of the children and the next number matter. -/
theorem congr (htended : Tended first others agent machine) (machine' : Machine)
    (hnumbers : machine'.numbers = machine.numbers)
    (hnext : machine'.nextNumber = machine.nextNumber) : Tended first others agent machine' where
  numbers := hnumbers.trans htended.numbers
  own := by simpa only [hnext] using htended.own
  others := htended.others
  later := by simpa only [hnext] using htended.later

theorem advance (htended : Tended first others agent machine) (number time : Nat) :
    Tended first others agent (machine.advance number time) := by
  obtain ⟨children, files, hadvance, hnumbers⟩ := machine.exists_advance_eq number time
  rw [hadvance]
  exact htended.congr _ hnumbers rfl

/-- Nobody else reaps the process of the agent, so it is there when the agent is stopped. -/
theorem exists_child (htended : Tended first others agent machine) {running : RunningAgent}
    (hrunning : agent.running = some running) :
    ∃ child, (machine.advance running.number 0).child? running.number = some child := by
  have hnumber : running.number ∈ agent.number? := by simp [number?, hrunning]
  rw [← Option.isSome_iff_exists, Option.isSome_iff_ne_none, ne_eq, Machine.child?_eq_none_iff,
    Machine.numbers_advance, not_not]
  exact htended.child _ hnumber

theorem pass (htended : Tended first others agent machine) (time : Nat) :
    Tended first others agent (machine.pass time) := by
  obtain ⟨children, files, hpass, hnumbers⟩ := machine.exists_pass_eq time
  rw [hpass]
  exact htended.congr _ hnumbers rfl

/-- Reaping the process of the running agent leaves the others. -/
theorem filter_ne (htended : Tended first others agent machine) {running : RunningAgent}
    (hrunning : agent.running = some running) :
    machine.numbers.filter (· != running.number) = others := by
  have hnumber : running.number ∈ agent.number? := by simp [number?, hrunning]
  have hothers : others.filter (· != running.number) = others := by
    rw [List.filter_eq_self]
    intro number hother
    have hbefore := htended.others number hother
    have hbehind := (htended.own _ hnumber).1
    simp only [bne_iff_ne]
    omega
  rw [htended.numbers, List.filter_append, hothers]
  simp [number?, hrunning]

theorem reap (htended : Tended first others agent machine) {running : RunningAgent}
    (hrunning : agent.running = some running) :
    Tended first others { agent with running := none } (machine.reap running.number) where
  numbers := by
    rw [Machine.numbers_reap, htended.filter_ne hrunning]
    rfl
  own := by simp [number?]
  others := htended.others
  later := htended.later

/-- A process that has just been started can be kept as the agent. -/
theorem announce (htended : Tended first others agent machine) (hrunning : agent.running = none)
    {program : String} {arguments : List String} {given : Environment} {number : Nat}
    {process : Process Ending} {started : Machine}
    (hstart : machine.start program arguments given = .ok (number, process, started))
    (binding : Binding) :
    Tended first others { agent with running := some ⟨number, binding⟩ } started := by
  obtain ⟨rfl, rfl⟩ := Machine.eq_of_start hstart
  have hnumbers : machine.numbers = others := by
    rw [htended.numbers]
    simp [number?, hrunning]
  constructor
  case numbers => exact congrArg (machine.nextNumber :: ·) hnumbers
  case own =>
    rintro number ⟨⟩
    exact ⟨htended.later, Nat.lt_succ_self _⟩
  case others => exact htended.others
  case later => exact Nat.le_succ_of_le htended.later

theorem start (htended : Tended first others agent machine) :
    Tended first others (agent.start machine).2.1 (agent.start machine).2.2 := by
  have hstarting := agent.starting machine
  generalize agent.start machine = result at hstarting
  cases hstarting with
  | refused => exact htended
  | unstarted => exact htended
  | @dismissed fault number process started files hrunning hstart =>
      -- What has been started is taken for the agent's process, and then reaped like that.
      have hkept := (htended.announce hrunning hstart ⟨"", ""⟩).congr
        { started with files := files } rfl rfl
      have hreaped := hkept.reap rfl
      have hagent : { agent with running := none } = agent := by
        rw [← hrunning]
      rw [← hagent]
      exact hreaped
  | @announced line binding number process started files child hrunning hstart hparse =>
      have hkept := (htended.announce hrunning hstart binding).congr
        { started with files := files } rfl rfl
      exact (hkept.congr _ (Machine.numbers_update _ number child) rfl).advance number 0

theorem stop (htended : Tended first others agent machine) :
    Tended first others (agent.stop machine).2.1 (agent.stop machine).2.2 := by
  have hstopping := agent.stopping machine
  generalize agent.stop machine = result at hstopping
  cases hstopping with
  | idle => exact htended
  | @lost running hrunning hlost =>
      have hnumber : running.number ∈ agent.number? := by simp [number?, hrunning]
      exact absurd (htended.child _ hnumber) hlost
  | @taken running outcome files lateness hrunning =>
      have hkept := (htended.advance running.number 0).congr
        { machine.advance running.number 0 with files := files, lateness := lateness } rfl rfl
      exact hkept.reap hrunning

theorem kill (htended : Tended first others agent machine) :
    Tended first others (agent.kill machine).1 (agent.kill machine).2 := by
  unfold Agent.kill
  split
  · exact htended
  · next running hrunning => exact htended.reap hrunning

theorem waitDead (htended : Tended first others agent machine) :
    Tended first others agent (agent.waitDead machine) := by
  unfold Agent.waitDead
  split
  · exact htended
  · split
    · exact htended
    · exact htended.pass _

theorem perform (htended : Tended first others agent machine) (act : Act) :
    Tended first others (agent.perform act machine).2.1 (agent.perform act machine).2.2 := by
  cases act with
  | start child => exact (htended.congr (machine.equip child) rfl rfl).start
  | stop => exact htended.stop
  | kill => exact htended.kill
  | pass time => exact htended.pass time
  | waitDead => exact htended.waitDead
  | die ending =>
      simp only [Agent.perform]
      cases hrunning : agent.running with
      | none => exact htended
      | some running => exact htended.congr _ (Machine.numbers_update _ _ _) rfl

theorem performAll (htended : Tended first others agent machine) (acts : List Act) :
    Tended first others (agent.performAll acts machine).2.1 (agent.performAll acts machine).2.2 := by
  induction acts generalizing agent machine with
  | nil => exact htended
  | cons act later ih => exact ih (htended.perform act)

/-- Of an agent that is let go of nothing is left. -/
theorem numbers_release (htended : Tended first others agent machine) :
    (agent.release machine).numbers = others := by
  unfold release
  split
  · next hrunning =>
    rw [htended.numbers]
    simp [number?, hrunning]
  · next running hrunning =>
    rw [Machine.numbers_reap]
    exact (htended.advance running.number 0).filter_ne hrunning

end Tended

/-! ## What is bound -/

theorem running_stop (agent : Agent) (machine : Machine) :
    (agent.stop machine).2.1.running = none := by
  have hstopping := agent.stopping machine
  generalize agent.stop machine = result at hstopping
  cases hstopping with
  | idle hrunning => exact hrunning
  | lost => rfl
  | taken => rfl

theorem running_kill (agent : Agent) (machine : Machine) :
    (agent.kill machine).1.running = none := by
  unfold kill
  split
  · next hrunning => exact hrunning
  · rfl

theorem binding?_eq_none {agent : Agent} (hrunning : agent.running = none) :
    agent.binding? = none := by
  rw [binding?, hrunning]
  rfl

/-- After every act that is bound which its answer tells. -/
theorem binding?_perform (agent : Agent) (machine : Machine) (act : Act) :
    (agent.perform act machine).2.1.binding? =
      (agent.perform act machine).1.bound agent.binding? := by
  cases act with
  | start child =>
      have hstarting := agent.starting (machine.equip child)
      simp only [perform]
      generalize agent.start (machine.equip child) = result at hstarting
      cases hstarting with
      | refused => rfl
      | unstarted => rfl
      | dismissed => rfl
      | announced => rfl
  | stop => exact binding?_eq_none (agent.running_stop machine)
  | kill => exact binding?_eq_none (agent.running_kill machine)
  | pass time => rfl
  | waitDead => rfl
  | die ending => rfl

theorem binding?_performAll (agent : Agent) (machine : Machine) (acts : List Act) :
    (agent.performAll acts machine).2.1.binding? =
      (agent.performAll acts machine).1.foldl Answer.bound agent.binding? := by
  induction acts generalizing agent machine with
  | nil => rfl
  | cons act later ih =>
      simp only [performAll, List.foldl_cons]
      rw [ih, binding?_perform]

/-- What is bound was announced in a line. -/
theorem parse_of_perform {agent : Agent} {machine : Machine} {act : Act} {binding : Binding}
    (hperform : (agent.perform act machine).1 = .started (.ok binding)) :
    ∃ line, Binding.parse line = .ok binding := by
  cases act with
  | start child =>
      have hstarting := agent.starting (machine.equip child)
      simp only [perform] at hperform
      generalize agent.start (machine.equip child) = result at hstarting hperform
      cases hstarting with
      | announced _ _ hparse =>
          cases hperform
          exact ⟨_, hparse⟩
      | _ => cases hperform
  | _ => cases hperform

/-- Nothing that is done with an agent changes the variables of the machine. -/
theorem environment_perform (agent : Agent) (machine : Machine) (act : Act) :
    (agent.perform act machine).2.2.environment = machine.environment := by
  cases act with
  | start child =>
      have hstarting := agent.starting (machine.equip child)
      simp only [perform]
      generalize agent.start (machine.equip child) = result at hstarting
      cases hstarting with
      | refused => rfl
      | unstarted => rfl
      | dismissed _ hstart =>
          obtain ⟨-, rfl⟩ := Machine.eq_of_start hstart
          rfl
      | announced _ hstart =>
          obtain ⟨-, rfl⟩ := Machine.eq_of_start hstart
          rw [Machine.environment_advance]
          rfl
  | stop =>
      have hstopping := agent.stopping machine
      simp only [perform]
      generalize agent.stop machine = result at hstopping
      cases hstopping with
      | idle => rfl
      | lost => rfl
      | taken => exact machine.environment_advance _ _
  | kill =>
      simp only [perform, kill]
      split
      · rfl
      · rfl
  | pass time => exact machine.environment_pass time
  | waitDead =>
      simp only [perform, waitDead]
      split
      · rfl
      · split
        · rfl
        · exact machine.environment_pass _
  | die ending =>
      simp only [perform]
      cases agent.running with
      | none => rfl
      | some running => rfl

/-! ## At most one agent -/

/-- What holds of a controller when it has given some answers and started no process with a number
below `first`. -/
structure KeepsOne (first : Nat) (answers : List Answer) (agent : Agent) (machine : Machine) :
    Prop where
  binding : agent.isRunning = true ↔ ∃ binding, agent.binding? = some binding
  number : agent.isRunning = true ↔ ∃ number, agent.number? = some number
  /-- Of the processes that were started only that of the running agent has not been reaped. -/
  unreaped : machine.unreapedFrom first = agent.number?.toList
  count : (machine.unreapedFrom first).length = if agent.isRunning then 1 else 0
  /-- What is bound was announced and not given up since. -/
  bound : agent.binding? = Agent.bound answers
  latest : ∀ binding, agent.binding? = some binding →
    (answers.filterMap Answer.started?).getLast? = some binding
  started : ∀ child binding agent' machine',
    agent.start (machine.equip child) = (.ok binding, agent', machine') →
      agent'.binding? = some binding
  /-- Nothing is bound behind a stop, however it goes, nor behind a kill. -/
  stopped : (agent.stop machine).2.1.binding? = none ∧ (agent.kill machine).1.binding? = none
  /-- Nothing else is started while an agent is running. -/
  refused : ∀ binding, agent.binding? = some binding → ∀ child,
    agent.start (machine.equip child) =
      (.error (.agentAlreadyRunning binding.key), agent, machine.equip child)
  failed : agent.isRunning = false → ∀ child fault agent' machine',
    agent.start (machine.equip child) = (.error fault, agent', machine') →
      agent'.isRunning = false
  released : (agent.release machine).unreapedFrom first = []

theorem Tended.keepsOne {first : Nat} {others : List Nat} {agent : Agent} {machine : Machine}
    {answers : List Answer} (htended : Tended first others agent machine)
    (hbound : agent.binding? = Agent.bound answers) : KeepsOne first answers agent machine where
  binding := by simp [isRunning, binding?, Option.isSome_iff_exists]
  number := by simp [isRunning, number?, Option.isSome_iff_exists]
  unreaped := htended.unreaped
  count := by
    rw [htended.unreaped, number?, isRunning]
    cases agent.running <;> rfl
  bound := hbound
  latest := by
    intro binding hbinding
    exact started_of_bound (hbound.symm.trans hbinding)
  started := by
    intro child binding agent' machine' hstart
    have hstarting := agent.starting (machine.equip child)
    rw [hstart] at hstarting
    cases hstarting
    rfl
  stopped :=
    ⟨binding?_eq_none (agent.running_stop machine), binding?_eq_none (agent.running_kill machine)⟩
  refused := by
    intro binding hbinding child
    obtain ⟨running, hrunning, rfl⟩ := Option.map_eq_some_iff.mp hbinding
    simp only [Agent.start, hrunning]
  failed := by
    intro hidle child fault agent' machine' hstart
    have hstarting := agent.starting (machine.equip child)
    rw [hstart] at hstarting
    cases hstarting with
    | refused => exact hidle
    | unstarted => exact hidle
    | dismissed => exact hidle
  released := by
    rw [Machine.unreapedFrom, htended.numbers_release, List.filter_eq_nil_iff]
    intro number hnumber
    simpa using htended.others number hnumber

/-- A controller keeps at most one agent, whatever is done with it and whatever its agents do. -/
theorem performAll_keepsOne (agent : Agent) (machine : Machine) (acts : List Act)
    (hstopped : agent.running = none) (hnumbered : machine.IsNumbered) :
    KeepsOne machine.nextNumber (agent.performAll acts machine).1
      (agent.performAll acts machine).2.1 (agent.performAll acts machine).2.2 := by
  have htended := (Tended.of_stopped hstopped hnumbered).performAll acts
  have hbound := agent.binding?_performAll machine acts
  rw [binding?_eq_none hstopped] at hbound
  exact htended.keepsOne hbound

def caller : Program := fun _ _ =>
  .print (Text.encode "KP_AGENT_SOCK=/tmp/kp; export KP_AGENT_SOCK;\n") <|
    .pause 60000 <| .finished (.exited 0)

theorem performAll_keepsOne_caller :
    let agent := Agent.ofProgram "/run" 5000
    let machine := Machine.lone (.finished (.exited 0))
    let later := agent.performAll [.start caller, .die (.signaled 9), .start caller] machine
    agent.running = none ∧ machine.IsNumbered ∧
      later.1.map Answer.started? = [some ⟨"KP_AGENT_SOCK", "/tmp/kp"⟩, none, none] ∧
      KeepsOne 1 later.1 later.2.1 later.2.2 := by
  intro agent machine later
  have hnumbered : machine.IsNumbered := by
    simp [Machine.IsNumbered, Machine.numbers, machine, Machine.lone]
  have hanswers : later.1.map Answer.started? =
      [some ⟨"KP_AGENT_SOCK", "/tmp/kp"⟩, none, none] := by
    simp only [later, agent, machine]
    decide +kernel
  exact ⟨rfl, hnumbered, hanswers, performAll_keepsOne agent machine _ rfl hnumbered⟩

end Agent

end PromptHarness
