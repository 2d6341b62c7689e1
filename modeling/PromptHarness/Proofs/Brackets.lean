import PromptHarness.Proofs.Processes

/-!
# Brackets

A bracket starts an agent, goes through a body and stops the agent.  Where the agent cannot be
started, nothing is gone through and the session is as before.  Otherwise no agent is left behind the
bracket, whatever the body has done with the one that was started for it, and the first fault counts:
that of the body before that of the stop.
-/

namespace PromptHarness

/-- An agent that has ended before it is stopped is reported dead. -/
theorem Agent.stop_of_ended {agent : Agent} {machine : Machine} {running : RunningAgent}
    {child : Child} {ending : Ending} (hrunning : agent.running = some running)
    (hchild : (machine.advance running.number 0).child? running.number = some child)
    (hended : child.ending? = some ending) :
    (agent.stop machine).1 = .error (.agentLiveness (.died ending)) := by
  simp only [stop, hrunning, hchild, hended]

namespace Session

section Outcome

variable {α : Type} {outcome : Except Fault α} {ending : Except Fault Unit}

theorem firstFault_eq_ok_iff {value : α} :
    firstFault outcome ending = .ok value ↔ outcome = .ok value ∧ ending = .ok () := by
  cases outcome with
  | error fault => simp [firstFault]
  | ok other => cases ending <;> simp [firstFault]

theorem firstFault_eq_error_iff {fault : Fault} :
    firstFault outcome ending = .error fault ↔
      outcome = .error fault ∨ (∃ value, outcome = .ok value) ∧ ending = .error fault := by
  cases outcome with
  | error fault => simp [firstFault]
  | ok other => cases ending <;> simp [firstFault]

end Outcome

/-- What is gone through in a bracket. -/
abbrev Body (ρ α : Type) : Type := Session → Machine → ρ × Except Fault α × Session × Machine

/-- The body does nothing that does not happen in sessions. -/
def Body.IsCourse {ρ α : Type} (body : Body ρ α) : Prop :=
  ∀ session machine, ∃ events,
    Lasts session machine events (body session machine).2.2.1 (body session machine).2.2.2

theorem Body.isCourse_performInside (steps : List Step) : Body.IsCourse (performInside steps) :=
  fun session machine => ⟨_, lasts_performInside steps session machine⟩

section Bracket

variable {α ρ : Type} {session : Session} {machine : Machine} {blank : ρ} {body : Body ρ α}
  {first : Nat} {others : List Nat}

theorem startAgent_of_running {running : RunningAgent}
    (hrunning : session.agent.running = some running) :
    session.startAgent machine =
      (.error (.agentAlreadyRunning running.binding.key), session, machine) := by
  simp only [startAgent, Agent.start, hrunning]

/-- Where no agent comes to be, the session is as before. -/
theorem session_of_unstarted {fault : Fault}
    (hstart : (session.startAgent machine).1 = .error fault) :
    (session.startAgent machine).2.1 = session := by
  have hstarting := session.agent.starting machine
  simp only [startAgent] at hstart ⊢
  generalize session.agent.start machine = result at hstarting hstart ⊢
  cases hstarting with
  | refused => rfl
  | unstarted => rfl
  | dismissed => rfl
  | announced => cases hstart

theorem binding?_of_started {binding : Binding}
    (hstart : (session.startAgent machine).1 = .ok binding) :
    (session.startAgent machine).2.1.agent.binding? = some binding := by
  have hstarting := session.agent.starting machine
  simp only [startAgent] at hstart ⊢
  generalize session.agent.start machine = result at hstarting hstart ⊢
  cases hstarting with
  | announced =>
      cases hstart
      rfl
  | _ => cases hstart

theorem withAgent_of_error {fault : Fault}
    (hstart : (session.startAgent machine).1 = .error fault) :
    session.withAgent machine blank body =
      (blank, .error fault, session, (session.startAgent machine).2.2) := by
  have hsession := session_of_unstarted hstart
  unfold withAgent
  generalize session.startAgent machine = started at hstart hsession ⊢
  obtain ⟨outcome, later, laterMachine⟩ := started
  cases hstart
  cases hsession
  rfl

/-- What a bracket gives once its body has been gone through. -/
def stoppedAfter (inside : ρ × Except Fault α × Session × Machine) :
    ρ × Except Fault α × Session × Machine :=
  let (record, outcome, session, machine) := inside
  let (stopped, session, machine) := session.stopAgent machine
  (record, firstFault outcome stopped, session, machine)

theorem withAgent_of_ok {binding : Binding}
    (hstart : (session.startAgent machine).1 = .ok binding) :
    session.withAgent machine blank body =
      stoppedAfter (body (session.startAgent machine).2.1 (session.startAgent machine).2.2) := by
  unfold withAgent
  generalize session.startAgent machine = started at hstart ⊢
  obtain ⟨outcome, later, laterMachine⟩ := started
  cases hstart
  rfl

/-- A bracket is a course if its body is, so brackets may be nested. -/
theorem Body.IsCourse.withAgent (hbody : body.IsCourse) (child : Program) (blank : ρ) :
    Body.IsCourse fun session machine => session.withAgent (machine.equip child) blank body := by
  intro session machine
  have hstarted := lasts_startAgent session machine child
  cases hstart : (session.startAgent (machine.equip child)).1 with
  | error fault =>
      rw [session_of_unstarted hstart] at hstarted
      simp only [withAgent_of_error hstart]
      exact ⟨_, hstarted⟩
  | ok binding =>
      simp only [withAgent_of_ok hstart]
      obtain ⟨events, hinside⟩ := hbody (session.startAgent (machine.equip child)).2.1
        (session.startAgent (machine.equip child)).2.2
      exact ⟨_, hstarted.append (hinside.append (lasts_stopAgent _ _))⟩

/-! ## What a bracket comes to -/

/-- What a bracket comes to whose body has been gone through, beside some other processes. -/
structure Stops (others : List Nat) (inside result : ρ × Except Fault α × Session × Machine) :
    Prop where
  record : result.1 = inside.1
  running : result.2.2.1.agent.running = none
  binding : result.2.2.1.agent.binding? = none
  /-- No process is left of any agent. -/
  processes : result.2.2.2.numbers = others
  /-- For the rest the session is as the body has left it. -/
  kept : result.2.2.1 = { inside.2.2.1 with agent := result.2.2.1.agent }
  value : ∀ value, result.2.1 = .ok value ↔
    inside.2.1 = .ok value ∧ (inside.2.2.1.stopAgent inside.2.2.2).1 = .ok ()
  fault : ∀ fault, result.2.1 = .error fault ↔
    inside.2.1 = .error fault ∨
      (∃ value, inside.2.1 = .ok value) ∧
        (inside.2.2.1.stopAgent inside.2.2.2).1 = .error fault
  /-- If the body has stopped the agent, only its own outcome counts. -/
  stopped : inside.2.2.1.agent.running = none → result.2.1 = inside.2.1
  /-- If the agent has died in the body, that is a fault of the bracket. -/
  died : ∀ running, inside.2.2.1.agent.running = some running →
    ∃ child, (inside.2.2.2.advance running.number 0).child? running.number = some child ∧
      ∀ value ending, inside.2.1 = .ok value → child.ending? = some ending →
        result.2.1 = .error (.agentLiveness (.died ending))

theorem stops_stoppedAfter {inside : ρ × Except Fault α × Session × Machine}
    (htended : Agent.Tended first others inside.2.2.1.agent inside.2.2.2) :
    Stops others inside (stoppedAfter inside) := by
  have hstopped : (stoppedAfter inside).2.2.1.agent.running = none := Agent.running_stop _ _
  constructor
  case record => rfl
  case running => exact hstopped
  case binding => exact Agent.binding?_eq_none hstopped
  case processes =>
    have hnumbers := htended.stop.numbers
    rw [Agent.number?, Agent.running_stop] at hnumbers
    exact hnumbers
  case kept => rfl
  case value =>
    intro value
    exact firstFault_eq_ok_iff
  case fault =>
    intro fault
    exact firstFault_eq_error_iff
  case stopped =>
    intro hidle
    have hstop : (inside.2.2.1.stopAgent inside.2.2.2).1 = .ok () := by
      rw [stopAgent, Agent.stop_of_stopped hidle]
    change firstFault inside.2.1 (inside.2.2.1.stopAgent inside.2.2.2).1 = inside.2.1
    rw [hstop]
    cases inside.2.1 <;> rfl
  case died =>
    intro running hrunning
    obtain ⟨child, hchild⟩ := htended.exists_child hrunning
    refine ⟨child, hchild, ?_⟩
    intro value ending hvalue hended
    exact firstFault_eq_error_iff.mpr
      (.inr ⟨⟨value, hvalue⟩, Agent.stop_of_ended hrunning hchild hended⟩)

/-- What a bracket comes to, by how its agent `started`, and by what came `inside` if it did. -/
structure Brackets (session : Session) (machine : Machine) (others : List Nat) (blank : ρ)
    (started : Except Fault Binding × Session × Machine)
    (inside result : ρ × Except Fault α × Session × Machine) : Prop where
  /-- Without an agent nothing is done and nothing is left, and an agent that was there stays. -/
  unstarted : ∀ fault, started.1 = .error fault →
    result = (blank, .error fault, session, started.2.2) ∧
      started.2.2.numbers = machine.numbers
  refused : ∀ running, session.agent.running = some running →
    result = (blank, .error (.agentAlreadyRunning running.binding.key), session, machine)
  bound : ∀ binding, started.1 = .ok binding →
    started.2.1.agent.binding? = some binding ∧
      ∃ number, started.2.1.agent.number? = some number ∧
        started.2.2.numbers = number :: others
  stops : ∀ binding, started.1 = .ok binding → Stops others inside result

theorem brackets_of_tended (htended : Agent.Tended first others session.agent machine)
    (hbody : body.IsCourse) (blank : ρ) :
    Brackets session machine others blank (session.startAgent machine)
      (body (session.startAgent machine).2.1 (session.startAgent machine).2.2)
      (session.withAgent machine blank body) := by
  have hstarted : Agent.Tended first others (session.startAgent machine).2.1.agent
      (session.startAgent machine).2.2 := htended.start
  constructor
  case unstarted =>
    intro fault hstart
    refine ⟨withAgent_of_error hstart, ?_⟩
    rw [hstarted.numbers, session_of_unstarted hstart, htended.numbers]
  case refused =>
    intro running hrunning
    have hstart := @startAgent_of_running session machine running hrunning
    rw [withAgent_of_error (congrArg Prod.fst hstart), hstart]
  case bound =>
    intro binding hstart
    have hbinding := binding?_of_started hstart
    obtain ⟨running, hrunning, -⟩ := Option.map_eq_some_iff.mp hbinding
    refine ⟨hbinding, running.number, by rw [Agent.number?, hrunning]; rfl, ?_⟩
    rw [hstarted.numbers, Agent.number?, hrunning]
    rfl
  case stops =>
    intro binding hstart
    rw [withAgent_of_ok hstart]
    obtain ⟨events, hinside⟩ := hbody (session.startAgent machine).2.1
      (session.startAgent machine).2.2
    exact stops_stoppedAfter (hinside.tended hstarted)

/-- Wherever a session stands, a bracket leaves the agent as before or none, and tells the first
fault. -/
theorem withAgent_brackets {root : String} {later : Session} {laterMachine : Machine}
    {events : List Event} (hopened : Opened root session machine) (hnumbered : machine.IsNumbered)
    (hlasts : Lasts session machine events later laterMachine) (hbody : body.IsCourse)
    (child : Program) (blank : ρ) :
    let started := later.startAgent (laterMachine.equip child)
    Brackets later (laterMachine.equip child) machine.numbers blank started
      (body started.2.1 started.2.2) (later.withAgent (laterMachine.equip child) blank body) ∧
    ∃ more, Lasts later laterMachine more
      (later.withAgent (laterMachine.equip child) blank body).2.2.1
      (later.withAgent (laterMachine.equip child) blank body).2.2.2 := by
  intro started
  have htended := (hlasts.tended (hopened.tended hnumbered)).congr
    (laterMachine.equip child) rfl rfl
  exact ⟨brackets_of_tended htended hbody blank, hbody.withAgent child blank later laterMachine⟩

end Bracket

/-- An agent that announces itself and then ends by itself. -/
def leaver : Program := fun _ _ =>
  .print (Text.encode "KP_AGENT_SOCK=/tmp/kp\n") <| .finished (.exited 3)

theorem withAgent_brackets_leaver :
    let session := ofProgram "/run" "/home"
    let machine := housing "/home" (Machine.lone (.finished (.exited 0)))
    let steps := [.stopAgent, .withAgent Agent.caller [.startAgent leaver], .startAgent leaver]
    let started := session.startAgent (machine.equip Agent.caller)
    let result := session.withAgent (machine.equip Agent.caller) [] (performInside steps)
    Opened "/home" session machine ∧ machine.IsNumbered ∧ Body.IsCourse (performInside steps) ∧
      started.1 = .ok ⟨"KP_AGENT_SOCK", "/tmp/kp"⟩ ∧
      result.2.1 = .error (.agentLiveness (.died (.exited 3))) ∧
      Brackets session (machine.equip Agent.caller) machine.numbers [] started
        (performInside steps started.2.1 started.2.2) result := by
  intro session machine steps started result
  have hopened : Opened "/home" session machine := opened_ofProgram _ _ _
  have hnumbered : machine.IsNumbered := isNumbered_housing _ _
  have hbody : Body.IsCourse (performInside steps) := Body.isCourse_performInside steps
  have hcame : started.1 = .ok ⟨"KP_AGENT_SOCK", "/tmp/kp"⟩ ∧
      result.2.1 = .error (.agentLiveness (.died (.exited 3))) := by
    simp only [result, started, steps, session, machine]
    decide +kernel
  exact ⟨hopened, hnumbered, hbody, hcame.1, hcame.2,
    (withAgent_brackets hopened hnumbered .opened hbody Agent.caller []).1⟩

end Session

end PromptHarness
