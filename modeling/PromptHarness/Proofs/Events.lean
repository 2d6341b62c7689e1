import PromptHarness.Proofs.Lifecycle
import PromptHarness.Session.Step

/-!
# What happens in a session

A session is a course of events: commands are run, editors selected, agents started and stopped, and
the session is torn down.  A bracket is not an event of its own but a start, what happens inside,
and a stop; so a course (`Lasts`) may be broken off anywhere, also inside a bracket.  Performing
steps is such a course (`lasts_performAll`).
-/

namespace PromptHarness

namespace Session

/-- What happens in a session, as far as it shows. -/
inductive Event where
  | ran (run : Run)
  | selected (editor : Editor) (payload : Option String)
  | agent (answer : Agent.Answer)
  | toreDown

/-- One thing happens in a session. -/
inductive Happens (session : Session) (machine : Machine) : Event → Session → Machine → Prop
  | ran (child : Program) (command : Command) (options : List String) (prompts : Prompts) :
      Happens session machine
        (.ran (session.run command options prompts (machine.equip child)).1)
        (session.run command options prompts (machine.equip child)).2.1
        (session.run command options prompts (machine.equip child)).2.2
  | selected (editor : Editor) (payload : Option String) :
      Happens session machine (.selected editor payload)
        { session with home := session.home.selectEditor editor payload } machine
  | acted (act : Agent.Act) :
      Happens session machine (.agent (session.agent.perform act machine).1)
        { session with agent := (session.agent.perform act machine).2.1 }
        (session.agent.perform act machine).2.2
  | toreDown :
      Happens session machine .toreDown (session.teardown machine).2.1 (session.teardown machine).2.2

/-- A session goes on with some events, which brings it and the machine to where they are then. -/
inductive Lasts (session : Session) (machine : Machine) :
    List Event → Session → Machine → Prop
  | opened : Lasts session machine [] session machine
  | later {events : List Event} {event : Event} {middle later : Session}
      {middleMachine laterMachine : Machine}
      (hlasts : Lasts session machine events middle middleMachine)
      (hhappens : Happens middle middleMachine event later laterMachine) :
      Lasts session machine (events ++ [event]) later laterMachine

section Lasts

variable {session middle later : Session} {machine middleMachine laterMachine : Machine}
  {event : Event} {events more : List Event}

theorem Happens.lasts (hhappens : Happens session machine event later laterMachine) :
    Lasts session machine [event] later laterMachine := Lasts.opened.later hhappens

theorem Lasts.append (hfirst : Lasts session machine events middle middleMachine)
    (hsecond : Lasts middle middleMachine more later laterMachine) :
    Lasts session machine (events ++ more) later laterMachine := by
  induction hsecond with
  | opened => simpa using hfirst
  | later _ hhappens ih =>
      rw [← List.append_assoc]
      exact ih.later hhappens

end Lasts

theorem lasts_startAgent (session : Session) (machine : Machine) (child : Program) :
    Lasts session machine [.agent (.started (session.startAgent (machine.equip child)).1)]
      (session.startAgent (machine.equip child)).2.1
      (session.startAgent (machine.equip child)).2.2 :=
  (Happens.acted (.start child)).lasts

theorem lasts_stopAgent (session : Session) (machine : Machine) :
    Lasts session machine [.agent (.stopped (session.stopAgent machine).1)]
      (session.stopAgent machine).2.1 (session.stopAgent machine).2.2 :=
  (Happens.acted .stop).lasts

/-! ## The events of steps -/

mutual

def Step.events : Step → Session → Machine → List Event
  | .command child command options prompts, session, machine =>
      [.ran (session.run command options prompts (machine.equip child)).1]
  | .selectEditor editor payload, _, _ => [.selected editor payload]
  | .startAgent child, session, machine =>
      [.agent (.started (session.startAgent (machine.equip child)).1)]
  | .stopAgent, session, machine => [.agent (.stopped (session.stopAgent machine).1)]
  | .waitDead, _, _ => [.agent .nothing]
  | .teardown, _, _ => [.toreDown]
  | .withAgent child steps, session, machine =>
      match session.startAgent (machine.equip child) with
      | (.error fault, _, _) => [.agent (.started (.error fault))]
      | (.ok binding, session, machine) =>
          let (_, _, later, laterMachine) := performInside steps session machine
          .agent (.started (.ok binding)) :: eventsInside steps session machine ++
            [.agent (.stopped (later.stopAgent laterMachine).1)]
  | _, _, _ => []

def eventsInside : List Step → Session → Machine → List Event
  | [], _, _ => []
  | step :: rest, session, machine =>
      let (report, later, laterMachine) := perform step session machine
      step.events session machine ++
        match report.commandFault? with
        | some _ => []
        | none => eventsInside rest later laterMachine

end

/-- The events of steps that are all performed. -/
def eventsAll : List Step → Session → Machine → List Event
  | [], _, _ => []
  | step :: rest, session, machine =>
      let (_, later, laterMachine) := perform step session machine
      step.events session machine ++ eventsAll rest later laterMachine

mutual

theorem lasts_perform (step : Step) (session : Session) (machine : Machine) :
    Lasts session machine (step.events session machine) (perform step session machine).2.1
      (perform step session machine).2.2 := by
  cases step with
  | command child command options prompts =>
      simp only [perform, Step.events]
      exact (Happens.ran child command options prompts).lasts
  | selectEditor editor payload =>
      simp only [perform, Step.events]
      exact (Happens.selected editor payload).lasts
  | startAgent child =>
      simp only [perform, Step.events]
      exact lasts_startAgent session machine child
  | stopAgent =>
      simp only [perform, Step.events]
      exact lasts_stopAgent session machine
  | waitDead =>
      simp only [perform, Step.events]
      exact (Happens.acted .waitDead).lasts
  | teardown =>
      simp only [perform, Step.events]
      exact Happens.toreDown.lasts
  | withAgent child steps =>
      have hstart := lasts_startAgent session machine child
      simp only [perform, Step.events, withAgent]
      generalize session.startAgent (machine.equip child) = result at hstart
      obtain ⟨outcome, middle, middleMachine⟩ := result
      cases outcome with
      | error fault => exact hstart
      | ok binding =>
          have hinside := lasts_performInside steps middle middleMachine
          exact hstart.append (hinside.append (lasts_stopAgent _ _))
  | _ =>
      simp only [perform, Step.events]
      exact .opened

theorem lasts_performInside (steps : List Step) (session : Session) (machine : Machine) :
    Lasts session machine (eventsInside steps session machine)
      (performInside steps session machine).2.2.1
      (performInside steps session machine).2.2.2 := by
  cases steps with
  | nil =>
      simp only [performInside, eventsInside]
      exact .opened
  | cons step rest =>
      have hstep := lasts_perform step session machine
      simp only [performInside, eventsInside]
      cases (perform step session machine).1.commandFault? with
      | some fault => simpa using hstep
      | none => exact hstep.append (lasts_performInside rest _ _)

end

/-- Performing steps is a course of the session. -/
theorem lasts_performAll (steps : List Step) (session : Session) (machine : Machine) :
    Lasts session machine (eventsAll steps session machine)
      (performAll steps session machine).2.1 (performAll steps session machine).2.2 := by
  induction steps generalizing session machine with
  | nil => exact .opened
  | cons step rest ih =>
      simp only [performAll, eventsAll]
      exact (lasts_perform step session machine).append (ih _ _)

end Session

end PromptHarness
