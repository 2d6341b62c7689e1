import PromptHarness.Proofs.Surroundings

/-!
# The processes of a session

The process of a command is gone when its run is over, so of all the processes that a session starts
only that of the agent which is said to be running is ever kept.
-/

namespace PromptHarness

theorem Machine.nextNumber_pass (machine : Machine) (time : Nat) :
    (machine.pass time).nextNumber = machine.nextNumber := by
  obtain ⟨children, files, hpass, -⟩ := machine.exists_pass_eq time
  rw [hpass]

/-- Running a command uses up a number at most. -/
theorem Runner.numbers_run {machine : Machine} (hnumbered : machine.IsNumbered) (runner : Runner)
    (test : String) (invocation : Invocation) :
    (runner.run test invocation machine).2.numbers = machine.numbers ∧
      machine.nextNumber ≤ (runner.run test invocation machine).2.nextNumber := by
  simp only [run]
  split
  · exact ⟨rfl, Nat.le_refl _⟩
  · next number process started hstart =>
    obtain ⟨rfl, rfl⟩ := Machine.eq_of_start hstart
    constructor
    · rw [Machine.numbers_pass, Machine.numbers_reap]
      change (machine.nextNumber :: machine.numbers).filter (· != machine.nextNumber) = _
      have hothers : machine.numbers.filter (· != machine.nextNumber) = machine.numbers := by
        rw [List.filter_eq_self]
        intro number hnumber
        simpa using Nat.ne_of_lt (hnumbered number hnumber)
      rw [List.filter_cons_of_neg (by simp), hothers]
    · rw [Machine.nextNumber_pass]
      exact Nat.le_succ _

namespace Agent.Tended

variable {first : Nat} {others : List Nat} {agent : Agent} {machine : Machine}

theorem isNumbered (htended : Tended first others agent machine) : machine.IsNumbered := by
  intro number hnumber
  rw [htended.numbers] at hnumber
  rcases List.mem_append.mp hnumber with hown | hother
  · exact (htended.own number (Option.mem_toList.mp hown)).2
  · exact Nat.lt_of_lt_of_le (htended.others number hother) htended.later

theorem run (htended : Tended first others agent machine) (runner : Runner) (test : String)
    (invocation : Invocation) :
    Tended first others agent (runner.run test invocation machine).2 := by
  obtain ⟨hnumbers, hnext⟩ := Runner.numbers_run htended.isNumbered runner test invocation
  constructor
  case numbers => exact hnumbers.trans htended.numbers
  case own =>
    intro number hnumber
    obtain ⟨hfirst, hlast⟩ := htended.own number hnumber
    exact ⟨hfirst, Nat.lt_of_lt_of_le hlast hnext⟩
  case others => exact htended.others
  case later => exact Nat.le_trans htended.later hnext

end Agent.Tended

namespace Session

variable {first : Nat} {others : List Nat} {session later : Session}
  {machine laterMachine : Machine} {event : Event} {events : List Event}

theorem tended_teardown (htended : Agent.Tended first others session.agent machine) :
    Agent.Tended first others (session.teardown machine).2.1.agent (session.teardown machine).2.2 :=
  htended.kill.congr _ rfl rfl

theorem Happens.tended (hhappens : Happens session machine event later laterMachine)
    (htended : Agent.Tended first others session.agent machine) :
    Agent.Tended first others later.agent laterMachine := by
  cases hhappens with
  | ran child command options prompts =>
      exact (htended.congr (machine.equip child) rfl rfl).run session.runner session.test _
  | selected editor payload => exact htended
  | acted act => exact htended.perform act
  | toreDown => exact tended_teardown htended

theorem Lasts.tended (hlasts : Lasts session machine events later laterMachine)
    (htended : Agent.Tended first others session.agent machine) :
    Agent.Tended first others later.agent laterMachine := by
  induction hlasts with
  | opened => exact htended
  | later _ hhappens ih => exact hhappens.tended ih

theorem Opened.tended {root : String} (hopened : Opened root session machine)
    (hnumbered : machine.IsNumbered) :
    Agent.Tended machine.nextNumber machine.numbers session.agent machine :=
  .of_stopped hopened.fresh.running hnumbered

theorem isNumbered_housing (root : String) (process : Process Ending) :
    (housing root (.lone process)).IsNumbered := by
  simp [Machine.IsNumbered, Machine.numbers, housing, Machine.lone]

end Session

end PromptHarness
