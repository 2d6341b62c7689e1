import PromptHarness.Actor
import PromptHarness.Proofs.Paths
import PromptHarness.Proofs.Processes

/-!
# What a session leaves behind

Closing a session kills its agent and removes its home, so no process is left of it.  But the home
is removed only once: what a command or an agent puts there after the session has been torn down
stays there for good.  So the home is gone in the end exactly where nothing has made it again
(`LeavesNothing`).
-/

namespace PromptHarness

namespace Home

/-- The path is an absolute one, and not that of all files. -/
structure IsRoot (root : String) : Prop where
  absolute : Path.isAbsolute root = true
  below : Files.empty.placeOf root ≠ []

theorem IsRoot.placeOf_ne_nil {root : String} (hroot : IsRoot root) (files : Files) :
    files.placeOf root ≠ [] := by
  rw [Files.placeOf_of_isAbsolute hroot.absolute files Files.empty]
  exact hroot.below

section Teardown

variable {home : Home}

theorem files_teardown_of_torn (htorn : home.tornDown = true) (files : Files) :
    (home.teardown files).2.2 = files := by
  simp only [teardown, htorn, if_true]

/-- Where there is a home or none, all of it is removed. -/
theorem teardown_of_stat (hstanding : home.tornDown = false) {files : Files}
    (hstat : files.stat home.root = .ok .directory ∨ files.stat home.root = .error .missing) :
    home.teardown files =
      (.ok (), { home with tornDown := true }, files.remove (files.placeOf home.root)) := by
  rcases hstat with hthere | hmissing
  · simp only [teardown, hstanding, hthere, Bool.false_eq_true, if_false]
  · simp only [teardown, hstanding, hmissing, Bool.false_eq_true, if_false]

/-- Nothing is left of a home where there is one or none, whatever is in it. -/
theorem isGone_teardown (hroot : IsRoot home.root) (hstanding : home.tornDown = false)
    {files : Files}
    (hstat : files.stat home.root = .ok .directory ∨ files.stat home.root = .error .missing) :
    (home.teardown files).2.2.IsGone home.root := by
  rw [teardown_of_stat hstanding hstat]
  exact files.isGone_remove (hroot.placeOf_ne_nil files)

/-- Nothing but the home is taken away. -/
theorem find?_teardown {files : Files} {place : Place}
    (houtside : ¬files.placeOf home.root <+: place) :
    (home.teardown files).2.2.find? place = files.find? place := by
  unfold teardown
  split
  · rfl
  · dsimp only
    split
    · exact files.find?_remove_of_not_prefix houtside
    · exact files.find?_remove_of_not_prefix houtside
    · rfl
    · rfl

theorem isDirectory_teardown (hroot : IsRoot home.root) (hstanding : home.tornDown = false)
    (files : Files) : (home.teardown files).2.2.isDirectory home.root = false := by
  by_cases hstat : files.stat home.root = .ok .directory ∨ files.stat home.root = .error .missing
  · exact (isGone_teardown hroot hstanding hstat).isDirectory
  · -- What is not a directory stays, and is none afterwards either.
    have hkept : (home.teardown files).2.2 = files := by
      simp only [teardown, hstanding, Bool.false_eq_true, if_false]
      split
      · next hthere => exact absurd (.inl hthere) hstat
      · next hmissing => exact absurd (.inr hmissing) hstat
      · rfl
      · rfl
    rw [hkept]
    unfold Files.isDirectory
    split
    · next hthere => exact absurd (.inl hthere) hstat
    · rfl

end Teardown

end Home

namespace Session

/-! ## After a session has been torn down -/

/-- By this event no file comes to be, unless an agent is running. -/
def Event.isQuiet : Event → Bool
  | ran _ => false
  | agent (.started _) => false
  | _ => true

/-- Once the session is torn down, no command is run any more and no agent started. -/
def Settled (events : List Event) : Prop :=
  ∀ before after, events = before ++ .toreDown :: after → ∀ event ∈ after, event.isQuiet = true

theorem Settled.of_concat {events : List Event} {event : Event}
    (hsettled : Settled (events ++ [event])) : Settled events := by
  intro before after hevents other hother
  refine hsettled before (after ++ [event]) ?_ other (List.mem_append_left [event] hother)
  rw [hevents, List.append_assoc, List.cons_append]

theorem Settled.isQuiet {events : List Event} {event : Event}
    (hsettled : Settled (events ++ [event])) (htorn : .toreDown ∈ events) :
    event.isQuiet = true := by
  obtain ⟨before, after, rfl⟩ := List.append_of_mem htorn
  exact hsettled before (after ++ [event]) (by simp) event (by simp)

section Course

variable {root : String} {session later : Session} {machine laterMachine : Machine}
  {event : Event} {events : List Event}

theorem Happens.tornDown (hhappens : Happens session machine event later laterMachine) :
    later.home.tornDown = true ↔ session.home.tornDown = true ∨ event = .toreDown := by
  cases hhappens with
  | ran => simp [run]
  | selected => simp [Home.selectEditor]
  | acted => simp
  | toreDown =>
      have hhome : (session.teardown machine).2.1.home = { session.home with tornDown := true } :=
        Home.home_teardown session.home _
      simp [hhome]

theorem Lasts.tornDown (hlasts : Lasts session machine events later laterMachine)
    (hstanding : session.home.tornDown = false) :
    later.home.tornDown = true ↔ .toreDown ∈ events := by
  induction hlasts with
  | opened => simp [hstanding]
  | later _ hhappens ih =>
      rw [hhappens.tornDown, ih, List.mem_append, List.mem_singleton]
      exact or_congr_right eq_comm

theorem files_teardown (session : Session) (machine : Machine) :
    (session.teardown machine).2.2.files = (session.home.teardown machine.files).2.2 := by
  simp only [teardown, Agent.kill]
  cases session.agent.running with
  | none => rfl
  | some running => rfl

/-- A quiet event leaves the files alone where the home is torn down and no process is there. -/
theorem Happens.files_of_quiet (hhappens : Happens session machine event later laterMachine)
    (hquiet : event.isQuiet = true) (htorn : session.home.tornDown = true)
    (hstopped : session.agent.running = none) (hempty : machine.children = []) :
    later.agent.running = none ∧ laterMachine.files = machine.files := by
  cases hhappens with
  | ran => cases hquiet
  | selected => exact ⟨hstopped, rfl⟩
  | acted act =>
      cases act with
      | start child => cases hquiet
      | stop => simp [Agent.perform, Agent.stop, hstopped]
      | kill => simp [Agent.perform, Agent.kill, hstopped]
      | pass time => simp [Agent.perform, Machine.pass, hstopped, hempty]
      | waitDead => simp [Agent.perform, Agent.waitDead, hstopped]
      | die ending => simp [Agent.perform, hstopped]
  | toreDown =>
      refine ⟨Agent.running_kill session.agent machine, ?_⟩
      rw [files_teardown]
      exact Home.files_teardown_of_torn htorn machine.files

theorem children_eq_nil {first : Nat} {agent : Agent}
    (htended : Agent.Tended first [] agent machine) (hstopped : agent.running = none) :
    machine.children = [] := by
  have hnumbers := htended.numbers
  rw [Agent.number?, hstopped] at hnumbers
  exact List.map_eq_nil_iff.mp hnumbers

/-- Where nothing else is there that could make it again, a home that was torn down stays away. -/
theorem Lasts.absent_of_settled (hopened : Opened root session machine)
    (hroot : Home.IsRoot root) (hlasts : Lasts session machine events later laterMachine)
    (hempty : machine.numbers = []) (hsettled : Settled events) (htorn : .toreDown ∈ events) :
    later.agent.running = none ∧ laterMachine.files.isDirectory root = false := by
  have hnumbered : machine.IsNumbered := by
    intro number hnumber
    rw [hempty] at hnumber
    cases hnumber
  induction hlasts with
  | opened => cases htorn
  | @later events event middle later middleMachine laterMachine hmiddle hhappens ih =>
      have htended := hmiddle.tended (hopened.tended hnumbered)
      rw [hempty] at htended
      by_cases hbefore : .toreDown ∈ events
      · obtain ⟨hstopped, habsent⟩ := ih hsettled.of_concat hbefore
        obtain ⟨hstopped', hfiles⟩ := hhappens.files_of_quiet (hsettled.isQuiet hbefore)
          ((hmiddle.tornDown hopened.fresh.standing).mpr hbefore) hstopped
          (children_eq_nil htended hstopped)
        rw [hfiles]
        exact ⟨hstopped', habsent⟩
      · -- This is the first time that the session is torn down.
        obtain rfl : event = .toreDown := by
          rcases List.mem_append.mp htorn with hearlier | hlast
          · exact absurd hearlier hbefore
          · exact (List.mem_singleton.mp hlast).symm
        have hstanding : middle.home.tornDown = false := by
          rw [← Bool.not_eq_true, hmiddle.tornDown hopened.fresh.standing]
          exact hbefore
        have hmiddleRoot : middle.home.root = root :=
          (hmiddle.told hopened).root.trans hopened.fresh.root
        cases hhappens with
        | toreDown =>
            refine ⟨Agent.running_kill middle.agent middleMachine, ?_⟩
            rw [files_teardown, ← hmiddleRoot]
            exact Home.isDirectory_teardown (hmiddleRoot ▸ hroot) hstanding _

/-! ## Closing a session -/

/-- What is left on the machine of a session with its home at `root` that is closed behind some
events.  `others` are the processes that were there when it was opened. -/
structure LeavesNothing (root : String) (others : List Nat) (events : List Event)
    (before after : Machine) : Prop where
  /-- No process is left that the session has started. -/
  processes : after.numbers = others
  /-- The home goes with the session if that has not been torn down before. -/
  removed : .toreDown ∉ events → after.files.isDirectory root = false
  /-- With it goes all that is in it, unless something else has taken its place. -/
  emptied : .toreDown ∉ events →
    before.files.stat root = .ok .directory ∨ before.files.stat root = .error .missing →
    after.files.IsGone root
  /-- If the session has been torn down before, all files stay as they are. -/
  kept : .toreDown ∈ events → after.files = before.files
  exactly : after.files.isDirectory root = false ↔
    (.toreDown ∈ events → before.files.isDirectory root = false)
  /-- Only a command or an agent can make the home again. -/
  settled : others = [] → Settled events → after.files.isDirectory root = false

/-- Of a session that is closed no process is left, and no home either, unless something has made it
again since the session was torn down. -/
theorem lasts_leavesNothing (hroot : Home.IsRoot root) (hopened : Opened root session machine)
    (hnumbered : machine.IsNumbered) (hlasts : Lasts session machine events later laterMachine) :
    LeavesNothing root machine.numbers events laterMachine
      (later.teardown laterMachine).2.2 := by
  have htorn := hlasts.tornDown hopened.fresh.standing
  have hlaterRoot : later.home.root = root :=
    (hlasts.told hopened).root.trans hopened.fresh.root
  have hstanding : .toreDown ∉ events → later.home.tornDown = false := by
    intro hnever
    rw [← Bool.not_eq_true, htorn]
    exact hnever
  have hremoved : .toreDown ∉ events →
      (later.teardown laterMachine).2.2.files.isDirectory root = false := by
    intro hnever
    rw [files_teardown, ← hlaterRoot]
    exact Home.isDirectory_teardown (hlaterRoot ▸ hroot) (hstanding hnever) _
  have hkept : .toreDown ∈ events →
      (later.teardown laterMachine).2.2.files = laterMachine.files := by
    intro hbefore
    rw [files_teardown]
    exact Home.files_teardown_of_torn (htorn.mpr hbefore) _
  constructor
  case processes =>
    have hclosed := tended_teardown (hlasts.tended (hopened.tended hnumbered))
    have hstopped : (later.teardown laterMachine).2.1.agent.running = none :=
      Agent.running_kill later.agent laterMachine
    rw [hclosed.numbers, Agent.number?, hstopped]
    rfl
  case removed => exact hremoved
  case emptied =>
    intro hnever hstat
    rw [files_teardown, ← hlaterRoot]
    exact Home.isGone_teardown (hlaterRoot ▸ hroot) (hstanding hnever) (hlaterRoot ▸ hstat)
  case kept => exact hkept
  case exactly =>
    by_cases hbefore : .toreDown ∈ events
    · rw [hkept hbefore]
      simp [hbefore]
    · simp [hremoved hbefore, hbefore]
  case settled =>
    intro hothers hsettled
    by_cases hbefore : .toreDown ∈ events
    · rw [hkept hbefore]
      exact (hlasts.absent_of_settled hopened hroot hothers hsettled hbefore).2
    · exact hremoved hbefore

end Course

def noting : Step :=
  .command (Action.program [.write "note" (Text.encode "x")]) (.list []) [] .default

theorem lasts_leavesNothing_caller :
    let session := ofProgram "/run" "/home"
    let machine := housing "/home" (Machine.lone (.finished (.exited 0)))
    let steps := [.startAgent Agent.caller, noting]
    let later := (performAll steps session machine).2
    Home.IsRoot "/home" ∧ Opened "/home" session machine ∧ machine.IsNumbered ∧
      later.2.files.isFile "/home/note" = true ∧ later.2.numbers = [1] ∧
      LeavesNothing "/home" [] (eventsAll steps session machine) later.2
        (later.1.teardown later.2).2.2 := by
  intro session machine steps later
  have hroot : Home.IsRoot "/home" := ⟨by decide +kernel, by decide +kernel⟩
  have hopened : Opened "/home" session machine := opened_ofProgram _ _ _
  have hnumbered : machine.IsNumbered := isNumbered_housing _ _
  have hleft : later.2.files.isFile "/home/note" = true ∧ later.2.numbers = [1] := by
    simp only [later, steps, session, machine]
    decide +kernel
  exact ⟨hroot, hopened, hnumbered, hleft.1, hleft.2,
    lasts_leavesNothing hroot hopened hnumbered (lasts_performAll steps session machine)⟩

/-- A command that writes below its home once more makes it anew, and then the home stays. -/
theorem home_outlives_of_relapse :
    let session := ofProgram "/run" "/home"
    let machine := housing "/home" (Machine.lone (.finished (.exited 0)))
    let steps := [.teardown, noting]
    let later := (performAll steps session machine).2
    Opened "/home" session machine ∧
      Lasts session machine (eventsAll steps session machine) later.1 later.2 ∧
      (session.teardown machine).2.2.files.isDirectory "/home" = false ∧
      (later.1.teardown later.2).2.2.files.isDirectory "/home" = true ∧
      (later.1.teardown later.2).2.2.files.isFile "/home/note" = true := by
  intro session machine steps later
  have hleft : (session.teardown machine).2.2.files.isDirectory "/home" = false ∧
      (later.1.teardown later.2).2.2.files.isDirectory "/home" = true ∧
      (later.1.teardown later.2).2.2.files.isFile "/home/note" = true := by
    simp only [later, steps, session, machine]
    decide +kernel
  exact ⟨opened_ofProgram _ _ _, lasts_performAll steps session machine, hleft⟩

end Session

end PromptHarness
