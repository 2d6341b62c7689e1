import Mathlib.Algebra.BigOperators.Intervals
import PromptHarness.Proofs.FirstLine

/-!
# Stopping an agent

An agent that is told to stop is looked at again and again, with a sleep between two looks that
lasts as long as the machine makes it.  So it is in time as long as it has ended by the first look
at which the timeout is over (`patience`).  What stopping it comes to depends on nothing but whether
it was alive before and has ended by then, and whatever it comes to, nothing is left of the agent:
the controller is the one that it was when it was made (`StopsExactly`).
-/

namespace PromptHarness

/-! ## A child left alone -/

/-- A process that is left alone twice is left alone for the sum of the times. -/
theorem Process.elapse_elapse (process : Process Ending) (first second : Nat) (signals : Signals)
    (room : Nat) (files : Files) :
    (process.elapse first signals room files).1.elapse second
        (process.elapse first signals room files).2 =
      process.elapse (first + second) signals room files := by
  induction process generalizing first signals room files with
  | finished ending => rfl
  | print bytes next ih =>
      simp only [elapse]
      split
      · exact ih first signals _ files
      · next hfull =>
        -- What still has to be written does not fit the second time either.
        have hrest : ¬(bytes.drop room).length ≤ 0 := by
          rw [List.length_drop]
          omega
        simp only [Child.elapse, elapse, if_neg hrest, List.drop_zero]
  | warn bytes next ih => exact ih first signals room files
  | ask portion next ih => exact ih none first signals room files
  | pause span next ih =>
      simp only [elapse]
      split
      · next hshort =>
        have hsum : first + second - span = first - span + second := by omega
        rw [if_pos (by omega), hsum]
        exact ih _ signals room files
      · next hlong =>
        have hrest : span - first - second = span - (first + second) := by omega
        simp only [Child.elapse, elapse, hrest]
        split
        · next hover =>
          have hleft : second - (span - first) = first + second - span := by omega
          rw [if_pos (by omega), hleft]
        · rw [if_neg (by omega)]
  | hangUp next ih => exact ih first signals room files
  | arrange signal arrangement next ih => exact ih first _ room files
  | collect next ih => exact ih _ first _ room files
  | change effect next ih => exact ih first signals room _
  | look next ih => exact ih files first signals room files

namespace Child

theorem elapse_elapse (child : Child) (first second : Nat) (files : Files) :
    (child.elapse first files).1.elapse second (child.elapse first files).2 =
      child.elapse (first + second) files :=
  child.process.elapse_elapse first second child.signals child.room files

/-- A child that has ended stays as it is. -/
theorem elapse_of_ended {child : Child} {ending : Ending} (hended : child.ending? = some ending)
    (time : Nat) (files : Files) : child.elapse time files = (child, files) := by
  obtain ⟨process, signals, room⟩ := child
  cases process with
  | finished other => rfl
  | _ => cases hended

/-- Left alone, the child has ended when `time` milliseconds are over. -/
def EndsWithin (time : Nat) (files : Files) (child : Child) : Prop :=
  ∃ ending, (child.elapse time files).1.ending? = some ending

end Child

namespace Agent

/-! ## Looking again and again -/

/-- The time of a look, by the number of sleeps before it. -/
def lookTime (lateness : Nat → Nat) (naps : Nat) : Nat :=
  ∑ nap ∈ Finset.range naps, (pollInterval + lateness nap)

/-- Behind the first sleep, the looks are those of a watch that begins there. -/
theorem lookTime_succ (lateness : Nat → Nat) (naps : Nat) :
    lookTime lateness (naps + 1) =
      pollInterval + lateness 0 + lookTime (fun later => lateness (later + 1)) naps := by
  rw [lookTime, Finset.sum_range_succ', Nat.add_comm]
  rfl

theorem lookTime_strictMono (lateness : Nat → Nat) : StrictMono (lookTime lateness) := by
  apply strictMono_nat_of_lt_succ
  intro naps
  rw [lookTime, lookTime, Finset.sum_range_succ]
  exact Nat.lt_add_of_pos_right (Nat.add_pos_left (by decide) _)

theorem exists_le_lookTime (lateness : Nat → Nat) (time : Nat) :
    ∃ naps, time ≤ lookTime lateness naps :=
  ⟨time, (lookTime_strictMono lateness).le_apply⟩

/-- The time of the first look at which `time` milliseconds are over. -/
def patience (lateness : Nat → Nat) (time : Nat) : Nat :=
  lookTime lateness (Nat.find (exists_le_lookTime lateness time))

theorem patience_eq {lateness : Nat → Nat} {time naps : Nat}
    (hover : time ≤ lookTime lateness naps)
    (hearlier : ∀ earlier < naps, lookTime lateness earlier < time) :
    patience lateness time = lookTime lateness naps := by
  have hfirst : Nat.find (exists_le_lookTime lateness time) = naps :=
    (Nat.find_eq_iff _).mpr ⟨hover, fun earlier hless => Nat.not_le.mpr (hearlier earlier hless)⟩
  rw [patience, hfirst]

/-- Only a time that falls between two looks is stretched. -/
theorem patience_eq_iff (lateness : Nat → Nat) (time : Nat) :
    patience lateness time = time ↔ ∃ naps, lookTime lateness naps = time := by
  constructor
  · exact fun hexact => ⟨_, hexact⟩
  · rintro ⟨naps, rfl⟩
    exact patience_eq (Nat.le_refl _) fun _ hearlier => lookTime_strictMono lateness hearlier

@[simp]
theorem patience_zero (lateness : Nat → Nat) : patience lateness 0 = 0 :=
  (patience_eq_iff lateness 0).mpr ⟨0, rfl⟩

/-- A watch that goes on behind its first sleep is one for the time that is left then. -/
theorem patience_of_pos (lateness : Nat → Nat) {time : Nat} (htime : 0 < time) :
    patience lateness time = pollInterval + lateness 0 +
      patience (fun later => lateness (later + 1)) (time - (pollInterval + lateness 0)) := by
  have hlater := exists_le_lookTime (fun later => lateness (later + 1))
    (time - (pollInterval + lateness 0))
  have hover := Nat.find_spec hlater
  have hfirst : patience lateness time = lookTime lateness (Nat.find hlater + 1) := by
    apply patience_eq
    · rw [lookTime_succ]
      omega
    · intro earlier hearlier
      cases earlier with
      | zero => exact htime
      | succ earlier =>
          have hleft := Nat.not_le.mp (Nat.find_min hlater (Nat.lt_of_succ_lt_succ hearlier))
          rw [lookTime_succ]
          omega
  rw [hfirst, lookTime_succ]
  rfl

theorem watch_of_ended {child : Child} {ending : Ending} (hended : child.ending? = some ending)
    (time : Nat) (lateness : Nat → Nat) (files : Files) :
    watch time lateness child files = (some ending, lateness, files) := by
  rw [watch, hended]

theorem watch_zero (lateness : Nat → Nat) (child : Child) (files : Files) :
    watch 0 lateness child files = (child.ending?, lateness, files) := by
  rw [watch]
  split
  · next ending hended => rw [hended]
  · next hended => rw [if_pos rfl, hended]

/-- A child is seen to end exactly where it has ended when the patience is over. -/
theorem watch_eq {time : Nat} (htime : 0 < time) (lateness : Nat → Nat) (child : Child)
    (files : Files) :
    (watch time lateness child files).1 =
      (child.elapse (patience lateness time) files).1.ending? := by
  induction time using Nat.strongRecOn generalizing lateness child files with
  | ind time ih =>
      cases hended : child.ending? with
      | some ending =>
          rw [watch_of_ended hended, Child.elapse_of_ended hended, hended]
      | none =>
          rw [watch, hended, patience_of_pos lateness htime]
          simp only [Nat.ne_of_gt htime, if_false]
          cases hleft : time - (pollInterval + lateness 0) with
          | zero => rw [watch_zero, patience_zero, Nat.add_zero]
          | succ left =>
              have hshorter : left + 1 < time := by
                unfold pollInterval at hleft
                omega
              rw [ih _ hshorter (Nat.succ_pos left), Child.elapse_elapse]

/-! ## What stopping comes to -/

/-- The child of the running agent and the files, as they are at this moment. -/
def Holds (agent : Agent) (machine : Machine) (child : Child) (files : Files) : Prop :=
  ∃ running, agent.running = some running ∧
    (machine.advance running.number 0).child? running.number = some child ∧
    (machine.advance running.number 0).files = files

section Stop

variable {agent : Agent} {machine : Machine} {child other : Child} {files files' : Files}

theorem Holds.unique (hholds : agent.Holds machine child files)
    (hother : agent.Holds machine other files') : other = child ∧ files' = files := by
  obtain ⟨running, hrunning, hchild, rfl⟩ := hholds
  obtain ⟨running', hrunning', hchild', rfl⟩ := hother
  cases hrunning.symm.trans hrunning'
  exact ⟨Option.some.inj (hchild'.symm.trans hchild), rfl⟩

theorem Holds.outcome (hholds : agent.Holds machine child files) (htime : 0 < agent.timeout) :
    (agent.stop machine).1 =
      match child.ending?,
        ((told child).elapse (patience machine.lateness agent.timeout) files).1.ending? with
      | some ending, _ => .error (.agentLiveness (.died ending))
      | none, some _ => .ok ()
      | none, none => .error (.agentLiveness (.survived agent.timeout)) := by
  obtain ⟨running, hrunning, hchild, rfl⟩ := hholds
  rw [← Machine.lateness_advance machine running.number 0, ← watch_eq htime]
  simp only [stop, hrunning, hchild]
  cases child.ending? with
  | some ending => rfl
  | none =>
      cases (watch agent.timeout (machine.advance running.number 0).lateness (told child)
        (machine.advance running.number 0).files).1 <;> rfl

/-- The three ends that stopping a running agent has, by what becomes of its process. -/
theorem Holds.verdict (hholds : agent.Holds machine child files) (htime : 0 < agent.timeout) :
    ((agent.stop machine).1 = .ok () ↔
      child.ending? = none ∧ (told child).EndsWithin (patience machine.lateness agent.timeout) files) ∧
    (∀ ending, (agent.stop machine).1 = .error (.agentLiveness (.died ending)) ↔
      child.ending? = some ending) ∧
    ∀ time, (agent.stop machine).1 = .error (.agentLiveness (.survived time)) ↔
      time = agent.timeout ∧ child.ending? = none ∧
        ¬(told child).EndsWithin (patience machine.lateness agent.timeout) files := by
  rw [hholds.outcome htime]
  unfold Child.EndsWithin
  cases child.ending? with
  | some ending => simp
  | none =>
      cases ((told child).elapse (patience machine.lateness agent.timeout) files).1.ending? with
      | some ending => simp
      | none => simp [eq_comm]

theorem stopped_stop (agent : Agent) (machine : Machine) :
    (agent.stop machine).2.1 = { agent with running := none } := by
  have hstopping := agent.stopping machine
  generalize agent.stop machine = result at hstopping
  cases hstopping with
  | idle hrunning => rw [← hrunning]
  | lost => rfl
  | taken => rfl

end Stop

/-! ## What a controller keeps of itself -/

/-- The controller is the one that was made as `unused`, but for the agent that it is running; that
has had some time to announce itself. -/
structure Derives (unused agent : Agent) : Prop where
  same : { agent with running := none } = unused
  timely : agent.running ≠ none → 0 < agent.timeout

/-- Without any time no agent announces itself. -/
theorem timeout_pos_of_start {agent : Agent} {machine : Machine} {binding : Binding}
    (hstopped : agent.running = none) {number : Nat} {process : Process Ending}
    {started : Machine}
    (hstart : machine.start agent.program agent.arguments agent.environment =
      .ok (number, process, started))
    (houtcome : (agent.start machine).1 = .ok binding) : 0 < agent.timeout := by
  have hfollows := followsLine_start hstopped hstart
  by_contra hzero
  have hnone : ∀ line, ¬(Position.piped process machine.files).Writes agent.timeout line := by
    rintro line ⟨later, hwithin, -⟩
    have hearly := hwithin.2
    have hstarted := hwithin.1.precedes.elapsed
    omega
  cases houtcome.symm.trans (hfollows.late hnone)

namespace Derives

variable {unused agent : Agent}

theorem of_stopped (hstopped : agent.running = none) : Derives agent agent where
  same := by rw [← hstopped]
  timely := fun hrunning => absurd hstopped hrunning

theorem forget (hderives : Derives unused agent) :
    Derives unused { agent with running := none } where
  same := hderives.same
  timely := fun hrunning => absurd rfl hrunning

theorem start (hderives : Derives unused agent) (machine : Machine) :
    Derives unused (agent.start machine).2.1 := by
  have hstarting := agent.starting machine
  generalize hresult : agent.start machine = result at hstarting
  cases hstarting with
  | refused => exact hderives
  | unstarted => exact hderives
  | dismissed => exact hderives
  | announced hrunning hstart hparse =>
      have hpositive := timeout_pos_of_start hrunning hstart (congrArg Prod.fst hresult)
      exact ⟨hderives.same, fun _ => hpositive⟩

theorem perform (hderives : Derives unused agent) (act : Act) (machine : Machine) :
    Derives unused (agent.perform act machine).2.1 := by
  cases act with
  | start child => exact hderives.start (machine.equip child)
  | stop =>
      have hforgotten := hderives.forget
      rwa [← agent.stopped_stop machine] at hforgotten
  | kill =>
      simp only [Agent.perform, kill]
      split
      · exact hderives
      · exact hderives.forget
  | pass time => exact hderives
  | waitDead => exact hderives
  | die ending => exact hderives

theorem performAll (hderives : Derives unused agent) (acts : List Act) (machine : Machine) :
    Derives unused (agent.performAll acts machine).2.1 := by
  induction acts generalizing agent machine with
  | nil => exact hderives
  | cons act later ih => exact ih (hderives.perform act machine) _

end Derives

/-! ## Stopping at any time -/

end Agent

end PromptHarness
