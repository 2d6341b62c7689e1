import PromptHarness.Proofs.Processes

/-!
# Other numbers for the same processes

A machine gives its processes numbers in the order in which they are started.  Nothing that is done
with an agent depends on the numbers themselves: where all processes from some number on have
numbers greater by a gap, every act has the same answer and leaves the same behind, with numbers
greater by that gap.  So a number that has been used up for nothing makes no difference but to the
numbers.
-/

namespace PromptHarness

/-- The number of a process once those from `first` on have been moved up by `gap`. -/
def shifted (first gap number : Nat) : Nat := if number < first then number else number + gap

theorem shifted_inj {first gap left right : Nat} :
    shifted first gap left = shifted first gap right ↔ left = right := by
  unfold shifted
  split <;> split <;> omega

theorem shifted_of_le {first gap number : Nat} (hnumber : first ≤ number) :
    shifted first gap number = number + gap := if_neg (Nat.not_lt.mpr hnumber)

theorem shifted_of_lt {first gap number : Nat} (hnumber : number < first) :
    shifted first gap number = number := if_pos hnumber

namespace Machine

variable {machine : Machine} {first gap : Nat}

def moved (first gap : Nat) (entry : Nat × Child) : Nat × Child :=
  (shifted first gap entry.1, entry.2)

/-- The same machine, with numbers greater by `gap` from `first` on. -/
def shift (machine : Machine) (first gap : Nat) : Machine :=
  { machine with
    children := machine.children.map (moved first gap)
    nextNumber := machine.nextNumber + gap }

/-- Where all children have lower numbers, only the next one is moved up. -/
theorem shift_of_isNumbered (hnumbered : machine.IsNumbered) (gap : Nat) :
    machine.shift machine.nextNumber gap =
      { machine with nextNumber := machine.nextNumber + gap } := by
  have hchild : ∀ entry ∈ machine.children, moved machine.nextNumber gap entry = id entry := by
    intro entry hentry
    rw [moved, shifted_of_lt (hnumbered entry.1 (List.mem_map_of_mem hentry))]
    rfl
  rw [shift, List.map_congr_left hchild, List.map_id]

@[simp]
theorem files_shift : (machine.shift first gap).files = machine.files := rfl

@[simp]
theorem lateness_shift : (machine.shift first gap).lateness = machine.lateness := rfl

theorem child?_shift (machine : Machine) (first gap number : Nat) :
    (machine.shift first gap).child? (shifted first gap number) = machine.child? number := by
  unfold child? shift
  dsimp only
  induction machine.children with
  | nil => rfl
  | cons entry rest ih =>
      rw [List.map_cons, List.lookup_cons, List.lookup_cons, ih]
      have hsame : (shifted first gap number == (moved first gap entry).1) =
          (number == entry.1) := by
        rw [Bool.eq_iff_iff, beq_iff_eq, beq_iff_eq, moved, shifted_inj]
      rw [hsame]
      rfl

theorem reap_shift (machine : Machine) (first gap number : Nat) :
    (machine.shift first gap).reap (shifted first gap number) =
      (machine.reap number).shift first gap := by
  have hkept : (fun entry : Nat × Child => entry.1 != shifted first gap number) ∘
      moved first gap = fun entry => entry.1 != number := by
    funext entry
    rw [Bool.eq_iff_iff]
    simp [moved, shifted_inj]
  simp only [shift, reap, List.filter_map, hkept]

theorem update_shift (machine : Machine) (first gap number : Nat) (child : Child) :
    (machine.shift first gap).update (shifted first gap number) child =
      (machine.update number child).shift first gap := by
  simp only [shift, update, List.map_map, Machine.mk.injEq, true_and, and_true]
  apply List.map_congr_left
  intro entry hentry
  simp only [Function.comp_apply, moved, shifted_inj]
  split <;> rfl

theorem advance_shift (machine : Machine) (first gap number time : Nat) :
    (machine.shift first gap).advance (shifted first gap number) time =
      (machine.advance number time).shift first gap := by
  simp only [advance, child?_shift]
  split
  · next child hchild =>
    rw [update_shift]
    rfl
  · rfl

theorem pass_shift (machine : Machine) (first gap time : Nat) :
    (machine.shift first gap).pass time = (machine.pass time).shift first gap := by
  have hfold : ∀ (entries : List (Nat × Child)) (machine : Machine),
      (entries.map (moved first gap)).foldl
          (fun machine entry => machine.advance entry.1 time) (machine.shift first gap) =
        (entries.foldl (fun machine entry => machine.advance entry.1 time) machine).shift
          first gap := by
    intro entries
    induction entries with
    | nil => exact fun _ => rfl
    | cons entry rest ih =>
        intro machine
        rw [List.map_cons, List.foldl_cons, List.foldl_cons, moved, advance_shift, ih]
  exact hfold machine.children machine

theorem nextNumber_advance (machine : Machine) (number time : Nat) :
    (machine.advance number time).nextNumber = machine.nextNumber := by
  obtain ⟨children, files, hadvance, -⟩ := machine.exists_advance_eq number time
  rw [hadvance]

/-- A new process has a number from `first` on, so it is moved up like those before it. -/
theorem start_shift (hfirst : first ≤ machine.nextNumber) (program : String)
    (arguments : List String) (given : Environment) :
    (machine.shift first gap).start program arguments given =
      (machine.start program arguments given).map fun (number, process, started) =>
        (shifted first gap number, process, started.shift first gap) := by
  simp only [start, shift]
  cases Executable.launch machine.installed Executable.deepest machine.files
      ⟨program, arguments, machine.environment ++ given⟩ with
  | error error => rfl
  | ok process =>
      change Except.ok _ = Except.ok _
      have hnext : machine.nextNumber + gap + 1 = machine.nextNumber + 1 + gap :=
        Nat.add_right_comm _ _ _
      simp only [List.map_cons, moved, shifted_of_le hfirst, hnext]

end Machine

namespace Agent

variable {agent : Agent} {machine : Machine} {first : Nat}

/-- The same controller, with the number that its process has on the other machine. -/
def shift (agent : Agent) (first gap : Nat) : Agent :=
  { agent with
    running := agent.running.map fun running =>
      { running with number := shifted first gap running.number } }

theorem shift_of_stopped (hstopped : agent.running = none) (first gap : Nat) :
    agent.shift first gap = agent := by
  rw [shift, hstopped, Option.map_none, ← hstopped]

theorem start_shift (hfirst : first ≤ machine.nextNumber) (agent : Agent) (gap : Nat) :
    (agent.shift first gap).start (machine.shift first gap) =
      ((agent.start machine).1, (agent.start machine).2.1.shift first gap,
        (agent.start machine).2.2.shift first gap) := by
  cases hrunning : agent.running with
  | some running => simp only [start, shift, hrunning, Option.map_some]
  | none =>
      rw [shift_of_stopped hrunning]
      simp only [start, hrunning, Machine.start_shift hfirst]
      cases machine.start agent.program agent.arguments agent.environment with
      | error error => simp only [Except.map, shift_of_stopped hrunning]
      | ok found =>
          obtain ⟨number, process, started⟩ := found
          simp only [Except.map, Machine.files_shift]
          generalize (Link.start .pipe started.files).await (Text.holds [Terminal.newline])
            agent.timeout process = waited
          obtain ⟨halt, later, link⟩ := waited
          dsimp only
          cases announcement halt agent.timeout link.unread with
          | error fault =>
              simp only [shift_of_stopped hrunning]
              rw [← Machine.reap_shift]
              rfl
          | ok binding =>
              dsimp only
              rw [← Machine.advance_shift, ← Machine.update_shift]
              rfl

theorem stop_shift (agent : Agent) (machine : Machine) (first gap : Nat) :
    (agent.shift first gap).stop (machine.shift first gap) =
      ((agent.stop machine).1, (agent.stop machine).2.1.shift first gap,
        (agent.stop machine).2.2.shift first gap) := by
  cases hrunning : agent.running with
  | none => simp only [stop, shift, hrunning, Option.map_none]
  | some running =>
      simp only [stop, shift, hrunning, Option.map_some, Machine.advance_shift,
        Machine.child?_shift]
      cases (machine.advance running.number 0).child? running.number with
      | none => rfl
      | some child =>
          dsimp only
          cases child.ending? with
          | some ending =>
              dsimp only
              rw [← Machine.reap_shift]
              rfl
          | none =>
              simp only [Machine.files_shift, Machine.lateness_shift]
              generalize watch agent.timeout (machine.advance running.number 0).lateness
                (told child) (machine.advance running.number 0).files = ended
              obtain ⟨ending, lateness, files⟩ := ended
              cases ending with
              | some ending =>
                  dsimp only
                  rw [← Machine.reap_shift]
                  rfl
              | none =>
                  dsimp only
                  rw [← Machine.reap_shift]
                  rfl

theorem kill_shift (agent : Agent) (machine : Machine) (first gap : Nat) :
    (agent.shift first gap).kill (machine.shift first gap) =
      ((agent.kill machine).1.shift first gap, (agent.kill machine).2.shift first gap) := by
  cases hrunning : agent.running with
  | none => simp only [kill, shift, hrunning, Option.map_none]
  | some running => simp only [kill, shift, hrunning, Option.map_some, Machine.reap_shift]; rfl

theorem waitDead_shift (agent : Agent) (machine : Machine) (first gap : Nat) :
    (agent.shift first gap).waitDead (machine.shift first gap) =
      (agent.waitDead machine).shift first gap := by
  cases hrunning : agent.running with
  | none => simp only [waitDead, shift, hrunning, Option.map_none]
  | some running =>
      simp only [waitDead, shift, hrunning, Option.map_some, Machine.child?_shift]
      cases machine.child? running.number with
      | none => rfl
      | some child => exact machine.pass_shift first gap _

/-- No act depends on the numbers of the processes. -/
theorem perform_shift (hfirst : first ≤ machine.nextNumber) (agent : Agent) (act : Act)
    (gap : Nat) :
    (agent.shift first gap).perform act (machine.shift first gap) =
      ((agent.perform act machine).1, (agent.perform act machine).2.1.shift first gap,
        (agent.perform act machine).2.2.shift first gap) := by
  cases act with
  | start child =>
      have hequip : (machine.shift first gap).equip child = (machine.equip child).shift first gap :=
        rfl
      simp only [perform, hequip, @start_shift (machine.equip child) first hfirst]
  | stop => simp only [perform, stop_shift]
  | kill => simp only [perform, kill_shift]
  | pass time => simp only [perform, Machine.pass_shift]
  | waitDead => simp only [perform, waitDead_shift]
  | die ending =>
      cases hrunning : agent.running with
      | none => simp only [perform, shift, hrunning, Option.map_none]; rfl
      | some running =>
          simp only [perform, shift, hrunning, Option.map_some, Option.elim_some,
            Machine.update_shift]

/-- Numbers are used up and never given back. -/
theorem nextNumber_perform (agent : Agent) (machine : Machine) (act : Act) :
    machine.nextNumber ≤ (agent.perform act machine).2.2.nextNumber := by
  cases act with
  | start child =>
      have hstarting := agent.starting (machine.equip child)
      simp only [perform]
      generalize agent.start (machine.equip child) = result at hstarting
      cases hstarting with
      | refused => exact Nat.le_refl _
      | unstarted => exact Nat.le_refl _
      | dismissed _ hstart =>
          obtain ⟨-, rfl⟩ := Machine.eq_of_start hstart
          exact Nat.le_succ _
      | announced _ hstart =>
          obtain ⟨-, rfl⟩ := Machine.eq_of_start hstart
          rw [Machine.nextNumber_advance]
          exact Nat.le_succ _
  | stop =>
      have hstopping := agent.stopping machine
      simp only [perform]
      generalize agent.stop machine = result at hstopping
      cases hstopping with
      | idle => exact Nat.le_refl _
      | lost => exact Nat.le_refl _
      | taken => exact Nat.le_of_eq (machine.nextNumber_advance _ _).symm
  | kill =>
      simp only [perform, kill]
      split <;> exact Nat.le_refl _
  | pass time => exact Nat.le_of_eq (machine.nextNumber_pass time).symm
  | waitDead =>
      simp only [perform, waitDead]
      split
      · exact Nat.le_refl _
      · split
        · exact Nat.le_refl _
        · exact Nat.le_of_eq (machine.nextNumber_pass _).symm
  | die ending =>
      simp only [perform]
      cases agent.running <;> exact Nat.le_refl _

/-- Whatever is done with an agent, it is done in the same way with other numbers. -/
theorem performAll_shift (hfirst : first ≤ machine.nextNumber) (agent : Agent) (acts : List Act)
    (gap : Nat) :
    (agent.shift first gap).performAll acts (machine.shift first gap) =
      ((agent.performAll acts machine).1, (agent.performAll acts machine).2.1.shift first gap,
        (agent.performAll acts machine).2.2.shift first gap) := by
  induction acts generalizing agent machine with
  | nil => rfl
  | cons act later ih =>
      simp only [performAll, perform_shift hfirst]
      rw [ih (Nat.le_trans hfirst (agent.nextNumber_perform machine act))]

/-- To a controller without an agent it makes no difference that some numbers have been used up. -/
theorem performAll_of_skipped (hstopped : agent.running = none) (hnumbered : machine.IsNumbered)
    (acts : List Act) (gap : Nat) :
    agent.performAll acts { machine with nextNumber := machine.nextNumber + gap } =
      ((agent.performAll acts machine).1,
        (agent.performAll acts machine).2.1.shift machine.nextNumber gap,
        (agent.performAll acts machine).2.2.shift machine.nextNumber gap) := by
  rw [← performAll_shift (Nat.le_refl machine.nextNumber), shift_of_stopped hstopped,
    Machine.shift_of_isNumbered hnumbered]

end Agent

end PromptHarness
