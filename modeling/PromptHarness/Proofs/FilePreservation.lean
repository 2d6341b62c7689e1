import PromptHarness.Actor
import PromptHarness.Proofs.ProcessInvariants
import PromptHarness.Proofs.Runs
import PromptHarness.Proofs.Subtrees

/-!
# What a command spares

A command leaves the files as its process has left them, but for what the other processes of the
machine do in the meantime.  So where no process makes a change by which the files would cease to be
such, they are such when the command is over (`Runner.Starts.spares`).
-/

namespace PromptHarness

variable {such : Files → Prop}

namespace Process

/-- Whatever change the process comes to make, files that are such stay so. -/
def Spares (such : Files → Prop) : Process Ending → Prop
  | finished _ => True
  | print _ next | warn _ next | pause _ next | hangUp next | arrange _ _ next => next.Spares such
  | ask _ next => ∀ input, (next input).Spares such
  | collect next => ∀ signals, (next signals).Spares such
  | change effect next => (∀ files, such files → such (effect files)) ∧ next.Spares such
  | look next => ∀ files, such files → (next files).Spares such

theorem isHereditary_spares (such : Files → Prop) :
    IsHereditary fun process files => process.Spares such ∧ such files where
  print hspares := hspares
  warn hspares := hspares
  ask hspares input := ⟨hspares.1 input, hspares.2⟩
  pause hspares := hspares
  hangUp hspares := hspares
  arrange hspares := hspares
  collect hspares signals := ⟨hspares.1 signals, hspares.2⟩
  change hspares := ⟨hspares.1.2, hspares.1.1 _ hspares.2⟩
  look hspares := ⟨hspares.1 _ hspares.2, hspares.2⟩
  paused hspares _ := hspares
  printed hspares _ := hspares

end Process

/-- A program that is no editor and removes nothing. -/
def Action.isTame : Action → Bool
  | remove _ | edit => false
  | _ => true

theorem Action.spares_process {path : String} (habsolute : Path.isAbsolute path = true)
    (actions : List Action) (scene : Scene) (htame : ∀ action ∈ actions, action.isTame = true) :
    (process actions scene).Spares fun files => files.isDirectory path = true := by
  induction actions generalizing scene with
  | nil => trivial
  | cons action rest ih =>
      have hrest := fun scene => ih scene fun other hother =>
        htame other (List.mem_cons_of_mem action hother)
      have haction := htame action List.mem_cons_self
      have hprint : ∀ bytes, (scene.print bytes (process rest scene)).Spares
          fun files => files.isDirectory path = true := by
        intro bytes
        unfold Scene.print
        split
        · exact hrest scene
        · exact hrest scene
      cases action with
      | remove name => cases haction
      | edit => cases haction
      | print bytes => exact hprint bytes
      | showLine => exact hprint _
      | showArguments => exact hprint _
      | showVariable name => exact hprint _
      | write name content =>
          exact ⟨fun files hthere => (files.grows_write _ content).isDirectory habsolute hthere,
            hrest scene⟩
      | makeDirectory name =>
          exact ⟨fun files hthere => (files.grows_makeDirectory _).isDirectory habsolute hthere,
            hrest scene⟩
      | warn bytes =>
          rw [process]
          split
          · exact hrest scene
          · exact hrest scene
      | readLine =>
          rw [process]
          split
          · exact hrest _
          · exact fun input => hrest _
      | exitUnless text code =>
          rw [process]
          split
          · exact hrest scene
          · trivial
      | exitUnlessSame code =>
          rw [process]
          split
          · exact hrest scene
          · trivial
      | sleep span => exact hrest scene
      | ignore number => exact hrest _
      | close =>
          rw [process]
          split
          · exact hrest scene
          · exact hrest _
      | hang => trivial
      | signal number =>
          rw [process]
          split
          · split
            · exact hrest scene
            · trivial
          · exact hrest scene
          · trivial
      | exit code => trivial

namespace Machine

/-- The files are such, and no process that is there makes a change to that. -/
structure Spares (such : Files → Prop) (machine : Machine) : Prop where
  files : such machine.files
  children : ∀ entry ∈ machine.children, entry.2.process.Spares such

theorem Spares.advance {machine : Machine} (hspares : machine.Spares such) (number time : Nat) :
    (machine.advance number time).Spares such := by
  unfold Machine.advance
  split
  · next child hchild =>
    have hmem : (number, child) ∈ machine.children := by
      obtain ⟨front, rest, hchildren, -⟩ := List.lookup_eq_some_iff.mp hchild
      simp [hchildren]
    obtain ⟨hprocess, hfiles⟩ := (Process.isHereditary_spares such).elapse
      ⟨hspares.children _ hmem, hspares.files⟩ time child.signals child.room
    refine ⟨hfiles, ?_⟩
    intro entry hentry
    obtain ⟨other, hother, rfl⟩ := List.mem_map.mp hentry
    split
    · exact hprocess
    · exact hspares.children other hother
  · exact hspares

theorem Spares.pass {machine : Machine} (hspares : machine.Spares such) (time : Nat) :
    (machine.pass time).Spares such := by
  have hentries : ∀ (entries : List (Nat × Child)) (machine : Machine), machine.Spares such →
      (entries.foldl (fun machine entry => machine.advance entry.1 time) machine).Spares such := by
    intro entries
    induction entries with
    | nil => exact fun machine hspares => hspares
    | cons entry rest ih => exact fun machine hspares => ih _ (hspares.advance entry.1 time)
  exact hentries machine.children machine hspares

end Machine

namespace Runner

variable {runner : Runner} {test : String} {invocation : Invocation} {machine : Machine}
  {process : Process Ending}

/-- What is left of a run is the machine without its process, with the files that this has left, on
which the others go on for as long as the run took. -/
theorem Starts.exists_run_eq (hstarts : runner.Starts test invocation machine process) :
    ∃ rest : Machine, (∀ entry ∈ rest.children, entry ∈ machine.children) ∧
      rest.files = (runner.lastLink test invocation machine process).files ∧
      (runner.run test invocation machine).2 =
        rest.pass (runner.lastLink test invocation machine process).elapsed := by
  obtain ⟨number, started, hstart⟩ := hstarts
  obtain ⟨rfl, rfl⟩ := Machine.eq_of_start hstart
  simp only [run, hstart]
  refine ⟨_, ?_, ?_, rfl⟩
  · intro entry hentry
    obtain ⟨hmem, hother⟩ := List.mem_filter.mp hentry
    refine (List.mem_cons.mp hmem).resolve_left ?_
    rintro rfl
    simp at hother
  · rfl

/-- Where no other process is, the files are left as the process has left them. -/
theorem Starts.files_run (hstarts : runner.Starts test invocation machine process)
    (halone : machine.children = []) :
    (runner.run test invocation machine).2.files =
      (runner.lastLink test invocation machine process).files := by
  obtain ⟨rest, hchildren, hfiles, hrun⟩ := hstarts.exists_run_eq
  have hnone : rest.children = [] := by
    rw [List.eq_nil_iff_forall_not_mem]
    intro entry hentry
    simpa [halone] using hchildren entry hentry
  rw [hrun, Machine.pass, hnone, ← hfiles]
  rfl

/-- What no process makes a change to is as it was when the command is over. -/
theorem Starts.spares (hstarts : runner.Starts test invocation machine process)
    (hprocess : process.Spares such) (hmachine : machine.Spares such) :
    (runner.run test invocation machine).2.Spares such := by
  obtain ⟨rest, hchildren, hfiles, hrun⟩ := hstarts.exists_run_eq
  obtain ⟨final, signals, hcourse, hlink⟩ := Runner.run_course hstarts
  obtain ⟨done, last, -, hconversed, hreaches⟩ := hcourse.answered
  have hhereditary := Process.isHereditary_spares such
  have hstart : (Position.start process machine.files).Bears
      fun process files => process.Spares such ∧ such files := ⟨hprocess, hmachine.files⟩
  have hlast := hreaches.inherits hhereditary
    (hconversed.inherits hhereditary (fun _ _ _ hspares => ⟨trivial, hspares.2⟩) hstart)
  rw [hrun]
  apply Machine.Spares.pass
  constructor
  case files =>
    rw [hfiles, hlink]
    exact hlast.2
  case children => exact fun entry hentry => hmachine.children entry (hchildren entry hentry)

end Runner

end PromptHarness
