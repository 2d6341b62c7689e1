import PromptHarness.Machine

/-!
# The children of a machine

Starting a process adds a child to a machine, and reaping it takes that child away again, however
long the machine goes on afterwards.  Any process at all can be started on some machine.
-/

namespace PromptHarness

def Executable.arrived (call : Call) : Call :=
  { call with environment := call.environment.map Environment.received }

/-- A program that was put at a place is what a call of that place starts. -/
theorem Executable.launch_installed {installed : List (Place × Program)} {depth : Nat}
    {files : Files} {call : Call} {path : String} {place : Place} {content : Bytes}
    {program : Program} (hnul : (texts call).any holdsNul = false)
    (hresolve : resolve files call.environment call.name = .ok path)
    (hinspect : inspect files path = .ok (place, content)) (hfits : overflows call = false)
    (hinstalled : installed.lookup place = some program) :
    launch installed (depth + 1) files call =
      .ok (program (launch installed depth) (arrived call)) := by
  have hbehaviour : behaviour installed path place content = program := by
    simp only [behaviour, hinstalled]
  simp only [launch, hnul, hresolve, hfits, Bool.false_eq_true, if_false]
  change (inspect files path >>= _) = _
  rw [hinspect]
  change Except.ok (behaviour installed path place content _ (arrived call)) = _
  rw [hbehaviour]

/-- What is started is what the file at some path does with the call as it arrives. -/
theorem Executable.exists_of_launch {installed : List (Place × Program)} {depth : Nat}
    {files : Files} {call : Call} {process : Process Ending}
    (hlaunch : launch installed (depth + 1) files call = .ok process) :
    ∃ path place content, inspect files path = .ok (place, content) ∧
      process = behaviour installed path place content (launch installed depth)
        (arrived call) := by
  simp only [launch] at hlaunch
  split at hlaunch
  · cases hlaunch
  · cases hresolve : resolve files call.environment call.name with
    | error error =>
        rw [hresolve] at hlaunch
        cases hlaunch
    | ok path =>
        rw [hresolve] at hlaunch
        change (inspect files path >>= _) = _ at hlaunch
        cases hinspect : inspect files path with
        | error error =>
            rw [hinspect] at hlaunch
            cases hlaunch
        | ok found =>
            obtain ⟨place, content⟩ := found
            rw [hinspect] at hlaunch
            change (if overflows call = true then _ else _) = _ at hlaunch
            split at hlaunch
            · cases hlaunch
            · cases hlaunch
              exact ⟨path, place, content, hinspect, rfl⟩

namespace Machine

theorem start_of_launch {machine : Machine} {program : String} {arguments : List String}
    {given : Environment} {process : Process Ending}
    (hlaunch : Executable.launch machine.installed Executable.deepest machine.files
      ⟨program, arguments, machine.environment ++ given⟩ = .ok process) :
    ∃ started, machine.start program arguments given =
      .ok (machine.nextNumber, process, started) := by
  simp only [start, hlaunch]
  exact ⟨_, rfl⟩

theorem start_of_refused {machine : Machine} {program : String} {arguments : List String}
    {given : Environment} {error : FileError}
    (hlaunch : Executable.launch machine.installed Executable.deepest machine.files
      ⟨program, arguments, machine.environment ++ given⟩ = .error error) :
    machine.start program arguments given = .error error := by
  simp only [start, hlaunch]
  rfl

/-- The process is what an executable file of the machine does when it is called. -/
def Executes (machine : Machine) (call : Call) (process : Process Ending) : Prop :=
  ∃ path place content, Executable.inspect machine.files path = .ok (place, content) ∧
    process = Executable.behaviour machine.installed path place content
      (Executable.launch machine.installed (Executable.deepest - 1)) call

theorem executes_of_start {machine started : Machine} {program : String}
    {arguments : List String} {given : Environment} {number : Nat} {process : Process Ending}
    (hstart : machine.start program arguments given = .ok (number, process, started)) :
    machine.Executes
      ⟨program, arguments, (machine.environment ++ given).map Environment.received⟩ process := by
  unfold Machine.start at hstart
  cases hlaunch : Executable.launch machine.installed Executable.deepest machine.files
      ⟨program, arguments, machine.environment ++ given⟩ with
  | error error =>
      rw [hlaunch] at hstart
      cases hstart
  | ok launched =>
      rw [hlaunch] at hstart
      cases hstart
      exact @Executable.exists_of_launch _ 63 _ _ _ hlaunch

/-- Where a process is started, a child has been added and the next number is another. -/
theorem eq_of_start {machine started : Machine} {program : String} {arguments : List String}
    {given : Environment} {number : Nat} {process : Process Ending}
    (hstart : machine.start program arguments given = .ok (number, process, started)) :
    number = machine.nextNumber ∧
      started = { machine with
        children := (machine.nextNumber, ⟨process, .fresh, pipeRoom⟩) :: machine.children
        nextNumber := machine.nextNumber + 1 } := by
  unfold start at hstart
  cases hlaunch : Executable.launch machine.installed Executable.deepest machine.files
      ⟨program, arguments, machine.environment ++ given⟩ with
  | error error =>
      rw [hlaunch] at hstart
      cases hstart
  | ok launched =>
      rw [hlaunch] at hstart
      cases hstart
      exact ⟨rfl, rfl⟩

def numbers (machine : Machine) : List Nat := machine.children.map (·.1)

theorem numbers_update (machine : Machine) (number : Nat) (child : Child) :
    (machine.update number child).numbers = machine.numbers := by
  simp only [numbers, update, List.map_map]
  apply List.map_congr_left
  rintro ⟨other, held⟩ -
  by_cases hsame : other = number
  · simp [hsame]
  · simp [hsame]

@[simp]
theorem numbers_reap (machine : Machine) (number : Nat) :
    (machine.reap number).numbers = machine.numbers.filter (· != number) := by
  simp only [numbers, reap, List.filter_map]
  rfl

/-- When one process goes on, only the children's states and the files can change. -/
theorem exists_advance_eq (machine : Machine) (number time : Nat) :
    ∃ children files, machine.advance number time =
        { machine with children := children, files := files } ∧
      children.map (·.1) = machine.numbers := by
  unfold advance
  split
  · next child _ => exact ⟨_, _, rfl, machine.numbers_update number _⟩
  · exact ⟨machine.children, machine.files, rfl, rfl⟩

/-- While time passes, no child comes or goes. -/
theorem exists_pass_eq (machine : Machine) (time : Nat) :
    ∃ children files, machine.pass time =
        { machine with children := children, files := files } ∧
      children.map (·.1) = machine.numbers := by
  have hentries : ∀ (entries : List (Nat × Child)) (machine : Machine),
      ∃ children files, entries.foldl (fun machine entry => machine.advance entry.1 time) machine =
          { machine with children := children, files := files } ∧
        children.map (·.1) = machine.numbers := by
    intro entries
    induction entries with
    | nil => exact fun machine => ⟨machine.children, machine.files, rfl, rfl⟩
    | cons entry rest ih =>
        intro machine
        obtain ⟨children, files, hadvance, hnumbers⟩ := machine.exists_advance_eq entry.1 time
        obtain ⟨children', files', hrest, hnumbers'⟩ := ih (machine.advance entry.1 time)
        rw [List.foldl_cons, hrest]
        refine ⟨children', files', by rw [hadvance], ?_⟩
        rw [hnumbers', hadvance]
        exact hnumbers
  exact hentries machine.children machine

@[simp]
theorem numbers_advance (machine : Machine) (number time : Nat) :
    (machine.advance number time).numbers = machine.numbers := by
  obtain ⟨children, files, hadvance, hnumbers⟩ := machine.exists_advance_eq number time
  rw [hadvance]
  exact hnumbers

@[simp]
theorem numbers_pass (machine : Machine) (time : Nat) :
    (machine.pass time).numbers = machine.numbers := by
  obtain ⟨children, files, hpass, hnumbers⟩ := machine.exists_pass_eq time
  rw [hpass]
  exact hnumbers

@[simp]
theorem environment_advance (machine : Machine) (number time : Nat) :
    (machine.advance number time).environment = machine.environment := by
  obtain ⟨children, files, hadvance, -⟩ := machine.exists_advance_eq number time
  rw [hadvance]

@[simp]
theorem lateness_advance (machine : Machine) (number time : Nat) :
    (machine.advance number time).lateness = machine.lateness := by
  obtain ⟨children, files, hadvance, -⟩ := machine.exists_advance_eq number time
  rw [hadvance]

@[simp]
theorem environment_pass (machine : Machine) (time : Nat) :
    (machine.pass time).environment = machine.environment := by
  obtain ⟨children, files, hpass, -⟩ := machine.exists_pass_eq time
  rw [hpass]

theorem child?_eq_none_iff (machine : Machine) (number : Nat) :
    machine.child? number = none ↔ number ∉ machine.numbers := by
  unfold child? numbers
  rw [List.lookup_eq_none_iff]
  simp only [bne_iff_ne, List.mem_map, not_exists, not_and]
  constructor
  · intro hdifferent entry hentry hsame
    exact hdifferent entry hentry hsame.symm
  · intro hmissing entry hentry hsame
    exact hmissing entry hentry hsame.symm

/-- A child that has been reaped does not come back. -/
theorem child?_reap_pass (machine : Machine) (number time : Nat) :
    ((machine.reap number).pass time).child? number = none := by
  rw [child?_eq_none_iff, numbers_pass]
  simp

end Machine

def Machine.lone (process : Process Ending) : Machine :=
  { files := ⟨[(["run"], .file [] Files.programMode)], []⟩
    installed := [(["run"], fun _ _ => process)]
    environment := []
    children := []
    nextNumber := 1 }

end PromptHarness
