import PromptHarness.Proofs.Attendance
import PromptHarness.Proofs.Closing
import PromptHarness.Proofs.Editing
import PromptHarness.Proofs.Surroundings

/-!
# From a payload to a file and back

A payload goes through the variables of a command to an editor, from there into a file of the home,
and from the file over the terminal to the lines of the result; another editor takes it on into a
copy.  What arrives is what was sent, whatever characters it is made of (`lasts_roundTrips`).
-/

namespace PromptHarness

theorem Machine.lookup_equip (machine : Machine) (program : Program) (place : Place) :
    (machine.equip program).installed.lookup place =
      (machine.installed.lookup place).map fun _ => program := by
  simp only [equip]
  induction machine.installed with
  | nil => rfl
  | cons entry rest ih =>
      rw [List.map_cons, List.lookup_cons, List.lookup_cons]
      split
      · rfl
      · exact ih

/-- The machine behind a run in which a file has been put at a place. -/
def Machine.behind (machine : Machine) (program : Program) (place : Place) (content : Bytes) :
    Machine :=
  { machine.equip program with
    files := machine.files.putAt place content Files.plainMode
    nextNumber := machine.nextNumber + 1 }

/-- A call that leads to an installed program starts it. -/
theorem Runner.starts_of_leads {runner : Runner} {test : String} {invocation : Invocation}
    {machine : Machine} {place : Place} {program : Program}
    (hleads : Executable.Leads machine.files (runner.call test invocation machine) place)
    (hfits : Executable.Fits (runner.call test invocation machine))
    (hinstalled : machine.installed.lookup place = some program) :
    runner.Starts test invocation machine
      (program (Executable.launch machine.installed (Executable.deepest - 1))
        (runner.call test invocation machine)) := by
  let given : Call := ⟨(runner.dressed test invocation).1, (runner.dressed test invocation).2.1,
    machine.environment ++ invocation.environment⟩
  have hcall : runner.call test invocation machine = Executable.arrived given := rfl
  rw [hcall] at hleads hfits
  rw [Executable.leads_arrived_iff] at hleads
  rw [Executable.fits_arrived_iff] at hfits
  obtain ⟨path, content, hresolve, hinspect⟩ := hleads
  have hlaunch := @Executable.launch_installed machine.installed 63 machine.files given path place
    content program hfits.1 hresolve hinspect hfits.2 hinstalled
  obtain ⟨started, hstart⟩ := Machine.start_of_launch hlaunch
  exact ⟨machine.nextNumber, started, hstart⟩

namespace Home

/-- The editors can work on a file of the home, and one of them can leave a copy there. -/
structure HasRoom (home : Home) (files : Files) (name : String) : Prop where
  /-- The path does not stand for what the editor itself was started with. -/
  ordinary : home.filePath name ∉ Shell.Task.streamNames
  spot : ∃ directory last, files.IsSpot (home.filePath name) directory last
  apart : ∀ editor : Editor,
    files.placeOf (home.editorPath editor) ≠ files.placeOf (home.filePath name)
  copy : files.find? (files.placeOf home.clearTextPath) = none ∨
    ∃ content mode, files.find? (files.placeOf home.clearTextPath) = some (.file content mode)

section Kept

variable {home : Home} {machine : Machine} {files : Files} {place : Place}
  {environment : Environment} {name : String}

/-- What the installed programs do makes no difference to the editors. -/
theorem HasEditors.equip (heditors : home.HasEditors machine.installed files) (program : Program) :
    home.HasEditors (machine.equip program).installed files where
  absolute := heditors.absolute
  directory := heditors.directory
  intact := heditors.intact
  own editor := by rw [Machine.lookup_equip, heditors.own editor, Option.map_none]

/-- A file that is put somewhere else leaves the editors as they are. -/
theorem HasEditors.behind (heditors : home.HasEditors machine.installed machine.files)
    (hplace : machine.files.find? place ≠ some .directory)
    (hapart : ∀ editor : Editor, machine.files.placeOf (home.editorPath editor) ≠ place)
    (program : Program) (content : Bytes) :
    home.HasEditors (machine.behind program place content).installed
      (machine.behind program place content).files where
  absolute := heditors.absolute
  directory := heditors.directory
  intact editor := Files.stat_insert_of_ne hplace (heditors.intact editor) (hapart editor)
  own editor := by
    rw [Files.placeOf_of_isAbsolute (heditors.isAbsolute editor) _ machine.files]
    exact (heditors.equip program).own editor

theorem CanCopy.equip (hcopies : home.CanCopy machine.installed files environment name)
    (program : Program) : home.CanCopy (machine.equip program).installed files environment name where
  copier := by
    obtain ⟨place, hplace, hleads, hown⟩ := hcopies.copier
    exact ⟨place, hplace, hleads, by rw [Machine.lookup_equip, hown, Option.map_none]⟩
  fits := hcopies.fits

theorem CanCopy.behind (hcopies : home.CanCopy machine.installed machine.files environment name)
    (hplace : machine.files.find? place ≠ some .directory) (program : Program) (content : Bytes) :
    home.CanCopy (machine.behind program place content).installed
      (machine.behind program place content).files environment name where
  copier := by
    obtain ⟨found, hfound, hleads, hown⟩ := (hcopies.equip program).copier
    exact ⟨found, hfound, hleads.putAt hplace, hown⟩
  fits := hcopies.fits

end Kept

theorem isProper_clearTextName : Files.IsProper clearTextName :=
  ⟨by decide +kernel, by decide +kernel, by decide +kernel, by decide +kernel⟩

theorem copyPath_eq (home : Home) : home.copyPath = home.root ++ "/" ++ clearTextName := by
  rw [String.append_assoc]
  rfl

/-- The file and the copy hold the same. -/
structure Holds (home : Home) (files : Files) (name : String) (content : Bytes) : Prop where
  file : files.read (home.filePath name) = .ok content
  copy : files.read home.copyPath = .ok content
  clearText : files.read home.clearTextPath = .ok content

end Home

namespace Session

section Call

variable {session : Session}

/-- Without an agent a command is given the variables of the machine and those of the home. -/
theorem environment_call (hidle : session.agent.running = none) (command : Command)
    (options : List String) (prompts : Prompts) (machine : Machine) :
    (session.call command options prompts machine).environment =
      machine.environment.map Environment.received ++ session.home.environment := by
  simp only [call, Runner.call, invocation, environment, Agent.binding?_eq_none hidle]
  simp [Home.map_received_environment]

theorem surrounds_call (hidle : session.agent.running = none) (command : Command)
    (options : List String) (prompts : Prompts) (machine : Machine) :
    session.home.Surrounds (session.call command options prompts machine).environment := by
  rw [environment_call hidle]
  constructor
  case received =>
    rw [List.map_append, Home.map_received_environment, List.map_map]
    congr 1
    exact List.map_congr_left fun entry _ => Environment.received_received entry
  case settings =>
    intro name value hsetting
    rw [Environment.value?_append, Home.value?_environment, hsetting]
    rfl

end Call

/-- A command leads to a program that was put on the machine, and it and the editor that it has work
on a file are handed no more than a process takes. -/
structure CanEdit (session : Session) (machine : Machine) (name : String) (command : Command)
    (options : List String) (prompts : Prompts) : Prop where
  leads : ∃ place program,
    Executable.Leads machine.files (session.call command options prompts machine) place ∧
      machine.installed.lookup place = some program
  fits : Executable.Fits (session.call command options prompts machine)
  editorFits : ∀ editor, session.home.editor = some editor →
    Executable.Fits ⟨session.home.editorPath editor, [session.home.filePath name],
      (session.call command options prompts machine).environment⟩

section Run

variable {session : Session} {machine : Machine} {name : String} {command : Command}
  {options : List String} {prompts : Prompts}

def editChild (session : Session) (machine : Machine) (name : String) (command : Command)
    (options : List String) (prompts : Prompts) : Process Ending :=
  Action.editCommand name
    (Executable.launch (machine.equip (Action.editCommand name)).installed
      (Executable.deepest - 1))
    (session.call command options prompts machine)

theorem CanEdit.starts (hedit : session.CanEdit machine name command options prompts) :
    session.runner.Starts session.test (session.invocation command options prompts)
      (machine.equip (Action.editCommand name))
      (session.editChild machine name command options prompts) := by
  obtain ⟨place, program, hleads, hinstalled⟩ := hedit.leads
  refine Runner.starts_of_leads hleads hedit.fits ?_
  rw [Machine.lookup_equip, hinstalled]
  rfl

/-- A file that has been put somewhere keeps no command from editing. -/
theorem CanEdit.behind (hedit : session.CanEdit machine name command options prompts)
    {place : Place} (hplace : machine.files.find? place ≠ some .directory) (program : Program)
    (content : Bytes) :
    session.CanEdit (machine.behind program place content) name command options prompts where
  leads := by
    obtain ⟨found, other, hleads, hinstalled⟩ := hedit.leads
    refine ⟨found, program, hleads.putAt hplace, ?_⟩
    change (machine.equip program).installed.lookup found = some program
    rw [Machine.lookup_equip, hinstalled]
    rfl
  fits := hedit.fits
  editorFits := hedit.editorFits

/-- What comes of a run without prompts whose child is known to end well. -/
theorem run_of_outcome {program : Program} {process : Process Ending} {left : World}
    (hstarts : session.runner.Starts session.test (session.invocation command options prompts)
      (machine.equip program) process)
    (houtcome : process.outcome? ⟨machine.files, []⟩ = some (.exited 0, left))
    (halone : machine.children = []) (htime : 0 < session.settings.exitTimeout)
    (hplan : (command.plan options prompts).exchanges = []) (hexpected : prompts.expected = 0)
    {shown : String} (hshown : Text.lossy (Terminal.shown left.written) = shown) :
    session.run command options prompts (machine.equip program) =
      (⟨[.drainingOutput, .exited 0], .ok ⟨shown, shown, 0, 0⟩⟩,
        { session with last := some ⟨shown, shown, 0, 0⟩ },
        { machine.equip program with
          files := left.files
          nextNumber := machine.nextNumber + 1 }) := by
  obtain ⟨link, hfiles, hattend⟩ := @Runner.attend_of_outcome session.runner
    (session.runner.command session.test (session.invocation command options prompts))
    (session.runner.reserved session.test (session.invocation command options prompts))
    (session.invocation command options prompts) process (machine.equip program).files
    left _ houtcome rfl hplan htime
  have hverdict : judge (session.runner.command session.test
        (session.invocation command options prompts))
      (session.runner.reserved session.test (session.invocation command options prompts))
      (session.invocation command options prompts).expected (Ending.exited 0).code
      ⟨shown, shown, (Ending.exited 0).code, 0⟩ = .ok ⟨shown, shown, 0, 0⟩ := by
    refine judge_eq_ok_iff.mpr ⟨?_, hexpected.symm, rfl⟩
    intro logFile hreserved
    exact Runner.reserved_ne hreserved hexpected.symm
  rw [hshown, hverdict] at hattend
  simp only [Session.run, Runner.run_eq_of_starts hstarts halone, hattend, hfiles]
  rfl

/-- What a run leaves in the files whose child is known to end well, whatever is typed to it. -/
theorem files_run_of_outcome {program : Program} {process : Process Ending} {left : World}
    (hstarts : session.runner.Starts session.test (session.invocation command options prompts)
      (machine.equip program) process)
    (houtcome : process.outcome? ⟨machine.files, []⟩ = some (.exited 0, left))
    (halone : machine.children = [])
    (htime : if (command.plan options prompts).exchanges = [] then 0 < session.settings.exitTimeout
      else 0 < session.settings.promptTimeout) :
    (session.run command options prompts (machine.equip program)).2.2.files = left.files := by
  have hfiles := @Runner.files_attend session.runner
    (session.runner.command session.test (session.invocation command options prompts))
    (session.runner.reserved session.test (session.invocation command options prompts))
    (session.invocation command options prompts) process machine.files left (.exited 0) houtcome
    htime
  simp only [Session.run, Runner.run_eq_of_starts hstarts halone]
  exact hfiles

/-- What a command finds behind the editor that writes the payload. -/
theorem run_env {payload last : String} {directory : Place}
    (heditors : session.home.HasEditors machine.installed machine.files)
    (hidle : session.agent.running = none) (halone : machine.children = [])
    (htime : 0 < session.settings.exitTimeout) (hchosen : session.home.editor = some .env)
    (hpayload : session.home.payload = some payload)
    (hordinary : session.home.filePath name ∉ Shell.Task.streamNames)
    (hspot : machine.files.IsSpot (session.home.filePath name) directory last)
    (hedit : session.CanEdit machine name command options prompts)
    (hplan : (command.plan options prompts).exchanges = []) (hexpected : prompts.expected = 0) :
    session.run command options prompts (machine.equip (Action.editCommand name)) =
      (⟨[.drainingOutput, .exited 0],
          .ok ⟨Text.withReturns payload, Text.withReturns payload, 0, 0⟩⟩,
        { session with last := some ⟨Text.withReturns payload, Text.withReturns payload, 0, 0⟩ },
        machine.behind (Action.editCommand name) (directory ++ [last]) (Text.encode payload)) := by
  have houtcome := @Home.outcome?_env session.home _ ⟨machine.files, []⟩
    (session.call command options prompts machine) name last directory 62 payload
    (heditors.equip (Action.editCommand name)) (surrounds_call hidle command options prompts machine)
    hchosen hpayload (hedit.editorFits .env hchosen) hordinary hspot
  have hshown : Text.lossy (Terminal.shown (Text.encode payload)) = Text.withReturns payload := by
    rw [Text.shown_encode, Text.lossy_encode]
  exact run_of_outcome hedit.starts houtcome halone htime hplan hexpected hshown

/-- Behind the editor that keeps a copy the file is as it was, and the copy is the same, whatever is
typed to the command. -/
theorem holds_run_save {last copyLast : String} {directory copyDirectory : Place} {content : Bytes}
    {mode : Nat} (heditors : session.home.HasEditors machine.installed machine.files)
    (hidle : session.agent.running = none) (halone : machine.children = [])
    (htime : if (command.plan options prompts).exchanges = [] then 0 < session.settings.exitTimeout
      else 0 < session.settings.promptTimeout)
    (hchosen : session.home.editor = some .save)
    (hcopies : session.home.CanCopy machine.installed machine.files
      (session.call command options prompts machine).environment name)
    (hspot : machine.files.IsSpot (session.home.filePath name) directory last)
    (hfile : machine.files.find? (directory ++ [last]) = some (.file content mode))
    (hcopy : machine.files.IsSpot session.home.copyPath copyDirectory copyLast)
    (hclear : machine.files.IsSpot session.home.clearTextPath copyDirectory copyLast)
    (hedit : session.CanEdit machine name command options prompts) :
    session.home.Holds
      (session.run command options prompts (machine.equip (Action.editCommand name))).2.2.files name
      content := by
  obtain ⟨left, houtcome, hread, hread'⟩ := @Home.outcome?_save session.home _ ⟨machine.files, []⟩
    (session.call command options prompts machine) name last directory 61 copyLast copyDirectory
    content mode (heditors.equip (Action.editCommand name))
    (surrounds_call hidle command options prompts machine) hchosen
    (hcopies.equip (Action.editCommand name)) (hedit.editorFits .save hchosen) hspot hcopy hfile
  rw [files_run_of_outcome hedit.starts houtcome halone htime]
  exact ⟨hread _ hspot, hread' _ hcopy, hread' _ hclear⟩

end Run

/-! ## Round trips -/

def choosing (session : Session) (editor : Editor) (payload : Option String) : Session :=
  { session with home := session.home.selectEditor editor payload }

/-- The steps by which an editor is chosen and a command has it work on a file of the home. -/
def editing (editor : Editor) (payload : Option String) (name : String) (command : Command)
    (options : List String) (prompts : Prompts) : List Step :=
  [.selectEditor editor payload, .command (Action.editCommand name) command options prompts]

theorem performAll_editing (editor : Editor) (payload : Option String) (name : String)
    (command : Command) (options : List String) (prompts : Prompts) (session : Session)
    (machine : Machine) :
    performAll (editing editor payload name command options prompts) session machine =
      ([.done, .ran ((session.choosing editor payload).run command options prompts
          (machine.equip (Action.editCommand name))).1],
        ((session.choosing editor payload).run command options prompts
          (machine.equip (Action.editCommand name))).2) := by
  simp [performAll, perform, editing, choosing]

theorem performAll_append (first second : List Step) (session : Session) (machine : Machine) :
    (performAll (first ++ second) session machine).2 =
      (performAll second (performAll first session machine).2.1
        (performAll first session machine).2.2).2 := by
  induction first generalizing session machine with
  | nil => rfl
  | cons step rest ih =>
      rw [List.cons_append, performAll, performAll]
      exact ih _ _

/-- A command can have the editor that keeps a copy work on a file. -/
structure CanSave (session : Session) (machine : Machine) (payload name : String)
    (command : Command) (options : List String) (prompts : Prompts) : Prop where
  edit : (session.choosing .save (some payload)).CanEdit machine name command options prompts
  copies : session.home.CanCopy machine.installed machine.files
    ((session.choosing .save (some payload)).call command options prompts machine).environment name
  time : (command.plan options prompts).exchanges ≠ [] → 0 < session.settings.promptTimeout

/-- What comes of a payload that an editor writes to a file of the home, where a command prints it. -/
structure RoundTrips (session : Session) (machine : Machine) (payload name : String)
    (command : Command) (options : List String) (prompts : Prompts) : Prop where
  printed : (performAll (editing .env (some payload) name command options prompts) session
      machine).1 =
    [.done, .ran ⟨[.drainingOutput, .exited 0],
      .ok ⟨Text.withReturns payload, Text.withReturns payload, 0, 0⟩⟩]
  lines : (performAll (editing .env (some payload) name command options prompts) session
    machine).2.1.stdoutLines = Text.filledLines payload
  written : (performAll (editing .env (some payload) name command options prompts) session
    machine).2.2.files.read (session.home.filePath name) = .ok (Text.encode payload)
  /-- Whatever command has the other editor work on the file then, the file stays as it is, and the
  copy is the same. -/
  saved : ∀ command' options' prompts',
    session.CanSave machine payload name command' options' prompts' →
    session.home.Holds
      (performAll (editing .env (some payload) name command options prompts ++
        editing .save none name command' options' prompts') session machine).2.2.files
      name (Text.encode payload)

section RoundTrip

variable {session : Session} {machine : Machine} {payload name : String} {command : Command}
  {options : List String} {prompts : Prompts}

/-- What the other editor leaves of a payload that has been put into the file. -/
theorem CanSave.holds {directory : Place} {last : String}
    (hsave : session.CanSave machine payload name command options prompts)
    (heditors : session.home.HasEditors machine.installed machine.files)
    (hroom : session.home.HasRoom machine.files name) (hidle : session.agent.running = none)
    (halone : machine.children = []) (htime : 0 < session.settings.exitTimeout)
    (hspot : machine.files.IsSpot (session.home.filePath name) directory last)
    (result : Option CommandResult) :
    session.home.Holds
      ((({ session.choosing .env (some payload) with last := result } : Session).choosing
        .save none).run command options prompts
          ((machine.behind (Action.editCommand name) (directory ++ [last])
            (Text.encode payload)).equip (Action.editCommand name))).2.2.files
      name (Text.encode payload) := by
  have hfree := hspot.find?_ne_directory
  have hcopyPlace : machine.files.placeOf session.home.clearTextPath =
      machine.files.placeOf session.home.root ++ [Home.clearTextName] :=
    Files.placeOf_join heditors.absolute Home.isProper_clearTextName (by decide +kernel) _
  obtain ⟨hclear, hcopy⟩ := heditors.isSpot Home.isProper_clearTextName (by decide +kernel)
    (by decide +kernel) (by decide +kernel) (hcopyPlace ▸ hroom.copy)
  rw [← Home.copyPath_eq] at hcopy
  have heditors' := heditors.behind hfree (fun editor => hspot.placeOf ▸ hroom.apart editor)
    (Action.editCommand name) (Text.encode payload)
  have hedit := hsave.edit.behind hfree (Action.editCommand name) (Text.encode payload)
  have hcopies := hsave.copies.behind hfree (Action.editCommand name) (Text.encode payload)
  have hfile : (machine.behind (Action.editCommand name) (directory ++ [last])
      (Text.encode payload)).files.find? (directory ++ [last]) = some (.file (Text.encode payload)
        (machine.files.modeAt (directory ++ [last]) Files.plainMode)) :=
    Files.find?_insert machine.files _ (by simp)
  have htime' : if (command.plan options prompts).exchanges = [] then
      0 < session.settings.exitTimeout else 0 < session.settings.promptTimeout := by
    split
    · exact htime
    · next hexchanges => exact hsave.time hexchanges
  -- The session differs from the one of the hypotheses in its last result only.
  have hheld := @holds_run_save
    (({ session.choosing .env (some payload) with last := result } : Session).choosing .save none)
    (machine.behind (Action.editCommand name) (directory ++ [last]) (Text.encode payload)) name
    command options prompts last Home.clearTextName directory
    (machine.files.placeOf session.home.root) (Text.encode payload) _
    ⟨heditors'.absolute, heditors'.directory, heditors'.intact, heditors'.own⟩ hidle halone htime'
    rfl ⟨hcopies.copier, hcopies.fits⟩ (hspot.insert hfree) hfile (hcopy.insert hfree)
    (hclear.insert hfree) ⟨hedit.leads, hedit.fits, hedit.editorFits⟩
  exact ⟨hheld.file, hheld.copy, hheld.clearText⟩

theorem roundTrips_of_hasEditors
    (heditors : session.home.HasEditors machine.installed machine.files)
    (hroom : session.home.HasRoom machine.files name) (hidle : session.agent.running = none)
    (halone : machine.children = []) (htime : 0 < session.settings.exitTimeout)
    (hedit : (session.choosing .env (some payload)).CanEdit machine name command options prompts)
    (hplan : (command.plan options prompts).exchanges = []) (hexpected : prompts.expected = 0) :
    session.RoundTrips machine payload name command options prompts := by
  obtain ⟨directory, last, hspot⟩ := hroom.spot
  have hchosen : (session.choosing .env (some payload)).home.HasEditors machine.installed
      machine.files := ⟨heditors.absolute, heditors.directory, heditors.intact, heditors.own⟩
  have hran := run_env hchosen hidle halone htime rfl rfl hroom.ordinary hspot hedit hplan hexpected
  have hread : (machine.files.putAt (directory ++ [last]) (Text.encode payload)
      Files.plainMode).read (session.home.filePath name) = .ok (Text.encode payload) :=
    hspot.read_insert
  constructor
  case printed => rw [performAll_editing, hran]
  case lines =>
    rw [performAll_editing, hran]
    simp only [stdoutLines, Option.elim_some, CommandResult.lines]
    rw [Text.printedLines_withReturns]
  case written =>
    rw [performAll_editing, hran]
    exact hread
  case saved =>
    intro command' options' prompts' hsave
    rw [performAll_append, performAll_editing .env, hran, performAll_editing]
    exact hsave.holds heditors hroom hidle halone htime hspot _

end RoundTrip

section Course

variable {root : String} {session later : Session} {machine laterMachine : Machine}
  {events : List Event}

theorem Opened.editorDirectory (hopened : Opened root session machine) :
    session.home.editorDirectory =
      session.settings.editorDirectory.getD (Path.join root Home.editorsName) := by
  have hbegun : ∀ {settings test before session later},
      begin settings root test before = (.ok session, later) →
      session.home.editorDirectory =
        session.settings.editorDirectory.getD (Path.join root Home.editorsName) := by
    intro settings test before session later hbegin
    obtain ⟨program, rfl⟩ := eq_of_begin hbegin
    rfl
  have hstored : ∀ {settings test before phases session later},
      openStore settings root test before = (phases, .ok session, later) →
      session.home.editorDirectory =
        session.settings.editorDirectory.getD (Path.join root Home.editorsName) := by
    intro settings test before phases session later hopen
    obtain ⟨begun, middle, hbegin, rfl⟩ := begun_of_openStore hopen
    have hdirectory := hbegun hbegin
    exact hdirectory
  cases hopened with
  | bare hbegin => exact hbegun hbegin
  | stored hopen => exact hstored hopen
  | here hopen =>
      obtain ⟨settings, after, -, hstore⟩ := store_of_openHere hopen
      exact hstored hstore

/-- Whatever has happened in a session that has the built-in editors, a payload arrives as it was
sent, as long as the editors are still there. -/
theorem lasts_roundTrips {payload name : String} {command : Command} {options : List String}
    {prompts : Prompts} (hroot : Path.isAbsolute root = true)
    (hopened : Opened root session machine) (hbuiltIn : session.settings.editorDirectory = none)
    (hempty : machine.numbers = [])
    (hlasts : Lasts session machine events later laterMachine)
    (hidle : later.agent.running = none)
    (hintact : ∀ editor : Editor, laterMachine.files.stat (later.home.editorPath editor) =
      .ok (.file (Text.encode editor.script) Files.programMode))
    (hown : ∀ editor : Editor, laterMachine.installed.lookup
      (laterMachine.files.placeOf (later.home.editorPath editor)) = none)
    (hroom : later.home.HasRoom laterMachine.files name)
    (htime : 0 < later.settings.exitTimeout)
    (hedit : (later.choosing .env (some payload)).CanEdit laterMachine name command options prompts)
    (hplan : (command.plan options prompts).exchanges = []) (hexpected : prompts.expected = 0) :
    later.RoundTrips laterMachine payload name command options prompts := by
  have htold := hlasts.told hopened
  have hlaterRoot : later.home.root = root := htold.root.trans hopened.fresh.root
  have hnumbered : machine.IsNumbered := by
    intro number hnumber
    rw [hempty] at hnumber
    cases hnumber
  have htended := hlasts.tended (hopened.tended hnumbered)
  rw [hempty] at htended
  have heditors : later.home.HasEditors laterMachine.installed laterMachine.files := by
    refine ⟨hlaterRoot ▸ hroot, ?_, hintact, hown⟩
    rw [htold.editorDirectory, hopened.editorDirectory, hbuiltIn, hlaterRoot]
    rfl
  exact roundTrips_of_hasEditors heditors hroom hidle (children_eq_nil htended hidle) htime hedit
    hplan hexpected

end Course

/-! ## A payload full of special characters -/

def bench : Machine :=
  { Machine.lone (.finished (.exited 0)) with
    files :=
      ⟨[(["run"], .file [] Files.programMode), (["bin"], .directory),
        (["bin", "cp"], .file [] Files.programMode)], []⟩ }

def workshop : Machine := housing "/home" bench

/-- A payload in which a shell would find much to do. -/
def knotty : String := "-n \"$HOME\" '%s' \\ ; $(date)\n\n\x60ls\x60 > \"$1\"\r\n *"

/-- What of an edit of the usual file can be computed. -/
def IsFurnished (session : Session) (machine : Machine) : Prop :=
  Path.isAbsolute session.home.root = true ∧
    session.home.editorDirectory = Path.join session.home.root Home.editorsName ∧
    (∀ editor ∈ Editor.all,
      machine.files.stat (session.home.editorPath editor) =
          .ok (.file (Text.encode editor.script) Files.programMode) ∧
        (machine.installed.lookup (machine.files.placeOf (session.home.editorPath editor))).isNone =
          true ∧
        machine.files.placeOf (session.home.editorPath editor) ≠
          machine.files.placeOf (session.home.filePath Action.editedName)) ∧
    session.home.filePath Action.editedName ∉ Shell.Task.streamNames ∧
    machine.files.find? (machine.files.placeOf session.home.root ++ [Action.editedName]) = none ∧
    machine.files.find? (machine.files.placeOf session.home.clearTextPath) = none

instance (session : Session) (machine : Machine) : Decidable (session.IsFurnished machine) :=
  inferInstanceAs (Decidable (_ ∧ _))

theorem IsFurnished.hasEditors_hasRoom {session : Session} {machine : Machine}
    (hfurnished : session.IsFurnished machine) :
    session.home.HasEditors machine.installed machine.files ∧
      session.home.HasRoom machine.files Action.editedName := by
  obtain ⟨habsolute, hdirectory, heditors, hordinary, hfree, hclear⟩ := hfurnished
  have hmem : ∀ editor : Editor, editor ∈ Editor.all := by
    intro editor
    cases editor <;> decide
  have hproper : Files.IsProper Action.editedName :=
    ⟨by decide +kernel, by decide +kernel, by decide +kernel, by decide +kernel⟩
  have hhome : session.home.HasEditors machine.installed machine.files :=
    ⟨habsolute, hdirectory, fun editor => (heditors editor (hmem editor)).1,
      fun editor => Option.isNone_iff_eq_none.mp (heditors editor (hmem editor)).2.1⟩
  have hspot := (hhome.isSpot hproper (by decide +kernel) (by decide +kernel) (by decide +kernel)
    (.inl hfree)).1
  exact ⟨hhome, hordinary, ⟨_, _, hspot⟩, fun editor => (heditors editor (hmem editor)).2.2,
    .inl hclear⟩

theorem lasts_roundTrips_knotty :
    let session := ofProgram "/run" "/home"
    let steps := [.selectEditor .date none, noting]
    let later := (performAll steps session workshop).2
    Opened "/home" session workshop ∧
      later.1.CanSave later.2 knotty Action.editedName (.cat "safe") [] .default ∧
      later.1.RoundTrips later.2 knotty Action.editedName (.list []) [] .default := by
  intro session steps later
  have hopened : Opened "/home" session workshop := opened_ofProgram _ _ _
  have hlasts := lasts_performAll steps session workshop
  have hfurnished : later.1.IsFurnished later.2 := by
    simp only [later, steps, session]
    decide +kernel
  obtain ⟨heditors, hroom⟩ := hfurnished.hasEditors_hasRoom
  have hlater : later.1.agent.running.isNone = true ∧ 0 < later.1.settings.exitTimeout ∧
      0 < later.1.settings.promptTimeout ∧ (later.2.installed.lookup ["run"]).isSome = true ∧
      (later.2.installed.lookup ["bin", "cp"]).isNone = true ∧
      Executable.inspect later.2.files "/run" = .ok (["run"], []) ∧
      Executable.inspect later.2.files "/bin/cp" = .ok (["bin", "cp"], []) := by
    simp only [later, steps, session]
    decide +kernel
  obtain ⟨hidle, hexit, hprompt, hinstalled, hown, hrun, hcp⟩ := hlater
  obtain ⟨program, hprogram⟩ := Option.isSome_iff_exists.mp hinstalled
  have hcalls : ∀ command ∈ [Command.list [], .cat "safe"], ∀ editor ∈ [Editor.env, .save],
      let call := (later.1.choosing editor (some knotty)).call command [] .default later.2
      Executable.resolve later.2.files call.environment call.name = .ok "/run" ∧
        Executable.Fits call ∧
        Executable.Fits ⟨later.1.home.editorPath editor, [later.1.home.filePath Action.editedName],
          call.environment⟩ ∧
        Executable.resolve later.2.files call.environment "cp" = .ok "/bin/cp" ∧
        Executable.Fits ⟨"cp", [later.1.home.filePath Action.editedName, later.1.home.copyPath],
          call.environment ++ [Shell.placeEntry later.2.files.working]⟩ := by
    simp only [later, steps, session]
    decide +kernel
  have hedit : ∀ command ∈ [Command.list [], .cat "safe"], ∀ editor ∈ [Editor.env, .save],
      (later.1.choosing editor (some knotty)).CanEdit later.2 Action.editedName command []
        .default := by
    intro command hcommand editor heditor
    obtain ⟨hresolve, hfits, heditorFits, -, -⟩ := hcalls command hcommand editor heditor
    refine ⟨⟨["run"], program, ⟨"/run", [], hresolve, hrun⟩, hprogram⟩, hfits, ?_⟩
    intro other hother
    obtain rfl : editor = other := Option.some.inj hother
    exact heditorFits
  have hsave : later.1.CanSave later.2 knotty Action.editedName (.cat "safe") [] .default := by
    obtain ⟨-, -, -, hresolve, hfits⟩ := hcalls (.cat "safe") (by decide) .save (by decide)
    exact ⟨hedit _ (by decide) _ (by decide), ⟨⟨["bin", "cp"], by decide, ⟨_, [], hresolve, hcp⟩,
      Option.isNone_iff_eq_none.mp hown⟩, hfits⟩, fun _ => hprompt⟩
  exact ⟨hopened, hsave, lasts_roundTrips (by decide +kernel) hopened rfl rfl hlasts
    (Option.isNone_iff_eq_none.mp hidle) heditors.intact heditors.own hroom hexit
    (hedit _ (by decide) _ (by decide)) rfl rfl⟩

def hasty : Session :=
  { ofProgram "/run" "/home" with
    settings := { Settings.default with program := some "/run", exitTimeout := 0 } }

/-- Where no time is given to exit, not even the shortest payload comes back. -/
theorem not_roundTrips_hasty :
    Opened "/home" hasty workshop ∧ hasty.settings.editorDirectory = none ∧
      workshop.numbers = [] ∧ hasty.agent.running = none ∧ hasty.home.tornDown = false ∧
      hasty.home.HasEditors workshop.installed workshop.files ∧
      hasty.home.HasRoom workshop.files Action.editedName ∧
      (hasty.choosing .env (some "x")).CanEdit workshop Action.editedName (.list []) [] .default ∧
      ((hasty.choosing .env (some "x")).run (.list []) [] .default
        (workshop.equip (Action.editCommand Action.editedName))).1.outcome =
          .error (.exitTimeout "/run ls" 0 "") ∧
      ¬hasty.RoundTrips workshop "x" Action.editedName (.list []) [] .default := by
  have hopened : Opened "/home" hasty workshop :=
    .bare (rfl : begin { Settings.default with program := some "/run", exitTimeout := 0 } "/home"
      "case" bench = (.ok hasty, workshop))
  have hfurnished : hasty.IsFurnished workshop := by decide +kernel
  obtain ⟨heditors, hroom⟩ := hfurnished.hasEditors_hasRoom
  have hedit : (hasty.choosing .env (some "x")).CanEdit workshop Action.editedName (.list []) []
      .default := by
    refine ⟨⟨["run"], _, ⟨"/run", [], by decide +kernel, by decide +kernel⟩, rfl⟩,
      by decide +kernel, ?_⟩
    intro editor heditor
    obtain rfl : .env = editor := Option.some.inj heditor
    decide +kernel
  have houtcome : ((hasty.choosing .env (some "x")).run (.list []) [] .default
      (workshop.equip (Action.editCommand Action.editedName))).1.outcome =
        .error (.exitTimeout "/run ls" 0 "") := by
    have hcommand : (hasty.choosing .env (some "x")).runner.command
        (hasty.choosing .env (some "x")).test
        ((hasty.choosing .env (some "x")).invocation (.list []) [] .default) = "/run ls" := by
      decide +kernel
    simp only [Session.run, Runner.run_of_starts hedit.starts, hcommand]
    rw [Runner.attend_of_hasty]
    · rfl
    · rfl
  refine ⟨hopened, rfl, rfl, rfl, rfl, heditors, hroom, hedit, houtcome, ?_⟩
  intro htrips
  have hprinted := htrips.printed
  rw [performAll_editing] at hprinted
  have hran := Report.ran.inj (List.head_eq_of_cons_eq (List.tail_eq_of_cons_eq hprinted))
  rw [hran] at houtcome
  cases houtcome

end Session

end PromptHarness
