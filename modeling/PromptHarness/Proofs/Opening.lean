import PromptHarness.Proofs.Results
import PromptHarness.Proofs.FilePreservation

/-!
# Opening a session, and failing to

A session is refused before its home is made, because there is no program, or while it is made,
because its editors are not there; in both cases all is as before.  Where the command that makes the
store fails, the session is closed again with the fault of that command, and neither a process nor
the home is left.  Where it succeeds its result is held, and the home is there as the command has
left it (`Session.opensCleanly`).
-/

namespace PromptHarness

namespace Home

variable {root editors : String} {editorDirectory : Option String} {files later : Files}
  {home : Home} {fault : Fault}

theorem isDirectory_of_setup (hsetup : setup root (some editors) files = (.ok home, later)) :
    (files.makeDirectory (files.placeOf root)).isDirectory editors = true := by
  simp only [setup] at hsetup
  split at hsetup
  · next hthere => exact hthere
  · cases hsetup

/-- A home is only not made where its editors are not there, and then its root is removed. -/
theorem eq_of_setup_error (hsetup : setup root editorDirectory files = (.error fault, later)) :
    ∃ editors, editorDirectory = some editors ∧
      (files.makeDirectory (files.placeOf root)).isDirectory editors = false ∧
      fault = .settings (.noEditorDirectory editors) ∧
      later = (files.makeDirectory (files.placeOf root)).remove
        ((files.makeDirectory (files.placeOf root)).placeOf root) := by
  cases editorDirectory with
  | none => cases hsetup
  | some editors =>
      simp only [setup] at hsetup
      split at hsetup
      · cases hsetup
      · next hmissing =>
        cases hsetup
        exact ⟨editors, rfl, by simpa using hmissing, rfl, rfl⟩

end Home

namespace Session

variable {settings : Settings} {root test last : String} {directory : Place}
  {session : Session} {machine begun after : Machine} {fault : Fault}

/-! ## Refusals -/

/-- Why a session is refused before any process is started for it. -/
inductive Refused (settings : Settings) (root : String) (files : Files) : Fault → Prop
  | noProgram {fault : Fault} (hprogram : settings.program? = .error fault) :
      Refused settings root files fault
  | noEditors {program editors : String} (hprogram : settings.program? = .ok program)
      (heditors : settings.editorDirectory = some editors)
      (hmissing : (files.makeDirectory (files.placeOf root)).isDirectory editors = false) :
      Refused settings root files (.settings (.noEditorDirectory editors))

/-- A session has been refused, and all is as before. -/
structure Refuses (settings : Settings) (root : String) (before : Machine) (fault : Fault)
    (after : Machine) : Prop where
  refused : Refused settings root before.files fault
  /-- Without a program no directory is made in the first place. -/
  untouched : settings.program? = .error fault → after = before
  files : ∀ place, after.files.find? place = before.files.find? place
  children : after.children = before.children

/-- A session has been begun, and its home is there. -/
structure Houses (settings : Settings) (root : String) (before : Machine) (session : Session)
    (after : Machine) : Prop where
  program : settings.program? = .ok session.program
  editors : ∀ editors, settings.editorDirectory = some editors →
    (before.files.makeDirectory (before.files.placeOf root)).isDirectory editors = true
  rooted : session.home.root = root
  there : after.files.isDirectory root = true
  last : session.last = none
  children : after.children = before.children

/-- What comes of beginning a session. -/
inductive Begins (settings : Settings) (root : String) (before : Machine) :
    Except Fault Session × Machine → Prop
  | refused {fault : Fault} {after : Machine} (hrefuses : Refuses settings root before fault after) :
      Begins settings root before (.error fault, after)
  | begun {session : Session} {after : Machine}
      (hhouses : Houses settings root before session after) :
      Begins settings root before (.ok session, after)

theorem begin_begins (hfree : Home.IsFree machine.files root directory last) (settings : Settings)
    (test : String) : Begins settings root machine (begin settings root test machine) := by
  unfold begin
  cases hprogram : settings.program? with
  | error fault =>
      exact .refused ⟨.noProgram hprogram, fun _ => rfl, fun _ => rfl, rfl⟩
  | ok program =>
      dsimp only
      cases hsetup : Home.setup root settings.editorDirectory machine.files with
      | mk outcome files =>
      cases outcome with
      | ok home =>
          obtain ⟨hagrees, hthere⟩ := hfree.agreesOutside_setup hsetup
          have heditors : ∀ editors, settings.editorDirectory = some editors →
              (machine.files.makeDirectory (machine.files.placeOf root)).isDirectory editors =
                true := by
            intro editors hsome
            rw [hsome] at hsetup
            exact Home.isDirectory_of_setup hsetup
          refine .begun ⟨hprogram, heditors, ?_, hfree.isDirectory hagrees hthere, rfl, rfl⟩
          rw [Home.eq_of_setup hsetup]
      | error fault =>
          obtain ⟨editors, heditors, hmissing, rfl, rfl⟩ := Home.eq_of_setup_error hsetup
          refine .refused ⟨.noEditors hprogram heditors hmissing, ?_, ?_, rfl⟩
          · intro hother
            rw [hprogram] at hother
            cases hother
          · refine hfree.find?_remove ?_
            rw [hfree.makeDirectory]
            exact Files.agreesOutside_insert List.prefix_rfl _

/-! ## The store -/

/-- The command that makes the store is started, and what is started is `process`. -/
def Inits (session : Session) (begun : Machine) (process : Process Ending) : Prop :=
  session.runner.Starts session.test (session.invocation (.init none) [] .default) begun process

/-- What its process has left when that command is over. -/
def leftByInit (session : Session) (begun : Machine) (process : Process Ending) : Files :=
  (session.runner.lastLink session.test (session.invocation (.init none) [] .default) begun
    process).files

/-- A session has been closed again behind a command that left the machine as `ran`. -/
structure Leaves (root : String) (before ran after : Machine) : Prop where
  processes : after.numbers = before.numbers
  gone : after.files.isDirectory root = false
  /-- Whatever is in the home goes with it. -/
  emptied : ran.files.stat root = .ok .directory ∨ ran.files.stat root = .error .missing →
    after.files.IsGone root
  /-- Nothing else is taken away. -/
  others : ∀ place, ¬ran.files.placeOf root <+: place →
    after.files.find? place = ran.files.find? place

/-- A session whose store has been made by a command with this result. -/
structure Holds (root : String) (before : Machine) (session : Session) (begun : Machine)
    (result : CommandResult) (later : Session) (after : Machine) : Prop where
  last : later.last = some result
  home : later.home = session.home
  processes : after.numbers = before.numbers
  started : ∃ process, session.Inits begun process
  /-- With no other process around, all is as the process of the command has left it. -/
  left : before.children = [] → ∀ process, session.Inits begun process →
    after.files = session.leftByInit begun process
  /-- The home is there unless some process takes it away. -/
  there : (∀ entry ∈ before.children,
      entry.2.process.Spares fun files => files.isDirectory root = true) →
    ∀ process, session.Inits begun process →
      (process.Spares fun files => files.isDirectory root = true) →
      after.files.isDirectory root = true

/-- What comes of opening a session with its store. -/
inductive Stores (settings : Settings) (root test : String) (before : Machine) :
    List Phase × Except Fault Session × Machine → Prop
  | refused {fault : Fault} {after : Machine} (hrefuses : Refuses settings root before fault after) :
      Stores settings root test before ([], .error fault, after)
  | failed {session ranSession : Session} {begun ran after : Machine} {run : Run} {fault : Fault}
      (hbegin : begin settings root test before = (.ok session, begun))
      (hrun : session.runUsual (.init none) begun = (run, ranSession, ran))
      (hfault : run.outcome = .error fault) (hleaves : Leaves root before ran after) :
      Stores settings root test before (run.phases, .error fault, after)
  | stored {session later : Session} {begun after : Machine} {run : Run} {result : CommandResult}
      (hbegin : begin settings root test before = (.ok session, begun))
      (hrun : session.runUsual (.init none) begun = (run, later, after))
      (hresult : run.outcome = .ok result)
      (hholds : Holds root before session begun result later after) :
      Stores settings root test before (run.phases, .ok later, after)

/-- A command leaves the session as it is, but for the result. -/
theorem eq_of_runUsual {command : Command} {run : Run} {later : Session}
    (hrun : session.runUsual command begun = (run, later, after)) :
    later = { session with last := run.outcome.toOption } ∧
      session.runner.run session.test (session.invocation command [] .default) begun =
        (run, after) := by
  simp only [runUsual, Session.run] at hrun
  cases hrun
  exact ⟨rfl, rfl⟩

/-- A session without an agent takes its home with it when it is closed, and nothing else. -/
theorem leaves_of_teardown (hroot : Home.IsRoot root) {before ran : Machine}
    (hrooted : session.home.root = root) (hstanding : session.home.tornDown = false)
    (hstopped : session.agent.running = none) (hnumbers : ran.numbers = before.numbers) :
    Leaves root before ran (session.teardown ran).2.2 := by
  subst hrooted
  constructor
  case processes =>
    simp only [teardown, Agent.kill, hstopped]
    exact hnumbers
  case gone =>
    rw [files_teardown]
    exact Home.isDirectory_teardown hroot hstanding _
  case emptied =>
    intro hstat
    rw [files_teardown]
    exact Home.isGone_teardown hroot hstanding hstat
  case others =>
    intro place houtside
    rw [files_teardown]
    exact Home.find?_teardown houtside

theorem holds_of_run {before : Machine} {later : Session} {run : Run} {result : CommandResult}
    (hhouses : Houses settings root before session begun) (hnumbers : after.numbers = before.numbers)
    (hrun : session.runUsual (.init none) begun = (run, later, after))
    (hresult : run.outcome = .ok result) : Holds root before session begun result later after := by
  obtain ⟨rfl, hran⟩ := eq_of_runUsual hrun
  constructor
  case last =>
    rw [hresult]
    rfl
  case home => rfl
  case processes => exact hnumbers
  case started =>
    rcases session.runner.starts_or_error session.test
        (session.invocation (.init none) [] .default) begun with hstarts | ⟨error, herror⟩
    · exact hstarts
    · have hspawn := congrArg Run.outcome (Runner.run_of_error herror)
      rw [hran, hresult] at hspawn
      cases hspawn
  case left =>
    intro halone process hstarts
    have hfiles := Runner.Starts.files_run hstarts (hhouses.children.trans halone)
    rw [hran] at hfiles
    exact hfiles
  case there =>
    intro hothers process hstarts hprocess
    have hspares := Runner.Starts.spares hstarts hprocess
      ⟨hhouses.there, hhouses.children ▸ hothers⟩
    rw [hran] at hspares
    exact hspares.files

/-- What opening a session comes to, with and without its store. -/
structure OpensCleanly (settings : Settings) (root test : String) (machine : Machine) : Prop where
  begins : Begins settings root machine (begin settings root test machine)
  stores : Stores settings root test machine (openStore settings root test machine)

/-- A session that cannot be opened leaves neither a home nor a process, and tells what went wrong
first. -/
theorem opensCleanly (hfree : Home.IsFree machine.files root directory last)
    (hnumbered : machine.IsNumbered) (settings : Settings) (test : String) :
    OpensCleanly settings root test machine := by
  have hbegins := begin_begins hfree settings test
  refine ⟨hbegins, ?_⟩
  unfold openStore
  cases hbegin : begin settings root test machine with
  | mk outcome begun =>
  rw [hbegin] at hbegins
  cases hbegins with
  | refused hrefuses => exact .refused hrefuses
  | @begun session _ hhouses =>
      obtain ⟨-, -, files, -, hbegun⟩ := setup_of_begin hbegin
      obtain ⟨hrooted, -, -, hstanding, hstopped⟩ := fresh_of_begin hbegin
      dsimp only
      cases hrun : session.run (.init none) [] .default begun with
      | mk run rest =>
      obtain ⟨later, ran⟩ := rest
      obtain ⟨hlater, hran⟩ := eq_of_runUsual hrun
      have hnumbers : ran.numbers = machine.numbers := by
        have hbegunNumbered : begun.IsNumbered := hbegun ▸ hnumbered
        have hsame := (Runner.numbers_run hbegunNumbered session.runner session.test
          (session.invocation (.init none) [] .default)).1
        rw [hran, hbegun] at hsame
        exact hsame
      dsimp only
      cases houtcome : run.outcome with
      | ok result =>
          exact .stored hbegin hrun houtcome (holds_of_run hhouses hnumbers hrun houtcome)
      | error fault =>
          subst hlater
          exact .failed hbegin hrun houtcome
            (leaves_of_teardown hfree.isRoot hrooted hstanding hstopped hnumbers)

/-- A command that asks for a new password, and for it again, and then acts. -/
def storer (actions : List Action) : Program :=
  Action.program ([.print (Text.encode "password: "), .readLine, .print (Text.encode "confirm: "),
    .readLine] ++ actions)

def storing (actions : List Action) : Machine :=
  (Machine.lone (.finished (.exited 0))).equip (storer actions)

/-- A command that writes below its home and fails, and one that does so and succeeds, which never
takes its home away. -/
theorem opensCleanly_storing :
    let settings := { Settings.default with program := some "/run" }
    let actions : List Action := [.write ".kickpass/store" (Text.encode "x")]
    let spoiling := storing (actions ++ [.exit 3])
    let making := storing actions
    let spoiled := openStore settings "/home" "case" spoiling
    let made := openStore settings "/home" "case" making
    Home.IsFree spoiling.files "/home" [] "home" ∧ spoiling.IsNumbered ∧
      Home.IsFree making.files "/home" [] "home" ∧ making.IsNumbered ∧
      spoiled.2.1.toOption.isNone = true ∧ made.2.1.toOption.isSome = true ∧
      made.2.2.files.isFile "/home/.kickpass/store" = true ∧
      (∀ launch call, (storer actions launch call).Spares
        fun files => files.isDirectory "/home" = true) ∧
      OpensCleanly settings "/home" "case" spoiling ∧ OpensCleanly settings "/home" "case" making := by
  intro settings actions spoiling making spoiled made
  have hfree : ∀ actions, Home.IsFree (storing actions).files "/home" [] "home" :=
    fun actions => Home.isFree_home (Home.isGone_lone (.finished (.exited 0)))
  have hnumbered : ∀ actions, (storing actions).IsNumbered := by
    simp [Machine.IsNumbered, Machine.numbers, storing, Machine.equip, Machine.lone]
  have hspoiled : spoiled.2.1.toOption.isNone = true := by
    simp only [spoiled, spoiling, actions, settings]
    decide +kernel
  have hmade : made.2.1.toOption.isSome = true ∧
      made.2.2.files.isFile "/home/.kickpass/store" = true := by
    simp only [made, making, actions, settings]
    decide +kernel
  have hspares : ∀ launch call, (storer actions launch call).Spares
      fun files => files.isDirectory "/home" = true :=
    fun launch call =>
      Action.spares_process (by decide +kernel) _ _ (by simp [actions, Action.isTame])
  exact ⟨hfree _, hnumbered _, hfree _, hnumbered _, hspoiled, hmade.1, hmade.2, hspares,
    opensCleanly (hfree _) (hnumbered _) settings "case",
    opensCleanly (hfree _) (hnumbered _) settings "case"⟩

/-- A command that takes its home away and succeeds leaves a session without one. -/
theorem home_missing_of_removal :
    let settings := { Settings.default with program := some "/run" }
    let removing := storing [.remove ""]
    let opened := openStore settings "/home" "case" removing
    (begin settings "/home" "case" removing).2.files.isDirectory "/home" = true ∧
      opened.2.1.toOption.isSome = true ∧ opened.2.2.files.isDirectory "/home" = false := by
  intro settings removing opened
  simp only [opened, removing, settings]
  decide +kernel

end Session

end PromptHarness
