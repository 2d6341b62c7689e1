import PromptHarness.Home
import PromptHarness.Proofs.Scopes
import PromptHarness.Utility

/-!
# What the built-in editors do

The editor that writes the payload makes the file hold its bytes whatever they are, and the one that
keeps a copy leaves the file alone and makes a copy of it in the home.  Payload and paths reach the
two as values of parameters inside quotes, so nothing in them is read as anything else.
-/

namespace PromptHarness

namespace Shell

/-! ## Reading the scripts -/

def endOfScript : Source := ⟨[], 4, 0, some (.mark .ending), [], []⟩

def writing : Command :=
  .simple 3 []
    [[.text false (raw "printf")], [.text true (raw "%s")],
      [.text true [], .parameter true (raw "EDITOR_ENV") .value]]
    [.file 1 .forWriting [.text true [], .parameter true ['1'] .value]]

def copying : Command :=
  .simple 3 []
    [[.text false (raw "cp")], [.text true [], .parameter true ['1'] .value],
      [.text true [], .parameter true (raw "HOME") .value, .text true (raw "/editor-save.txt")]]
    []

/-- Where a script is read on from. -/
def Source.behind (rest : String) (line : Nat) : Source := ⟨raw rest, line, 0, none, [], []⟩

/-- A script says nothing in its first two lines and then gives a command. -/
structure Says (script first second : String) (command : Command) : Prop where
  interpreter : line.run (Source.start (raw script)) = .ok (none, .behind first 2)
  remark : line.run (.behind first 2) = .ok (none, .behind second 3)
  command : line.run (.behind second 3) = .ok (some command, .behind "" 4)

section Lines

set_option maxRecDepth 20000

theorem says_env :
    Says Editor.env.script
      ("# Writes the payload from $EDITOR_ENV as the safe plaintext.\n" ++
        "printf \"%s\" \"$EDITOR_ENV\" > \"$1\"\n")
      "printf \"%s\" \"$EDITOR_ENV\" > \"$1\"\n" writing where
  interpreter := by
    have hscript : Editor.env.script =
        "#!/bin/sh\n# Writes the payload from $EDITOR_ENV as the safe plaintext.\n" ++
          "printf \"%s\" \"$EDITOR_ENV\" > \"$1\"\n" := rfl
    rw [hscript]
    cbv
  remark := by cbv
  command := by cbv

theorem says_save :
    Says Editor.save.script
      ("# Leaves the plaintext untouched and keeps a copy next to the workspace.\n" ++
        "cp \"$1\" \"$HOME/editor-save.txt\"\n")
      "cp \"$1\" \"$HOME/editor-save.txt\"\n" copying where
  interpreter := by
    have hscript : Editor.save.script =
        "#!/bin/sh\n# Leaves the plaintext untouched and keeps a copy next to the workspace.\n" ++
          "cp \"$1\" \"$HOME/editor-save.txt\"\n" := rfl
    rw [hscript]
    cbv
  remark := by cbv
  command := by cbv

end Lines

theorem line_ending : line.run (.behind "" 4) = .ok (none, endOfScript) := by
  cbv

/-! ## Performing the scripts -/

/-- A script comes to what its command comes to. -/
theorem outcome?_script {text first second : String} {command : Command}
    (hlines : Says text first second command) {launch : Launcher} {name : String}
    {arguments : List String} {environment : Environment} {world left : World} {after : Scope}
    {fuel : Nat} (hfuel : longestRun = fuel + 3)
    (hcommand : (Task.evaluate false command fuel).outcome?
      (Scope.start launch world.files.working (raw name) (arguments.map raw) environment) world =
        some ((.ok (), after), left))
    (hafter : after.IsPlain) :
    (script launch name (raw text) arguments environment).outcome? world =
      some (.exited after.status, left) := by
  obtain ⟨scope, hstart, hplain, -⟩ :=
    Scope.start_eq launch world.files.working (raw name) (arguments.map raw) environment
  rw [hstart] at hcommand
  have hend : (Task.perform false true (.behind "" 4) fuel).outcome? after left =
      some ((.ok (), after), left) := by
    obtain ⟨rest, rfl⟩ : ∃ rest, fuel = rest + 1 := ⟨199996, by cases hfuel; rfl⟩
    exact Task.outcome?_perform_end (by rw [hafter.aliases]; exact line_ending) rfl
  have htask : (Task.perform false false (Source.start (raw text)) longestRun).outcome? scope world =
      some ((.ok (), after), left) := by
    rw [hfuel]
    refine Task.outcome?_perform_blank (by rw [hplain.aliases]; exact hlines.interpreter) rfl ?_
    refine Task.outcome?_perform_blank (by rw [hplain.aliases]; exact hlines.remark) rfl ?_
    exact Task.outcome?_perform_command (by rw [hplain.aliases]; exact hlines.command) hcommand hend
  rw [script]
  change (session (Scope.start launch world.files.working (raw name) (arguments.map raw)
    environment) _).outcome? world = _
  rw [hstart]
  exact outcome?_session htask hafter

/-! ## The editor that writes the payload -/

namespace Task

variable {scope : Scope} {world : World}

/-- Where the output goes to a file that has just been made, that holds the payload then. -/
theorem outcome?_call_printf {ready : Scope} {place : Place} (hready : ready.IsPlain)
    (hfile : ready.descriptors.lookup 1 = some (.file place)) (hplace : place ≠ [])
    (payload : String) (fuel : Nat) :
    (call false true (raw "printf") [raw "%s", raw payload] (fuel + 2)).outcome? ready
        (world.store (world.files.putAt place [] Files.plainMode)) =
      some ((.ok (), { ready with status := 0 }), world.store
        (world.files.putAt place (Text.encode payload) Files.plainMode)) := by
  have hprinted := @outcome?_printf_text { ready with speaker := raw "printf" }
    (world.store (world.files.putAt place [] Files.plainMode)) place hfile (raw payload)
  have hwritten : (if raw payload = [] then
        world.store (world.files.putAt place [] Files.plainMode)
      else (world.store (world.files.putAt place [] Files.plainMode)).store
        ((world.store (world.files.putAt place [] Files.plainMode)).files.append place
          (raw payload).bytes)) =
      world.store (world.files.putAt place (Text.encode payload) Files.plainMode) := by
    rw [← bytes_raw]
    split
    · next hempty =>
      rw [hempty]
      rfl
    · rw [World.files_store, Files.append_putAt _ hplace, World.store_store]
  rw [hwritten] at hprinted
  have hbuiltin : Builtin.all.lookup (String.ofList (raw "printf")) = some Builtin.printf := rfl
  exact (outcome?_call_builtin hready hbuiltin hprinted).trans rfl

/-- The file that the editor is given holds the payload behind it, whatever that is. -/
theorem outcome?_writing {path payload name : String} {directory : Place} {fuel : Nat}
    (hplain : scope.IsPlain) (hworking : scope.working = world.files.working)
    (harguments : scope.arguments[0]? = some (raw path))
    (hpayload : scope.value? (raw "EDITOR_ENV") = some (raw payload))
    (hordinary : path ∉ streamNames) (hspot : world.files.IsSpot path directory name) :
    ∃ after : Scope, after.IsPlain ∧ after.status = 0 ∧
      (evaluate false writing (fuel + 4)).outcome? scope world =
        some ((.ok (), after), world.store
          (world.files.putAt (directory ++ [name]) (Text.encode payload) Files.plainMode)) := by
  -- The scope in which the words are expanded and the output is redirected.
  let before : Scope := { scope with line := 3, wordStatus := none }
  have hbefore : before.IsPlain :=
    hplain.change _ _ _ _
  have hspoken : Part.spoken? before (.parameter true (raw "EDITOR_ENV") .value) =
      some (raw payload) := spoken?_variable (by decide +kernel) hpayload
  have hoperands : [[.text true (raw "%s")],
      [.text true [], .parameter true (raw "EDITOR_ENV") .value]].mapM (saying? before) =
        some [raw "%s", raw payload] := by
    simp [saying?, hspoken, spoken?_text]
  have hfields := @outcome?_fieldsOf before world (raw "printf") _ _ (fuel + 1) (by decide +kernel)
    (by decide +kernel) (by decide +kernel) hoperands
  have hredirect := @outcome?_redirect before world hbefore
    [.text true [], .parameter true ['1'] .value] path name directory fuel hworking hordinary hspot
    (saying?_first harguments)
  generalize hready : ({ before with
    descriptors := (1, .file (directory ++ [name])) :: before.descriptors.filter (·.1 ≠ 1) } :
      Scope) = ready at hredirect
  have hreadyPlain : ready.IsPlain := by
    rw [← hready]
    exact hbefore.change _ _ _ _
  have hfile : ready.descriptors.lookup 1 = some (.file (directory ++ [name])) := by
    rw [← hready]
    rfl
  have hcall := @outcome?_call_printf world ready _ hreadyPlain hfile (by simp) payload fuel
  have hafter : Scope.IsPlain { ready with status := 0, descriptors := before.descriptors } :=
    hreadyPlain.change _ _ _ _
  refine ⟨{ ready with status := 0, descriptors := before.descriptors }, hafter, rfl, ?_⟩
  have hexec : raw "printf" ≠ raw "exec" := by decide +kernel
  refine outcome?_evaluate hplain ?_ hafter
  refine outcome?_simple ?_ hexec ?_ hreadyPlain hcall
  · exact hfields
  · exact hredirect

end Task

end Shell

/-! ## The editor that keeps a copy -/

namespace Utility

theorem usage_of_isAbsolute {plain valued : List Char} {arguments : List String}
    (habsolute : ∀ argument ∈ arguments, Path.isAbsolute argument = true) :
    usage [] plain valued arguments = .ok ⟨[], arguments⟩ := by
  induction arguments with
  | nil => simp [usage]
  | cons argument rest ih =>
      have hrest := ih fun other hother => habsolute other (List.mem_cons_of_mem argument hother)
      have hfirst := habsolute argument List.mem_cons_self
      unfold Path.isAbsolute at hfirst
      unfold usage
      cases hchars : argument.toList with
      | nil =>
          rw [hchars] at hfirst
          cases hfirst
      | cons char chars =>
          rw [hchars] at hfirst
          obtain rfl : char = '/' := by simpa using hfirst
          simp [hrest, Except.map]

end Utility

namespace Shell.Task

variable {scope : Scope} {world : World}

/-- A copy of a file comes to be at the other path, unless the two are the same file. -/
theorem outcome?_conduct_cp {launch : Launcher} {path copy name copyName : String}
    {directory copyDirectory : Place} {content : Bytes} {mode : Nat} {environment : Environment}
    (hpath : Path.isAbsolute path = true) (hcopy : Path.isAbsolute copy = true)
    (hsource : world.files.IsSpot path directory name)
    (htarget : world.files.IsSpot copy copyDirectory copyName)
    (hfile : world.files.find? (directory ++ [name]) = some (.file content mode)) :
    ∃ code left,
      left.files = (if directory ++ [name] = copyDirectory ++ [copyName] then world.files
        else world.files.putAt (copyDirectory ++ [copyName]) content mode) ∧
      ∀ scope : Scope, scope.working = world.files.working →
        scope.descriptors.lookup 2 = some .errors →
        (conduct (Utility.cp launch ⟨"cp", [path, copy], environment⟩)).outcome? scope world =
          some ((.ok (.exited code), scope), left) := by
  have husage : Utility.usage [] "afprRTuv".toList "".toList [path, copy] =
      .ok ⟨[], [path, copy]⟩ :=
    Utility.usage_of_isAbsolute (by simp [hpath, hcopy])
  have hlocate := hsource.locate_of_file hfile
  have hstat : world.files.stat path = .ok (.file content mode) := by
    rw [hsource.stat, hfile]
  have htargeted : Utility.target world.files path copy = copy := by
    rw [Utility.target, htarget.isDirectory]
    rfl
  simp only [Utility.cp, Utility.withOptions, Utility.withLongOptions, husage, conduct]
  by_cases hsame : directory ++ [name] = copyDirectory ++ [copyName]
  · have hlocate' := htarget.locate_of_file (hsame ▸ hfile)
    let complaint := Utility.shellQuoted path ++ " and " ++ Utility.shellQuoted copy ++
      " are the same file"
    refine ⟨1, world.write (Text.encode ("cp" ++ ": " ++ complaint ++ "\n")), (if_pos hsame).symm,
      fun scope hworking herrors => ?_⟩
    rw [outcome?_bind_of outcome?_files, seen_eq hworking]
    simp only [hstat, htargeted, hlocate]
    rw [hlocate', if_pos (by rw [hsame])]
    exact outcome?_bind_of (outcome?_emit_errors herrors _) _
  · have hother : (Except.ok (directory ++ [name]) : Except FileError Place).toOption ≠
        (world.files.locate copy).toOption := by
      rw [htarget.locate]
      split
      · simp [Except.toOption]
      · simpa [Except.toOption] using hsame
    refine ⟨0, world.store (world.files.putAt (copyDirectory ++ [copyName]) content mode),
      (if_neg hsame).symm, fun scope hworking _ => ?_⟩
    have halter : (alter fun _ => world.files.putAt (copyDirectory ++ [copyName]) content mode).outcome?
        scope world =
          some ((.ok (), scope), world.store
            (world.files.putAt (copyDirectory ++ [copyName]) content mode)) :=
      outcome?_alter_of hworking rfl rfl
    rw [outcome?_bind_of outcome?_files, seen_eq hworking]
    simp only [hstat, htargeted, hlocate]
    rw [if_neg hother]
    simp only [htarget.put, conduct, Utility.succeed, Utility.exited]
    exact outcome?_bind_of halter _

/-- What the editor that keeps a copy leaves is what its copying leaves. -/
theorem outcome?_copying {path root : String} {process : Process Ending} {code fuel : Nat}
    {left : World} (hplain : scope.IsPlain) (hworking : scope.working = world.files.working)
    (harguments : scope.arguments[0]? = some (raw path))
    (hhome : scope.value? (raw "HOME") = some (raw root))
    (hlocate : (locate scope world.files (raw "cp")).isSome = true)
    (hlaunch : scope.launch world.files
      ⟨"cp", [path, root ++ "/editor-save.txt"], scope.environment⟩ = .ok process)
    (hconduct : ∀ before : Scope, before.working = scope.working →
      before.descriptors = scope.descriptors →
      (conduct process).outcome? before world = some ((.ok (.exited code), before), left)) :
    ∃ after : Scope, after.IsPlain ∧
      (evaluate false copying (fuel + 4)).outcome? scope world = some ((.ok (), after), left) := by
  let before : Scope := { scope with line := 3, wordStatus := none }
  have hbefore : before.IsPlain :=
    hplain.change _ _ _ _
  have hspoken : Part.spoken? before (.parameter true (raw "HOME") .value) = some (raw root) :=
    spoken?_variable (by decide +kernel) hhome
  have htarget : saying? before [.text true [], .parameter true (raw "HOME") .value,
      .text true (raw "/editor-save.txt")] = some (raw (root ++ "/editor-save.txt")) := by
    simp [saying?, hspoken, spoken?_text, raw_append]
  have hoperands : [[.text true [], .parameter true ['1'] .value],
      [.text true [], .parameter true (raw "HOME") .value,
        .text true (raw "/editor-save.txt")]].mapM (saying? before) =
        some [raw path, raw (root ++ "/editor-save.txt")] := by
    have hsource : saying? before [.text true [], .parameter true ['1'] .value] =
        some (raw path) := saying?_first harguments
    rw [List.mapM_cons, List.mapM_cons, htarget, hsource]
    rfl
  have hfields := @outcome?_fieldsOf before world (raw "cp") _ _ (fuel + 1) (by decide +kernel)
    (by decide +kernel) (by decide +kernel) hoperands
  have hredirect : (redirect [] (fuel + 2)).outcome? before world =
      some ((.ok true, before), world) := by
    simp [redirect]
  have hprogram : (launch (raw "cp") [raw path, raw (root ++ "/editor-save.txt")]).outcome? before
      world = some ((.ok code, before), left) := by
    refine outcome?_launch hbefore hworking (by decide +kernel) hlocate ?_ (hconduct before rfl rfl)
    simp only [List.map_cons, List.map_nil, Raw.text_raw]
    exact hlaunch
  have hcall : (call false true (raw "cp") [raw path, raw (root ++ "/editor-save.txt")]
      (fuel + 2)).outcome? before world = some ((.ok (), { before with status := code }), left) :=
    outcome?_call_program hbefore (by decide +kernel) hprogram
  have hafter : Scope.IsPlain { before with status := code } :=
    hbefore.change _ _ _ _
  have hexec : raw "cp" ≠ raw "exec" := by decide +kernel
  refine ⟨{ before with status := code }, hafter, ?_⟩
  refine outcome?_evaluate hplain ?_ hafter
  refine outcome?_simple ?_ hexec ?_ hbefore hcall
  · exact hfields
  · exact hredirect

end Shell.Task

/-! ## The editors as programs -/

namespace Editor

variable {world : World} {launch : Launcher} {editorPath path name : String} {directory : Place}
  {environment : Environment}

/-- Afterwards the file holds the payload, whatever characters that is made of. -/
theorem outcome?_env {payload : String} (hpayload : environment.value? "EDITOR_ENV" = some payload)
    (hordinary : path ∉ Shell.Task.streamNames) (hspot : world.files.IsSpot path directory name) :
    (Shell.script launch editorPath (Shell.raw env.script) [path] environment).outcome? world =
      some (.exited 0, world.store
        (world.files.putAt (directory ++ [name]) (Text.encode payload) Files.plainMode)) := by
  have hvalue := @Shell.Scope.value?_start launch world.files.working (Shell.raw editorPath)
    [Shell.raw path] environment "EDITOR_ENV" payload (by decide +kernel) (by decide) hpayload
  obtain ⟨scope, hstart, hplain, -, hworking, harguments, -⟩ := Shell.Scope.start_eq launch
    world.files.working (Shell.raw editorPath) [Shell.raw path] environment
  rw [hstart] at hvalue
  obtain ⟨after, hafter, hstatus, hwriting⟩ := @Shell.Task.outcome?_writing scope world path payload
    name directory 199993 hplain hworking (by rw [harguments]; rfl) hvalue hordinary hspot
  rw [← hstart] at hwriting
  have hfuel : Shell.longestRun = 199993 + 4 + 3 := rfl
  rw [← hstatus]
  exact Shell.outcome?_script Shell.says_env hfuel hwriting hafter

/-- The variables that a shell hands on to the program that makes the copy. -/
structure HandsOn (working : Place) (environment given : Environment) : Prop where
  subperm : given.Subperm (environment ++ [Shell.placeEntry working])
  received : given.map Environment.received = given
  path : given.value? "PATH" = environment.value? "PATH"

theorem handsOn_start {working : Place} {shellName : Shell.Raw} {arguments : List Shell.Raw} :
    HandsOn working environment
      (Shell.Scope.start launch working shellName arguments environment).environment := by
  have hcarries := @Shell.Scope.carries_start launch working shellName arguments environment
  constructor
  case subperm => exact hcarries.subperm_environment
  case received =>
    have hsame : ∀ entry ∈
        (Shell.Scope.start launch working shellName arguments environment).environment,
        Environment.received entry = id entry := by
      intro entry hentry
      refine Environment.received_eq fun hequals => ?_
      have hname := (hcarries.exists_of_mem hentry).2
      have hmem := @Shell.mem_raw '=' (by decide) _ (List.mem_of_mem_tail hequals)
      exact absurd (Shell.isNameRest_of_mem hname hmem) (by decide)
    rw [List.map_congr_left hsame, List.map_id]
  case path => exact Shell.Scope.value?_environment_start (by decide +kernel) (by decide)

/-- The file stays as it is, and in the home there is a copy of it afterwards. -/
theorem outcome?_save {root copyName : String} {directory' place : Place} {operands : List String}
    {content : Bytes} {mode : Nat} (hhome : environment.value? "HOME" = some root)
    (hroot : Path.isAbsolute root = true) (hpath : Path.isAbsolute path = true)
    (hreceived : environment.map Environment.received = environment)
    (hsource : world.files.IsSpot path directory name)
    (hcopy : world.files.IsSpot (root ++ "/editor-save.txt") directory' copyName)
    (hfile : world.files.find? (directory ++ [name]) = some (.file content mode))
    (hleads : Executable.Leads world.files ⟨"cp", operands, environment⟩ place)
    (hlaunch : ∀ given, HandsOn world.files.working environment given →
      ∃ deeper, launch world.files ⟨"cp", [path, root ++ "/editor-save.txt"], given⟩ =
        .ok (Utility.cp deeper ⟨"cp", [path, root ++ "/editor-save.txt"], given⟩)) :
    ∃ code left,
      (Shell.script launch editorPath (Shell.raw save.script) [path] environment).outcome? world =
        some (.exited code, left) ∧
      left.files = if directory ++ [name] = directory' ++ [copyName] then world.files
        else world.files.putAt (directory' ++ [copyName]) content mode := by
  have hvalue := @Shell.Scope.value?_start launch world.files.working (Shell.raw editorPath)
    [Shell.raw path] environment "HOME" root (by decide +kernel) (by decide) hhome
  have hlocate := @Shell.Task.isSome_locate_start world.files "cp" launch world.files.working place
    (Shell.raw editorPath) [Shell.raw path] operands environment hreceived (by decide) hleads
  obtain ⟨deeper, hcp⟩ := hlaunch _ (@handsOn_start launch environment world.files.working
    (Shell.raw editorPath) [Shell.raw path])
  obtain ⟨scope, hstart, hplain, hlauncher, hworking, harguments, hdescriptors, -⟩ :=
    Shell.Scope.start_eq launch world.files.working (Shell.raw editorPath) [Shell.raw path]
      environment
  rw [hstart] at hvalue hlocate hcp
  obtain ⟨code, left, hleft, hconduct⟩ := @Shell.Task.outcome?_conduct_cp world deeper path
    (root ++ "/editor-save.txt") name copyName directory directory' content mode scope.environment
    hpath (Path.isAbsolute_append hroot _) hsource hcopy hfile
  obtain ⟨after, hafter, hcopying⟩ := @Shell.Task.outcome?_copying scope world path root _ code
    199993 left hplain hworking (by rw [harguments]; rfl) hvalue hlocate (by rw [hlauncher]; exact hcp)
    (fun before hbefore hsame => hconduct before (hbefore.trans hworking)
      (by rw [hsame, hdescriptors]; rfl))
  rw [← hstart] at hcopying
  have hfuel : Shell.longestRun = 199993 + 4 + 3 := rfl
  exact ⟨after.status, left, Shell.outcome?_script Shell.says_save hfuel hcopying hafter, hleft⟩

end Editor

end PromptHarness
