import PromptHarness.Proofs.FalseDefects

/-!
# Runs under a tool that only passes on what the program does

A tool shows on the terminal what its program shows, waits where it waits, reads what it reads, and
exits with its code; what it does to the files is its own affair (`Mirrors`).  Such a tool makes no
difference to a run but for the one code that is reserved for it: both runs go through the same
phases, and they come to the same outcome, told with another command line.  Only where the program
dies by a signal that has no name, of which a run makes nothing, does the tool's code make something
of it (`Hides`).

Both runs are kept in step by one relation between what they hold, `Twins`: the processes still to
come mirror each other, and the links agree on all but the files.
-/

namespace PromptHarness

/-! ## Mirroring -/

/-- How a tool may end when its program has ended: alike, or with the code of that ending. -/
inductive Echoes : Ending → Ending → Prop
  | same (ending : Ending) : Echoes ending ending
  | status (ending : Ending) : Echoes (.exited ending.status) ending

/-- Among the files `own` the tool does on its terminal and about signals what the program does
among the files `files`, and ends accordingly.  Either may look at its files and change them. -/
inductive Mirrors : Process Ending → Files → Process Ending → Files → Prop
  | finished {own files : Files} {ending ending' : Ending} (hechoes : Echoes ending ending') :
      Mirrors (.finished ending) own (.finished ending') files
  | print {own files : Files} {tool program : Process Ending} (bytes : Bytes)
      (hnext : Mirrors tool own program files) :
      Mirrors (.print bytes tool) own (.print bytes program) files
  | warn {own files : Files} {tool program : Process Ending} (bytes : Bytes)
      (hnext : Mirrors tool own program files) :
      Mirrors (.warn bytes tool) own (.warn bytes program) files
  | ask {own files : Files} {tool program : Option Bytes → Process Ending} (portion : Portion)
      (hnext : ∀ input, Mirrors (tool input) own (program input) files) :
      Mirrors (.ask portion tool) own (.ask portion program) files
  | pause {own files : Files} {tool program : Process Ending} (span : Nat)
      (hnext : Mirrors tool own program files) :
      Mirrors (.pause span tool) own (.pause span program) files
  | hangUp {own files : Files} {tool program : Process Ending}
      (hnext : Mirrors tool own program files) :
      Mirrors (.hangUp tool) own (.hangUp program) files
  | arrange {own files : Files} {tool program : Process Ending} (signal : Nat)
      (arrangement : Arrangement) (hnext : Mirrors tool own program files) :
      Mirrors (.arrange signal arrangement tool) own (.arrange signal arrangement program) files
  | collect {own files : Files} {tool program : List Nat → Process Ending}
      (hnext : ∀ signals, Mirrors (tool signals) own (program signals) files) :
      Mirrors (.collect tool) own (.collect program) files
  | toolChanges {own files : Files} {tool program : Process Ending} {effect : Files → Files}
      (hnext : Mirrors tool (effect own) program files) :
      Mirrors (.change effect tool) own program files
  | toolLooks {own files : Files} {tool : Files → Process Ending} {program : Process Ending}
      (hnext : Mirrors (tool own) own program files) : Mirrors (.look tool) own program files
  | programChanges {own files : Files} {tool program : Process Ending} {effect : Files → Files}
      (hnext : Mirrors tool own program (effect files)) :
      Mirrors tool own (.change effect program) files
  | programLooks {own files : Files} {tool : Process Ending} {program : Files → Process Ending}
      (hnext : Mirrors tool own (program files) files) : Mirrors tool own (.look program) files

/-- Left alone, both come to endings of which the one tells the other. -/
theorem Mirrors.complete {tool program : Process Ending} {own files : Files}
    (hmirrors : Mirrors tool own program files) (waiting : List Nat) :
    Echoes (tool.complete waiting own).1 (program.complete waiting files).1 := by
  induction hmirrors generalizing waiting with
  | finished hechoes => exact hechoes
  | print bytes _ ih => exact ih waiting
  | warn bytes _ ih => exact ih waiting
  | ask portion _ ih => exact ih none waiting
  | pause span _ ih => exact ih waiting
  | hangUp _ ih => exact ih waiting
  | arrange signal arrangement _ ih => exact ih waiting
  | collect _ ih => exact ih waiting []
  | toolChanges _ ih => exact ih waiting
  | toolLooks _ ih => exact ih waiting
  | programChanges _ ih => exact ih waiting
  | programLooks _ ih => exact ih waiting

/-! ## Keeping in step -/

def Link.withFiles (link : Link) (files : Files) : Link := { link with files := files }

/-- Two processes that mirror each other, with links that agree on all but the files. -/
structure Twins (tool : Process Ending) (toolLink : Link) (program : Process Ending)
    (link : Link) : Prop where
  mirrors : Mirrors tool toolLink.files program link.files
  alike : link = toolLink.withFiles link.files

/-- Two waits that ended alike, and left twins behind. -/
structure InStep (tool program : Halt × Process Ending × Link) : Prop where
  halt : tool.1 = program.1
  twins : Twins tool.2.1 tool.2.2 program.2.1 program.2.2

theorem InStep.intro {tool program : Process Ending} {own files : Files}
    (hmirrors : Mirrors tool own program files) (halt : Halt) (link : Link) :
    InStep (halt, tool, link.withFiles own) (halt, program, link.withFiles files) :=
  ⟨rfl, hmirrors, rfl⟩

/-- What both decide alike, they may decide either way. -/
theorem InStep.ite {condition : Prop} [Decidable condition]
    {tool tool' program program' : Halt × Process Ending × Link}
    (hthen : condition → InStep tool program) (helse : ¬condition → InStep tool' program') :
    InStep (if condition then tool else tool') (if condition then program else program') := by
  by_cases hcondition : condition
  · rw [if_pos hcondition, if_pos hcondition]
    exact hthen hcondition
  · rw [if_neg hcondition, if_neg hcondition]
    exact helse hcondition

theorem Link.print_withFiles (link : Link) (bytes : Bytes) (files : Files) :
    (link.withFiles files).print bytes = (link.print bytes).withFiles files := by
  unfold Link.print
  cases hwiring : link.wiring <;> simp [withFiles, hwiring, Link.receive]

theorem Link.warn_withFiles (link : Link) (bytes : Bytes) (files : Files) :
    (link.withFiles files).warn bytes = (link.warn bytes).withFiles files := by
  unfold Link.warn
  cases hwiring : link.wiring <;> simp [withFiles, hwiring, Link.receive]

theorem Link.input_withFiles (link : Link) (portion : Portion) (files : Files) :
    (link.withFiles files).input portion =
      (link.input portion).map fun (bytes, link) => (bytes, link.withFiles files) := by
  unfold Link.input
  cases hwiring : link.wiring with
  | terminal => cases htake : link.terminal.take portion <;> simp [withFiles, hwiring, htake]
  | pipe => simp [withFiles, hwiring]

theorem Link.type_withFiles (link : Link) (text : String) (files : Files) :
    (link.withFiles files).type text = (link.type text).withFiles files := by
  unfold Link.type
  cases hclosed : link.closed <;> simp [withFiles, hclosed, typedSignals]

theorem InStep.stall {tool program : Process Ending} {own files : Files}
    (hmirrors : Mirrors tool own program files) (enough : Bytes → Bool) (time : Nat)
    (link : Link) :
    InStep ((link.withFiles own).stall enough tool time)
      ((link.withFiles files).stall enough program time) :=
  .ite (fun _ => .intro hmirrors _ link) (fun _ => .intro hmirrors _ (link.pass time))

/-- Two processes that mirror each other are waited for alike. -/
theorem Mirrors.advance {tool program : Process Ending} {own files : Files}
    (hmirrors : Mirrors tool own program files) (enough : Bytes → Bool) (time : Nat)
    (link : Link) :
    InStep (Link.advance enough tool time (link.withFiles own))
      (Link.advance enough program time (link.withFiles files)) := by
  induction hmirrors generalizing time link with
  | finished hechoes =>
      exact .intro (.finished hechoes) (link.verdict enough .closed) { link with closed := true }
  | print bytes hnext ih =>
      simp only [Link.advance, Link.print_withFiles]
      apply InStep.ite
      · exact fun _ => .stall (.print bytes hnext) enough time link
      · intro _
        apply InStep.ite
        · exact fun _ => .intro hnext _ (link.print bytes)
        · exact fun _ => ih time (link.print bytes)
  | warn bytes hnext ih =>
      simp only [Link.advance, Link.warn_withFiles]
      apply InStep.ite
      · exact fun _ => .stall (.warn bytes hnext) enough time link
      · exact fun _ => ih time (link.warn bytes)
  | ask portion hnext ih =>
      simp only [Link.advance, Link.input_withFiles]
      cases link.input portion with
      | none => exact .stall (.ask portion hnext) enough time link
      | some given => exact ih given.1 time given.2
  | pause span hnext ih =>
      apply InStep.ite
      · exact fun _ => .intro (.pause span hnext) _ link
      · intro _
        apply InStep.ite
        · exact fun _ => ih (time - span) (link.pass span)
        · exact fun _ => .intro (.pause (span - time) hnext) _ (link.pass time)
  | hangUp hnext => exact .intro hnext (link.verdict enough .closed) { link with closed := true }
  | arrange signal arrangement _ ih =>
      exact ih time { link with signals := link.signals.arrange signal arrangement }
  | collect _ ih =>
      exact ih link.signals.waiting time { link with signals := link.signals.emptied }
  | toolChanges _ ih => exact ih time link
  | toolLooks _ ih => exact ih time link
  | programChanges _ ih => exact ih time link
  | programLooks _ ih => exact ih time link

theorem Twins.await {tool program : Process Ending} {toolLink link : Link}
    (htwins : Twins tool toolLink program link) (enough : Bytes → Bool) (time : Nat) :
    InStep (toolLink.await enough time tool) (link.await enough time program) := by
  have hmirrors := htwins.mirrors
  obtain ⟨files, rfl⟩ : ∃ files, link = toolLink.withFiles files := ⟨_, htwins.alike⟩
  apply InStep.ite
  · exact fun _ => ⟨rfl, htwins⟩
  · intro _
    apply InStep.ite
    · exact fun _ => ⟨rfl, htwins⟩
    · intro _
      apply InStep.ite
      · exact fun _ => ⟨rfl, htwins⟩
      · exact fun _ => hmirrors.advance enough time toolLink

/-- Two talks whose processes are twins and from which the same text has been taken. -/
structure Paired (tool program : Talk) : Prop where
  twins : Twins tool.process tool.link program.process program.link
  transcript : tool.transcript = program.transcript

namespace Paired

variable {tool program : Talk}

theorem unread (hpaired : Paired tool program) : tool.link.unread = program.link.unread := by
  rw [hpaired.twins.alike]
  rfl

theorem rest (hpaired : Paired tool program) : tool.rest = program.rest := by
  rw [Talk.rest, hpaired.unread, Talk.rest]

theorem await (hpaired : Paired tool program) (enough : Bytes → Bool) (time : Nat) :
    (tool.await enough time).1 = (program.await enough time).1 ∧
      Paired (tool.await enough time).2 (program.await enough time).2 :=
  have hstep := hpaired.twins.await enough time
  ⟨hstep.halt, hstep.twins, hpaired.transcript⟩

/-- The same keys have the same effect on twins. -/
theorem answer (hpaired : Paired tool program) (exchange : Exchange) (before after : Bytes) :
    Paired (tool.answer exchange before after) (program.answer exchange before after) := by
  obtain ⟨toolProcess, toolLink, transcript⟩ := tool
  obtain ⟨programProcess, link, transcript'⟩ := program
  obtain ⟨⟨hmirrors, halike⟩, htranscript⟩ := hpaired
  simp only at hmirrors halike htranscript
  subst htranscript
  obtain ⟨files, rfl⟩ : ∃ files, link = toolLink.withFiles files := ⟨_, halike⟩
  obtain ⟨terminal, signals, htype⟩ := (toolLink.take after).exists_type_eq exchange.response
  have htypeTwin : ((toolLink.withFiles files).take after).type exchange.response =
      ((toolLink.take after).type exchange.response).withFiles files :=
    (toolLink.take after).type_withFiles exchange.response files
  have hdeadly : (toolLink.withFiles files).deadlySignal? exchange.response =
      toolLink.deadlySignal? exchange.response := rfl
  refine ⟨⟨?_, ?_⟩, rfl⟩
  · simp only [Talk.answer, htypeTwin, htype, hdeadly]
    cases toolLink.deadlySignal? exchange.response with
    | some signal => exact .finished (.same _)
    | none => exact hmirrors
  · simp only [Talk.answer, htypeTwin, htype]
    rfl

/-- The same exchanges are gone through alike. -/
theorem converse {tool program : Talk} (hpaired : Paired tool program) (time step : Nat)
    (exchanges : List Exchange) :
    (Talk.converse time step exchanges tool).1 = (Talk.converse time step exchanges program).1 ∧
      (Talk.converse time step exchanges tool).2.1 =
        (Talk.converse time step exchanges program).2.1 ∧
      Paired (Talk.converse time step exchanges tool).2.2
        (Talk.converse time step exchanges program).2.2 := by
  induction exchanges generalizing step tool program with
  | nil => exact ⟨rfl, rfl, hpaired⟩
  | cons exchange later ih =>
      obtain ⟨hhalt, hheld⟩ := hpaired.await (Text.holds (Text.encode exchange.cue.literal)) time
      simp only [Talk.converse, hheld.unread, hhalt]
      cases Text.cut? (Text.encode exchange.cue.literal)
          (program.await (Text.holds (Text.encode exchange.cue.literal)) time).2.link.unread with
      | none => exact ⟨rfl, rfl, hheld⟩
      | some parts =>
          obtain ⟨hphases, hfailure, hlast⟩ :=
            ih (hheld.answer exchange parts.1 parts.2) (step + 1)
          exact ⟨congrArg (.consumingPrompt step :: ·) hphases, hfailure, hlast⟩

end Paired

/-! ## The outcome -/

theorem Ending.code_status (ending : Ending) : (Ending.exited ending.status).code = ending.code := by
  cases ending with
  | exited code => rfl
  | signaled signal => simp [code, status]

theorem Echoes.code {ending ending' : Ending} (hechoes : Echoes ending ending') :
    ending.code = ending'.code := by
  cases hechoes with
  | same => rfl
  | status => exact Ending.code_status _

/-- An ending that is echoed has a name, unless none of the two has one. -/
theorem Echoes.isNamed {ending ending' : Ending} (hechoes : Echoes ending ending') :
    ending.isNamed = true ∨ ending.isNamed = false ∧ ending'.isNamed = false := by
  cases hechoes with
  | same => cases hnamed : ending.isNamed <;> simp
  | status => exact .inl rfl

/-- The same fault told with another command line. -/
def Fault.withCommand (command : String) : Fault → Fault
  | spawn _ failure => spawn command failure
  | protocolViolation _ step cue failure transcript =>
    protocolViolation command step cue failure transcript
  | exitTimeout _ time output => exitTimeout command time output
  | unexpectedExitCode _ expected actual output =>
    unexpectedExitCode command expected actual output
  | memoryDefect _ code logFile => memoryDefect command code logFile
  | fault => fault

/-- A run whose reserved code is some, against one for which none is reserved, alike but for that
code. -/
structure Differs (command logFile : String) (reserved : Int) (watched plain : Run) : Prop where
  phases : watched.phases = plain.phases
  same : .exited reserved ∉ plain.phases →
    watched.outcome = plain.outcome.mapError (Fault.withCommand command)
  defect : .exited reserved ∈ plain.phases →
    watched.outcome = .error (.memoryDefect command reserved logFile)

/-- A run that is judged by a code where its process has ended without a name. -/
structure Unveils (command logFile : String) (reserved : Int) (runner : Runner)
    (invocation : Invocation) (start final : Position) (ending : Ending) (watched : Run) :
    Prop where
  ended : ∃ last, runner.Ended invocation.plan.exchanges start last final ending
  nameless : ending.isNamed = false
  judged : watched =
    ⟨Position.prompts 0 invocation.plan.exchanges.length ++
        [.drainingOutput, .exited ending.code],
      judge command (some (reserved, logFile)) invocation.expected ending.code
        ⟨final.rest, final.transcript ++ final.rest, ending.code,
          invocation.plan.exchanges.length⟩⟩

theorem judge_withCommand {command command' logFile : String} {reserved expected code : Int}
    {result : CommandResult} (hcode : code ≠ reserved) :
    judge command (some (reserved, logFile)) expected code result =
      (judge command' none expected code result).mapError (Fault.withCommand command) := by
  have hplain : judge command (some (reserved, logFile)) expected code result =
      judge.plain command expected code result := if_neg hcode
  have hnone : judge command' none expected code result =
      judge.plain command' expected code result := rfl
  rw [hplain, hnone, judge.plain, judge.plain]
  split <;> rfl

theorem Talk.exited_not_mem_converse {time step : Nat} {exchanges : List Exchange} {talk : Talk}
    {code : Int} : .exited code ∉ (Talk.converse time step exchanges talk).1 := by
  induction exchanges generalizing step talk with
  | nil => exact List.not_mem_nil
  | cons exchange later ih =>
      simp only [Talk.converse]
      split
      · simp
      · simpa using ih

/-- Nothing is judged in a run that fails. -/
theorem Differs.of_failed {command logFile : String} {reserved : Int} {phases : List Phase}
    {watched plain : Except Fault CommandResult} (hphases : .exited reserved ∉ phases)
    (hsame : watched = plain.mapError (Fault.withCommand command)) :
    Differs command logFile reserved ⟨phases, watched⟩ ⟨phases, plain⟩ :=
  ⟨rfl, fun _ => hsame, fun hexited => absurd hexited hphases⟩

theorem Differs.of_judged {command command' logFile : String} {reserved expected code : Int}
    {phases : List Phase} (hphases : .exited reserved ∉ phases) (result : CommandResult) :
    Differs command logFile reserved
      ⟨phases ++ [.drainingOutput, .exited code],
        judge command (some (reserved, logFile)) expected code result⟩
      ⟨phases ++ [.drainingOutput, .exited code],
        judge command' none expected code result⟩ where
  phases := rfl
  same := by
    intro hexited
    have hcode : code ≠ reserved := by
      rintro rfl
      exact hexited (by simp)
    exact judge_withCommand hcode
  defect := by
    intro hexited
    obtain rfl : reserved = code := by simpa [hphases] using hexited
    exact judge_eq_memoryDefect_iff.mpr ⟨rfl, rfl, rfl⟩

/-- The run of a tool is that of its program, but for the code that is reserved and where a death is
hidden. -/
theorem Mirrors.attend {tool program : Process Ending} {files : Files}
    (hmirrors : Mirrors tool files program files) (runner : Runner)
    (command command' logFile : String) (reserved : Int) (invocation : Invocation) :
    Differs command logFile reserved
        (runner.attend command (some (reserved, logFile)) invocation tool files).1
        (runner.attend command' none invocation program files).1 ∨
      ∃ final ending, Unveils command logFile reserved runner invocation (.start program files)
        final ending (runner.attend command (some (reserved, logFile)) invocation tool files).1 := by
  have hstart : Paired ⟨tool, .start .terminal files, ""⟩ ⟨program, .start .terminal files, ""⟩ :=
    ⟨⟨hmirrors, rfl⟩, rfl⟩
  obtain ⟨hphases, hfailure, hpaired⟩ :=
    hstart.converse runner.promptTimeout 0 invocation.plan.exchanges
  have hprompts := @Talk.exited_not_mem_converse runner.promptTimeout 0
    invocation.plan.exchanges ⟨program, .start .terminal files, ""⟩ reserved
  simp only [Runner.attend]
  generalize Talk.converse runner.promptTimeout 0 invocation.plan.exchanges
    ⟨tool, .start .terminal files, ""⟩ = watched at hphases hfailure hpaired ⊢
  generalize hplain : Talk.converse runner.promptTimeout 0 invocation.plan.exchanges
    ⟨program, .start .terminal files, ""⟩ = plain at hphases hfailure hpaired hprompts ⊢
  obtain ⟨phases, failure, watched⟩ := watched
  obtain ⟨phases', failure', plain⟩ := plain
  simp only at hphases hfailure hpaired hprompts
  subst hphases hfailure
  cases failure with
  | some missed =>
      rw [hpaired.transcript, hpaired.rest]
      exact .inl (.of_failed (by simpa using hprompts) rfl)
  | none =>
      obtain ⟨hhalt, hended⟩ := hpaired.await (fun _ => false) runner.exitTimeout
      generalize watched.await (fun _ => false) runner.exitTimeout = watched at hhalt hended ⊢
      generalize hawait : plain.await (fun _ => false) runner.exitTimeout = plain'
        at hhalt hended ⊢
      obtain ⟨halt, watched⟩ := watched
      obtain ⟨halt', plain'⟩ := plain'
      simp only at hhalt hended
      subst hhalt
      cases halt with
      | closed =>
          have hwaiting : watched.link.signals.waiting = plain'.link.signals.waiting := by
            rw [hended.twins.alike]
            rfl
          have hechoes := hended.twins.mirrors.complete plain'.link.signals.waiting
          obtain ⟨hprompted, last, final, hend, hrest, htranscript⟩ :=
            Runner.exists_ended_of_await hplain hawait
          simp only [hwaiting, hechoes.code, hended.rest, hended.transcript]
          rcases hechoes.isNamed with htold | ⟨htold, hnameless⟩
          · rw [if_pos htold]
            split
            · exact .inl (.of_judged hprompts _)
            · next hnameless =>
              refine .inr ⟨final, _, ⟨last, hend⟩, by simpa using hnameless, ?_⟩
              rw [hrest, htranscript, hprompted]
          · rw [htold, hnameless]
            exact .inl (.of_failed (by simpa using hprompts) rfl)
      | satisfied =>
          rw [hended.rest]
          exact .inl (.of_failed (by simpa using hprompts) rfl)
      | late =>
          rw [hended.rest]
          exact .inl (.of_failed (by simpa using hprompts) rfl)

/-! ## With the tool and without it -/

def Runner.bare (runner : Runner) : Runner := { runner with checker := none }

/-- A memory checker has no part in how a process ends. -/
theorem Runner.ended_bare_iff {runner : Runner} {exchanges : List Exchange}
    {start last final : Position} {ending : Ending} :
    runner.bare.Ended exchanges start last final ending ↔
      runner.Ended exchanges start last final ending :=
  ⟨fun hended => ⟨hended.conversed, hended.closes, hended.reaches, hended.finished⟩,
    fun hended => ⟨hended.conversed, hended.closes, hended.reaches, hended.finished⟩⟩

theorem Ending.isNamed_of_reserved {ending : Ending} {expected : Int}
    (hcode : ending.code = Checker.reservedCode expected) : ending.isNamed = true := by
  cases ending with
  | exited => rfl
  | signaled signal =>
      simp only [code, Checker.reservedCode] at hcode
      split at hcode <;> omega

/-- The tool ends with a name where its program ends without one. -/
def Hides (runner : Runner) (exchanges : List Exchange) (files : Files)
    (tool program : Process Ending) : Prop :=
  (∃ last final ending,
    runner.Ended exchanges (.start program files) last final ending ∧ ending.isNamed = false) ∧
  ∃ last final ending,
    runner.Ended exchanges (.start tool files) last final ending ∧ ending.isNamed = true

/-- What the tool makes of a run, against what the run comes to without it. -/
structure Transparent (runner : Runner) (test : String) (invocation : Invocation)
    (machine : Machine) (tool program : Process Ending) : Prop where
  phases : ¬Hides runner.bare invocation.plan.exchanges machine.files tool program →
    (runner.run test invocation machine).1.phases =
      (runner.bare.run test invocation machine).1.phases
  /-- Where the program does not end with the reserved code, the tool makes no difference. -/
  same : ¬Hides runner.bare invocation.plan.exchanges machine.files tool program →
    (¬∃ last final ending,
      runner.bare.Ended invocation.plan.exchanges (.start program machine.files) last final ending ∧
        ending.code = Checker.reservedCode invocation.expected) →
    (runner.run test invocation machine).1.outcome =
      (runner.bare.run test invocation machine).1.outcome.mapError
        (Fault.withCommand (runner.command test invocation))
  /-- Where it does, a defect is told. -/
  defect : ∀ last final ending,
    runner.bare.Ended invocation.plan.exchanges (.start program machine.files) last final ending →
    ending.code = Checker.reservedCode invocation.expected →
    (runner.run test invocation machine).1.phases =
        (runner.bare.run test invocation machine).1.phases ∧
      (runner.run test invocation machine).1.outcome =
        .error (.memoryDefect (runner.command test invocation)
          (Checker.reservedCode invocation.expected) (Checker.logFile runner.logDirectory test))
  /-- Only an end without a name can be hidden. -/
  hides : Hides runner.bare invocation.plan.exchanges machine.files tool program →
    ∃ last final signal,
      runner.bare.Ended invocation.plan.exchanges (.start program machine.files) last final
        (.signaled signal) ∧
      Ending.signalName? signal = none ∧
      (runner.bare.run test invocation machine).1 =
        ⟨Position.prompts 0 invocation.plan.exchanges.length ++ [.drainingOutput, .failed],
          .error (.io .unknownSignal)⟩ ∧
      (runner.run test invocation machine).1.phases =
        Position.prompts 0 invocation.plan.exchanges.length ++
          [.drainingOutput, .exited (128 + signal)] ∧
      (runner.run test invocation machine).1.outcome =
        if (128 + signal : Int) = invocation.expected then
          .ok ⟨final.rest, final.transcript ++ final.rest, 128 + signal,
            invocation.plan.exchanges.length⟩
        else .error (.unexpectedExitCode (runner.command test invocation) invocation.expected
          (128 + signal) final.rest)

section Transparent

variable {runner : Runner} {test : String} {invocation : Invocation} {machine : Machine}
  {tool program : Process Ending}

theorem Runner.run_of_nameless {last final : Position} {ending : Ending}
    (hstarts : runner.Starts test invocation machine program)
    (hended : runner.Ended invocation.plan.exchanges (.start program machine.files) last final
      ending)
    (hnameless : ending.isNamed = false) :
    (runner.run test invocation machine).1 =
      ⟨Position.prompts 0 invocation.plan.exchanges.length ++ [.drainingOutput, .failed],
        .error (.io .unknownSignal)⟩ := by
  rw [run_of_starts hstarts]
  exact hended.attend_nameless hnameless _ _

/-- Runs that are alike hide nothing. -/
theorem transparent_of_differs (htool : runner.Starts test invocation machine tool)
    (hprogram : runner.bare.Starts test invocation machine program)
    (halike : Differs (runner.command test invocation) (Checker.logFile runner.logDirectory test)
      (Checker.reservedCode invocation.expected) (runner.run test invocation machine).1
      (runner.bare.run test invocation machine).1) :
    Transparent runner test invocation machine tool program := by
  have hexited := fun code => @Runner.exited_mem_phases_iff _ _ _ _ _ code hprogram
  have hopen : ¬Hides runner.bare invocation.plan.exchanges machine.files tool program := by
    rintro ⟨⟨last, final, ending, hend, hnameless⟩, last', final', ending', hend', hnamed⟩
    have htold : .exited ending'.code ∈ (runner.run test invocation machine).1.phases :=
      (Runner.exited_mem_phases_iff htool).mpr
        ⟨last', final', ending', Runner.ended_bare_iff.mp hend', hnamed, rfl⟩
    rw [halike.phases, Runner.run_of_nameless hprogram hend hnameless] at htold
    simp [Position.prompts] at htold
  constructor
  case phases => exact fun _ => halike.phases
  case same =>
    intro _ hother
    apply halike.same
    rw [hexited]
    rintro ⟨last, final, ending, hend, -, hcode⟩
    exact hother ⟨last, final, ending, hend, hcode⟩
  case defect =>
    intro last final ending hend hcode
    have hnamed := Ending.isNamed_of_reserved hcode
    exact ⟨halike.phases,
      halike.defect ((hexited _).mpr ⟨last, final, ending, hend, hnamed, hcode⟩)⟩
  case hides => exact fun hhides => absurd hhides hopen

/-- A run that is judged by a code although its program has died without a name hides that. -/
theorem transparent_of_unveils {final : Position} {ending : Ending}
    (htool : runner.Starts test invocation machine tool)
    (hprogram : runner.bare.Starts test invocation machine program)
    (hunveils : Unveils (runner.command test invocation)
      (Checker.logFile runner.logDirectory test) (Checker.reservedCode invocation.expected) runner
      invocation (.start program machine.files) final ending
      (runner.run test invocation machine).1) :
    Transparent runner test invocation machine tool program := by
  obtain ⟨⟨last, hended⟩, hnameless, hjudged⟩ := hunveils
  have hended' := Runner.ended_bare_iff.mpr hended
  have hother : ending.code ≠ Checker.reservedCode invocation.expected := by
    intro hcode
    exact absurd (Ending.isNamed_of_reserved hcode) (by simp [hnameless])
  have hhides : Hides runner.bare invocation.plan.exchanges machine.files tool program := by
    have htold : .exited ending.code ∈ (runner.run test invocation machine).1.phases := by
      simp [hjudged]
    obtain ⟨last', final', ending', hend', hnamed, -⟩ :=
      (Runner.exited_mem_phases_iff htool).mp htold
    exact ⟨⟨last, final, ending, hended', hnameless⟩, last', final', ending',
      Runner.ended_bare_iff.mpr hend', hnamed⟩
  constructor
  case phases => exact fun hopen => absurd hhides hopen
  case same => exact fun hopen => absurd hhides hopen
  case defect =>
    intro last' final' ending' hend' hcode
    obtain ⟨rfl, -⟩ := hended'.unique hend'
    exact absurd hcode hother
  case hides =>
    intro _
    cases ending with
    | exited code => cases hnameless
    | signaled signal =>
        refine ⟨last, final, signal, hended', by simpa [Ending.isNamed] using hnameless,
          Runner.run_of_nameless hprogram hended' hnameless, by rw [hjudged]; rfl, ?_⟩
        rw [hjudged]
        exact if_neg hother

end Transparent

/-- A tool that mirrors its program makes no difference to any run, but for the reserved code and
where it hides how the program has died. -/
theorem run_transparent {runner : Runner} {test : String} {invocation : Invocation}
    {machine : Machine} {checker : Checker} {tool program : Process Ending}
    (hchecker : runner.checker = some checker)
    (htool : runner.Starts test invocation machine tool)
    (hprogram : runner.bare.Starts test invocation machine program)
    (hmirrors : Mirrors tool machine.files program machine.files) :
    Transparent runner test invocation machine tool program := by
  have hdiffers := hmirrors.attend runner (runner.command test invocation)
    (runner.bare.command test invocation) (Checker.logFile runner.logDirectory test)
    (Checker.reservedCode invocation.expected) invocation
  have hwatched := Runner.run_of_starts htool
  rw [reserved_of_checker hchecker] at hwatched
  have hplain : (runner.bare.run test invocation machine).1 =
      (runner.attend (runner.bare.command test invocation) none invocation program
        machine.files).1 := Runner.run_of_starts hprogram
  rw [← hwatched, ← hplain] at hdiffers
  rcases hdiffers with halike | ⟨final, ending, hunveils⟩
  · exact transparent_of_differs htool hprogram halike
  · exact transparent_of_unveils htool hprogram hunveils

/-! ## A tool that passes everything on -/

/-- A process that does what another does and exits with its code. -/
def Process.relayed (process : Process Ending) : Process Ending :=
  process.bind fun ending => .finished (.exited ending.status)

/-- A process mirrors what it passes on. -/
theorem mirrors_relayed (process : Process Ending) (files : Files) :
    Mirrors process.relayed files process files := by
  induction process generalizing files with
  | finished ending => exact .finished (.status ending)
  | print bytes next ih => exact .print bytes (ih files)
  | warn bytes next ih => exact .warn bytes (ih files)
  | ask portion next ih => exact .ask portion fun input => ih input files
  | pause span next ih => exact .pause span (ih files)
  | hangUp next ih => exact .hangUp (ih files)
  | arrange signal arrangement next ih => exact .arrange signal arrangement (ih files)
  | collect next ih => exact .collect fun signals => ih signals files
  | change effect next ih => exact .toolChanges (.programChanges (ih (effect files)))
  | look next ih => exact .toolLooks (.programLooks (ih files files))

namespace Checker

/-- Runs the command that it is called with and exits with its code. -/
def relay : Program := fun launch call => (inspected launch call).relayed

def relayShop (program : Process Ending) : Machine :=
  { bench with installed := [(["run"], fun _ _ => program), (["check"], relay)] }

def relayLaunch (program : Process Ending) : Launcher :=
  Executable.launch (relayShop program).installed 63

def relayed (program : Process Ending) : Process Ending :=
  relay (relayLaunch program) workshopCall

theorem launch_relayShop (deepest : Nat) (program : Process Ending) :
    Executable.launch (relayShop program).installed (deepest + 1) bench.files ⟨"/run", [], []⟩ =
      .ok program :=
  @Executable.launch_installed (relayShop program).installed deepest bench.files ⟨"/run", [], []⟩
    "/run" ["run"] [] (fun _ _ => program) (by decide +kernel) (if_pos (by decide +kernel))
    (by decide +kernel) (by decide +kernel) rfl

theorem relayShop_starts_program (plan : Plan) (program : Process Ending) :
    (benchRunner []).bare.Starts "case" (.lone plan 0) (relayShop program) program := by
  obtain ⟨started, hstart⟩ :=
    @Machine.start_of_launch (relayShop program) "/run" [] [] program (launch_relayShop 63 program)
  exact ⟨1, started, hstart⟩

theorem relayShop_starts_tool (plan : Plan) (program : Process Ending) :
    (benchRunner []).Starts "case" (.lone plan 0) (relayShop program) (relayed program) := by
  have hlaunch := @Executable.launch_installed (relayShop program).installed 63 bench.files
    workshopCall "/check" ["check"] [] relay (by decide +kernel) (if_pos (by decide +kernel))
    (by decide +kernel) (by decide +kernel) rfl
  obtain ⟨started, hstart⟩ := @Machine.start_of_launch (relayShop program) _ _ _ _ hlaunch
  exact ⟨1, started, hstart⟩

theorem relayed_eq (program : Process Ending) : relayed program = .look fun files =>
    ((relayLaunch program files ⟨"/run", [], []⟩).toOption.getD
      (.finished (.exited 127))).relayed := by
  have hcommand : workshopCall.arguments.dropWhile isOption = ["/run"] := by decide +kernel
  rw [relayed, relay, inspected, hcommand]
  rfl

theorem mirrors_relayed_shop (program : Process Ending) :
    Mirrors (relayed program) bench.files program bench.files := by
  rw [relayed_eq]
  apply Mirrors.toolLooks
  rw [relayLaunch, launch_relayShop]
  exact mirrors_relayed program bench.files

/-- A program that asks for a password and does not take any. -/
def stickler : Process Ending :=
  .print (Text.encode "password: ") <| .ask .line fun _ =>
    .print (Text.encode "wrong\n") <| .finished (.exited 1)

end Checker

theorem run_transparent_stickler :
    let runner := Checker.benchRunner []
    let invocation : Invocation := .lone ⟨[.password .master "open" false]⟩ 0
    let machine := Checker.relayShop Checker.stickler
    runner.checker = some ⟨"/check", []⟩ ∧
      runner.Starts "case" invocation machine (Checker.relayed Checker.stickler) ∧
      runner.bare.Starts "case" invocation machine Checker.stickler ∧
      Mirrors (Checker.relayed Checker.stickler) machine.files Checker.stickler machine.files ∧
      Transparent runner "case" invocation machine (Checker.relayed Checker.stickler)
        Checker.stickler := by
  intro runner invocation machine
  have htool := Checker.relayShop_starts_tool ⟨[.password .master "open" false]⟩ Checker.stickler
  have hprogram :=
    Checker.relayShop_starts_program ⟨[.password .master "open" false]⟩ Checker.stickler
  have hmirrors : Mirrors (Checker.relayed Checker.stickler) machine.files Checker.stickler
      machine.files := Checker.mirrors_relayed_shop Checker.stickler
  exact ⟨rfl, htool, hprogram, hmirrors, run_transparent rfl htool hprogram hmirrors⟩

/-- A program that dies by a signal without a name leaves its run failed, while under a tool that
exits with the code of that death the run is judged by the code. -/
theorem tool_shows_nameless :
    let runner := Checker.benchRunner []
    let invocation : Invocation := .lone .empty 0
    let casualty : Process Ending := .finished (.signaled 34)
    let machine := Checker.relayShop casualty
    let watched := (runner.run "case" invocation machine).1
    let plain := (runner.bare.run "case" invocation machine).1
    runner.Starts "case" invocation machine (Checker.relayed casualty) ∧
      runner.bare.Starts "case" invocation machine casualty ∧
      plain.phases = [.drainingOutput, .failed] ∧ plain.outcome = .error (.io .unknownSignal) ∧
      watched.phases = [.drainingOutput, .exited 162] ∧
      watched.outcome =
        .error (.unexpectedExitCode (runner.command "case" invocation) 0 162 "") := by
  intro runner invocation casualty machine watched plain
  have htool := Checker.relayShop_starts_tool .empty casualty
  have hprogram := Checker.relayShop_starts_program .empty casualty
  have hrelayed : Mirrors (Checker.relayed casualty) machine.files (.finished (.exited 162))
      machine.files := by
    rw [Checker.relayed_eq]
    apply Mirrors.toolLooks
    change Mirrors ((Checker.relayLaunch casualty Checker.bench.files
      ⟨"/run", [], []⟩).toOption.getD (.finished (.exited 127))).relayed _ _ _
    rw [Checker.relayLaunch, Checker.launch_relayShop]
    exact .finished (.same _)
  have hplain : plain.phases = [.drainingOutput, .failed] ∧
      plain.outcome = .error (.io .unknownSignal) := by
    simp only [plain]
    rw [Runner.run_of_starts hprogram]
    exact ⟨rfl, rfl⟩
  have hwatched : watched.phases = [.drainingOutput, .exited 162] ∧
      watched.outcome =
        .error (.unexpectedExitCode (runner.command "case" invocation) 0 162 "") := by
    have hdiffers := hrelayed.attend runner (runner.command "case" invocation) ""
      (Checker.logFile "." "case") 1 invocation
    simp only [watched]
    rw [Runner.run_of_starts htool]
    have hexited : (runner.attend "" none invocation (.finished (.exited 162))
        machine.files).1.phases = [.drainingOutput, .exited 162] := rfl
    rcases hdiffers with halike | ⟨final, ending, ⟨last, hended⟩, hnameless, -⟩
    · refine ⟨halike.phases.trans hexited, halike.same ?_⟩
      rw [hexited]
      decide
    · cases hended.conversed with
      | done =>
          cases (hended.reaches.finished rfl).symm.trans hended.finished
          cases hnameless
  exact ⟨htool, hprogram, hplain.1, hplain.2, hwatched.1, hwatched.2⟩

end PromptHarness
