import PromptHarness.Proofs.Outcomes
import PromptHarness.Proofs.Runs
import PromptHarness.Proofs.Transcript

/-!
# Runs of processes that do not wait

A process that does not wait is over as soon as anybody waits for it, and what it has written and
what it leaves in the files are what comes of it alone.  Whatever is typed to it then is lost.
-/

namespace PromptHarness

namespace Link

variable {link : Link} {process : Process Ending} {world left : World} {ending : Ending}

def ended (link : Link) (left : World) : Link :=
  { link with
    shown := Terminal.shown left.written
    unread := Terminal.shown left.written
    closed := true
    files := left.files }

/-- All that has come is still there, and the terminal lets the process write. -/
structure IsUntouched (link : Link) (world : World) : Prop where
  wiring : link.wiring = .terminal
  held : link.terminal.held = false
  shown : link.shown = Terminal.shown world.written
  unread : link.unread = Terminal.shown world.written
  files : link.files = world.files

theorem IsUntouched.receive (huntouched : link.IsUntouched world) (bytes : Bytes) :
    (link.receive (Terminal.shown bytes)).IsUntouched (world.write bytes) where
  wiring := huntouched.wiring
  held := huntouched.held
  shown := by
    rw [World.write, Terminal.shown_append, ← huntouched.shown]
    rfl
  unread := by
    rw [World.write, Terminal.shown_append, ← huntouched.unread]
    rfl
  files := huntouched.files

theorem IsUntouched.isHeld (huntouched : link.IsUntouched world) : link.isHeld = false := by
  rw [Link.isHeld, huntouched.wiring]
  exact huntouched.held

theorem IsUntouched.ended (huntouched : link.IsUntouched world) :
    link.ended world = { link with closed := true } := by
  unfold Link.ended
  rw [← huntouched.files]
  congr 1
  · exact huntouched.shown.symm
  · exact huntouched.unread.symm

/-- Waiting for a process that does not wait brings it to its end. -/
theorem advance_of_outcome (houtcome : process.outcome? world = some (ending, left))
    (huntouched : link.IsUntouched world) (enough : Bytes → Bool) (time : Nat) :
    advance enough process time link =
      ((link.ended left).verdict enough .closed, .finished ending, link.ended left) := by
  induction process generalizing world link with
  | finished other =>
      cases houtcome
      rw [huntouched.ended]
      rfl
  | print bytes rest ih =>
      have hprint : link.print bytes = link.receive (Terminal.shown bytes) := by
        rw [print, huntouched.wiring]
      have hwiring : link.wiring ≠ .pipe := by simp [huntouched.wiring]
      simp only [advance, huntouched.isHeld, Bool.false_eq_true, false_and, if_false, hwiring, hprint]
      exact ih houtcome (huntouched.receive bytes)
  | warn bytes rest ih =>
      have hwarn : link.warn bytes = link.receive (Terminal.shown bytes) := by
        rw [warn, huntouched.wiring]
      simp only [advance, huntouched.isHeld, Bool.false_eq_true, false_and, if_false, hwarn]
      exact ih houtcome (huntouched.receive bytes)
  | change effect rest ih =>
      have hchanged : Link.IsUntouched { link with files := effect link.files }
          (world.store (effect world.files)) :=
        ⟨huntouched.wiring, huntouched.held, huntouched.shown, huntouched.unread,
          congrArg effect huntouched.files⟩
      exact ih houtcome hchanged
  | look rest ih =>
      simp only [advance, huntouched.files]
      exact ih world.files houtcome huntouched
  | _ => cases houtcome

end Link

namespace Talk

variable {talk : Talk} {ending : Ending}

/-- The process has ended and left nothing to come. -/
structure IsOver (talk : Talk) (ending : Ending) : Prop where
  process : talk.process = .finished ending
  closed : talk.link.closed = true

theorem IsOver.await (hover : talk.IsOver ending) (enough : Bytes → Bool) (time : Nat) :
    (talk.await enough time).2 = talk := by
  simp only [Talk.await, Link.await, hover.closed, if_true]
  repeat' split
  all_goals rfl

theorem IsOver.answer (hover : talk.IsOver ending) (exchange : Exchange) (before after : Bytes) :
    (talk.answer exchange before after).IsOver ending ∧
      (talk.answer exchange before after).link.files = talk.link.files := by
  have hdeadly : talk.link.deadlySignal? exchange.response = none := by
    simp [Link.deadlySignal?, Link.typedSignals, hover.closed]
  have htyped : (talk.link.take after).type exchange.response = talk.link.take after := by
    simp [Link.type, Link.take, hover.closed]
  simp only [Talk.answer, hdeadly, htyped]
  exact ⟨⟨hover.process, hover.closed⟩, rfl⟩

/-- Nothing that is typed to a process that has ended reaches it or the files. -/
theorem IsOver.converse (hover : talk.IsOver ending) (time step : Nat)
    (exchanges : List Exchange) :
    (Talk.converse time step exchanges talk).2.2.IsOver ending ∧
      (Talk.converse time step exchanges talk).2.2.link.files = talk.link.files := by
  induction exchanges generalizing step talk with
  | nil => exact ⟨hover, rfl⟩
  | cons exchange later ih =>
      simp only [Talk.converse, hover.await]
      split
      · exact ⟨hover, rfl⟩
      · next before after _ =>
        obtain ⟨hanswered, hfiles⟩ := hover.answer exchange before after
        obtain ⟨hlast, hkept⟩ := ih hanswered (step + 1)
        exact ⟨hlast, hkept.trans hfiles⟩

end Talk

namespace Runner

variable {runner : Runner} {test command : String} {reserved : Option (Int × String)}
  {invocation : Invocation} {machine : Machine} {process : Process Ending} {files : Files}
  {left : World} {ending : Ending}

def begun (process : Process Ending) (files : Files) : Talk :=
  ⟨process, .start .terminal files, ""⟩

theorem isUntouched_start (files : Files) :
    (Link.start .terminal files).IsUntouched ⟨files, []⟩ := ⟨rfl, rfl, rfl, rfl, rfl⟩

theorem await_begun (houtcome : process.outcome? ⟨files, []⟩ = some (ending, left))
    {enough : Bytes → Bool} (henough : enough [] = false) {time : Nat} (htime : 0 < time) :
    (begun process files).await enough time =
      (((Link.start .terminal files).ended left).verdict enough .closed,
        ⟨.finished ending, (Link.start .terminal files).ended left, ""⟩) := by
  have hunread : enough (Link.start .terminal files).unread = false := henough
  have hopen : (Link.start .terminal files).closed = false := rfl
  simp only [Talk.await, begun, Link.await, hunread, hopen, Nat.ne_of_gt htime, Bool.false_eq_true,
    if_false, Link.advance_of_outcome houtcome (isUntouched_start files)]

/-- A run without exchanges ends as the process does. -/
theorem attend_of_outcome (houtcome : process.outcome? ⟨files, []⟩ = some (ending, left))
    (hnamed : ending.isNamed = true) (hexchanges : invocation.plan.exchanges = [])
    (htime : 0 < runner.exitTimeout) :
    ∃ link : Link, link.files = left.files ∧
      runner.attend command reserved invocation process files =
        (⟨[.drainingOutput, .exited ending.code],
          judge command reserved invocation.expected ending.code
            ⟨Text.lossy (Terminal.shown left.written), Text.lossy (Terminal.shown left.written),
              ending.code, 0⟩⟩, link) := by
  have hawait := @await_begun process files left ending houtcome (fun _ => false) rfl
    runner.exitTimeout htime
  simp only [begun] at hawait
  simp only [attend, hexchanges, Talk.converse, hawait, Link.verdict, Bool.false_eq_true, if_false,
    Process.complete, Process.lifetime, hnamed, if_true]
  exact ⟨_, rfl, rfl⟩

/-- Where there is no time to exit, not even a process that is over at once is in time. -/
theorem attend_of_hasty (hexchanges : invocation.plan.exchanges = [])
    (htime : runner.exitTimeout = 0) :
    (runner.attend command reserved invocation process files).1 =
      ⟨[.drainingOutput, .failed], .error (.exitTimeout command 0 "")⟩ := by
  have hawait : Talk.await ⟨process, .start .terminal files, ""⟩ (fun _ => false) 0 =
      (.late, ⟨process, .start .terminal files, ""⟩) := rfl
  have hrest : Talk.rest ⟨process, .start .terminal files, ""⟩ = "" := rfl
  simp only [attend, hexchanges, htime, Talk.converse, hawait, hrest]
  rfl

/-- By the time at which the first exchange has been gone through, the process is over. -/
theorem isOver_converse (houtcome : process.outcome? ⟨files, []⟩ = some (ending, left))
    {time : Nat} (htime : 0 < time) (exchange : Exchange) (later : List Exchange) :
    (Talk.converse time 0 (exchange :: later) (begun process files)).2.2.IsOver ending ∧
      (Talk.converse time 0 (exchange :: later) (begun process files)).2.2.link.files =
        left.files := by
  have hlacking : Text.holds (Text.encode exchange.cue.literal) [] = false := by
    rcases exchange.cue with (_ | _) | _ | _ <;> decide +kernel
  have hover : Talk.IsOver ⟨.finished ending, (Link.start .terminal files).ended left, ""⟩ ending :=
    ⟨rfl, rfl⟩
  simp only [Talk.converse, await_begun houtcome hlacking htime]
  split
  · exact ⟨hover, rfl⟩
  · next before after _ =>
    obtain ⟨hanswered, hfiles⟩ := hover.answer exchange before after
    obtain ⟨hlast, hkept⟩ := hanswered.converse time 1 later
    exact ⟨hlast, hkept.trans hfiles⟩

/-- Whatever is typed during a run, the files end up as the process leaves them. -/
theorem files_attend (houtcome : process.outcome? ⟨files, []⟩ = some (ending, left))
    (htime : if invocation.plan.exchanges = [] then 0 < runner.exitTimeout
      else 0 < runner.promptTimeout) :
    (runner.attend command reserved invocation process files).2.files = left.files := by
  cases hexchanges : invocation.plan.exchanges with
  | nil =>
      rw [if_pos hexchanges] at htime
      have hawait := @await_begun process files left ending houtcome (fun _ => false) rfl
        runner.exitTimeout htime
      simp only [begun] at hawait
      simp only [attend, hexchanges, Talk.converse, hawait, Link.verdict, Bool.false_eq_true,
        if_false, Process.complete, Process.lifetime]
      split <;> rfl
  | cons exchange later =>
      rw [if_neg (by simp [hexchanges])] at htime
      obtain ⟨hover, hfiles⟩ := isOver_converse houtcome htime exchange later
      simp only [begun] at hover hfiles
      simp only [attend, hexchanges]
      generalize Talk.converse runner.promptTimeout 0 (exchange :: later)
        ⟨process, .start .terminal files, ""⟩ = result at hover hfiles
      obtain ⟨phases, failure, talk⟩ := result
      dsimp only at hover hfiles ⊢
      cases failure with
      | some found => exact hfiles
      | none =>
          simp only [hover.await]
          split
          · simp only [hover.process, Process.complete]
            split <;> exact hfiles
          · exact hfiles

/-- On a machine without other processes a run changes nothing but the files. -/
theorem run_eq_of_starts (hstarts : runner.Starts test invocation machine process)
    (halone : machine.children = []) :
    runner.run test invocation machine =
      ((runner.attend (runner.command test invocation) (runner.reserved test invocation) invocation
          process machine.files).1,
        { machine with
          files := (runner.attend (runner.command test invocation)
            (runner.reserved test invocation) invocation process machine.files).2.files
          nextNumber := machine.nextNumber + 1 }) := by
  obtain ⟨number, started, hstart⟩ := hstarts
  obtain ⟨rfl, rfl⟩ := Machine.eq_of_start hstart
  simp only [run, hstart, command, reserved, Machine.reap, Machine.pass, halone]
  simp

end Runner

end PromptHarness
