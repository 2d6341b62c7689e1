import PromptHarness.Proofs.Runs

/-!
# When a run times out

After the last answer a run waits for the process to close its terminal, and only for that it waits
a limited time.  So the time is up exactly where the terminal stays open.  A process that closes its
terminal in time is waited for to its very end, however long it outlives the time allowed.
-/

namespace PromptHarness

open Position

/-- What it means that a run times out as it does, with `link` as the link to the process when the
run is over.  The last answer was typed at `last`. -/
structure TimesOut (time : Nat) (command : String) (exchanges : List Exchange) (last : Position)
    (run : Run) (link : Link) : Prop where
  /-- The run times out exactly where the process keeps its terminal open. -/
  late : (∃ output, run.outcome = .error (.exitTimeout command time output)) ↔ ¬last.Closes time
  /-- So a process that outlives the time makes the run time out, except where it closes its
  terminal meanwhile. -/
  outlived : (last.Outlives time → ∃ output,
      run.outcome = .error (.exitTimeout command time output)) ↔
    ¬(last.Outlives time ∧ last.Closes time)
  /-- The run that times out is left when the time is up, with a process that is still alive, and
  tells what came behind the last cue. -/
  output : ∀ output, run.outcome = .error (.exitTimeout command time output) →
    last.Outlives time ∧
      ∃ final signals rest, last.Reaches final ∧ link = { final.link with signals := signals } ∧
        final.link.elapsed = last.link.elapsed + time ∧
        Text.Matched (exchanges.map (·.cue.needle)) final.link.shown rest ∧
        output = Text.lossy rest
  /-- A process that closes its terminal in time is waited for to its end, which is what the run
  is judged by, even if it outlives the time. -/
  waited : last.Closes time →
    ∃ final signals ending, last.Reaches final ∧ link = { final.link with signals := signals } ∧
      final.process = .finished ending ∧
      (last.Outlives time → last.link.elapsed + time ≤ link.elapsed) ∧
      (ending.isNamed = true → .exited ending.code ∈ run.phases)

/-- Behind the last answer there are two courses, told apart by whether the terminal is closed in
time. -/
theorem Runner.Course.overdue_or_closed {runner : Runner} {command : String}
    {reserved : Option (Int × String)} {invocation : Invocation} {start last final : Position}
    {run : Run} (hcourse : runner.Course command reserved invocation start final run)
    (hconversed : Conversed runner.promptTimeout start invocation.plan.exchanges last) :
    (¬last.Closes runner.exitTimeout ∧
      final.link.elapsed = last.link.elapsed + runner.exitTimeout ∧
      run.outcome = .error (.exitTimeout command runner.exitTimeout final.rest)) ∨
    (last.Closes runner.exitTimeout ∧
      (∀ output, run.outcome ≠ .error (.exitTimeout command runner.exitTimeout output)) ∧
      ∃ ending, final.process = .finished ending ∧
        (ending.isNamed = true → .exited ending.code ∈ run.phases)) := by
  cases hcourse with
  | stuck hmissed => exact absurd hconversed hmissed.not_conversed
  | overdue hconversed' hwaited =>
      obtain rfl := hconversed.unique hconversed'
      have hcloses := hwaited.closed_iff_closes (by simp)
      cases hwaited with
      | late hreaches hlacking hlate hopen =>
          exact .inl ⟨fun hclosed => by simpa using hcloses.mpr hclosed, hlate, rfl⟩
  | ended hended =>
      obtain rfl := hconversed.unique hended.conversed
      exact .inr ⟨hended.closes, fun output => judge_ne (by simp) (by simp), _, hended.finished,
        by simp⟩
  | nameless hended hnameless =>
      obtain rfl := hconversed.unique hended.conversed
      exact .inr ⟨hended.closes, by simp, _, hended.finished, by simp [hnameless]⟩

/-- Every run that has typed all its answers times out where its process keeps the terminal open,
and nowhere else.  Its process is gone when it is over. -/
theorem run_timesOut (runner : Runner) (test : String) (invocation : Invocation)
    (machine : Machine) (process : Process Ending) (last : Position)
    (hstarts : runner.Starts test invocation machine process)
    (hconversed : Conversed runner.promptTimeout (.start process machine.files)
      invocation.plan.exchanges last) :
    TimesOut runner.exitTimeout (runner.command test invocation) invocation.plan.exchanges last
        (runner.run test invocation machine).1
        (runner.lastLink test invocation machine process) ∧
      (runner.run test invocation machine).2.child? machine.nextNumber = none := by
  refine ⟨?_, Runner.child?_run hstarts⟩
  obtain ⟨final, signals, hcourse, hlink⟩ := Runner.run_course hstarts
  generalize (runner.run test invocation machine).1 = run at hcourse
  generalize runner.lastLink test invocation machine process = link at hlink
  have hreaches := hcourse.reaches hconversed
  rcases hcourse.overdue_or_closed hconversed with
    ⟨hopen, helapsed, houtcome⟩ | ⟨hcloses, houtcome, ending, hfinished, hexited⟩
  · have houtlives := outlives_of_not_closes hopen
    constructor
    case late => simp [hopen, houtcome]
    case outlived => simp [hopen, houtcome]
    case output =>
      intro output hlate
      cases houtcome.symm.trans hlate
      exact ⟨houtlives, final, signals, final.link.unread, hreaches, hlink, helapsed,
        hconversed.matched_reaches hreaches, rfl⟩
    case waited => exact fun hcloses => absurd hcloses hopen
  · constructor
    case late => simp [hcloses, houtcome]
    case outlived => simp [hcloses, houtcome]
    case output => exact fun output hlate => absurd hlate (houtcome output)
    case waited =>
      intro _
      refine ⟨final, signals, ending, hreaches, hlink, hfinished, ?_, hexited⟩
      intro houtlives
      rw [hlink]
      by_contra hearly
      exact houtlives final ⟨hreaches, Nat.not_le.mp hearly⟩ ending hfinished

/-- A process that comes to an exit code only after the time has made the run time out. -/
theorem run_timesOut_idler :
    let idler : Process Ending := .pause 1000 (.finished (.exited 0))
    let runner : Runner := ⟨5000, 500, none, "."⟩
    let start := Position.start idler (Machine.lone idler).files
    runner.Starts "idles" (.lone .empty 0) (.lone idler) idler ∧
      Conversed 5000 start [] start ∧
      TimesOut 500 (runner.command "idles" (.lone .empty 0)) [] start
        (runner.run "idles" (.lone .empty 0) (.lone idler)).1
        (runner.lastLink "idles" (.lone .empty 0) (.lone idler) idler) := by
  intro idler runner start
  have hstarts : runner.Starts "idles" (.lone .empty 0) (.lone idler) idler :=
    runner.starts_lone rfl "idles" .empty 0 idler
  have hconversed : Conversed 5000 start [] start := .done start
  exact ⟨hstarts, hconversed, (run_timesOut runner "idles" _ _ idler start hstarts hconversed).1⟩

/-! ## A process that hangs up -/

namespace Position

/-- A process that is not finished when the time is up has outlived it. -/
theorem outlives_of_reaches {time : Nat} {position later : Position}
    (hreaches : position.Reaches later)
    (helapsed : position.link.elapsed + time ≤ later.link.elapsed)
    (halive : ∀ ending, later.process ≠ .finished ending) : position.Outlives time := by
  intro other hwithin ending hfinished
  rcases hwithin.1.total hreaches with hbefore | hbehind
  · exact halive ending (hbefore.finished hfinished)
  · have hearly := hwithin.2
    have hlater := hbehind.precedes.elapsed
    omega

end Position

/-- A process that hangs up and stays alive for longer than the time allowed does not make the run
time out: the run waits for it and hands out a result. -/
theorem run_ok_of_hangUp :
    let lingerer : Process Ending :=
      .print (Text.encode "x\n") <| .hangUp <| .pause 1500 <| .finished (.exited 0)
    let runner : Runner := ⟨5000, 500, none, "."⟩
    let start := Position.start lingerer (Machine.lone lingerer).files
    Conversed 5000 start (Invocation.lone .empty 0).plan.exchanges start ∧
      start.Outlives 500 ∧
      (runner.run "lingers" (.lone .empty 0) (.lone lingerer)).1.outcome =
        .ok ⟨"x\r\n", "x\r\n", 0, 0⟩ := by
  intro lingerer runner start
  refine ⟨.done start, ?_, ?_⟩
  · let printed : Position :=
      { start.move (.hangUp <| .pause 1500 <| .finished (.exited 0))
          (start.link.print (Text.encode "x\n")) with
        written := Text.encode "x\n" }
    have hprints : Steps start printed := rfl
    have hhangsUp : Steps printed
        (printed.move (.pause 1500 <| .finished (.exited 0)) printed.link.close) := rfl
    have hlingers := (@waitsOn_pause (fun _ => false)
      { printed with link := printed.link.close } (.finished (.exited 0)) rfl 1000 500).reaches
    have hreaches := hlingers.head hhangsUp |>.head hprints
    exact outlives_of_reaches hreaches (Nat.le_refl _) (by simp [move])
  · rw [Runner.run_of_starts (runner.starts_lone rfl "lingers" .empty 0 lingerer)]
    rfl

end PromptHarness
