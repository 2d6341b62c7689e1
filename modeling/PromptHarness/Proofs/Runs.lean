import PromptHarness.Proofs.Children
import PromptHarness.Proofs.Conversation
import PromptHarness.Proofs.Verdict

/-!
# The course of a run

Once a process has been started, a run goes one of four ways: it is stuck at a cue, the process is
not over in time after the last answer, or the process ends, by which the verdict is given unless
nothing can be made of its ending (`Course`).  `Runner.attend` always goes one of them, and the
process it has attended is gone from the machine when it returns.
-/

namespace PromptHarness

/-! ## A closed terminal -/

namespace Position

/-- A process that has closed its terminal goes on by itself to its end. -/
theorem exists_completed (process : Process Ending) (link : Link) (transcript : String)
    (written : Bytes) (heard : List Bytes) (typed : List String) (hclosed : link.closed = true) :
    ∃ final signals, Reaches ⟨⟨process, link, transcript⟩, written, heard, typed⟩ final ∧
      final.process = .finished (process.complete link.signals.waiting link.files).1 ∧
      final.link =
        { link.pass (process.lifetime link.signals.waiting link.files) with
          files := (process.complete link.signals.waiting link.files).2
          signals := signals } := by
  -- What is written is lost and nothing is read, so only time, files and signals change.
  induction process generalizing link with
  | finished ending => exact ⟨_, link.signals, .refl, rfl, rfl⟩
  | print bytes next ih =>
      obtain ⟨final, signals, hreaches, hprocess, hlink⟩ := ih link hclosed
      refine ⟨final, signals, .head ?_ hreaches, hprocess, hlink⟩
      simp [Steps, step?, move, hclosed]
  | warn bytes next ih =>
      obtain ⟨final, signals, hreaches, hprocess, hlink⟩ := ih link hclosed
      refine ⟨final, signals, .head ?_ hreaches, hprocess, hlink⟩
      simp [Steps, step?, move, hclosed]
  | ask portion next ih =>
      obtain ⟨final, signals, hreaches, hprocess, hlink⟩ := ih none link hclosed
      refine ⟨final, signals, .head ?_ hreaches, hprocess, hlink⟩
      simp [Steps, step?, move, hclosed]
  | pause span next ih =>
      obtain ⟨final, signals, hreaches, hprocess, hlink⟩ := ih (link.pass span) hclosed
      have hpaused := (@waitsOn_pause (fun _ => false)
        ⟨⟨.pause span next, link, transcript⟩, written, heard, typed⟩ next rfl 0 span).reaches
      rw [Nat.zero_add] at hpaused
      refine ⟨final, signals, (hpaused.tail rfl).trans hreaches, hprocess, ?_⟩
      simpa [Link.pass, Process.lifetime, Process.complete, Nat.add_assoc] using hlink
  | hangUp next ih =>
      obtain ⟨final, signals, hreaches, hprocess, hlink⟩ := ih link hclosed
      refine ⟨final, signals, .head ?_ hreaches, hprocess, hlink⟩
      simp [Steps, step?, move, Link.close, ← hclosed]
  | arrange signal arrangement next ih =>
      obtain ⟨final, signals, hreaches, hprocess, hlink⟩ :=
        ih { link with signals := link.signals.arrange signal arrangement } hclosed
      exact ⟨final, signals, .head rfl hreaches, hprocess, hlink⟩
  | collect next ih =>
      obtain ⟨final, signals, hreaches, hprocess, hlink⟩ :=
        ih link.signals.waiting { link with signals := link.signals.emptied } hclosed
      exact ⟨final, signals, .head rfl hreaches, hprocess, hlink⟩
  | change effect next ih =>
      obtain ⟨final, signals, hreaches, hprocess, hlink⟩ :=
        ih { link with files := effect link.files } hclosed
      exact ⟨final, signals, .head rfl hreaches, hprocess, hlink⟩
  | look next ih =>
      obtain ⟨final, signals, hreaches, hprocess, hlink⟩ := ih link.files link hclosed
      exact ⟨final, signals, .head rfl hreaches, hprocess, hlink⟩

/-! ## The first cue that is missed -/

/-- The exchanges `done` are answered, which brings the process to `last`, and the cue of the next
is not shown there in time. -/
structure FirstMissed (time : Nat) (start : Position) (exchanges done : List Exchange)
    (exchange : Exchange) (last : Position) : Prop where
  next : ∃ rest, exchanges = done ++ exchange :: rest
  answered : Conversed time start done last
  missed : ¬last.Shows time exchange.cue.needle

theorem FirstMissed.of_waited {time : Nat} {start last final : Position}
    {exchanges done rest : List Exchange} {exchange : Exchange} {halt : Halt}
    (hexchanges : exchanges = done ++ exchange :: rest) (hconversed : Conversed time start done last)
    (hwaited : Waited (Text.holds exchange.cue.needle) time last halt final)
    (hhalt : halt ≠ .satisfied) : FirstMissed time start exchanges done exchange last where
  next := ⟨rest, hexchanges⟩
  answered := hconversed
  missed := fun hshows => hhalt (hwaited.satisfied_iff_shows.mpr hshows)

/-- Whatever has been answered has been shown in time. -/
theorem Conversed.shows_next {time : Nat} {start middle last : Position} {done rest : List Exchange}
    {exchange : Exchange} (hconversed : Conversed time start (done ++ exchange :: rest) last)
    (hdone : Conversed time start done middle) : middle.Shows time exchange.cue.needle := by
  obtain ⟨middle', hdone', hlater⟩ := hconversed.of_append
  rw [hdone.unique hdone']
  exact hlater.shows

theorem FirstMissed.not_conversed {time : Nat} {start last final : Position}
    {exchanges done : List Exchange} {exchange : Exchange}
    (hmissed : FirstMissed time start exchanges done exchange last)
    (hconversed : Conversed time start exchanges final) : False := by
  obtain ⟨rest, hexchanges⟩ := hmissed.next
  rw [hexchanges] at hconversed
  exact hmissed.missed (hconversed.shows_next hmissed.answered)

/-- Either all exchanges are answered or there is a first cue that is missed. -/
theorem conversed_or_firstMissed (time : Nat) (exchanges : List Exchange) (start : Position)
    (hterminal : start.link.wiring = .terminal) :
    (∃ last, Conversed time start exchanges last) ∨
      ∃ done exchange last, FirstMissed time start exchanges done exchange last := by
  have hconversation := converse_conversation time 0 exchanges start hterminal
  generalize Talk.converse time 0 exchanges start.toTalk = result at hconversation
  cases hconversation with
  | @through last hconversed => exact .inl ⟨last, hconversed⟩
  | stuck hexchanges hconversed hwaited hhalt =>
      exact .inr ⟨_, _, _, .of_waited hexchanges hconversed hwaited hhalt⟩

/-- All exchanges are answered exactly where every cue is shown in time behind those before it. -/
theorem exists_conversed_iff (time : Nat) (exchanges : List Exchange) (start : Position)
    (hterminal : start.link.wiring = .terminal) :
    (∃ last, Conversed time start exchanges last) ↔
      ∀ done exchange rest last, exchanges = done ++ exchange :: rest →
        Conversed time start done last → last.Shows time exchange.cue.needle := by
  constructor
  · rintro ⟨last, hconversed⟩ done exchange rest middle hexchanges hdone
    rw [hexchanges] at hconversed
    exact hconversed.shows_next hdone
  · intro hshows
    rcases conversed_or_firstMissed time exchanges start hterminal with
      hconversed | ⟨done, exchange, last, hmissed⟩
    · exact hconversed
    · obtain ⟨rest, hexchanges⟩ := hmissed.next
      exact absurd (hshows done exchange rest last hexchanges hmissed.answered) hmissed.missed

/-- No cue is missed behind one that is. -/
theorem FirstMissed.eq_nil_of_append {time : Nat} {start last last' : Position}
    {exchanges done more : List Exchange} {exchange exchange' : Exchange}
    (hfirst : FirstMissed time start exchanges done exchange last)
    (hsecond : FirstMissed time start exchanges (done ++ more) exchange' last') : more = [] := by
  obtain ⟨rest, hrest⟩ := hfirst.next
  obtain ⟨rest', hrest'⟩ := hsecond.next
  cases more with
  | nil => rfl
  | cons next more =>
      rw [hrest, List.append_assoc] at hrest'
      obtain ⟨rfl, -⟩ := List.cons.inj (List.append_cancel_left hrest')
      exact absurd (hsecond.answered.shows_next hfirst.answered) hfirst.missed

theorem FirstMissed.unique {time : Nat} {start last last' : Position}
    {exchanges done done' : List Exchange} {exchange exchange' : Exchange}
    (hfirst : FirstMissed time start exchanges done exchange last)
    (hsecond : FirstMissed time start exchanges done' exchange' last') :
    done = done' ∧ exchange = exchange' ∧ last = last' := by
  obtain ⟨rest, hrest⟩ := hfirst.next
  obtain ⟨rest', hrest'⟩ := hsecond.next
  have hsplit := hrest.symm.trans hrest'
  have hdone : done = done' := by
    rcases List.append_eq_append_iff.mp hsplit with ⟨more, rfl, -⟩ | ⟨more, rfl, -⟩
    · rw [hfirst.eq_nil_of_append hsecond, List.append_nil]
    · rw [hsecond.eq_nil_of_append hfirst, List.append_nil]
  subst hdone
  obtain ⟨hexchange, -⟩ := List.cons.inj (List.append_cancel_left hsplit)
  exact ⟨rfl, hexchange, hfirst.answered.unique hsecond.answered⟩

end Position

/-! ## What a run comes to -/

namespace Runner

open Position

/-- The command can be started, and what is started is `process`. -/
def Starts (runner : Runner) (test : String) (invocation : Invocation) (machine : Machine)
    (process : Process Ending) : Prop :=
  ∃ number started, machine.start (runner.dressed test invocation).1
    (runner.dressed test invocation).2.1 invocation.environment = .ok (number, process, started)

def call (runner : Runner) (test : String) (invocation : Invocation) (machine : Machine) :
    Call where
  name := (runner.dressed test invocation).1
  arguments := (runner.dressed test invocation).2.1
  environment := (machine.environment ++ invocation.environment).map Environment.received

/-- The process closes its terminal in time after the last answer, which was typed at `last`, and at
`final` it has ended. -/
structure Ended (runner : Runner) (exchanges : List Exchange) (start last final : Position)
    (ending : Ending) : Prop where
  conversed : Conversed runner.promptTimeout start exchanges last
  closes : last.Closes runner.exitTimeout
  reaches : last.Reaches final
  finished : final.process = .finished ending

/-- How a run can go, up to the position `final` where the process is left. -/
inductive Course (runner : Runner) (command : String) (reserved : Option (Int × String))
    (invocation : Invocation) (start final : Position) : Run → Prop
  | stuck {done : List Exchange} {exchange : Exchange} {last : Position} {halt : Halt}
      (hmissed : FirstMissed runner.promptTimeout start invocation.plan.exchanges done exchange
        last)
      (hwaited : Waited (Text.holds exchange.cue.needle) runner.promptTimeout last halt final) :
      Course runner command reserved invocation start final
        ⟨prompts 0 (done.length + 1) ++ [.failed],
          .error (.protocolViolation command done.length exchange.cue
            (Talk.cueFailure halt runner.promptTimeout) (final.transcript ++ final.rest))⟩
  | overdue {last : Position}
      (hconversed : Conversed runner.promptTimeout start invocation.plan.exchanges last)
      (hwaited : Waited (fun _ => false) runner.exitTimeout last .late final) :
      Course runner command reserved invocation start final
        ⟨prompts 0 invocation.plan.exchanges.length ++ [.drainingOutput, .failed],
          .error (.exitTimeout command runner.exitTimeout final.rest)⟩
  | ended {last : Position} {ending : Ending}
      (hended : Ended runner invocation.plan.exchanges start last final ending)
      (hnamed : ending.isNamed = true) :
      Course runner command reserved invocation start final
        ⟨prompts 0 invocation.plan.exchanges.length ++ [.drainingOutput, .exited ending.code],
          judge command reserved invocation.expected ending.code
            ⟨final.rest, final.transcript ++ final.rest, ending.code,
              invocation.plan.exchanges.length⟩⟩
  | nameless {last : Position} {ending : Ending}
      (hended : Ended runner invocation.plan.exchanges start last final ending)
      (hnamed : ending.isNamed = false) :
      Course runner command reserved invocation start final
        ⟨prompts 0 invocation.plan.exchanges.length ++ [.drainingOutput, .failed],
          .error (.io .unknownSignal)⟩

section Course

variable {runner : Runner} {command : String} {reserved : Option (Int × String)}
  {invocation : Invocation} {start last final : Position} {run : Run}

/-- Wherever the process is left, some of the exchanges have been answered before. -/
theorem Course.answered
    (hcourse : Course runner command reserved invocation start final run) :
    ∃ done last, done <+: invocation.plan.exchanges ∧
      Conversed runner.promptTimeout start done last ∧ last.Reaches final := by
  cases hcourse with
  | @stuck done exchange last halt hmissed hwaited =>
      obtain ⟨rest, hexchanges⟩ := hmissed.next
      exact ⟨done, last, ⟨_, hexchanges.symm⟩, hmissed.answered, hwaited.reaches⟩
  | overdue hconversed hwaited => exact ⟨_, _, List.prefix_rfl, hconversed, hwaited.reaches⟩
  | ended hended => exact ⟨_, _, List.prefix_rfl, hended.conversed, hended.reaches⟩
  | nameless hended => exact ⟨_, _, List.prefix_rfl, hended.conversed, hended.reaches⟩

/-- A run that gets past the prompts goes on from the position behind the last answer. -/
theorem Course.reaches
    (hcourse : Course runner command reserved invocation start final run)
    (hconversed : Conversed runner.promptTimeout start invocation.plan.exchanges last) :
    last.Reaches final := by
  cases hcourse with
  | stuck hmissed => exact absurd hconversed hmissed.not_conversed
  | overdue hconversed' hwaited =>
      rw [hconversed.unique hconversed']
      exact hwaited.reaches
  | ended hended =>
      rw [hconversed.unique hended.conversed]
      exact hended.reaches
  | nameless hended =>
      rw [hconversed.unique hended.conversed]
      exact hended.reaches

/-- A run gets past the prompts exactly where all exchanges are answered. -/
theorem Course.past_iff
    (hcourse : Course runner command reserved invocation start final run) :
    (∃ last, Conversed runner.promptTimeout start invocation.plan.exchanges last) ↔
      ∀ other step cue failure transcript,
        run.outcome ≠ .error (.protocolViolation other step cue failure transcript) := by
  constructor
  · rintro ⟨last, hconversed⟩ other step cue failure transcript
    cases hcourse with
    | stuck hmissed => exact absurd hconversed hmissed.not_conversed
    | overdue => simp
    | ended => exact judge_ne (by simp) (by simp)
    | nameless => simp
  · intro hpast
    cases hcourse with
    | stuck => exact absurd rfl (hpast _ _ _ _ _)
    | overdue hconversed => exact ⟨_, hconversed⟩
    | ended hended => exact ⟨_, hended.conversed⟩
    | nameless hended => exact ⟨_, hended.conversed⟩

end Course

/-- A process that has closed its terminal in time is waited for to its end. -/
theorem exists_ended_of_closed {runner : Runner} {exchanges : List Exchange}
    {start last closing : Position}
    (hconversed : Conversed runner.promptTimeout start exchanges last)
    (hcloses : last.Closes runner.exitTimeout) (hreaches : last.Reaches closing)
    (hclosed : closing.link.closed = true) :
    ∃ final signals,
      Ended runner exchanges start last final
        (closing.process.complete closing.link.signals.waiting closing.link.files).1 ∧
      final.rest = closing.rest ∧ final.transcript = closing.transcript ∧
      final.link =
        { closing.link.pass
            (closing.process.lifetime closing.link.signals.waiting closing.link.files) with
          files :=
            (closing.process.complete closing.link.signals.waiting closing.link.files).2
          signals := signals } := by
  obtain ⟨final, signals, hend, hprocess, hlink⟩ := exists_completed closing.process closing.link
    closing.transcript closing.written closing.heard closing.typed hclosed
  have hreachesEnd : closing.Reaches final := hend
  refine ⟨final, signals, ⟨hconversed, hcloses, hreaches.trans hreachesEnd, hprocess⟩, ?_,
    hreachesEnd.precedes.transcript, hlink⟩
  rw [Talk.rest, hreachesEnd.unread_of_closed hclosed, Talk.rest]

/-- Every run of a process goes one of these ways, and its link is that of the process where it is
left, but for signals. -/
theorem attend_course (runner : Runner) (command : String) (reserved : Option (Int × String))
    (invocation : Invocation) (process : Process Ending) (files : Files) :
    ∃ final signals,
      Course runner command reserved invocation (.start process files) final
        (runner.attend command reserved invocation process files).1 ∧
      (runner.attend command reserved invocation process files).2 =
        { final.link with signals := signals } := by
  have hconversation := converse_conversation runner.promptTimeout 0 invocation.plan.exchanges
    (.start process files) rfl
  simp only [attend]
  change Conversation _ _ _ _ (Talk.converse runner.promptTimeout 0 invocation.plan.exchanges
    ⟨process, .start .terminal files, ""⟩) at hconversation
  generalize Talk.converse runner.promptTimeout 0 invocation.plan.exchanges
    ⟨process, .start .terminal files, ""⟩ = result at hconversation
  cases hconversation with
  | @stuck done rest exchange last final halt hexchanges hconversed hwaited hhalt =>
      have hmissed := FirstMissed.of_waited hexchanges hconversed hwaited hhalt
      simp only [Nat.zero_add]
      exact ⟨final, final.link.signals, .stuck hmissed hwaited, rfl⟩
  | @through last hconversed =>
      obtain ⟨closing, htalk, hwaited⟩ :=
        exists_waited (fun _ => false) runner.exitTimeout last
      generalize last.toTalk.await (fun _ => false) runner.exitTimeout = result at htalk hwaited
      obtain ⟨halt, talk⟩ := result
      obtain rfl := htalk
      have hcloses := hwaited.closed_iff_closes
      cases hwaited with
      | here henough => exact absurd henough Bool.false_ne_true
      | found _ _ henough => exact absurd henough Bool.false_ne_true
      | late hreaches hlacking hlate hopen =>
          exact ⟨closing, closing.link.signals,
            .overdue hconversed (.late hreaches hlacking hlate hopen), rfl⟩
      | closed hreaches hlacking htimely hclosed =>
          obtain ⟨final, signals, hended, hrest, htranscript, hlink⟩ :=
            exists_ended_of_closed hconversed ((hcloses (by simp)).mp rfl) hreaches hclosed
          refine ⟨final, closing.link.signals, ?_, ?_⟩
          · dsimp only
            rw [← htranscript, ← hrest]
            split
            · next hnamed => exact .ended hended hnamed
            · next hnameless => exact .nameless hended (by simpa using hnameless)
          · dsimp only
            rw [hlink]
            split <;> rfl

/-- A run that gets past the prompts and to the closing of the terminal comes to an end of its
process. -/
theorem exists_ended_of_await {runner : Runner} {exchanges : List Exchange}
    {process : Process Ending} {files : Files} {phases : List Phase} {talk closing : Talk}
    (hconverse : Talk.converse runner.promptTimeout 0 exchanges
      ⟨process, .start .terminal files, ""⟩ = (phases, none, talk))
    (hawait : talk.await (fun _ => false) runner.exitTimeout = (.closed, closing)) :
    phases = prompts 0 exchanges.length ∧ ∃ last final,
      Ended runner exchanges (.start process files) last final
        (closing.process.complete closing.link.signals.waiting closing.link.files).1 ∧
      final.rest = closing.rest ∧ final.transcript = closing.transcript := by
  have hconversation := converse_conversation runner.promptTimeout 0 exchanges
    (.start process files) rfl
  change Conversation _ _ _ _ (Talk.converse runner.promptTimeout 0 exchanges
    ⟨process, .start .terminal files, ""⟩) at hconversation
  rw [hconverse] at hconversation
  cases hconversation with
  | @through last hconversed =>
      obtain ⟨later, htalk, hwaited⟩ := exists_waited (fun _ => false) runner.exitTimeout last
      rw [hawait] at htalk hwaited
      obtain rfl := htalk
      have hcloses := (hwaited.closed_iff_closes (by simp)).mp rfl
      cases hwaited with
      | closed hreaches hlacking htimely hclosed =>
          obtain ⟨final, signals, hended, hrest, htranscript, -⟩ :=
            exists_ended_of_closed hconversed hcloses hreaches hclosed
          exact ⟨rfl, last, final, hended, hrest, htranscript⟩

/-- A process has one end, at which it leaves the terminal as it is. -/
theorem Ended.unique {runner : Runner} {exchanges : List Exchange}
    {start last last' final final' : Position} {ending ending' : Ending}
    (hfirst : runner.Ended exchanges start last final ending)
    (hsecond : runner.Ended exchanges start last' final' ending') :
    ending = ending' ∧ final.rest = final'.rest ∧ final.transcript = final'.transcript := by
  have hreaches := hfirst.reaches
  have hreaches' := hsecond.reaches
  rw [← hfirst.conversed.unique hsecond.conversed] at hreaches'
  have htranscript : final.transcript = final'.transcript :=
    hreaches.precedes.transcript.trans hreaches'.precedes.transcript.symm
  refine ⟨hreaches.ending_unique hreaches' hfirst.finished hsecond.finished, ?_, htranscript⟩
  rcases hreaches.total hreaches' with hbefore | hbehind
  · simp only [Talk.rest, hbefore.unread_of_finished hfirst.finished]
  · simp only [Talk.rest, hbehind.unread_of_finished hsecond.finished]

/-- The run of a process that comes to an end, whatever code is reserved. -/
theorem Ended.attend_eq {runner : Runner} {invocation : Invocation} {process : Process Ending}
    {files : Files} {last final : Position} {ending : Ending}
    (hended : runner.Ended invocation.plan.exchanges (.start process files) last final ending)
    (command : String) (reserved : Option (Int × String)) :
    (runner.attend command reserved invocation process files).1 =
      if ending.isNamed then
        ⟨prompts 0 invocation.plan.exchanges.length ++ [.drainingOutput, .exited ending.code],
          judge command reserved invocation.expected ending.code
            ⟨final.rest, final.transcript ++ final.rest, ending.code,
              invocation.plan.exchanges.length⟩⟩
      else ⟨prompts 0 invocation.plan.exchanges.length ++ [.drainingOutput, .failed],
        .error (.io .unknownSignal)⟩ := by
  obtain ⟨final', signals, hcourse, -⟩ :=
    runner.attend_course command reserved invocation process files
  generalize (runner.attend command reserved invocation process files).1 = run at hcourse
  cases hcourse with
  | stuck hmissed => exact absurd hended.conversed hmissed.not_conversed
  | overdue hconversed hwaited =>
      have hcloses := hended.closes
      rw [hended.conversed.unique hconversed, ← hwaited.closed_iff_closes (by simp)] at hcloses
      cases hcloses
  | ended hended' hnamed =>
      obtain ⟨rfl, hrest, htranscript⟩ := hended.unique hended'
      rw [if_pos hnamed, hrest, htranscript]
  | nameless hended' hnameless =>
      obtain ⟨rfl, -⟩ := hended.unique hended'
      rw [hnameless]
      rfl

/-- A process that comes to an end with a name is judged by that end. -/
theorem Ended.attend {runner : Runner} {invocation : Invocation} {process : Process Ending}
    {files : Files} {last final : Position} {ending : Ending}
    (hended : runner.Ended invocation.plan.exchanges (.start process files) last final ending)
    (hnamed : ending.isNamed = true) (command : String) (reserved : Option (Int × String)) :
    (runner.attend command reserved invocation process files).1 =
      ⟨prompts 0 invocation.plan.exchanges.length ++ [.drainingOutput, .exited ending.code],
        judge command reserved invocation.expected ending.code
          ⟨final.rest, final.transcript ++ final.rest, ending.code,
            invocation.plan.exchanges.length⟩⟩ := by
  rw [hended.attend_eq, if_pos hnamed]

/-- Nothing can be made of an end that has no name. -/
theorem Ended.attend_nameless {runner : Runner} {invocation : Invocation}
    {process : Process Ending} {files : Files} {last final : Position} {ending : Ending}
    (hended : runner.Ended invocation.plan.exchanges (.start process files) last final ending)
    (hnameless : ending.isNamed = false) (command : String) (reserved : Option (Int × String)) :
    (runner.attend command reserved invocation process files).1 =
      ⟨prompts 0 invocation.plan.exchanges.length ++ [.drainingOutput, .failed],
        .error (.io .unknownSignal)⟩ := by
  rw [hended.attend_eq, hnameless]
  rfl

variable {runner : Runner} {test : String} {invocation : Invocation} {machine : Machine}
  {process : Process Ending}

theorem Starts.executes (hstarts : runner.Starts test invocation machine process) :
    machine.Executes (runner.call test invocation machine) process := by
  obtain ⟨number, started, hstart⟩ := hstarts
  exact Machine.executes_of_start hstart

/-- A run whose process can be started is the run of that process. -/
theorem run_of_starts (hstarts : runner.Starts test invocation machine process) :
    (runner.run test invocation machine).1 =
      (runner.attend (runner.command test invocation) (runner.reserved test invocation) invocation
        process machine.files).1 := by
  obtain ⟨number, started, hstart⟩ := hstarts
  obtain ⟨-, rfl⟩ := Machine.eq_of_start hstart
  simp only [run, hstart, command, reserved]

/-- The process is no child of the machine any more when the run is over. -/
theorem child?_run (hstarts : runner.Starts test invocation machine process) :
    (runner.run test invocation machine).2.child? machine.nextNumber = none := by
  obtain ⟨number, started, hstart⟩ := hstarts
  obtain ⟨rfl, -⟩ := Machine.eq_of_start hstart
  simp only [run, hstart]
  exact Machine.child?_reap_pass _ _ _

/-- No run changes the variables of the machine. -/
theorem environment_run (runner : Runner) (test : String) (invocation : Invocation)
    (machine : Machine) : (runner.run test invocation machine).2.environment =
      machine.environment := by
  simp only [run]
  split
  · rfl
  · next hstart =>
    obtain ⟨-, rfl⟩ := Machine.eq_of_start hstart
    rw [Machine.environment_pass]
    rfl

/-- The run of a command that cannot be started is over at once. -/
theorem run_of_error {error : FileError}
    (herror : machine.start (runner.dressed test invocation).1
      (runner.dressed test invocation).2.1 invocation.environment = .error error) :
    (runner.run test invocation machine).1 =
      ⟨[], .error (.spawn (runner.command test invocation) (.terminal error))⟩ := by
  simp only [run, herror, command]

theorem starts_or_error (runner : Runner) (test : String) (invocation : Invocation)
    (machine : Machine) :
    (∃ process, runner.Starts test invocation machine process) ∨
      ∃ error, machine.start (runner.dressed test invocation).1
        (runner.dressed test invocation).2.1 invocation.environment = .error error := by
  cases hstart : machine.start (runner.dressed test invocation).1
      (runner.dressed test invocation).2.1 invocation.environment with
  | error error => exact .inr ⟨error, rfl⟩
  | ok result =>
      obtain ⟨number, process, started⟩ := result
      exact .inl ⟨process, number, started, hstart⟩

/-- The link to the process when the run is over. -/
def lastLink (runner : Runner) (test : String) (invocation : Invocation) (machine : Machine)
    (process : Process Ending) : Link :=
  (runner.attend (runner.command test invocation) (runner.reserved test invocation) invocation
    process machine.files).2

/-- The course of a run whose process can be started. -/
theorem run_course (hstarts : runner.Starts test invocation machine process) :
    ∃ final signals,
      Course runner (runner.command test invocation) (runner.reserved test invocation) invocation
        (.start process machine.files) final (runner.run test invocation machine).1 ∧
      runner.lastLink test invocation machine process = { final.link with signals := signals } := by
  rw [run_of_starts hstarts]
  exact runner.attend_course (runner.command test invocation) (runner.reserved test invocation)
    invocation process machine.files

/-- A run gets past its process exactly where the process ends, by its end's code. -/
theorem exited_mem_phases_iff {code : Int}
    (hstarts : runner.Starts test invocation machine process) :
    .exited code ∈ (runner.run test invocation machine).1.phases ↔
      ∃ last final ending,
        runner.Ended invocation.plan.exchanges (.start process machine.files) last final ending ∧
          ending.isNamed = true ∧ ending.code = code := by
  constructor
  · obtain ⟨final, signals, hcourse, -⟩ := run_course hstarts
    generalize (runner.run test invocation machine).1 = run at hcourse
    intro hexited
    cases hcourse with
    | stuck => simp [prompts] at hexited
    | overdue => simp [prompts] at hexited
    | nameless => simp [prompts] at hexited
    | @ended last ending hended hnamed =>
        refine ⟨last, final, ending, hended, hnamed, ?_⟩
        simpa [prompts, eq_comm] using hexited
  · rintro ⟨last, final, ending, hended, hnamed, rfl⟩
    rw [run_of_starts hstarts, hended.attend hnamed]
    simp

/-- A run of which nothing can be made is that of a process that ended without a name. -/
theorem exists_ended_of_unknownSignal
    (hstarts : runner.Starts test invocation machine process)
    (hunknown : (runner.run test invocation machine).1.outcome = .error (.io .unknownSignal)) :
    ∃ last final signal,
      runner.Ended invocation.plan.exchanges (.start process machine.files) last final
        (.signaled signal) ∧ Ending.signalName? signal = none := by
  obtain ⟨final, signals, hcourse, -⟩ := run_course hstarts
  generalize (runner.run test invocation machine).1 = run at hcourse hunknown
  cases hcourse with
  | stuck => cases hunknown
  | overdue => cases hunknown
  | ended => exact absurd hunknown (judge_ne (by simp) (by simp))
  | @nameless last ending hended hnameless =>
      cases ending with
      | exited code => cases hnameless
      | signaled signal =>
          exact ⟨last, final, signal, hended, by simpa [Ending.isNamed] using hnameless⟩

/-! ## What a run calls -/

/-- All that a run makes of one call, which is told as it is received.  Either nothing is started by
it and the run is over, or what is started is taken through the exchanges and judged by its end. -/
inductive Performs (runner : Runner) (machine : Machine) (received : Call)
    (reserved : Option (Int × String)) (exchanges : List Exchange) (expected : Int) : Run → Prop
  | unstarted {sent : Call} {error : FileError} (harrived : Executable.arrived sent = received)
      (hlaunch : Executable.launch machine.installed Executable.deepest machine.files sent =
        .error error) :
      Performs runner machine received reserved exchanges expected
        ⟨[], .error (.spawn (commandLine received.name received.arguments) (.terminal error))⟩
  | attended {sent : Call} {process : Process Ending} {invocation : Invocation} {final : Position}
      {run : Run} (harrived : Executable.arrived sent = received)
      (hlaunch : Executable.launch machine.installed Executable.deepest machine.files sent =
        .ok process)
      (hexchanges : invocation.plan.exchanges = exchanges)
      (hexpected : invocation.expected = expected)
      (hcourse : Course runner (commandLine received.name received.arguments) reserved invocation
        (.start process machine.files) final run) :
      Performs runner machine received reserved exchanges expected run

/-- A run makes the call that it is asked for, and goes through the exchanges that it is given. -/
theorem run_performs (runner : Runner) (test : String) (invocation : Invocation)
    (machine : Machine) :
    runner.Performs machine (runner.call test invocation machine)
      (runner.reserved test invocation) invocation.plan.exchanges invocation.expected
      (runner.run test invocation machine).1 := by
  let sent : Call := ⟨(runner.dressed test invocation).1, (runner.dressed test invocation).2.1,
    machine.environment ++ invocation.environment⟩
  have harrived : Executable.arrived sent = runner.call test invocation machine := rfl
  cases hlaunch : Executable.launch machine.installed Executable.deepest machine.files sent with
  | error error =>
      rw [run_of_error (Machine.start_of_refused hlaunch)]
      exact .unstarted harrived hlaunch
  | ok process =>
      obtain ⟨started, hstart⟩ := Machine.start_of_launch hlaunch
      obtain ⟨final, -, hcourse, -⟩ := run_course ⟨_, started, hstart⟩
      exact .attended harrived hlaunch rfl rfl hcourse

/-! ## Any process can be started -/

end Runner

def Invocation.lone (plan : Plan) (expected : Int) : Invocation :=
  ⟨"/run", [], [], plan, expected⟩

theorem Runner.starts_lone (runner : Runner) (hchecker : runner.checker = none) (test : String)
    (plan : Plan) (expected : Int) (process : Process Ending) :
    runner.Starts test (.lone plan expected) (.lone process) process := by
  have hlaunch : Executable.launch (Machine.lone process).installed Executable.deepest
      (Machine.lone process).files ⟨"/run", [], []⟩ = .ok process :=
    @Executable.launch_installed _ 63 _ _ "/run" ["run"] [] (fun _ _ => process) rfl rfl rfl rfl rfl
  obtain ⟨started, hstart⟩ := @Machine.start_of_launch (.lone process) "/run" [] [] process hlaunch
  simp only [Starts, dressed, hchecker]
  exact ⟨1, started, hstart⟩

end PromptHarness
