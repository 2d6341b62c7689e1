import PromptHarness.Proofs.Renumbering
import PromptHarness.Proofs.Waiting
import PromptHarness.Proofs.WellFormed

/-!
# The first line of an agent

What comes of starting an agent is told by the first line that its process writes to the pipe, up to
the first newline or up to the end of all output, and by nothing else that the process does
(`FollowsLine`).  `Writes` says what that line is by the course of the process alone, whoever waits
for it.  An agent that has not announced itself leaves a controller that acts as if it had never
tried to start one, but for the numbers of the processes (`LeavesUntried`).
-/

namespace PromptHarness

namespace Position

/-- A process that has just been started with its output on a pipe. -/
def piped (process : Process Ending) (files : Files) : Position :=
  ⟨⟨process, .start .pipe files, ""⟩, [], [], []⟩

/-- The first line is complete: a newline has ended it, or the end of all output has. -/
def HasLine (line : Bytes) (position : Position) : Prop :=
  (∃ before after, position.link.shown = before ++ Terminal.newline :: after ∧
      Terminal.newline ∉ before ∧ line = before ++ [Terminal.newline]) ∨
    Terminal.newline ∉ position.link.shown ∧ position.link.closed = true ∧
      line = position.link.shown

/-- The first line that the process writes, which is complete before `time` milliseconds are
over. -/
def Writes (time : Nat) (line : Bytes) (position : Position) : Prop :=
  ∃ later, Within time position later ∧ later.HasLine line

section Line

variable {position later : Position} {line other : Bytes} {time : Nat}

theorem HasLine.of_reaches (hline : position.HasLine line) (hreaches : position.Reaches later) :
    later.HasLine line := by
  obtain ⟨more, hshown, -, hnone⟩ := hreaches.precedes.shown
  rcases hline with ⟨before, after, hheld, habsent, rfl⟩ | ⟨habsent, hclosed, rfl⟩
  · exact .inl ⟨before, after ++ more, by simp [hshown, hheld], habsent, rfl⟩
  · rw [hnone hclosed, List.append_nil] at hshown
    exact .inr ⟨by rwa [hshown], hreaches.precedes.closed hclosed, hshown.symm⟩

theorem hasLine_iff : position.HasLine line ↔
    (Terminal.newline ∈ position.link.shown ∨ position.link.closed = true) ∧
      line = Agent.firstLine position.link.shown := by
  unfold HasLine Agent.firstLine
  cases hcut : Text.cut? [Terminal.newline] position.link.shown with
  | none =>
      have habsent := Text.cut?_singleton_eq_none_iff.mp hcut
      constructor
      · rintro (⟨before, after, hshown, -⟩ | ⟨-, hclosed, hline⟩)
        · exact absurd (by simp [hshown]) habsent
        · exact ⟨.inr hclosed, hline⟩
      · rintro ⟨hend, hline⟩
        exact .inr ⟨habsent, hend.resolve_left habsent, hline⟩
  | some parts =>
      obtain ⟨before, after⟩ := parts
      obtain ⟨hshown, habsent⟩ := Text.cut?_singleton_eq_some_iff.mp hcut
      have hmem : Terminal.newline ∈ position.link.shown := by simp [hshown]
      constructor
      · rintro (⟨before', after', hshown', habsent', hline⟩ | ⟨habsent', -⟩)
        · have hcut' := Text.cut?_singleton_eq_some_iff.mpr ⟨hshown', habsent'⟩
          cases hcut.symm.trans hcut'
          exact ⟨.inl hmem, hline⟩
        · exact absurd hmem habsent'
      · rintro ⟨-, hline⟩
        exact .inl ⟨before, after, hshown, habsent, hline⟩

/-- A process has one first line at most. -/
theorem Writes.unique (hwrites : position.Writes time line)
    (hwrites' : position.Writes time other) : line = other := by
  obtain ⟨first, hfirst, hline⟩ := hwrites
  obtain ⟨second, hsecond, hline'⟩ := hwrites'
  rcases hfirst.1.total hsecond.1 with hbefore | hbehind
  · have hsame := (hasLine_iff.mp (hline.of_reaches hbefore)).2
    exact hsame.trans (hasLine_iff.mp hline').2.symm
  · have hsame := (hasLine_iff.mp (hline'.of_reaches hbehind)).2
    exact (hasLine_iff.mp hline).2.trans hsame.symm

/-- What is written together with the first line does not count to it. -/
theorem writes_of_print {before : Bytes} (habsent : Terminal.newline ∉ before)
    (htime : 0 < time) (after : Bytes) (next : Process Ending) (files : Files) :
    (piped (.print (before ++ Terminal.newline :: after) next) files).Writes time
      (before ++ [Terminal.newline]) := by
  refine ⟨_, ⟨.single rfl, ?_⟩, .inl ⟨before, after, ?_, habsent, rfl⟩⟩
  · exact Nat.lt_add_of_pos_right htime
  · rfl

end Line

/-! ## Waiting for the first line -/

section Waited

variable {process : Process Ending} {files : Files} {later : Position} {time : Nat} {halt : Halt}

theorem unread_of_piped (hreaches : (piped process files).Reaches later) :
    later.link.unread = later.link.shown := by
  obtain ⟨more, hshown, hunread, -⟩ := hreaches.precedes.shown
  exact hunread.trans hshown.symm

theorem mem_of_holds {bytes : Bytes} (hholds : Text.holds [Terminal.newline] bytes = true) :
    Terminal.newline ∈ bytes := by
  obtain ⟨before, after, rfl⟩ := Text.holds_iff.mp hholds
  simp

theorem not_mem_of_lacks {bytes : Bytes} (hlacks : Text.holds [Terminal.newline] bytes = false) :
    Terminal.newline ∉ bytes := by
  intro hmem
  obtain ⟨before, after, rfl⟩ := List.append_of_mem hmem
  have hholds : Text.holds [Terminal.newline] (before ++ Terminal.newline :: after) = true :=
    Text.holds_iff.mpr ⟨before, after, by simp⟩
  exact absurd (hlacks.symm.trans hholds) Bool.false_ne_true

/-- A wait that ends in time has the first line among what has come. -/
theorem Waited.writes
    (hwaited : Waited (Text.holds [Terminal.newline]) time (piped process files) halt later)
    (htimely : halt ≠ .late) :
    (piped process files).Writes time (Agent.firstLine later.link.unread) := by
  have hunread := unread_of_piped hwaited.reaches
  cases hwaited with
  | here henough => cases henough
  | found hlacking hwaits henough hearly hrest =>
      rw [hunread] at henough ⊢
      exact ⟨later, ⟨hwaits.reaches, hearly⟩, hasLine_iff.mpr ⟨.inl (mem_of_holds henough), rfl⟩⟩
  | closed hreaches hlacking htimely hclosed =>
      have hearly := htimely.resolve_left Bool.false_ne_true
      rw [hunread]
      exact ⟨later, ⟨hreaches, hearly⟩, hasLine_iff.mpr ⟨.inr hclosed, rfl⟩⟩
  | late => exact absurd rfl htimely

/-- Where a wait is over before it ends, there is no first line in time. -/
theorem Waited.not_writes
    (hwaited : Waited (Text.holds [Terminal.newline]) time (piped process files) .late later)
    (line : Bytes) : ¬(piped process files).Writes time line := by
  rintro ⟨other, hwithin, hline⟩
  have hunread := unread_of_piped hwaited.reaches
  cases hwaited with
  | late hreaches hlacking hlate hopen =>
      have hearly := hwithin.2
      -- A line that was complete before would have ended the wait; one behind it is not in time.
      rcases hwithin.1.total hreaches with hbefore | hbehind
      · rw [hunread] at hlacking
        have hended := (hasLine_iff.mp (hline.of_reaches hbefore)).1
        have hclosed := hended.resolve_left (not_mem_of_lacks hlacking)
        rw [hopen] at hclosed
        exact Bool.false_ne_true hclosed
      · have helapsed := hbehind.precedes.elapsed
        omega

end Waited

end Position

/-! ## Starting an agent -/

theorem Machine.reap_of_start {machine started : Machine} {program : String}
    {arguments : List String} {given : Environment} {number : Nat} {process : Process Ending}
    (hnumbered : machine.IsNumbered)
    (hstart : machine.start program arguments given = .ok (number, process, started))
    (files : Files) :
    { started with files := files }.reap number =
      { machine with files := files, nextNumber := machine.nextNumber + 1 } := by
  obtain ⟨rfl, rfl⟩ := Machine.eq_of_start hstart
  have hothers : machine.children.filter (·.1 != machine.nextNumber) = machine.children := by
    rw [List.filter_eq_self]
    intro entry hentry
    simpa using Nat.ne_of_lt (hnumbered entry.1 (List.mem_map_of_mem hentry))
  rw [Machine.reap, List.filter_cons_of_neg (by simp), hothers]

namespace Agent

/-- How starting an agent goes by the first line of its process. -/
structure FollowsLine (timeout : Nat) (position : Position) (outcome : Except Fault Binding) :
    Prop where
  late : (∀ line, ¬position.Writes timeout line) →
    outcome = .error (.agentAnnouncement (.late timeout))
  silent : position.Writes timeout [] → outcome = .error (.agentAnnouncement .silent)
  illegible : ∀ line, position.Writes timeout line → line ≠ [] →
    (∀ text, Text.encode text ≠ line) → outcome = .error (.io .notText)
  announced : ∀ text, text ≠ "" → position.Writes timeout (Text.encode text) →
    ∀ binding, outcome = .ok binding ↔ Binding.parse text = .ok binding
  malformed : ∀ text, text ≠ "" → position.Writes timeout (Text.encode text) →
    ∀ failure, Binding.parse text = .error failure →
      outcome = .error (.agentAnnouncement failure)

/-- Of two processes with the same first line in time the same comes. -/
theorem FollowsLine.unique {timeout : Nat} {position position' : Position}
    {outcome outcome' : Except Fault Binding} (hfollows : FollowsLine timeout position outcome)
    (hfollows' : FollowsLine timeout position' outcome')
    (hsame : ∀ line, position'.Writes timeout line ↔ position.Writes timeout line) :
    outcome' = outcome := by
  by_cases hline : ∃ line, position.Writes timeout line
  · obtain ⟨line, hwrites⟩ := hline
    have hwrites' := (hsame line).mpr hwrites
    by_cases hlegible : ∃ text, Text.encode text = line
    · obtain ⟨text, rfl⟩ := hlegible
      by_cases htext : text = ""
      · subst htext
        exact (hfollows'.silent hwrites').trans (hfollows.silent hwrites).symm
      · cases hparse : Binding.parse text with
        | ok binding =>
            rw [(hfollows.announced text htext hwrites binding).mpr hparse,
              (hfollows'.announced text htext hwrites' binding).mpr hparse]
        | error failure =>
            rw [hfollows.malformed text htext hwrites failure hparse,
              hfollows'.malformed text htext hwrites' failure hparse]
    · have hillegible : ∀ text, Text.encode text ≠ line := not_exists.mp hlegible
      have hfilled : line ≠ [] := fun hempty => hillegible "" hempty.symm
      rw [hfollows.illegible line hwrites hfilled hillegible,
        hfollows'.illegible line hwrites' hfilled hillegible]
  · have hnone : ∀ line, ¬position.Writes timeout line := not_exists.mp hline
    have hnone' : ∀ line, ¬position'.Writes timeout line := fun line hwrites' =>
      hnone line ((hsame line).mp hwrites')
    rw [hfollows.late hnone, hfollows'.late hnone']

/-- Of a start that has failed nothing is left but what the process did to the files. -/
structure LeavesUntried (agent : Agent) (machine : Machine) (later : Agent)
    (laterMachine : Machine) : Prop where
  unchanged : later = agent
  /-- The process has been killed and reaped. -/
  gone : laterMachine.child? machine.nextNumber = none
  others : laterMachine.children = machine.children
  /-- Whatever is done from here on goes as if no start had been tried, but for the numbers. -/
  alike : ∀ acts,
    let untried := agent.performAll acts { machine with files := laterMachine.files }
    later.performAll acts laterMachine =
      (untried.1, untried.2.1.shift machine.nextNumber 1,
        untried.2.2.shift machine.nextNumber 1)

section Start

variable {agent : Agent} {machine started : Machine} {number : Nat} {process : Process Ending}
  {halt : Halt} {later : Position} {files : Files}

theorem announcement_of_timely (htimely : halt ≠ .late) (timeout : Nat) (bytes : Bytes) :
    announcement halt timeout bytes = announcement .closed timeout bytes := by
  cases halt with
  | late => exact absurd rfl htimely
  | satisfied => rfl
  | closed => rfl

/-- What is read of an announcement is decided by the first line. -/
theorem followsLine_of_waited {timeout : Nat}
    (hwaited : Position.Waited (Text.holds [Terminal.newline]) timeout (.piped process files)
      halt later) :
    FollowsLine timeout (.piped process files) (announcement halt timeout later.link.unread) := by
  by_cases hlate : halt = .late
  · subst hlate
    have hnone := hwaited.not_writes
    constructor
    case late => exact fun _ => rfl
    case silent => exact fun hwrites => absurd hwrites (hnone [])
    case illegible => exact fun line hwrites => absurd hwrites (hnone line)
    case announced => exact fun text _ hwrites => absurd hwrites (hnone (Text.encode text))
    case malformed => exact fun text _ hwrites => absurd hwrites (hnone (Text.encode text))
  · have hwrites := hwaited.writes hlate
    rw [announcement_of_timely hlate]
    have hlegible : ∀ text, text ≠ "" →
        (Position.piped process files).Writes timeout (Text.encode text) →
        announcement .closed timeout later.link.unread =
          (Binding.parse text).mapError .agentAnnouncement := by
      intro text htext hline
      have hfilled : Text.encode text ≠ [] := by
        intro hempty
        have hsame : Text.encode text = Text.encode "" := hempty
        exact htext (Text.encode_injective hsame)
      have hread : Text.strict? (Text.encode text) = some text := Text.strict?_eq_some_iff.mpr rfl
      simp [announcement, hwrites.unique hline, hfilled, hread]
    constructor
    case late => exact fun hnone => absurd hwrites (hnone _)
    case silent =>
      intro hline
      simp [announcement, hwrites.unique hline]
    case illegible =>
      intro line hline hfilled hillegible
      have hread : Text.strict? line = none := Text.strict?_eq_none_iff.mpr hillegible
      simp [announcement, hwrites.unique hline, hfilled, hread]
    case announced =>
      intro text htext hline binding
      rw [hlegible text htext hline]
      cases Binding.parse text <;> simp [Except.mapError]
    case malformed =>
      intro text htext hline failure hparse
      rw [hlegible text htext hline, hparse]
      rfl

/-- Starting an agent waits for the first line of its process. -/
theorem start_of_stopped (hstopped : agent.running = none)
    (hstart : machine.start agent.program agent.arguments agent.environment =
      .ok (number, process, started)) :
    ∃ halt later, Position.Waited (Text.holds [Terminal.newline]) agent.timeout
        (.piped process machine.files) halt later ∧
      (agent.start machine).1 = announcement halt agent.timeout later.link.unread ∧
      (∀ fault, (agent.start machine).1 = .error fault →
        (agent.start machine).2 = (agent, { started with files := later.link.files }.reap number)) ∧
      ∀ binding, (agent.start machine).1 = .ok binding →
        (agent.start machine).2.1.running = some ⟨number, binding⟩ := by
  obtain ⟨-, hstarted⟩ := Machine.eq_of_start hstart
  have hfiles : started.files = machine.files := by rw [hstarted]
  obtain ⟨later, htalk, hwaited⟩ := Position.exists_waited (Text.holds [Terminal.newline])
    agent.timeout (.piped process machine.files)
  have hlink : later.link = ((Link.start .pipe machine.files).await (Text.holds [Terminal.newline])
      agent.timeout process).2.2 := congrArg Talk.link htalk
  refine ⟨_, later, hwaited, ?_⟩
  rw [hlink]
  simp only [start, hstopped, hstart, hfiles]
  change _ = announcement ((Link.start .pipe machine.files).await (Text.holds [Terminal.newline])
    agent.timeout process).1 _ _ ∧ _
  generalize (Link.start .pipe machine.files).await (Text.holds [Terminal.newline]) agent.timeout
    process = waited
  obtain ⟨halt, left, link⟩ := waited
  dsimp only
  cases announcement halt agent.timeout link.unread with
  | error fault =>
      refine ⟨rfl, fun _ _ => rfl, ?_⟩
      rintro binding ⟨⟩
  | ok binding =>
      refine ⟨rfl, ?_, ?_⟩
      · rintro fault ⟨⟩
      · rintro other ⟨⟩
        rfl

theorem leavesUntried (hstopped : agent.running = none) (hnumbered : machine.IsNumbered)
    (files : Files) :
    LeavesUntried agent machine agent
      { machine with files := files, nextNumber := machine.nextNumber + 1 } where
  unchanged := rfl
  gone := by
    rw [Machine.child?_eq_none_iff]
    exact fun hmem => absurd (hnumbered _ hmem) (Nat.lt_irrefl _)
  others := rfl
  alike acts := by
    have hnumbered' : Machine.IsNumbered { machine with files := files } := hnumbered
    exact performAll_of_skipped hstopped hnumbered' acts 1

/-- The start of an agent that runs as `process` depends on its first line alone. -/
structure StartsByLine (agent : Agent) (machine : Machine) (process : Process Ending) : Prop where
  follows : FollowsLine agent.timeout (.piped process machine.files) (agent.start machine).1
  bound : ∀ binding, (agent.start machine).1 = .ok binding →
    (agent.start machine).2.1.binding? = some binding
  /-- What a process does behind its first line, and how it ends, makes no difference. -/
  settled : ∀ (other : Agent) (otherMachine : Machine) number otherProcess started,
    other.running = none → other.timeout = agent.timeout →
    otherMachine.start other.program other.arguments other.environment =
      .ok (number, otherProcess, started) →
    (∀ line, (Position.piped otherProcess otherMachine.files).Writes agent.timeout line ↔
      (Position.piped process machine.files).Writes agent.timeout line) →
    (other.start otherMachine).1 = (agent.start machine).1
  failed : ∀ fault, (agent.start machine).1 = .error fault →
    LeavesUntried agent machine (agent.start machine).2.1 (agent.start machine).2.2

theorem followsLine_start (hstopped : agent.running = none)
    (hstart : machine.start agent.program agent.arguments agent.environment =
      .ok (number, process, started)) :
    FollowsLine agent.timeout (.piped process machine.files) (agent.start machine).1 := by
  obtain ⟨halt, later, hwaited, houtcome, -⟩ := start_of_stopped hstopped hstart
  rw [houtcome]
  exact followsLine_of_waited hwaited

/-- A stopped controller starts an agent by its first line, and is as before where that fails. -/
theorem start_startsByLine (agent : Agent) (machine : Machine) (hstopped : agent.running = none)
    (hnumbered : machine.IsNumbered) :
    (∀ error, machine.start agent.program agent.arguments agent.environment = .error error →
      ∃ command, agent.start machine = (.error (.spawn command (.pipe error)), agent, machine)) ∧
    ∀ number process started,
      machine.start agent.program agent.arguments agent.environment =
        .ok (number, process, started) → StartsByLine agent machine process := by
  constructor
  · intro error hstart
    simp only [start, hstopped, hstart]
    exact ⟨_, rfl⟩
  · intro number process started hstart
    have hfollows := followsLine_start hstopped hstart
    obtain ⟨halt, later, -, -, herror, hok⟩ := start_of_stopped hstopped hstart
    constructor
    case follows => exact hfollows
    case bound =>
      intro binding houtcome
      rw [binding?, hok binding houtcome]
      rfl
    case settled =>
      intro other otherMachine number otherProcess started hstopped' htimeout hstart' hsame
      have hfollows' := followsLine_start hstopped' hstart'
      rw [htimeout] at hfollows'
      exact hfollows.unique hfollows' hsame
    case failed =>
      intro fault houtcome
      have hleft := herror fault houtcome
      rw [Machine.reap_of_start hnumbered hstart] at hleft
      rw [hleft]
      exact leavesUntried hstopped hnumbered later.link.files

/-- An agent that writes more together with its first line, closes its output and dies. -/
def gossip : Process Ending :=
  .print (Text.encode "A=x\nB=\n") <| .hangUp <| .finished (.signaled 9)

theorem start_startsByLine_gossip :
    let agent := Agent.ofProgram "/run" 5000
    let machine := Machine.lone gossip
    agent.running = none ∧ machine.IsNumbered ∧ StartsByLine agent machine gossip ∧
      (Position.piped gossip machine.files).Writes 5000 (Text.encode "A=x\n") ∧
      (agent.start machine).1 = .ok ⟨"A", "x"⟩ := by
  intro agent machine
  have hnumbered : machine.IsNumbered := by
    simp [Machine.IsNumbered, Machine.numbers, machine, Machine.lone]
  have hlaunch : Executable.launch machine.installed Executable.deepest machine.files
      ⟨"/run", ["agent", "-d"], []⟩ = .ok gossip :=
    @Executable.launch_installed _ 63 _ _ "/run" ["run"] [] (fun _ _ => gossip) rfl rfl rfl rfl rfl
  obtain ⟨started, hstart⟩ :=
    @Machine.start_of_launch machine "/run" ["agent", "-d"] [] gossip hlaunch
  have hbyLine := (start_startsByLine agent machine rfl hnumbered).2 _ gossip started hstart
  have hwrites : (Position.piped gossip machine.files).Writes 5000 (Text.encode "A=x\n") :=
    @Position.writes_of_print 5000 (Text.encode "A=x") (by decide) (by decide)
      (Text.encode "B=\n") _ machine.files
  have hparse : Binding.parse "A=x\n" = .ok ⟨"A", "x"⟩ := by decide +kernel
  exact ⟨rfl, hnumbered, hbyLine, hwrites,
    (hbyLine.follows.announced "A=x\n" (by decide) hwrites _).mpr hparse⟩

end Start

end Agent

end PromptHarness
