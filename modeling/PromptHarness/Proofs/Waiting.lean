import PromptHarness.Proofs.Course
import PromptHarness.Proofs.Occurrence

/-!
# Waiting for a process

Whoever waits for a process looks at what has come whenever the process is at rest.  This module
proves that `Link.await` stops exactly there: at the first position at rest where enough has come,
or else where the terminal is closed, or else when the time is up.  Since what has come is only
added to, the three ends of a wait can be told from the course of the process alone
(`satisfied_iff_shows`, `closed_iff_closes`).
-/

namespace PromptHarness

namespace Position

/-- The process can do no more in this instant. -/
def atRest (position : Position) : Bool :=
  position.link.closed ||
    match position.process with
    | .print bytes _ => position.link.isHeld && !bytes.isEmpty
    | .warn bytes _ => position.link.isHeld && !bytes.isEmpty
    | .ask portion _ => (position.link.input portion).isNone
    | .pause .. => true
    | _ => false

/-- Whoever waits for `enough` stops here. -/
def IsReady (enough : Bytes → Bool) (position : Position) : Prop :=
  position.atRest = true ∧ enough position.link.unread = true

/-- The process comes from `position` to `later` while somebody waits for `enough` and has not had
a reason to stop. -/
abbrev WaitsOn (enough : Bytes → Bool) : Position → Position → Prop :=
  Relation.ReflTransGen fun position later => Steps position later ∧ ¬position.IsReady enough

theorem WaitsOn.reaches {enough : Bytes → Bool} {position later : Position}
    (hwaits : WaitsOn enough position later) : position.Reaches later :=
  Relation.ReflTransGen.mono (fun _ _ hstep => hstep.1) _ _ hwaits

/-- There is at most one position where a wait stops. -/
theorem WaitsOn.unique {enough : Bytes → Bool} {position first second : Position}
    (hfirst : WaitsOn enough position first) (hready : first.IsReady enough)
    (hsecond : WaitsOn enough position second) (hready' : second.IsReady enough) :
    first = second := by
  have hdeterministic : Relator.RightUnique fun position later =>
      Steps position later ∧ ¬position.IsReady enough := by
    intro start left right hleft hright
    exact Option.some.inj (hleft.1.symm.trans hright.1)
  rcases Relation.ReflTransGen.total_of_right_unique hdeterministic hfirst hsecond with
    hforward | hbackward
  · cases hforward.cases_head with
    | inl hsame => exact hsame
    | inr hstep =>
        obtain ⟨next, hstep, -⟩ := hstep
        exact absurd hready hstep.2
  · cases hbackward.cases_head with
    | inl hsame => exact hsame.symm
    | inr hstep =>
        obtain ⟨next, hstep, -⟩ := hstep
        exact absurd hready' hstep.2

/-! ## The end of a wait -/

/-- How a wait up to `deadline` can end at `later`. -/
inductive Stops (enough : Bytes → Bool) (deadline : Nat) (later : Position) : Halt → Prop
  | satisfied (henough : enough later.link.unread = true) (hearly : later.link.elapsed < deadline)
      (hrest : later.link.wiring = .terminal → later.atRest = true) :
      Stops enough deadline later .satisfied
  | closed (hlacking : enough later.link.unread = false) (hearly : later.link.elapsed < deadline)
      (hclosed : later.link.closed = true) : Stops enough deadline later .closed
  | late (hlacking : enough later.link.unread = false) (hlate : later.link.elapsed = deadline)
      (hopen : later.link.closed = false) : Stops enough deadline later .late

/-- A wait that begins at `position` comes to the result at a position that it stops at. -/
def Awaited (enough : Bytes → Bool) (time : Nat) (position : Position)
    (result : Halt × Process Ending × Link) : Prop :=
  ∃ later, WaitsOn enough position later ∧ later.process = result.2.1 ∧ later.link = result.2.2 ∧
    Stops enough (position.link.elapsed + time) later result.1

/-- A wait is the same when it begins later on the way. -/
theorem Awaited.behind {enough : Bytes → Bool} {time rest : Nat} {position next : Position}
    {result : Halt × Process Ending × Link} (hwaits : WaitsOn enough position next)
    (htime : next.link.elapsed + rest = position.link.elapsed + time)
    (hawaited : Awaited enough rest next result) : Awaited enough time position result := by
  obtain ⟨later, hlater, hprocess, hlink, hstops⟩ := hawaited
  refine ⟨later, hwaits.trans hlater, hprocess, hlink, ?_⟩
  rwa [← htime]

theorem Awaited.head {enough : Bytes → Bool} {time : Nat} {position next : Position}
    {result : Halt × Process Ending × Link} (hstep : Steps position next)
    (hbusy : ¬position.IsReady enough) (htime : next.link.elapsed = position.link.elapsed)
    (hawaited : Awaited enough time next result) : Awaited enough time position result :=
  .behind (.single ⟨hstep, hbusy⟩) (by rw [htime]) hawaited

/-- A process that cannot move is waited for until the time is up. -/
theorem awaited_stall {enough : Bytes → Bool} {position : Position} {time : Nat} (htime : 0 < time)
    (hopen : position.link.closed = false) (hrest : position.atRest = true)
    (hstuck : ∀ span, Steps (position.move position.process (position.link.pass span))
      (position.move position.process (position.link.pass (span + 1)))) :
    Awaited enough time position (position.link.stall enough position.process time) := by
  unfold Link.stall
  cases henough : enough position.link.unread with
  | true =>
      refine ⟨position, .refl, rfl, rfl, ?_⟩
      exact .satisfied henough (Nat.lt_add_of_pos_right htime) fun _ => hrest
  | false =>
      have hwaits : ∀ span,
          WaitsOn enough position (position.move position.process (position.link.pass span)) := by
        intro span
        induction span with
        | zero => exact .refl
        | succ span ih =>
            refine ih.tail ⟨hstuck span, ?_⟩
            rintro ⟨-, hready⟩
            exact absurd (henough.symm.trans hready) Bool.false_ne_true
      exact ⟨_, hwaits time, rfl, rfl, .late henough rfl hopen⟩

/-- A process whose output is held back cannot move. -/
theorem awaited_held {enough : Bytes → Bool} {position : Position} {time : Nat} {bytes : Bytes}
    {next : Process Ending} (htime : 0 < time) (hopen : position.link.closed = false)
    (hheld : position.link.isHeld = true) (hbytes : bytes ≠ [])
    (hprocess : position.process = .print bytes next ∨ position.process = .warn bytes next) :
    Awaited enough time position (position.link.stall enough position.process time) := by
  apply awaited_stall htime hopen
  · rcases hprocess with hprint | hwarn
    · simp [atRest, hprint, hheld, hbytes]
    · simp [atRest, hwarn, hheld, hbytes]
  · intro span
    rcases hprocess with hprint | hwarn
    · simp [Steps, step?, move, hprint, hheld, hbytes, hopen]
    · simp [Steps, step?, move, hwarn, hheld, hbytes, hopen]

/-- A process that closes its terminal is waited for no longer. -/
theorem awaited_close {enough : Bytes → Bool} {position : Position} {time : Nat}
    {next : Process Ending} (htime : 0 < time) (hbusy : ¬position.IsReady enough)
    (hstep : Steps position (position.move next position.link.close)) :
    Awaited enough time position
      (position.link.verdict enough .closed, next, position.link.close) := by
  refine ⟨_, .single ⟨hstep, hbusy⟩, rfl, rfl, ?_⟩
  have hearly : position.link.elapsed < position.link.elapsed + time :=
    Nat.lt_add_of_pos_right htime
  unfold Link.verdict
  cases henough : enough position.link.unread with
  | true => exact .satisfied henough hearly fun _ => rfl
  | false => exact .closed henough hearly rfl

/-- A pause is waited through, a millisecond at a time. -/
theorem waitsOn_pause {enough : Bytes → Bool} {position : Position} {next : Process Ending}
    (hlacking : enough position.link.unread = false) (rest span : Nat) :
    WaitsOn enough (position.move (.pause (rest + span) next) position.link)
      (position.move (.pause rest next) (position.link.pass span)) := by
  induction span generalizing rest with
  | zero => exact .refl
  | succ span ih =>
      have hearlier := ih (rest + 1)
      rw [Nat.add_right_comm] at hearlier
      refine hearlier.tail ⟨rfl, ?_⟩
      rintro ⟨-, hready⟩
      exact absurd (hlacking.symm.trans hready) Bool.false_ne_true

section Advance

variable {enough : Bytes → Bool} {next : Process Ending} {time : Nat} {link : Link}
  {transcript : String} {written : Bytes} {heard : List Bytes} {typed : List String}

/-- What goes through a pipe is looked at after a write, what is shown on a terminal is not. -/
theorem awaited_print {bytes : Bytes} (htime : 0 < time) (hopen : link.closed = false)
    (hon : ∀ link : Link, link.closed = false →
      Awaited enough time ⟨⟨next, link, transcript⟩, written ++ bytes, heard, typed⟩
        (Link.advance enough next time link)) :
    Awaited enough time ⟨⟨.print bytes next, link, transcript⟩, written, heard, typed⟩
      (Link.advance enough (.print bytes next) time link) := by
  simp only [Link.advance]
  split
  · next hheld =>
    exact awaited_held htime hopen hheld.1 hheld.2 (.inl rfl)
  · next hfree =>
    have hstep : Steps ⟨⟨.print bytes next, link, transcript⟩, written, heard, typed⟩
        ⟨⟨next, link.print bytes, transcript⟩, written ++ bytes, heard, typed⟩ := by
      simp [Steps, step?, hopen, hfree, move]
    have hbusy : ¬IsReady enough
        ⟨⟨.print bytes next, link, transcript⟩, written, heard, typed⟩ := by
      simp_all [IsReady, atRest]
    obtain ⟨more, hmore⟩ := link.print_eq_receive bytes
    rw [hmore] at hstep ⊢
    split
    · next hpipe =>
      refine ⟨_, .single ⟨hstep, hbusy⟩, rfl, rfl, .satisfied hpipe.2 ?_ ?_⟩
      · exact Nat.lt_add_of_pos_right htime
      · intro hterminal
        exact absurd (hpipe.1.symm.trans hterminal) (by simp)
    · exact .head hstep hbusy rfl (hon _ hopen)

/-- A pause is waited through to its end, or as far as the time goes. -/
theorem awaited_pause {span : Nat} (htime : 0 < time) (hopen : link.closed = false)
    (hon : ∀ time link, 0 < time → link.closed = false →
      Awaited enough time ⟨⟨next, link, transcript⟩, written, heard, typed⟩
        (Link.advance enough next time link)) :
    Awaited enough time ⟨⟨.pause span next, link, transcript⟩, written, heard, typed⟩
      (Link.advance enough (.pause span next) time link) := by
  simp only [Link.advance]
  split
  · next henough =>
    refine ⟨_, .refl, rfl, rfl, .satisfied henough ?_ ?_⟩
    · exact Nat.lt_add_of_pos_right htime
    · intro _
      simp [atRest]
  · next hlacking =>
    rw [Bool.not_eq_true] at hlacking
    have hpause := fun rest span => @waitsOn_pause enough
      ⟨⟨.pause (rest + span) next, link, transcript⟩, written, heard, typed⟩ next hlacking
        rest span
    split
    · next hshort =>
      have hthrough := hpause 0 span
      rw [Nat.zero_add] at hthrough
      have hlater : WaitsOn enough
          ⟨⟨.pause span next, link, transcript⟩, written, heard, typed⟩
          ⟨⟨next, link.pass span, transcript⟩, written, heard, typed⟩ := by
        refine hthrough.tail ⟨rfl, ?_⟩
        rintro ⟨-, hready⟩
        exact absurd (hlacking.symm.trans hready) Bool.false_ne_true
      have hleft : span + (time - span) = time := Nat.add_sub_cancel' (Nat.le_of_lt hshort)
      refine .behind hlater ?_ (hon _ _ (Nat.sub_pos_of_lt hshort) hopen)
      simp [Link.pass, Nat.add_assoc, hleft]
    · next hlong =>
      have hrest : span - time + time = span := Nat.sub_add_cancel (Nat.not_lt.mp hlong)
      have hpartly := hpause (span - time) time
      rw [hrest] at hpartly
      exact ⟨_, hpartly, rfl, rfl, .late hlacking rfl hopen⟩

end Advance

/-- `Link.advance` follows the course of the process up to where the wait stops. -/
theorem advance_awaited (enough : Bytes → Bool) (process : Process Ending) (time : Nat)
    (link : Link) (transcript : String) (written : Bytes) (heard : List Bytes)
    (typed : List String) (htime : 0 < time) (hopen : link.closed = false) :
    Awaited enough time ⟨⟨process, link, transcript⟩, written, heard, typed⟩
      (Link.advance enough process time link) := by
  -- A wait that goes on is the wait from the next position; the record may differ there.
  induction process generalizing time link written heard with
  | finished ending =>
      apply awaited_close htime
      · simp [IsReady, atRest, hopen]
      · simp [Steps, step?, hopen]
  | print bytes next ih => exact awaited_print htime hopen fun link => ih time link _ _ htime
  | warn bytes next ih =>
      simp only [Link.advance]
      split
      · next hheld =>
        exact awaited_held htime hopen hheld.1 hheld.2 (.inr rfl)
      · next hfree =>
        have hstep : Steps ⟨⟨.warn bytes next, link, transcript⟩, written, heard, typed⟩
            ⟨⟨next, link.warn bytes, transcript⟩, written ++ bytes, heard, typed⟩ := by
          simp [Steps, step?, hopen, hfree, move]
        have hbusy : ¬IsReady enough
            ⟨⟨.warn bytes next, link, transcript⟩, written, heard, typed⟩ := by
          simp_all [IsReady, atRest]
        obtain ⟨more, hmore⟩ := link.warn_eq_receive bytes
        rw [hmore] at hstep ⊢
        exact .head hstep hbusy rfl (ih _ _ _ _ htime hopen)
  | ask portion next ih =>
      simp only [Link.advance]
      split
      · next input later hinput =>
        have hlater := Link.eq_of_input hinput
        have hstep : Steps ⟨⟨.ask portion next, link, transcript⟩, written, heard, typed⟩
            ⟨⟨next input, later, transcript⟩, written, heard ++ input.toList, typed⟩ := by
          simp [Steps, step?, hopen, hinput, move]
        have hbusy : ¬IsReady enough
            ⟨⟨.ask portion next, link, transcript⟩, written, heard, typed⟩ := by
          simp [IsReady, atRest, hopen, hinput]
        rw [hlater] at hstep ⊢
        exact .head hstep hbusy rfl (ih _ _ _ _ _ htime hopen)
      · next hnothing =>
        apply awaited_stall htime hopen
        · simp [atRest, hnothing]
        · intro span
          simp [Steps, step?, move, Link.input_pass, hnothing, hopen]
  | pause span next ih => exact awaited_pause htime hopen fun time link => ih time link _ _
  | hangUp next ih =>
      apply awaited_close htime
      · simp [IsReady, atRest, hopen]
      · simp [Steps, step?]
  | arrange signal arrangement next ih =>
      refine .head rfl ?_ rfl (ih _ _ _ _ htime hopen)
      simp [IsReady, atRest, hopen]
  | collect next ih =>
      refine .head rfl ?_ rfl (ih _ _ _ _ _ htime hopen)
      simp [IsReady, atRest, hopen]
  | change effect next ih =>
      refine .head rfl ?_ rfl (ih _ _ _ _ htime hopen)
      simp [IsReady, atRest, hopen]
  | look next ih =>
      refine .head rfl ?_ rfl (ih _ _ _ _ _ htime hopen)
      simp [IsReady, atRest, hopen]

/-! ## What a wait comes to -/

/-- How a wait of `time` milliseconds for `enough`, begun at `position`, can end and where. -/
inductive Waited (enough : Bytes → Bool) (time : Nat) (position : Position) :
    Halt → Position → Prop
  | here (henough : enough position.link.unread = true) :
      Waited enough time position .satisfied position
  | found {later : Position} (hlacking : enough position.link.unread = false)
      (hwaits : WaitsOn enough position later) (henough : enough later.link.unread = true)
      (hearly : later.link.elapsed < position.link.elapsed + time)
      (hrest : position.link.wiring = .terminal → later.atRest = true) :
      Waited enough time position .satisfied later
  | closed {later : Position} (hreaches : position.Reaches later)
      (hlacking : enough later.link.unread = false)
      (htimely : position.link.closed = true ∨
        later.link.elapsed < position.link.elapsed + time)
      (hclosed : later.link.closed = true) : Waited enough time position .closed later
  | late {later : Position} (hreaches : position.Reaches later)
      (hlacking : enough later.link.unread = false)
      (hlate : later.link.elapsed = position.link.elapsed + time)
      (hopen : later.link.closed = false) : Waited enough time position .late later

theorem Waited.reaches {enough : Bytes → Bool} {time : Nat} {position later : Position}
    {halt : Halt} (hwaited : Waited enough time position halt later) : position.Reaches later := by
  cases hwaited with
  | here => exact .refl
  | found _ hwaits => exact hwaits.reaches
  | closed hreaches => exact hreaches
  | late hreaches => exact hreaches

/-- A wait that is not satisfied has not seen enough. -/
theorem Waited.lacking {enough : Bytes → Bool} {time : Nat} {position later : Position}
    {halt : Halt} (hwaited : Waited enough time position halt later)
    (hmissed : halt ≠ .satisfied) : enough later.link.unread = false := by
  cases hwaited with
  | here => exact absurd rfl hmissed
  | found => exact absurd rfl hmissed
  | closed _ hlacking => exact hlacking
  | late _ hlacking => exact hlacking

/-- Every wait comes to one of its ends, with the record kept on the way. -/
theorem exists_waited (enough : Bytes → Bool) (time : Nat) (position : Position) :
    ∃ later, later.toTalk = (position.toTalk.await enough time).2 ∧
      Waited enough time position (position.toTalk.await enough time).1 later := by
  simp only [Talk.await, Link.await]
  split
  · next henough => exact ⟨position, rfl, .here henough⟩
  · next hlacking =>
    rw [Bool.not_eq_true] at hlacking
    split
    · next hclosed =>
      exact ⟨position, rfl, .closed .refl hlacking (.inl hclosed) hclosed⟩
    · next hopen =>
      rw [Bool.not_eq_true] at hopen
      split
      · next htime =>
        subst htime
        exact ⟨position, rfl, .late .refl hlacking rfl hopen⟩
      · next htime =>
        have hpositive : 0 < time := Nat.pos_of_ne_zero htime
        obtain ⟨later, hwaits, hprocess, hlink, hstops⟩ :=
          advance_awaited enough position.process time position.link position.transcript
            position.written position.heard position.typed hpositive hopen
        have hprecedes := hwaits.reaches.precedes
        refine ⟨later, ?_, ?_⟩
        · rw [← hprocess, ← hlink]
          exact congrArg (Talk.mk later.process later.link) hprecedes.transcript
        · generalize (Link.advance enough position.process time position.link).1 = halt at hstops
          cases hstops with
          | satisfied henough hearly hrest =>
              refine .found hlacking hwaits henough hearly ?_
              intro hterminal
              exact hrest (hprecedes.wiring.trans hterminal)
          | closed hlacking hearly hclosed =>
              exact .closed hwaits.reaches hlacking (.inr hearly) hclosed
          | late hlacking hlate hopen => exact .late hwaits.reaches hlacking hlate hopen

/-- What the terminal held at some time it holds later. -/
theorem Reaches.holds {needle : Bytes} {position later : Position}
    (hreaches : position.Reaches later) (hholds : Text.holds needle position.link.unread = true) :
    Text.holds needle later.link.unread = true := by
  obtain ⟨more, -, hunread, -⟩ := hreaches.precedes.shown
  rw [hunread]
  exact Text.holds_append more hholds

/-- Nothing comes from a closed terminal. -/
theorem Reaches.unread_of_closed {position later : Position} (hreaches : position.Reaches later)
    (hclosed : position.link.closed = true) : later.link.unread = position.link.unread := by
  obtain ⟨more, -, hunread, hnone⟩ := hreaches.precedes.shown
  rw [hunread, hnone hclosed, List.append_nil]

/-- A needle that is missing where a wait has failed has not been shown in time. -/
theorem not_shows {needle : Bytes} {time : Nat} {position later : Position}
    (hreaches : position.Reaches later) (hlacking : Text.holds needle later.link.unread = false)
    (hover : later.link.closed = true ∨ position.link.elapsed + time ≤ later.link.elapsed) :
    ¬position.Shows time needle := by
  rintro (hholds | ⟨other, hwithin, hholds⟩)
  · exact absurd (hlacking.symm.trans (hreaches.holds hholds)) Bool.false_ne_true
  · rcases hwithin.1.total hreaches with hbefore | hbehind
    · exact absurd (hlacking.symm.trans (hbefore.holds hholds)) Bool.false_ne_true
    · rcases hover with hclosed | hlate
      · rw [hbehind.unread_of_closed hclosed, hlacking] at hholds
        exact absurd hholds Bool.false_ne_true
      · have hearly := hwithin.2
        have helapsed := hbehind.precedes.elapsed
        omega

/-- A wait for a needle is satisfied exactly where the needle shows in time. -/
theorem Waited.satisfied_iff_shows {needle : Bytes} {time : Nat} {position later : Position}
    {halt : Halt} (hwaited : Waited (Text.holds needle) time position halt later) :
    halt = .satisfied ↔ position.Shows time needle := by
  cases hwaited with
  | here henough => exact ⟨fun _ => .inl henough, fun _ => rfl⟩
  | found hlacking hwaits henough hearly hrest =>
      exact ⟨fun _ => .inr ⟨later, ⟨hwaits.reaches, hearly⟩, henough⟩, fun _ => rfl⟩
  | closed hreaches hlacking htimely hclosed =>
      have hmissed : ¬position.Shows time needle := not_shows hreaches hlacking (.inl hclosed)
      simp [hmissed]
  | late hreaches hlacking hlate hopen =>
      have hmissed : ¬position.Shows time needle :=
        not_shows hreaches hlacking (.inr (Nat.le_of_eq hlate.symm))
      simp [hmissed]

/-- A wait that is not satisfied tells whether the terminal is closed in time. -/
theorem Waited.closed_iff_closes {enough : Bytes → Bool} {time : Nat} {position later : Position}
    {halt : Halt} (hwaited : Waited enough time position halt later)
    (hmissed : halt ≠ .satisfied) : halt = .closed ↔ position.Closes time := by
  cases hwaited with
  | here => exact absurd rfl hmissed
  | found => exact absurd rfl hmissed
  | closed hreaches hlacking htimely hclosed =>
      refine ⟨fun _ => ?_, fun _ => rfl⟩
      rcases htimely with halready | hearly
      · exact .inl halready
      · exact .inr ⟨later, ⟨hreaches, hearly⟩, hclosed⟩
  | late hreaches hlacking hlate hopen =>
      have hstaysOpen : ¬position.Closes time := by
        -- What has been closed on the way would be closed still when the time is up.
        have hstays : ∀ other : Position, other.Reaches later → other.link.closed ≠ true := by
          intro other hbefore hclosed
          exact absurd (hopen.symm.trans (hbefore.precedes.closed hclosed)) Bool.false_ne_true
        rintro (hclosed | ⟨other, hwithin, hclosed⟩)
        · exact hstays position hreaches hclosed
        · rcases hwithin.1.total hreaches with hbefore | hbehind
          · exact hstays other hbefore hclosed
          · have hearly := hwithin.2
            have helapsed := hbehind.precedes.elapsed
            omega
      simp [hstaysOpen]

end Position

end PromptHarness
