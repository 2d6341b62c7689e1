import PromptHarness.Actor
import PromptHarness.Proofs.Surroundings

/-!
# The home that commands find

What an agent announces stands behind the variables of the home and so counts before them, whatever
its name is.  An agent that announces one of their names moves the commands away from the home, or
to another editor, for as long as it runs; no other announcement does.
-/

namespace PromptHarness

namespace Session

theorem announcedValue?_getD_eq_iff {events : List Event} {name other : String} :
    (announcedValue? events name).getD other = other ↔
      ∀ binding, announced? events = some binding → binding.key = name → binding.value = other := by
  unfold announcedValue?
  cases announced? events with
  | none => simp
  | some binding =>
      by_cases hkey : binding.key = name
      · simp [Binding.valueOf?, hkey]
      · simp [Binding.valueOf?, hkey]

/-- A command finds the home and the editor unless an agent has announced their names. -/
structure FindsHome (root : String) (home : Home) (events : List Event) (found : Environment) :
    Prop where
  homeFound : found.value? "HOME" = some ((announcedValue? events "HOME").getD root)
  editorFound : ∀ editor, selected? events = some editor →
    found.value? "EDITOR" = some ((announcedValue? events "EDITOR").getD (home.editorPath editor))
  /-- The announcements by which the home is what a command finds. -/
  isolated :
    (found.value? "HOME" = some root ∧ ∀ editor, selected? events = some editor →
        found.value? "EDITOR" = some (home.editorPath editor)) ↔
      ∀ binding, announced? events = some binding →
        (binding.key = "HOME" → binding.value = root) ∧
        (binding.key = "EDITOR" → ∀ editor, selected? events = some editor →
          binding.value = home.editorPath editor)

theorem FindsHome.of_values {root : String} {home : Home} {events : List Event}
    {found : Environment}
    (hroot : found.value? "HOME" = some ((announcedValue? events "HOME").getD root))
    (heditor : ∀ editor, selected? events = some editor → found.value? "EDITOR" =
      some ((announcedValue? events "EDITOR").getD (home.editorPath editor))) :
    FindsHome root home events found where
  homeFound := hroot
  editorFound := heditor
  isolated := by
    have hkeptRoot : found.value? "HOME" = some root ↔ ∀ binding,
        announced? events = some binding → binding.key = "HOME" → binding.value = root := by
      rw [hroot, Option.some_inj, announcedValue?_getD_eq_iff]
    have hkeptEditor : ∀ editor, selected? events = some editor →
        (found.value? "EDITOR" = some (home.editorPath editor) ↔ ∀ binding,
          announced? events = some binding → binding.key = "EDITOR" →
            binding.value = home.editorPath editor) := by
      intro editor hselected
      rw [heditor editor hselected, Option.some_inj, announcedValue?_getD_eq_iff]
    constructor
    · rintro ⟨hfound, hfoundEditor⟩ binding hannounced
      refine ⟨hkeptRoot.mp hfound binding hannounced, ?_⟩
      intro hkey editor hselected
      exact (hkeptEditor editor hselected).mp (hfoundEditor editor hselected) binding hannounced hkey
    · intro hkept
      refine ⟨hkeptRoot.mpr fun binding hannounced => (hkept binding hannounced).1, ?_⟩
      intro editor hselected
      rw [hkeptEditor editor hselected]
      intro binding hannounced hkey
      exact (hkept binding hannounced).2 hkey editor hselected

/-- Commands find their home exactly where no agent has announced another. -/
theorem lasts_findsHome {root : String} {session later : Session} {machine laterMachine : Machine}
    {events : List Event} (hopened : Opened root session machine)
    (hlasts : Lasts session machine events later laterMachine) (child : Program)
    (command : Command) (options : List String) (prompts : Prompts) :
    (∀ process, later.runner.Starts later.test (later.invocation command options prompts)
        (laterMachine.equip child) process →
      (laterMachine.equip child).Executes
        (later.call command options prompts (laterMachine.equip child)) process) ∧
    later.Receives command options prompts (laterMachine.equip child)
      (later.call command options prompts (laterMachine.equip child)) ∧
    FindsHome root session.home events
      (later.call command options prompts (laterMachine.equip child)).environment := by
  have htold := hlasts.told hopened
  have hvalue := htold.value?_call child command options prompts
  refine ⟨fun process hstarts => hstarts.executes,
    later.receives_call command options prompts _, .of_values ?_ ?_⟩
  · have hsetting : later.home.setting? "HOME" = some root := by
      rw [← hopened.fresh.root, ← htold.root]
      rfl
    rw [hvalue, hsetting, Option.some_or]
    cases announcedValue? events "HOME" <;> rfl
  · intro editor hselected
    have hsetting : later.home.setting? "EDITOR" = some (session.home.editorPath editor) := by
      change later.home.editor.map later.home.editorPath = _
      rw [htold.editorPath, hselected]
      rfl
    rw [hvalue, hsetting, Option.some_or]
    cases announcedValue? events "EDITOR" <;> rfl

theorem lasts_findsHome_caller :
    let session := ofProgram "/run" "/home"
    let machine := housing "/home" (Machine.lone (.finished (.exited 0)))
    let steps := [.selectEditor .save none, .startAgent Agent.caller]
    let later := (performAll steps session machine).2
    Opened "/home" session machine ∧
      Lasts session machine (eventsAll steps session machine) later.1 later.2 ∧
      announced? (eventsAll steps session machine) = some ⟨"KP_AGENT_SOCK", "/tmp/kp"⟩ ∧
      later.1.Receives (.list []) [] .default (later.2.equip Agent.caller)
        (later.1.call (.list []) [] .default (later.2.equip Agent.caller)) ∧
      FindsHome "/home" session.home (eventsAll steps session machine)
        (later.1.call (.list []) [] .default (later.2.equip Agent.caller)).environment := by
  intro session machine steps later
  have hopened : Opened "/home" session machine := opened_ofProgram _ _ _
  have hlasts : Lasts session machine (eventsAll steps session machine) later.1 later.2 :=
    lasts_performAll steps session machine
  have hannounced : announced? (eventsAll steps session machine) =
      some ⟨"KP_AGENT_SOCK", "/tmp/kp"⟩ := by
    simp only [steps, session, machine]
    decide +kernel
  exact ⟨hopened, hlasts, hannounced, (lasts_findsHome hopened hlasts _ _ _ _).2⟩

/-- An agent that announces itself under the name of the home. -/
def impostor : Program := fun _ _ =>
  .print (Text.encode "HOME=/elsewhere\n") <| .pause 60000 <| .finished (.exited 0)

/-- While such an agent is running, a command that looks for its home finds another directory. -/
theorem home_of_impostor :
    let session := ofProgram "/run" "/home"
    let machine := housing "/home" (Machine.lone (.finished (.exited 0)))
    let steps := [.startAgent impostor]
    let later := (performAll steps session machine).2
    let asking := later.2.equip (Action.program [.showVariable "HOME"])
    Opened "/home" session machine ∧
      Lasts session machine (eventsAll steps session machine) later.1 later.2 ∧
      (later.1.call (.list []) [] .default asking).environment.value? "HOME" =
        some "/elsewhere" ∧
      (later.1.run (.list []) [] .default asking).1.outcome.toOption.map (·.output) =
        some "HOME=/elsewhere\r\n" := by
  intro session machine steps later asking
  have hfound : (later.1.call (.list []) [] .default asking).environment.value? "HOME" =
        some "/elsewhere" ∧
      (later.1.run (.list []) [] .default asking).1.outcome.toOption.map (·.output) =
        some "HOME=/elsewhere\r\n" := by
    simp only [asking, later, steps, session, machine]
    decide +kernel
  exact ⟨opened_ofProgram _ _ _, lasts_performAll steps session machine, hfound⟩

end Session

end PromptHarness
