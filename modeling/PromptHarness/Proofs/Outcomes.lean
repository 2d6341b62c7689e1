import PromptHarness.Shell

/-!
# What comes of a process that does not wait

A process that only writes, looks at the files and changes them comes to its end whoever watches it,
and what it leaves can be computed step by step.
-/

namespace PromptHarness

/-- The files, and all that has been written to a process's two outputs. -/
structure World where
  files : Files
  written : Bytes

namespace World

def write (world : World) (bytes : Bytes) : World :=
  { world with written := world.written ++ bytes }

def store (world : World) (files : Files) : World := { world with files := files }

@[simp]
theorem files_write (world : World) (bytes : Bytes) : (world.write bytes).files = world.files := rfl

@[simp]
theorem files_store (world : World) (files : Files) : (world.store files).files = files := rfl

@[simp]
theorem written_store (world : World) (files : Files) :
    (world.store files).written = world.written := rfl

@[simp]
theorem store_store (world : World) (first second : Files) :
    (world.store first).store second = world.store second := rfl

@[simp]
theorem store_files (world : World) : world.store world.files = world := rfl

end World

namespace Process

variable {α β : Type}

/-- What comes out of the process and the world that it leaves, if it neither waits nor reads nor
arranges anything. -/
def outcome? : Process α → World → Option (α × World)
  | finished value, world => some (value, world)
  | print bytes next, world => next.outcome? (world.write bytes)
  | warn bytes next, world => next.outcome? (world.write bytes)
  | change effect next, world => next.outcome? (world.store (effect world.files))
  | look next, world => (next world.files).outcome? world
  | _, _ => none

theorem outcome?_bind (process : Process α) (next : α → Process β) (world : World) :
    (process.bind next).outcome? world =
      (process.outcome? world).bind fun result => (next result.1).outcome? result.2 := by
  induction process generalizing world with
  | finished value => rfl
  | print bytes rest ih => exact ih (world.write bytes)
  | warn bytes rest ih => exact ih (world.write bytes)
  | change effect rest ih => exact ih (world.store (effect world.files))
  | look rest ih => exact ih world.files world
  | _ => rfl

end Process

namespace Shell.Task

variable {α β : Type}

/-- What comes of a task, the scope behind it and the world that it leaves. -/
def outcome? (task : Task α) (scope : Scope) (world : World) :
    Option ((Except Leave α × Scope) × World) :=
  (task.run.run scope).outcome? world

variable {scope after : Scope} {world left : World}

@[simp]
theorem outcome?_pure (value : α) :
    (pure value : Task α).outcome? scope world = some ((.ok value, scope), world) := rfl

@[simp]
theorem outcome?_throw (leave : Leave) :
    (throw leave : Task α).outcome? scope world = some ((.error leave, scope), world) := rfl

@[simp]
theorem outcome?_get : (get : Task Scope).outcome? scope world = some ((.ok scope, scope), world) :=
  rfl

@[simp]
theorem outcome?_set : (set after : Task PUnit).outcome? scope world =
    some ((.ok ⟨⟩, after), world) := rfl

@[simp]
theorem outcome?_modify (change : Scope → Scope) :
    (modify change : Task PUnit).outcome? scope world =
      some ((.ok ⟨⟩, change scope), world) := rfl

theorem outcome?_bind (task : Task α) (next : α → Task β) :
    (task >>= next).outcome? scope world =
      (task.outcome? scope world).bind fun result =>
        match result with
        | ((.ok value, after), left) => (next value).outcome? after left
        | ((.error leave, after), left) => some ((.error leave, after), left) := by
  change (((task.run.run scope).bind fun result => _).outcome? world) = _
  rw [Process.outcome?_bind]
  congr 1
  funext result
  obtain ⟨⟨outcome, after⟩, left⟩ := result
  cases outcome <;> rfl

/-- A task goes on behind what comes of its first part. -/
theorem outcome?_bind_of {task : Task α} {value : α}
    (htask : task.outcome? scope world = some ((.ok value, after), left)) (next : α → Task β) :
    (task >>= next).outcome? scope world = (next value).outcome? after left := by
  rw [outcome?_bind, htask]
  rfl

theorem outcome?_tryCatch (task : Task α) (handle : Leave → Task α) :
    (tryCatch task handle).outcome? scope world =
      (task.outcome? scope world).bind fun result =>
        match result with
        | ((.ok value, after), left) => some ((.ok value, after), left)
        | ((.error leave, after), left) => (handle leave).outcome? after left := by
  change (((task.run.run scope).bind fun result => _).outcome? world) = _
  rw [Process.outcome?_bind]
  congr 1
  funext result
  obtain ⟨⟨outcome, after⟩, left⟩ := result
  cases outcome <;> rfl

theorem outcome?_tryCatch_of {task : Task α} {value : α}
    (htask : task.outcome? scope world = some ((.ok value, after), left))
    (handle : Leave → Task α) :
    (tryCatch task handle).outcome? scope world = some ((.ok value, after), left) := by
  rw [outcome?_tryCatch, htask]
  rfl

@[simp]
theorem outcome?_say (bytes : Bytes) :
    (liftM (Process.say bytes) : Task Unit).outcome? scope world =
      some ((.ok (), scope), world.write bytes) := rfl

@[simp]
theorem outcome?_alter (effect : Files → Files) :
    (liftM (Process.alter effect) : Task Unit).outcome? scope world =
      some ((.ok (), scope), world.store (effect world.files)) := rfl

@[simp]
theorem outcome?_files :
    Task.files.outcome? scope world = some ((.ok (scope.seen world.files), scope), world) := rfl

theorem outcome?_mapM_cons {items : List β} {item : β} {task : β → Task α} {value : α}
    {values : List α} {middle : Scope} {between : World}
    (hfirst : (task item).outcome? scope world = some ((.ok value, middle), between))
    (hrest : (items.mapM task).outcome? middle between = some ((.ok values, after), left)) :
    ((item :: items).mapM task).outcome? scope world =
      some ((.ok (value :: values), after), left) := by
  rw [List.mapM_cons, outcome?_bind_of hfirst, outcome?_bind_of hrest]
  rfl

end Shell.Task

end PromptHarness
