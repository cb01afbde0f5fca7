import X402Facilitator.Catalog.InOrder

/-!
# What a restart finds

Once all has finished, memory and the table list the same, as long as writes are in
order: what the statements under way leave at a key is what memory lists there.
-/

namespace X402Facilitator.Catalog

open Execution InsertionMap

variable {Vector : Type}

section Statement

structure System.Quiet (s : System Vector) : Prop where
  ready : s.boot = .ready
  tasks : ∀ task ∈ s.tasks, task.progress.isEnded = true
  jobs : ∀ job ∈ s.jobs, job.pending = false

end Statement

variable {config : Config} {store : Store Vector} {s s' : System Vector}
  {action : Action Vector} {table : CatalogTable Vector} {resource : Resource}
  {key other : String} {entry : Entry} {command : Command} {id : ℕ}
  {progress progress' : Progress Vector} {embeddings embeddings' : ℕ → Embedding Vector}
  {tasks : List (Task Vector)}

def pendings (embeddings : ℕ → Embedding Vector) (tasks : List (Task Vector)) :
    List (Statement Vector) :=
  tasks.filterMap (Task.pending embeddings)

def System.outcome (s : System Vector) (key : String) : Option (Listing Vector) :=
  Catalog.outcome key (pendings s.store.embeddings s.tasks) (s.table.listing key)

def System.expected (s : System Vector) (key : String) : Option (Listing Vector) :=
  match s.boot with
  | .ready => s.store.listing key
  | _ => (s.store.listing key).or (s.table.listing key)

theorem expected_of_ready (hboot : s.boot = .ready) (key : String) :
    s.expected key = s.store.listing key := by
  rw [System.expected, hboot]

theorem expected_of_not_ready (hboot : s.boot ≠ .ready) (key : String) :
    s.expected key = (s.store.listing key).or (s.table.listing key) := by
  rw [System.expected]
  split
  · next hready => exact absurd hready hboot
  · rfl

theorem pendings_append (embeddings : ℕ → Embedding Vector) (first second : List (Task Vector)) :
    pendings embeddings (first ++ second) =
      pendings embeddings first ++ pendings embeddings second := List.filterMap_append

theorem deleting_append (first second : List (Task Vector)) (key : String) :
    (∃ task ∈ first ++ second, task.command = .delete key ∧ task.progress.isEnded = false) ↔
      (∃ task ∈ first, task.command = .delete key ∧ task.progress.isEnded = false) ∨
        ∃ task ∈ second, task.command = .delete key ∧ task.progress.isEnded = false := by
  simp only [List.mem_append, or_and_right, exists_or]

theorem deleting_addTask (s : System Vector) (command : Command) (key : String) :
    (s.addTask command).Deleting key ↔ s.Deleting key ∨ command = .delete key := by
  refine (deleting_append _ _ key).trans (or_congr_right ?_)
  simp [Progress.isEnded]

structure ListedAt (s : System Vector) (key : String) : Prop where
  apart : s.boot ≠ .ready → s.table.listing key = none ∨ s.store.listing key = none
  deleting : s.Deleting key → s.outcome key = none
  agrees : ¬ s.Deleting key → s.outcome key = s.expected key

/-- A step that the key does not show. -/
theorem ListedAt.frame (hs : ListedAt s key) (hboot : s'.boot = .ready ↔ s.boot = .ready)
    (htable : s'.table.listing key = s.table.listing key)
    (hstore : s'.store.listing key = s.store.listing key)
    (hdeleting : s'.Deleting key ↔ s.Deleting key) (houtcome : s'.outcome key = s.outcome key) :
    ListedAt s' key := by
  have hexpected : s'.expected key = s.expected key := by
    by_cases hready : s.boot = .ready
    · rw [expected_of_ready hready, expected_of_ready (hboot.mpr hready), hstore]
    · rw [expected_of_not_ready hready, expected_of_not_ready (mt hboot.mp hready), hstore, htable]
  refine ⟨fun hready => ?_, fun hkey => ?_, fun hkey => ?_⟩
  · rw [htable, hstore]
    exact hs.apart (mt hboot.mpr hready)
  · rw [houtcome]
    exact hs.deleting (hdeleting.mp hkey)
  · rw [houtcome, hexpected]
    exact hs.agrees (mt hdeleting.mpr hkey)

theorem outcome_addTask (s : System Vector) (command : Command) (key : String) :
    (s.addTask command).outcome key =
      (command.statement s.store.embeddings).on key (s.outcome key) := by
  rw [System.outcome, System.outcome, store_addTask]
  change outcome key (pendings _ (s.tasks ++ [_])) _ = _
  rw [pendings_append, outcome_append]
  rfl

/-- A new write shows at the keys that it touches alone. -/
theorem ListedAt.addTask (hs : ListedAt s key)
    (hnot : ¬ (command.statement s.store.embeddings).touches key) :
    ListedAt (s.addTask command) key := by
  refine hs.frame Iff.rfl rfl rfl ?_ ?_
  · rw [deleting_addTask, or_iff_left]
    rintro rfl
    exact hnot List.mem_cons_self
  · rw [outcome_addTask, Statement.on_of_not_touches hnot]

structure Kept (config : Config) (s : System Vector) : Prop where
  booted : Booted s
  owned : Owned config s
  listed : ∀ key, ListedAt s key

def writes (id : ℕ) : List (Action Unit) := [.sends id, .executes id, .answers id]

end X402Facilitator.Catalog
