import X402Facilitator.Catalog.Listings

/-!
# Writes in order

The statements of a key are executed in the order of their operations, nothing is
written to a key that is being deleted, and a vector is written only for the listing
that is stored.  Under this condition a step is one of a few moves, and what memory, the
writes and the jobs hold is told apart by its objects.
-/

namespace X402Facilitator.Catalog

open Execution InsertionMap

variable {Vector : Type}

def Progress.isEnded : Progress Vector → Bool
  | .ended => true
  | _ => false

def System.Deleting (s : System Vector) (key : String) : Prop :=
  ∃ task ∈ s.tasks, task.command = .delete key ∧ task.progress.isEnded = false

/-- The statement that a task is still to have executed. -/
def Task.pending (embeddings : ℕ → Embedding Vector) (task : Task Vector) :
    Option (Statement Vector) :=
  match task.progress with
  | .waiting => some (task.command.statement embeddings)
  | .sent statement => some statement
  | _ => none

/-- Statements of one key are executed in order.  A key is not written while it is being
deleted, nor before its row has been loaded; a vector is written for a stored listing.
Texts can be composed where they are needed, and no query fails. -/
def InOrder (config : Config) (s : System Vector) : Action Vector → Prop
  | .upsert resource _ => s.boot ≠ .importing ∧
      (s.boot ≠ .ready → s.table.rows.get resource.key = none) ∧
      ¬ s.Deleting resource.key ∧ Composes config resource
  | .embeds id (some _) => ∀ job ∈ s.jobs[id]?, ¬ s.Deleting job.entry.resource.key ∧
      ∃ entry ∈ s.store.resources.get job.entry.resource.key, entry.object = job.entry.object
  | .hydrates => ∀ rows, s.boot = .selected rows →
      ∀ row ∈ rows, Composes config row.2.resource
  | .executes id => ∀ task ∈ s.tasks[id]?, ∀ statement ∈ task.pending s.store.embeddings,
      ∀ earlier < id, ∀ other ∈ s.tasks[earlier]?,
        ∀ first ∈ other.pending s.store.embeddings,
          ∀ key, statement.touches key → ¬ first.touches key
  | .importFails | .selectFails | .fails _ => False
  | _ => True

variable {config : Config} {store : Store Vector} {s s' : System Vector}
  {action : Action Vector} {table : CatalogTable Vector} {resource : Resource}
  {source key : String} {entry entry' : Entry} {command : Command} {id : ℕ}

structure Booted (s : System Vector) : Prop where
  healthy : s.degraded = false
  pool : s.boot ≠ .absent
  importing : s.boot = .importing → s.store.resources.entries = []
  waiting : s.boot ≠ .ready → ∀ task ∈ s.tasks, task.progress = .waiting
  selected : ∀ rows, s.boot = .selected rows →
    ∃ order : List String, order.Perm s.table.rows.keys ∧ rows = s.table.select order

theorem Booted.persists (hs : Booted s) (himporting : s.boot ≠ .importing) :
    s.persists = true := by
  rw [System.persists, hs.healthy]
  cases hboot : s.boot with
  | absent => exact absurd hboot hs.pool
  | importing => exact absurd hboot himporting
  | starting => rfl
  | selected rows => rfl
  | ready => rfl

def System.addTask (s : System Vector) (command : Command) : System Vector :=
  { s with tasks := s.tasks ++ [⟨command, .waiting⟩] }

@[simp]
theorem store_addTask (s : System Vector) (command : Command) :
    (s.addTask command).store = s.store := rfl

theorem startTask_of_persists (hpersists : s.persists = true) (command : Command) :
    s.startTask command = s.addTask command := if_pos hpersists

inductive Moves (config : Config) (s : System Vector) : Action Vector → System Vector → Prop where
  | same {action : Action Vector} : Moves config s action s
  | upserted {resource : Resource} {source : String} {store : Store Vector} {entry : Entry}
      {scheduling : Scheduling}
      (hupsert : s.store.upsertResource config s.now resource source =
        .ok (store, entry, scheduling)) :
      Moves config s (.upsert resource source)
        (System.addTask { s with store := store, jobs := s.jobs ++ scheduling.jobs entry }
          (.persist entry))
  | deletes {url : String} {toolName : Option String} :
      Moves config s (.delete url toolName) (s.addTask (.delete (keyOf url toolName)))
  | prunes : Moves config s .prune
      (System.addTask { s with store := s.store.pruneExpired s.now }
        (.erase (s.store.expiredKeys s.now)))
  | imports (hboot : s.boot = .importing) : Moves config s .imports { s with boot := .starting }
  | selects {order : List String} (hboot : s.boot = .starting)
      (hperm : order.Perm s.table.rows.keys) :
      Moves config s (.selects order) { s with boot := .selected (s.table.select order) }
  | hydrates {rows : List (String × Row Vector)} (hboot : s.boot = .selected rows)
      (hcomplete : (s.store.hydrate config rows).2.2 = true) :
      Moves config s .hydrates { s with
        store := (s.store.hydrate config rows).1
        boot := .ready
        jobs := s.jobs ++ (s.store.hydrate config rows).2.1 }
  | sends {id : ℕ} {command : Command} (hboot : s.boot = .ready)
      (htask : s.tasks[id]? = some ⟨command, .waiting⟩) :
      Moves config s (.sends id)
        (s.setProgress id (.sent (command.statement s.store.embeddings)))
  | executes {id : ℕ} {command : Command} {statement : Statement Vector}
      (htask : s.tasks[id]? = some ⟨command, .sent statement⟩) :
      Moves config s (.executes id)
        { s.setProgress id .executed with table := s.table.execute statement }
  | answers {id : ℕ} {command : Command} (htask : s.tasks[id]? = some ⟨command, .executed⟩) :
      Moves config s (.answers id) (s.answer id command)
  | endsJob {id : ℕ} : Moves config s (.embeds id none) (s.endJob id)
  | embeds {id : ℕ} {entry : Entry} {fingerprint : String} {vector : Vector}
      (hjob : s.jobs[id]? = some ⟨entry, fingerprint, true⟩) :
      Moves config s (.embeds id (some vector))
        ((System.addTask { s with
          store := s.store.setEmbedding entry.object ⟨some vector, some fingerprint⟩ }
          (.persist entry)).endJob id)
  | waits {ms : ℕ} : Moves config s (.wait ms) { s with now := s.now + ms }
  | restarts : Moves config s .restart { System.init s.table true with now := s.now }

variable {now : ℕ} {scheduling : Scheduling} {progress : Progress Vector}

theorem composes_newEntry (hcomposes : Composes config resource) :
    Composes config (store.newEntry config now resource source).resource := by
  have hsame : composeDocument (store.newEntry config now resource source).resource =
      composeDocument resource := by
    change composeDocument (Option.elim _ resource fun old : Entry =>
      resource.over old.resource) = _
    cases store.resources.get resource.key <;> rfl
  intro hembeds
  rw [hsame]
  exact hcomposes hembeds

/-- Scheduling does not throw for a text that can be composed. -/
theorem scheduling_of_upsertResource {store' : Store Vector} (hcomposes : Composes config resource)
    (hupsert : store.upsertResource config now resource source =
      .ok (store', entry, scheduling)) : scheduling ≠ .threw := by
  rw [Store.upsertResource] at hupsert
  split at hupsert
  · cases hupsert
  · cases hupsert
    exact scheduleEmbed_ne_threw (composes_newEntry hcomposes)

theorem step_moves (hs : Booted s) (hfresh : s.store.Fresh) (hmeets : InOrder config s action)
    (hstep : step config true s action = some s') : Moves config s action s' := by
  cases steps_of_step hstep with
  | upserts resource source =>
      obtain ⟨himporting, -, -, hcomposes⟩ := hmeets
      rw [System.upsert]
      split
      · exact .same
      · next hupsert => exact absurd rfl (scheduling_of_upsertResource hcomposes hupsert)
      · next hupsert =>
          rw [startTask_of_persists (by exact hs.persists himporting)]
          exact .upserted hupsert
  | deletes url toolName =>
      rw [System.delete]
      split
      · next hpersists =>
          rw [startTask_of_persists hpersists]
          exact .deletes
      · next hnot =>
          have himporting : s.boot = .importing := by
            by_contra hne
            exact hnot (hs.persists hne)
          have hnone : s.store.resources.get (keyOf url toolName) = none := by
            rw [InsertionMap.get, hs.importing himporting]
            rfl
          rw [Store.deleteResource, hnone]
          exact .same
  | prunes =>
      rw [System.prune]
      split
      · next hempty =>
          rw [pruneExpired_of_empty s.store s.now hempty]
          exact .same
      · next hexpired =>
          have himporting : s.boot ≠ .importing := by
            intro hboot
            rw [Store.expiredKeys, hs.importing hboot] at hexpired
            exact hexpired rfl
          rw [startTask_of_persists (by exact hs.persists himporting)]
          exact .prunes
  | imports hboot => exact .imports hboot
  | importFails => exact hmeets.elim
  | selects hboot hperm => exact .selects hboot hperm
  | selectFails => exact hmeets.elim
  | hydrates hboot =>
      obtain ⟨order, hperm, rfl⟩ := hs.selected _ hboot
      obtain ⟨hcomplete, -⟩ :=
        listing_hydrate hfresh (nodup_select s.table hperm) (hmeets _ hboot)
      change Moves config s .hydrates { s with
        store := (s.store.hydrate config (s.table.select order)).1
        boot := .ready
        jobs := s.jobs ++ (s.store.hydrate config (s.table.select order)).2.1
        degraded := s.degraded || !(s.store.hydrate config (s.table.select order)).2.2 }
      rw [hcomplete, Bool.not_true, Bool.or_false]
      exact .hydrates hboot hcomplete
  | sends hboot htask => exact .sends hboot htask
  | executes htask => exact .executes htask
  | answers htask => exact .answers htask
  | fails => exact hmeets.elim
  | endsJob => exact .endsJob
  | embeds hjob =>
      rw [System.embed, startTask_of_persists]
      · exact .embeds hjob
      · refine hs.persists fun hboot => ?_
        obtain ⟨-, stored, hstored, -⟩ := hmeets _ hjob
        rw [InsertionMap.get, hs.importing hboot] at hstored
        cases hstored
  | waits => exact .waits
  | restarts => exact .restarts

inductive System.Holds (s : System Vector) (entry : Entry) : Prop where
  | memory {key : String} (hget : s.store.resources.get key = some entry)
  | write {task : Task Vector} (htask : task ∈ s.tasks) (hcommand : task.command = .persist entry)
  | job {job : Job} (hjob : job ∈ s.jobs) (hentry : job.entry = entry)

theorem holds_endJob (hholds : (s.endJob id).Holds entry) : s.Holds entry := by
  cases hholds with
  | memory hget => exact .memory hget
  | write htask hcommand => exact .write htask hcommand
  | job hjob hentry =>
      rcases Table.mem_modify_cases hjob with ⟨before, hbefore, rfl⟩ | hold
      · exact .job hbefore hentry
      · exact .job hold hentry

/-- Memory that has lost entries, or none. -/
theorem holds_of_subset (hholds : s'.Holds entry)
    (hsubset : ∀ key entry, s'.store.resources.get key = some entry →
      s.store.resources.get key = some entry)
    (htasks : s'.tasks = s.tasks) (hjobs : s'.jobs = s.jobs) : s.Holds entry := by
  cases hholds with
  | memory hget => exact .memory (hsubset _ _ hget)
  | write htask hcommand => exact .write (htasks ▸ htask) hcommand
  | job hjob hentry => exact .job (hjobs ▸ hjob) hentry

theorem get_of_deleteResource
    (hget : (store.deleteResource now key).resources.get other = some entry) :
    other ≠ key ∧ store.resources.get other = some entry := by
  rw [get_deleteResource] at hget
  split at hget
  · cases hget
  · next hne => exact ⟨hne, hget⟩

theorem get_of_pruneExpired (hget : (store.pruneExpired now).resources.get key = some entry) :
    key ∉ store.expiredKeys now ∧ store.resources.get key = some entry := by
  rw [(pruneExpired_spec store now).2.2] at hget
  split at hget
  · cases hget
  · next hkept =>
      exact ⟨fun hmem => hkept ((mem_expiredKeys store now key).mp hmem), hget⟩

theorem key_newEntry (config : Config) (store : Store Vector) (now : ℕ) (resource : Resource)
    (source : String) :
    (store.newEntry config now resource source).resource.key = resource.key := by
  change Resource.key (Option.elim _ resource fun old : Entry => resource.over old.resource) = _
  cases store.resources.get resource.key <;> rfl

def Keyed (store : Store Vector) : Prop :=
  ∀ key entry, store.resources.get key = some entry → entry.resource.key = key

structure Owned (config : Config) (s : System Vector) : Prop where
  known : ∀ entry, s.Holds entry → entry.object < s.store.objects
  identity : ∀ entry entry', s.Holds entry → s.Holds entry' →
    entry.object = entry'.object → entry = entry'
  composes : ∀ entry, s.Holds entry → Composes config entry.resource
  keyed : Keyed s.store

theorem Owned.fresh (hs : Owned config s) : s.store.Fresh :=
  fun _ entry hget => hs.known entry (.memory hget)

end X402Facilitator.Catalog
