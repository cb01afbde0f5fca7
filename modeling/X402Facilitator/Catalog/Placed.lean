import X402Facilitator.Catalog.InOrder

/-!
# Listings at their keys

Whatever upserts may write, every listing that the store holds or has under way is one that
was admitted, and is held under its own key.
-/

namespace X402Facilitator.Catalog

open Execution InsertionMap

variable {Vector : Type}

def Command.Writes (admits : Resource → Prop) : Command → Prop
  | .persist entry => admits entry.resource
  | _ => True

def Statement.Writes (admits : Resource → Prop) : Statement Vector → Prop
  | .insert row => admits row.resource
  | .delete _ => True

def CatalogTable.Has (admits : Resource → Prop) (table : CatalogTable Vector) : Prop :=
  ∀ key row, table.rows.get key = some row → admits row.resource

def Fits (admits : Resource → Prop) (key : String) (resource : Resource) : Prop :=
  admits resource ∧ resource.key = key

structure Placed (admits : Resource → Prop) (s : System Vector) : Prop where
  memory : ∀ key entry, s.store.resources.get key = some entry → Fits admits key entry.resource
  table : s.table.Has admits
  selected : ∀ rows, s.boot = .selected rows → ∀ key row, (key, row) ∈ rows →
    Fits admits key row.resource
  commands : ∀ task ∈ s.tasks, task.command.Writes admits
  sent : ∀ task ∈ s.tasks, ∀ statement, task.progress = .sent statement →
    statement.Writes admits
  jobs : ∀ job ∈ s.jobs, admits job.entry.resource

variable {admits : Resource → Prop} {config : Config} {durable : Bool} {s s' : System Vector}
  {action : Action Vector} {resource : Resource} {key : String}

variable {table : CatalogTable Vector}

theorem placed_init (htable : table.Has admits) (durable : Bool) :
    Placed admits (System.init table durable) where
  memory := fun key entry hentry => by cases hentry
  table := htable
  selected := by
    intro rows hboot
    cases durable <;> cases hboot
  commands := fun task htask => by cases htask
  sent := fun task htask => by cases htask
  jobs := fun job hjob => by cases hjob

theorem Placed.startTask (hs : Placed admits s) {command : Command}
    (hcommand : command.Writes admits) :
    Placed admits (s.startTask command) := by
  rw [System.startTask]
  split
  · refine ⟨hs.memory, hs.table, hs.selected, fun task htask => ?_,
      fun task htask statement hsent => ?_, hs.jobs⟩
    · rcases List.mem_append.mp htask with hbefore | hnew
      · exact hs.commands task hbefore
      · rw [List.mem_singleton.mp hnew]
        exact hcommand
    · rcases List.mem_append.mp htask with hbefore | hnew
      · exact hs.sent task hbefore statement hsent
      · rw [List.mem_singleton.mp hnew] at hsent
        cases hsent
  · exact hs

theorem Placed.setProgress (hs : Placed admits s) (id : ℕ) {progress : Progress Vector}
    (hprogress : ∀ statement, progress = .sent statement → statement.Writes admits) :
    Placed admits (s.setProgress id progress) := by
  refine ⟨hs.memory, hs.table, hs.selected, fun task htask => ?_,
    fun task htask statement hsent => ?_, hs.jobs⟩
  · rcases Table.mem_modify_cases htask with ⟨before, hbefore, rfl⟩ | hold
    · exact hs.commands before hbefore
    · exact hs.commands task hold
  · rcases Table.mem_modify_cases htask with ⟨before, hbefore, rfl⟩ | hold
    · exact hprogress statement hsent
    · exact hs.sent task hold statement hsent

theorem Placed.endJob (hs : Placed admits s) (id : ℕ) : Placed admits (s.endJob id) := by
  refine ⟨hs.memory, hs.table, hs.selected, hs.commands, hs.sent, fun job hjob => ?_⟩
  rcases Table.mem_modify_cases hjob with ⟨before, hbefore, rfl⟩ | hold
  · exact hs.jobs before hbefore
  · exact hs.jobs job hold

/-- Memory that loses listings keeps the others. -/
theorem Placed.withStore (hs : Placed admits s) {store : Store Vector}
    (hsubset : ∀ key entry, store.resources.get key = some entry →
      s.store.resources.get key = some entry) : Placed admits { s with store := store } :=
  ⟨fun key entry hentry => hs.memory key entry (hsubset key entry hentry), hs.table, hs.selected,
    hs.commands, hs.sent, hs.jobs⟩

theorem fits_newEntry (hover : ∀ existing : Resource, admits (resource.over existing))
    (hadmitted : admits resource) (store : Store Vector) (now : ℕ)
    (source : String) :
    Fits admits resource.key (store.newEntry config now resource source).resource := by
  refine ⟨?_, key_newEntry config store now resource source⟩
  change admits (Option.elim _ resource fun old : Entry => resource.over old.resource)
  cases store.resources.get resource.key with
  | none => exact hadmitted
  | some old => exact hover old.resource

theorem Placed.upsert (hs : Placed admits s)
    (hover : ∀ existing : Resource, admits (resource.over existing))
    (hadmitted : admits resource) (source : String) :
    Placed admits (s.upsert config resource source) := by
  have hstored : ∀ {store entry scheduling},
      s.store.upsertResource config s.now resource source = .ok (store, entry, scheduling) →
      Placed admits { s with store := store } ∧ admits entry.resource := by
    intro store entry scheduling hupsert
    obtain ⟨rfl, hupserted⟩ := upserted_of_upsertResource hupsert
    have hfits : Fits admits resource.key
        (s.store.newEntry config s.now resource source).resource :=
      fits_newEntry hover hadmitted s.store s.now source
    refine ⟨⟨fun key entry hentry => ?_, hs.table, hs.selected, hs.commands, hs.sent, hs.jobs⟩,
      hfits.1⟩
    rw [hupserted.resources] at hentry
    rcases get_set_cases hentry with ⟨rfl, rfl⟩ | ⟨-, hold⟩
    · exact hfits
    · exact hs.memory key entry hold
  rw [System.upsert]
  split
  · exact hs
  · next hupsert => exact (hstored hupsert).1
  · next hupsert =>
      obtain ⟨hplaced, hentry⟩ := hstored hupsert
      refine Placed.startTask ?_ (by exact hentry)
      refine ⟨hplaced.memory, hplaced.table, hplaced.selected, hplaced.commands, hplaced.sent,
        fun job hjob => ?_⟩
      rcases List.mem_append.mp hjob with hbefore | hnew
      · exact hs.jobs job hbefore
      · rw [entry_of_mem_jobs hnew]
        exact hentry

/-- What hydration loads was there, or is a row. -/
theorem hydrate_cases (config : Config) (store : Store Vector)
    (rows : List (String × Row Vector)) :
    (∀ key entry, (store.hydrate config rows).1.resources.get key = some entry →
      store.resources.get key = some entry ∨
        ∃ row object, (key, row) ∈ rows ∧ entry = row.entry object) ∧
    ∀ job ∈ (store.hydrate config rows).2.1,
      ∃ key row object, (key, row) ∈ rows ∧ job.entry = row.entry object := by
  induction rows generalizing store with
  | nil => exact ⟨fun key entry hentry => .inl hentry, fun job hjob => by cases hjob⟩
  | cons row rows ih =>
      obtain ⟨first, row⟩ := row
      have hloaded : ∀ key entry,
          (store.hydrateRow config first row).1.resources.get key = some entry →
          store.resources.get key = some entry ∨
            ∃ found object, (key, found) ∈ (first, row) :: rows ∧ entry = found.entry object := by
        intro key entry hentry
        rw [resources_hydrateRow] at hentry
        rcases get_set_cases hentry with ⟨rfl, rfl⟩ | ⟨-, hold⟩
        · exact .inr ⟨row, _, List.mem_cons_self, rfl⟩
        · exact .inl hold
      rw [Store.hydrate]
      split
      · next store' hrow =>
          rw [hrow] at hloaded
          exact ⟨hloaded, fun job hjob => by cases hjob⟩
      · next store' scheduling _ hrow =>
          rw [hrow] at hloaded
          obtain ⟨hentries, hjobs⟩ := ih store'
          refine ⟨fun key entry hentry => ?_, fun job hjob => ?_⟩
          · rcases hentries key entry hentry with hbefore | ⟨found, object, hmem, rfl⟩
            · exact hloaded key entry hbefore
            · exact .inr ⟨found, object, List.mem_cons_of_mem _ hmem, rfl⟩
          · rcases List.mem_append.mp hjob with hscheduled | hrest
            · exact ⟨first, row, _, List.mem_cons_self, entry_of_mem_jobs hscheduled⟩
            · obtain ⟨key, found, object, hmem, hentry⟩ := hjobs job hrest
              exact ⟨key, found, object, List.mem_cons_of_mem _ hmem, hentry⟩

theorem Placed.hydrate (hs : Placed admits s) {rows : List (String × Row Vector)}
    (hboot : s.boot = .selected rows) : Placed admits (s.hydrate config rows) := by
  have hrows := hs.selected rows hboot
  obtain ⟨hentries, hjobs⟩ := hydrate_cases config s.store rows
  refine ⟨fun key entry hentry => ?_, hs.table, fun _ hready => (by cases hready), hs.commands,
    hs.sent, fun job hjob => ?_⟩
  · rcases hentries key entry hentry with hbefore | ⟨row, object, hmem, rfl⟩
    · exact hs.memory key entry hbefore
    · exact hrows key row hmem
  · rcases List.mem_append.mp hjob with hbefore | hnew
    · exact hs.jobs job hbefore
    · obtain ⟨key, row, object, hmem, hentry⟩ := hjobs job hnew
      rw [hentry]
      exact (hrows key row hmem).1

theorem has_foldl_deleteKey (htable : table.Has admits) (keys : List String) :
    (keys.foldl CatalogTable.deleteKey table).Has admits := by
  induction keys generalizing table with
  | nil => exact htable
  | cons first keys ih =>
      refine ih fun key row hrow => ?_
      change (table.rows.erase first).get key = some row at hrow
      rw [get_erase] at hrow
      split at hrow
      · cases hrow
      · exact htable key row hrow

theorem has_execute (htable : table.Has admits) {statement : Statement Vector}
    (hstatement : statement.Writes admits) : (table.execute statement).Has admits := by
  cases statement with
  | insert row =>
      intro key found hfound
      rcases get_set_cases hfound with ⟨rfl, rfl⟩ | ⟨-, hold⟩
      · exact hstatement
      · exact htable key found hold
  | delete keys => exact has_foldl_deleteKey htable keys

theorem fits_of_select (hs : Placed admits s) (order : List String) {row : Row Vector}
    (hrow : (key, row) ∈ s.table.select order) : Fits admits key row.resource := by
  obtain ⟨other, -, hother⟩ := List.mem_filterMap.mp hrow
  obtain ⟨found, hfound, hpair⟩ := Option.map_eq_some_iff.mp hother
  cases hpair
  exact ⟨hs.table key row hfound, s.table.keyed key row hfound⟩

/-- Whatever happens to the store, its listings stay at their keys. -/
theorem placed_step
    (hover : ∀ resource existing : Resource, admits resource → admits (resource.over existing))
    (hs : Placed admits s)
    (hmeets : ∀ resource source, action = .upsert resource source → admits resource)
    (hstep : step config durable s action = some s') : Placed admits s' := by
  cases steps_of_step hstep with
  | upserts resource source =>
      have hadmitted := hmeets resource source rfl
      exact hs.upsert (fun existing => hover resource existing hadmitted) hadmitted source
  | deletes url toolName =>
      rw [System.delete]
      split
      · exact hs.startTask trivial
      · exact hs.withStore fun key entry hentry => (get_of_deleteResource hentry).2
  | prunes =>
      have hpruned : Placed admits { s with store := s.store.pruneExpired s.now } :=
        hs.withStore fun key entry hentry => (get_of_pruneExpired hentry).2
      rw [System.prune]
      split
      · exact hpruned
      · exact hpruned.startTask trivial
  | imports | importFails | selectFails =>
      exact ⟨hs.memory, hs.table, fun _ hboot => (by cases hboot), hs.commands, hs.sent, hs.jobs⟩
  | @selects order hboot hperm =>
      refine ⟨hs.memory, hs.table, fun rows hselected key row hrow => ?_, hs.commands, hs.sent,
        hs.jobs⟩
      cases hselected
      exact fits_of_select hs order hrow
  | hydrates hboot => exact hs.hydrate hboot
  | @sends id command hboot htask =>
      refine hs.setProgress id ?_
      rintro statement ⟨⟩
      have hcommand := hs.commands _ (List.mem_of_getElem? htask)
      cases command with
      | persist entry => exact hcommand
      | erase keys => trivial
      | delete key => trivial
  | @executes id command statement htask =>
      have hended : Placed admits (s.setProgress id .executed) :=
        hs.setProgress id fun _ hsent => by cases hsent
      have hstatement := hs.sent _ (List.mem_of_getElem? htask) statement rfl
      exact ⟨hended.memory, has_execute hs.table hstatement, hended.selected,
        hended.commands, hended.sent, hended.jobs⟩
  | @answers id command htask =>
      have hended : Placed admits (s.setProgress id .ended) :=
        hs.setProgress id fun _ hsent => by cases hsent
      cases command with
      | persist entry => exact hended
      | erase keys => exact hended
      | delete key =>
          exact hended.withStore fun key entry hentry => (get_of_deleteResource hentry).2
  | @fails id command statement htask =>
      have hended : Placed admits (s.setProgress id .ended) :=
        hs.setProgress id fun _ hsent => by cases hsent
      exact ⟨hended.memory, hended.table, hended.selected, hended.commands, hended.sent,
        hended.jobs⟩
  | @endsJob id => exact hs.endJob id
  | @embeds id entry fingerprint vector hjob =>
      refine Placed.endJob ?_ id
      rw [System.embed]
      refine Placed.startTask ?_ (by exact hs.jobs _ (List.mem_of_getElem? hjob))
      exact ⟨hs.memory, hs.table, hs.selected, hs.commands, hs.sent, hs.jobs⟩
  | waits ms => exact ⟨hs.memory, hs.table, hs.selected, hs.commands, hs.sent, hs.jobs⟩
  | restarts =>
      obtain ⟨hmemory, htable, hselected, hcommands, hsent, hjobs⟩ := placed_init hs.table durable
      exact ⟨hmemory, htable, hselected, hcommands, hsent, hjobs⟩

end X402Facilitator.Catalog
