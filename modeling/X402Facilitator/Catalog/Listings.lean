import X402Facilitator.Catalog.CapExact

/-!
# Listings in memory and in the table

What a key lists is read from either side by the same record.  Each statement acts on
the listings of the keys it touches, and hydration lists what the rows do.
-/

namespace X402Facilitator.Catalog

open InsertionMap

structure Listing (Vector : Type) where
  resource : Resource
  source : String
  provisional : Bool
  expiresAt : Option ℕ
  firstSeenAt : ℕ
  lastSeenAt : ℕ
  embedding : Option Vector

variable {Vector : Type} {config : Config} {store store' : Store Vector}
  {table : CatalogTable Vector} {statement : Statement Vector} {key other : String}
  {entry : Entry} {row : Row Vector} {now : ℕ}

def Row.listing (row : Row Vector) : Listing Vector :=
  ⟨row.resource, row.source, row.provisional, row.expiresAt, row.firstSeenAt, row.lastSeenAt,
    row.embedding⟩

def Entry.listing (entry : Entry) (embedding : Option Vector) : Listing Vector :=
  ⟨entry.resource, entry.source, entry.provisional, entry.expiresAt, entry.firstSeenAt,
    entry.lastSeenAt, embedding⟩

def Store.listing (store : Store Vector) (key : String) : Option (Listing Vector) :=
  (store.resources.get key).map fun entry =>
    entry.listing (store.embeddings entry.object).embedding

def CatalogTable.listing (table : CatalogTable Vector) (key : String) :
    Option (Listing Vector) :=
  (table.rows.get key).map Row.listing

def Listing.onto (listing : Listing Vector) (existing : Option (Listing Vector)) :
    Listing Vector :=
  { listing with firstSeenAt := existing.elim listing.firstSeenAt Listing.firstSeenAt }

def Statement.touches (key : String) : Statement Vector → Prop
  | .insert row => row.resource.key = key
  | .delete keys => key ∈ keys

def Statement.on (key : String) (statement : Statement Vector)
    (existing : Option (Listing Vector)) : Option (Listing Vector) :=
  match statement with
  | .insert row => if row.resource.key = key then some (row.listing.onto existing) else existing
  | .delete keys => if key ∈ keys then none else existing

theorem Statement.on_of_not_touches (hnot : ¬ statement.touches key)
    (existing : Option (Listing Vector)) : statement.on key existing = existing := by
  cases statement with
  | insert row => exact if_neg hnot
  | delete keys => exact if_neg hnot

def outcome (key : String) (statements : List (Statement Vector))
    (listing : Option (Listing Vector)) : Option (Listing Vector) :=
  statements.foldl (fun existing statement => statement.on key existing) listing

@[simp]
theorem outcome_append (key : String) (first second : List (Statement Vector))
    (listing : Option (Listing Vector)) :
    outcome key (first ++ second) listing = outcome key second (outcome key first listing) :=
  List.foldl_append

variable {statements : List (Statement Vector)} {object : ℕ} {rows : List (String × Row Vector)}
  {scheduling : Scheduling}

def Listing.bare (listing : Listing Vector) : Listing Vector := { listing with embedding := none }

def Statement.Similar (first second : Statement Vector) : Prop :=
  ∀ key existing existing',
    Option.map Listing.bare existing = Option.map Listing.bare existing' →
    Option.map Listing.bare (first.on key existing) =
      Option.map Listing.bare (second.on key existing')

theorem bare_onto {listing listing' : Listing Vector} {existing existing' : Option (Listing Vector)}
    (hlisting : listing.bare = listing'.bare)
    (hexisting : Option.map Listing.bare existing = Option.map Listing.bare existing') :
    (listing.onto existing).bare = (listing'.onto existing').bare := by
  have hfirst : existing.elim listing.firstSeenAt Listing.firstSeenAt =
      existing'.elim listing'.firstSeenAt Listing.firstSeenAt := by
    cases existing with
    | none =>
        cases existing' with
        | none =>
            have hbare := congrArg Listing.firstSeenAt hlisting
            exact hbare
        | some found => cases hexisting
    | some found =>
        cases existing' with
        | none => cases hexisting
        | some found' =>
            have hfound : found.bare = found'.bare := Option.some.inj hexisting
            have hbare := congrArg Listing.firstSeenAt hfound
            exact hbare
  cases listing
  cases listing'
  cases hlisting
  simp only [Listing.onto, Listing.bare] at hfirst ⊢
  rw [hfirst]

theorem Statement.Similar.refl (statement : Statement Vector) : statement.Similar statement := by
  intro key existing existing' hexisting
  cases statement with
  | insert row =>
      simp only [Statement.on]
      split
      · exact congrArg some (bare_onto rfl hexisting)
      · exact hexisting
  | delete keys =>
      simp only [Statement.on]
      split
      · rfl
      · exact hexisting

/-- Whether the text of a listing can be composed, where it is needed. -/
def Composes (config : Config) (resource : Resource) : Prop :=
  config.embeds = true → (composeDocument resource).isSome = true

theorem scheduleEmbed_ne_threw (hcomposes : Composes config entry.resource) :
    (store.scheduleEmbed config entry).2 ≠ .threw := by
  rw [Store.scheduleEmbed]
  split
  · next hembeds =>
      have hsome := hcomposes hembeds
      split
      · next hnone =>
          rw [documentFingerprint, Option.map_eq_none_iff] at hnone
          rw [hnone] at hsome
          cases hsome
      · split <;> simp
  · simp

/-- Scheduling leaves a store whose entries have their vectors, except for the one that
it is for. -/
theorem embeddings_scheduleEmbed_of_ne (hne : object ≠ entry.object) :
    (store.scheduleEmbed config entry).1.embeddings object = store.embeddings object := by
  rw [Store.scheduleEmbed]
  split
  · split
    · rfl
    · split
      · rfl
      · exact Function.update_of_ne hne _ _
  · rfl

theorem objects_scheduleEmbed (config : Config) (store : Store Vector) (entry : Entry) :
    (store.scheduleEmbed config entry).1.objects = store.objects := by
  rw [Store.scheduleEmbed]
  repeat' split
  all_goals rfl

/-- Without a vector there is nothing to drop. -/
theorem embedding_scheduleEmbed_of_none
    (hnone : (store.embeddings entry.object).embedding = none) :
    ((store.scheduleEmbed config entry).1.embeddings entry.object).embedding = none := by
  rw [Store.scheduleEmbed]
  split
  · split
    · exact hnone
    · split
      · exact hnone
      · change (Function.update store.embeddings entry.object _ entry.object).embedding = none
        rw [Function.update_self]
  · exact hnone

theorem objects_hydrateRow (config : Config) (store : Store Vector) (key : String)
    (row : Row Vector) : (store.hydrateRow config key row).1.objects = store.objects + 1 := by
  rw [Store.hydrateRow]
  split
  · rfl
  · exact objects_scheduleEmbed config _ _

theorem embeddings_hydrateRow_of_ne (hne : object ≠ store.objects) :
    (store.hydrateRow config key row).1.embeddings object = store.embeddings object := by
  rw [Store.hydrateRow]
  split
  · exact Function.update_of_ne hne _ _
  · rw [embeddings_scheduleEmbed_of_ne (by exact hne)]
    exact Function.update_of_ne hne _ _

theorem embedding_hydrateRow (config : Config) (store : Store Vector) (key : String)
    (row : Row Vector) :
    ((store.hydrateRow config key row).1.embeddings store.objects).embedding = row.embedding := by
  have hloaded : ((store.loadRow key row).embeddings store.objects).embedding = row.embedding := by
    change (Function.update store.embeddings store.objects _ store.objects).embedding = _
    rw [Function.update_self]
  rw [Store.hydrateRow]
  split
  · exact hloaded
  · next hnone =>
      rw [Bool.not_eq_true, Option.isSome_eq_false_iff, Option.isNone_iff_eq_none] at hnone
      rw [hnone] at hloaded ⊢
      exact embedding_scheduleEmbed_of_none hloaded

def Store.Fresh (store : Store Vector) : Prop :=
  ∀ key entry, store.resources.get key = some entry → entry.object < store.objects

theorem fresh_hydrateRow (hfresh : store.Fresh) (config : Config) (key : String)
    (row : Row Vector) : (store.hydrateRow config key row).1.Fresh := by
  intro other found hfound
  rw [resources_hydrateRow] at hfound
  rw [objects_hydrateRow]
  rcases get_set_cases hfound with ⟨-, rfl⟩ | ⟨-, hold⟩
  · exact Nat.lt_succ_self _
  · exact Nat.lt_succ_of_lt (hfresh other found hold)

theorem listing_hydrateRow (hfresh : store.Fresh) (config : Config) (key : String)
    (row : Row Vector) (other : String) : (store.hydrateRow config key row).1.listing other =
      if other = key then some row.listing else store.listing other := by
  rw [Store.listing, resources_hydrateRow, get_set]
  split
  · change some (Entry.listing _ _) = some _
    have hembedding := embedding_hydrateRow config store key row
    exact congrArg (fun embedding => some ((row.entry store.objects).listing embedding)) hembedding
  · rw [Store.listing]
    cases hfound : store.resources.get other with
    | none => rfl
    | some entry =>
        have hne : entry.object ≠ store.objects := Nat.ne_of_lt (hfresh other entry hfound)
        change some (Entry.listing _ _) = some _
        rw [embeddings_hydrateRow_of_ne hne]

theorem hydrateRow_ne_threw (hcomposes : Composes config row.resource) :
    (store.hydrateRow config key row).2 ≠ .threw := by
  rw [Store.hydrateRow]
  split
  · simp
  · exact scheduleEmbed_ne_threw hcomposes

/-- One turn of the loop, when it does not throw. -/
theorem hydrate_cons (store : Store Vector) (key : String) (rows : List (String × Row Vector))
    (hcomposes : Composes config row.resource) :
    ((store.hydrate config ((key, row) :: rows)).1 =
        ((store.hydrateRow config key row).1.hydrate config rows).1) ∧
      (store.hydrate config ((key, row) :: rows)).2.1 =
        (store.hydrateRow config key row).2.jobs (row.entry store.objects) ++
          ((store.hydrateRow config key row).1.hydrate config rows).2.1 ∧
      (store.hydrate config ((key, row) :: rows)).2.2 =
        ((store.hydrateRow config key row).1.hydrate config rows).2.2 := by
  have hthrew : (store.hydrateRow config key row).2 ≠ .threw := hydrateRow_ne_threw hcomposes
  rw [Store.hydrate]
  split
  · next hrow =>
      rw [hrow] at hthrew
      exact absurd rfl hthrew
  · next hrow =>
      rw [hrow]
      exact ⟨rfl, rfl, rfl⟩

/-- Hydration lists what the rows do, and keeps all else. -/
theorem listing_hydrate (hfresh : store.Fresh) (hnodup : (rows.map Prod.fst).Nodup)
    (hcomposes : ∀ row ∈ rows, Composes config row.2.resource) :
    (store.hydrate config rows).2.2 = true ∧
      ∀ key, (store.hydrate config rows).1.listing key =
        ((lookup key rows).map Row.listing).or (store.listing key) := by
  induction rows generalizing store with
  | nil => exact ⟨rfl, fun _ => rfl⟩
  | cons row rows ih =>
      obtain ⟨first, row⟩ := row
      obtain ⟨hnew, hrest⟩ := List.nodup_cons.mp hnodup
      obtain ⟨hstore, -, hcomplete⟩ :=
        hydrate_cons store first rows (hcomposes (first, row) List.mem_cons_self)
      obtain ⟨hdone, hlisting⟩ := ih (fresh_hydrateRow hfresh config first row) hrest
        fun other hother => hcomposes other (List.mem_cons_of_mem _ hother)
      refine ⟨hcomplete.trans hdone, fun key => ?_⟩
      rw [hstore, hlisting, listing_hydrateRow hfresh, lookup]
      by_cases hkey : first = key
      · subst hkey
        rw [if_pos rfl, if_pos rfl, lookup_eq_none_of_notMem hnew]
        rfl
      · rw [if_neg hkey, if_neg (Ne.symm hkey)]

def HydratedAt (objects : ℕ) (rows : List (String × Row Vector)) (key : String)
    (entry : Entry) : Prop :=
  ∃ (index : ℕ) (row : Row Vector),
    rows[index]? = some (key, row) ∧ entry = row.entry (objects + index)

theorem HydratedAt.cons {objects : ℕ} (hentry : HydratedAt (objects + 1) rows key entry)
    (first : String × Row Vector) : HydratedAt objects (first :: rows) key entry := by
  obtain ⟨index, row, hrow, rfl⟩ := hentry
  refine ⟨index + 1, row, hrow, ?_⟩
  rw [Nat.add_assoc, Nat.add_comm 1 index]

theorem entry_of_mem_jobs {job : Job} (hjob : job ∈ scheduling.jobs entry) : job.entry = entry := by
  cases scheduling with
  | job fingerprint => rw [List.mem_singleton.mp hjob]
  | skipped => cases hjob
  | threw => cases hjob

structure Upserted (store : Store Vector) (key : String) (entry : Entry)
    (store' : Store Vector) : Prop where
  object : entry.object = store.objects
  objects : store'.objects = store.objects + 1
  resources : store'.resources = store.resources.set key entry
  embeddings : ∀ object, object ≠ store.objects →
    store'.embeddings object = store.embeddings object

theorem upserted_of_upsertResource {resource : Resource} {source : String}
    (hupsert : store.upsertResource config now resource source =
      .ok (store', entry, scheduling)) : entry = store.newEntry config now resource source ∧
      Upserted store resource.key entry store' := by
  rw [Store.upsertResource] at hupsert
  split at hupsert
  · cases hupsert
  · cases hupsert
    refine ⟨rfl, rfl, ?_, resources_scheduleEmbed config _ _, fun object hne => ?_⟩
    · exact objects_scheduleEmbed config _ _
    · rw [embeddings_scheduleEmbed_of_ne (by exact hne)]
      exact Function.update_of_ne hne _ _

theorem get_deleteResource (store : Store Vector) (now : ℕ) (key other : String) :
    (store.deleteResource now key).resources.get other =
      if other = key then none else store.resources.get other := by
  rw [Store.deleteResource]
  split
  · next hnone =>
      split
      · next hother => rw [hother, hnone]
      · rfl
  · exact get_erase store.resources key other

/-- The loop of a prune, from an entry on. -/
theorem removeExpired_spec (now : ℕ) (store : Store Vector) {entries : List (String × Entry)}
    (hnodup : (entries.map Prod.fst).Nodup) :
    (Store.removeExpired now store entries).embeddings = store.embeddings ∧
      (Store.removeExpired now store entries).objects = store.objects ∧
      ∀ key, (Store.removeExpired now store entries).resources.get key =
        if (lookup key entries).any (Entry.isExpired now) then none
        else store.resources.get key := by
  induction entries generalizing store with
  | nil => exact ⟨rfl, rfl, fun _ => rfl⟩
  | cons entry rest ih =>
      obtain ⟨hnew, hrest⟩ := List.nodup_cons.mp hnodup
      rw [Store.removeExpired, List.foldl_cons]
      split
      · next hexpired =>
          obtain ⟨hembeddings, hobjects, hget⟩ := ih (store.remove entry.1 entry.2) hrest
          refine ⟨hembeddings, hobjects, fun key => (hget key).trans ?_⟩
          have herase : (store.remove entry.1 entry.2).resources.get key =
              if key = entry.1 then none else store.resources.get key := get_erase _ _ _
          rw [herase, lookup]
          by_cases hkey : entry.1 = key
          · rw [if_pos hkey, if_pos hkey.symm, ite_self, Option.any_some, if_pos hexpired]
          · rw [if_neg hkey, if_neg (Ne.symm hkey)]
      · next hkept =>
          obtain ⟨hembeddings, hobjects, hget⟩ := ih store hrest
          refine ⟨hembeddings, hobjects, fun key => (hget key).trans ?_⟩
          rw [lookup]
          by_cases hkey : entry.1 = key
          · rw [if_pos hkey, lookup_eq_none_of_notMem (hkey ▸ hnew), Option.any_some,
              if_neg hkept]
            rfl
          · rw [if_neg hkey]

theorem pruneExpired_spec (store : Store Vector) (now : ℕ) :
    (store.pruneExpired now).embeddings = store.embeddings ∧
      (store.pruneExpired now).objects = store.objects ∧
      ∀ key, (store.pruneExpired now).resources.get key =
        if (store.resources.get key).any (Entry.isExpired now) then none
        else store.resources.get key := by
  have hkept := removeExpired_spec now store store.resources.keysNodup
  rw [Store.pruneExpired]
  split
  · exact hkept
  · exact hkept

theorem pruneExpired_of_empty (store : Store Vector) (now : ℕ)
    (hexpired : (store.expiredKeys now).isEmpty = true) : store.pruneExpired now = store := by
  have hnone : ∀ entries : List (String × Entry),
      (entries.filter fun entry => entry.2.isExpired now).map Prod.fst = [] →
      ∀ store : Store Vector, Store.removeExpired now store entries = store := by
    intro entries
    induction entries with
    | nil => exact fun _ _ => rfl
    | cons entry rest ih =>
        intro hempty store
        cases hentry : entry.2.isExpired now with
        | true =>
            rw [List.filter_cons_of_pos (by exact hentry)] at hempty
            cases hempty
        | false =>
            rw [List.filter_cons_of_neg (by simp [hentry])] at hempty
            rw [Store.removeExpired, List.foldl_cons, hentry]
            exact ih hempty store
  rw [Store.pruneExpired, if_pos hexpired]
  exact hnone _ (List.isEmpty_iff.mp hexpired) store

theorem mem_expiredKeys (store : Store Vector) (now : ℕ) (key : String) :
    key ∈ store.expiredKeys now ↔
      (store.resources.get key).any (Entry.isExpired now) = true := by
  constructor
  · intro hmem
    obtain ⟨entry, hentry, rfl⟩ := List.mem_map.mp hmem
    obtain ⟨hin, hexpired⟩ := List.mem_filter.mp hentry
    rw [store.resources.get_of_mem hin]
    exact hexpired
  · intro hany
    cases hget : store.resources.get key with
    | none =>
        rw [hget] at hany
        cases hany
    | some entry =>
        rw [hget] at hany
        exact List.mem_map.mpr ⟨(key, entry), List.mem_filter.mpr ⟨mem_of_lookup hget, hany⟩, rfl⟩

end X402Facilitator.Catalog
