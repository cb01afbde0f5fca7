import X402Facilitator.Catalog.Postgres

/-!
# The cap of a seller

The count beside the listings is exact as long as no listing changes hands and
hydration brings only listings that memory does not have, and no more than fit.
-/

namespace X402Facilitator.Catalog

open Execution InsertionMap

variable {Vector : Type}

section Statement

def ownedBy (payTo : String) (entry : Entry) : Bool := entry.resource.payTo = payTo

def Store.owned (store : Store Vector) (payTo : String) : ℕ :=
  store.resources.count (ownedBy payTo)

/-- Whoever owns more than before owns no more than the cap. -/
def RaisedWithinCap (config : Config) (before after : Store Vector) : Prop :=
  ∀ payTo, before.owned payTo < after.owned payTo →
    after.owned payTo ≤ config.maxResourcesPerPayTo

/-- No listing changes hands, and hydration brings only listings that are not there, and
no more than fit. -/
def ListingsStay (config : Config) (s : System Vector) : Action Vector → Prop
  | .upsert resource _ => ∀ existing ∈ s.store.resources.get resource.key,
      existing.resource.payTo = resource.payTo
  | .hydrates => ∀ rows, s.boot = .selected rows →
      (∀ entry ∈ rows, s.store.resources.get entry.1 = none) ∧
        s.store.resources.size + rows.length ≤ config.maxCatalogSize
  | _ => True

end Statement

variable {config : Config} {durable : Bool} {store store' : Store Vector} {s s' : System Vector}
  {action : Action Vector} {table : CatalogTable Vector} {resource : Resource} {source key : String}
  {entry found : Entry} {now : ℕ} {payTo : String}

def Store.Exact (store : Store Vector) : Prop :=
  ∀ payTo, (store.payToCounts.get payTo).getD 0 = store.owned payTo

@[simp]
theorem resources_scheduleEmbed (config : Config) (store : Store Vector) (entry : Entry) :
    (store.scheduleEmbed config entry).1.resources = store.resources := by
  rw [Store.scheduleEmbed]
  repeat' split
  all_goals rfl

@[simp]
theorem payToCounts_scheduleEmbed (config : Config) (store : Store Vector) (entry : Entry) :
    (store.scheduleEmbed config entry).1.payToCounts = store.payToCounts := by
  rw [Store.scheduleEmbed]
  repeat' split
  all_goals rfl

theorem owned_scheduleEmbed (config : Config) (store : Store Vector) (entry : Entry)
    (payTo : String) : (store.scheduleEmbed config entry).1.owned payTo = store.owned payTo := by
  rw [Store.owned, Store.owned, resources_scheduleEmbed]

theorem Store.Exact.congr (hs : store.Exact) (hresources : store'.resources = store.resources)
    (hcounts : store'.payToCounts = store.payToCounts) : store'.Exact := by
  intro payTo
  rw [hcounts, Store.owned, hresources]
  exact hs payTo

theorem get_incrementPayToCount (counts : InsertionMap String ℕ) (payTo other : String) :
    ((incrementPayToCount counts payTo).get other).getD 0 =
      (counts.get other).getD 0 + unit (decide (payTo = other)) := by
  rw [incrementPayToCount, get_set]
  by_cases hother : other = payTo
  · rw [if_pos hother, hother]
    simp [unit]
  · rw [if_neg hother]
    simp [unit, Ne.symm hother]

/-- A count that is not zero is one less. -/
theorem get_decrementPayToCount {counts : InsertionMap String ℕ} {payTo : String}
    (hpos : 0 < (counts.get payTo).getD 0) (other : String) :
    ((decrementPayToCount counts payTo).get other).getD 0 + unit (decide (payTo = other)) =
      (counts.get other).getD 0 := by
  cases hget : counts.get payTo with
  | none =>
      rw [hget] at hpos
      exact absurd hpos (Nat.lt_irrefl 0)
  | some count =>
      rw [hget] at hpos
      have hcount : 0 < count := hpos
      simp only [decrementPayToCount, hget, Option.getD_some]
      by_cases hother : payTo = other
      · subst hother
        split
        · next hzero =>
            rw [get_erase_self, hget]
            simp only [unit, decide_true, if_true, Option.getD_none, Option.getD_some]
            omega
        · rw [get_set_self, hget]
          simp only [unit, decide_true, if_true, Option.getD_some]
          omega
      · split
        · rw [get_erase_of_ne _ (Ne.symm hother)]
          simp [unit, hother]
        · rw [get_set_of_ne _ _ (Ne.symm hother)]
          simp [unit, hother]

/-- A listing at a new key is one more. -/
theorem owned_set_of_absent (habsent : store.resources.get key = none) (entry : Entry)
    (payTo : String) : (store.resources.set key entry).count (ownedBy payTo) =
      store.owned payTo + unit (ownedBy payTo entry) :=
  count_set_of_absent (ownedBy payTo) entry habsent

/-- A listing that keeps its seller is counted as before. -/
theorem owned_set_of_present (hfound : store.resources.get key = some found)
    (hpayTo : found.resource.payTo = entry.resource.payTo) (payTo : String) :
    (store.resources.set key entry).count (ownedBy payTo) = store.owned payTo := by
  have hcount := count_set_of_present (ownedBy payTo) entry hfound
  have hsame : ownedBy payTo found = ownedBy payTo entry := by rw [ownedBy, ownedBy, hpayTo]
  rw [hsame] at hcount
  exact Nat.add_right_cancel hcount

theorem payTo_newEntry (config : Config) (store : Store Vector) (now : ℕ) (resource : Resource)
    (source : String) :
    (store.newEntry config now resource source).resource.payTo = resource.payTo := by
  change (Option.elim _ resource fun old : Entry => resource.over old.resource).payTo = _
  cases store.resources.get resource.key <;> rfl

theorem exact_insertEntry (hs : store.Exact)
    (hstays : ∀ existing ∈ store.resources.get resource.key,
      existing.resource.payTo = resource.payTo)
    (hpayTo : entry.resource.payTo = resource.payTo) :
    (store.insertEntry now resource entry).Exact := by
  intro payTo
  change ((if (store.resources.get resource.key).isSome then store.payToCounts
    else incrementPayToCount store.payToCounts resource.payTo).get payTo).getD 0 =
      (store.resources.set resource.key entry).count (ownedBy payTo)
  cases hget : store.resources.get resource.key with
  | none =>
      have hentry : ownedBy payTo entry = decide (resource.payTo = payTo) := by
        rw [ownedBy, hpayTo]
      rw [owned_set_of_absent hget, hentry, ← hs payTo]
      exact get_incrementPayToCount store.payToCounts resource.payTo payTo
  | some found =>
      rw [owned_set_of_present hget ((hstays found hget).trans hpayTo.symm)]
      exact hs payTo

/-- An admitted listing is one that is there, or one below both limits. -/
theorem checkLimits_ok_iff :
    store.checkLimits config resource = .ok () ↔
      (store.resources.get resource.key).isSome = true ∨
        ((store.payToCounts.get resource.payTo).getD 0 < config.maxResourcesPerPayTo ∧
          store.resources.size < config.maxCatalogSize) := by
  rw [Store.checkLimits]
  cases store.resources.get resource.key with
  | some found => simp
  | none =>
      simp only [Option.isSome_none, Bool.false_eq_true, false_or]
      split
      · next hcap => simp [Nat.not_lt.mpr hcap]
      · next hcap =>
          split
          · next hsize => simp [Nat.not_lt.mpr hsize]
          · next hsize => simp [Nat.lt_of_not_le hcap, Nat.lt_of_not_le hsize]

theorem upsertResource_eq_ok {result : Store Vector × Entry × Scheduling}
    (hupsert : store.upsertResource config now resource source = .ok result) :
    store.checkLimits config resource = .ok () ∧
      result.1 = ((store.insertEntry now resource
        (store.newEntry config now resource source)).scheduleEmbed config
          (store.newEntry config now resource source)).1 := by
  rw [Store.upsertResource] at hupsert
  split at hupsert
  · cases hupsert
  · next hlimits =>
      cases hupsert
      exact ⟨hlimits, rfl⟩

theorem size_insertEntry_le (hsize : store.resources.size ≤ config.maxCatalogSize)
    (hlimits : store.checkLimits config resource = .ok ()) :
    (store.insertEntry now resource entry).resources.size ≤ config.maxCatalogSize := by
  change (store.resources.set resource.key entry).size ≤ _
  cases hget : store.resources.get resource.key with
  | none =>
      rw [size_set_of_absent entry hget]
      rcases checkLimits_ok_iff.mp hlimits with hpresent | ⟨-, hlt⟩
      · rw [hget] at hpresent
        cases hpresent
      · exact hlt
  | some found =>
      rw [size_set_of_present entry hget]
      exact hsize

/-- Only the seller of a new listing owns more, and was below the cap. -/
theorem raisedWithinCap_insertEntry (hs : store.Exact)
    (hstays : ∀ existing ∈ store.resources.get resource.key,
      existing.resource.payTo = resource.payTo)
    (hpayTo : entry.resource.payTo = resource.payTo)
    (hlimits : store.checkLimits config resource = .ok ()) :
    RaisedWithinCap config store (store.insertEntry now resource entry) := by
  intro payTo hraised
  change store.owned payTo < (store.resources.set resource.key entry).count (ownedBy payTo)
    at hraised
  change (store.resources.set resource.key entry).count (ownedBy payTo) ≤ _
  cases hget : store.resources.get resource.key with
  | some found =>
      rw [owned_set_of_present hget ((hstays found hget).trans hpayTo.symm)] at hraised
      exact absurd hraised (Nat.lt_irrefl _)
  | none =>
      rw [owned_set_of_absent hget] at hraised ⊢
      rcases checkLimits_ok_iff.mp hlimits with hpresent | ⟨hlt, -⟩
      · rw [hget] at hpresent
        cases hpresent
      · rw [unit] at hraised ⊢
        split at hraised
        · next howned =>
            obtain rfl : resource.payTo = payTo := hpayTo.symm.trans (of_decide_eq_true howned)
            rw [if_pos howned]
            rw [hs resource.payTo] at hlt
            exact hlt
        · exact absurd hraised (Nat.lt_irrefl _)

theorem exact_remove (hs : store.Exact) (hfound : store.resources.get key = some entry) :
    (store.remove key entry).Exact := by
  intro payTo
  change ((decrementPayToCount store.payToCounts entry.resource.payTo).get payTo).getD 0 =
    (store.resources.erase key).count (ownedBy payTo)
  have herase : ∀ payTo, (store.resources.erase key).count (ownedBy payTo) +
      unit (ownedBy payTo entry) = (store.payToCounts.get payTo).getD 0 := by
    intro payTo
    rw [hs payTo]
    exact count_erase (ownedBy payTo) hfound
  have hpos : 0 < (store.payToCounts.get entry.resource.payTo).getD 0 := by
    have howned := herase entry.resource.payTo
    simp only [unit, ownedBy, decide_true, if_true] at howned
    omega
  have hcount := get_decrementPayToCount hpos payTo
  have howned := herase payTo
  rw [← hcount, ownedBy] at howned
  exact (Nat.add_right_cancel howned).symm

theorem size_remove_le (hfound : store.resources.get key = some entry) :
    (store.remove key entry).resources.size ≤ store.resources.size := by
  have hsize := size_erase_of_present hfound
  change (store.resources.erase key).size ≤ _
  omega

def Store.Sound (config : Config) (store : Store Vector) : Prop :=
  store.Exact ∧ store.resources.size ≤ config.maxCatalogSize

theorem sound_remove (hs : store.Sound config) (hfound : store.resources.get key = some entry) :
    (store.remove key entry).Sound config :=
  ⟨exact_remove hs.1 hfound, (size_remove_le hfound).trans hs.2⟩

theorem sound_deleteResource (hs : store.Sound config) :
    (store.deleteResource now key).Sound config := by
  rw [Store.deleteResource]
  split
  · exact hs
  · next hfound => exact sound_remove hs hfound

/-- The entries that the loop of a prune is still to visit are there. -/
theorem sound_removeExpired (hs : store.Sound config) {entries : List (String × Entry)}
    (hnodup : (entries.map Prod.fst).Nodup)
    (hthere : ∀ entry ∈ entries, store.resources.get entry.1 = some entry.2) :
    (Store.removeExpired now store entries).Sound config := by
  induction entries generalizing store with
  | nil => exact hs
  | cons entry rest ih =>
      obtain ⟨hfresh, hrest⟩ := List.nodup_cons.mp hnodup
      rw [Store.removeExpired, List.foldl_cons]
      split
      · refine ih (sound_remove hs (hthere entry List.mem_cons_self)) hrest fun other hother => ?_
        have hne : other.1 ≠ entry.1 := fun heq => hfresh (heq ▸ List.mem_map_of_mem hother)
        exact (get_erase_of_ne store.resources hne).trans
          (hthere other (List.mem_cons_of_mem entry hother))
      · exact ih hs hrest fun other hother => hthere other (List.mem_cons_of_mem entry hother)

theorem sound_pruneExpired (hs : store.Sound config) :
    (store.pruneExpired now).Sound config := by
  have hkept : (Store.removeExpired now store store.resources.entries).Sound config :=
    sound_removeExpired hs store.resources.keysNodup fun _ hentry =>
      store.resources.get_of_mem hentry
  rw [Store.pruneExpired]
  split
  · exact hkept
  · exact hkept

theorem exact_loadRow (hs : store.Exact) {row : Row Vector}
    (habsent : store.resources.get key = none) : (store.loadRow key row).Exact := by
  intro payTo
  change ((incrementPayToCount store.payToCounts row.resource.payTo).get payTo).getD 0 =
    (store.resources.set key (row.entry store.objects)).count (ownedBy payTo)
  rw [owned_set_of_absent habsent, ← hs payTo]
  exact get_incrementPayToCount store.payToCounts row.resource.payTo payTo

theorem resources_hydrateRow (config : Config) (store : Store Vector) (key : String)
    (row : Row Vector) : (store.hydrateRow config key row).1.resources =
      store.resources.set key (row.entry store.objects) := by
  rw [Store.hydrateRow]
  split
  · rfl
  · exact resources_scheduleEmbed config _ _

theorem exact_hydrateRow (hs : store.Exact) (habsent : store.resources.get key = none)
    (config : Config) (row : Row Vector) : (store.hydrateRow config key row).1.Exact := by
  rw [Store.hydrateRow]
  split
  · exact exact_loadRow hs habsent
  · exact (exact_loadRow hs habsent).congr (resources_scheduleEmbed config _ _)
      (payToCounts_scheduleEmbed config _ _)

/-- Rows that memory does not have are counted as they are loaded. -/
theorem sound_hydrate (hs : store.Exact) {rows : List (String × Row Vector)}
    (hnodup : (rows.map Prod.fst).Nodup)
    (habsent : ∀ row ∈ rows, store.resources.get row.1 = none)
    (hfits : store.resources.size + rows.length ≤ config.maxCatalogSize) :
    (store.hydrate config rows).1.Sound config := by
  induction rows generalizing store with
  | nil => exact ⟨hs, hfits⟩
  | cons row rows ih =>
      obtain ⟨key, row⟩ := row
      obtain ⟨hfresh, hrest⟩ := List.nodup_cons.mp hnodup
      have hkey := habsent (key, row) List.mem_cons_self
      have hresources := resources_hydrateRow config store key row
      have hsize : (store.hydrateRow config key row).1.resources.size =
          store.resources.size + 1 := by
        rw [hresources]
        exact size_set_of_absent _ hkey
      have hexact := exact_hydrateRow hs hkey config row
      rw [Store.hydrate]
      split
      · next loaded hloaded =>
          rw [hloaded] at hexact hsize
          refine ⟨hexact, ?_⟩
          change loaded.resources.size ≤ _
          have hloadedSize : loaded.resources.size = store.resources.size + 1 := hsize
          rw [List.length_cons] at hfits
          omega
      · next loaded scheduling _ hloaded =>
          rw [hloaded] at hexact hsize hresources
          refine ih hexact hrest (fun other hother => ?_) ?_
          · have hmem : other.1 ∈ rows.map Prod.fst := List.mem_map_of_mem hother
            have hne : other.1 ≠ key := fun heq => hfresh (heq ▸ hmem)
            change loaded.resources.get other.1 = none
            have hloadedResources : loaded.resources =
              store.resources.set key (row.entry store.objects) := hresources
            rw [hloadedResources, get_set_of_ne _ _ hne]
            exact habsent other (List.mem_cons_of_mem _ hother)
          · have hloadedSize : loaded.resources.size = store.resources.size + 1 := hsize
            rw [List.length_cons] at hfits
            change loaded.resources.size + _ ≤ _
            omega

/-- A query returns its keys in the order asked for, those that are there. -/
theorem map_select_sublist (table : CatalogTable Vector) (order : List String) :
    ((table.select order).map Prod.fst).Sublist order := by
  induction order with
  | nil => exact List.Sublist.refl []
  | cons key order ih =>
      cases hget : table.rows.get key with
      | none =>
          have hskip : table.select (key :: order) = table.select order := by
            simp [CatalogTable.select, hget]
          rw [hskip]
          exact ih.cons key
      | some row =>
          have htake : table.select (key :: order) = (key, row) :: table.select order := by
            simp [CatalogTable.select, hget]
          rw [htake, List.map_cons]
          exact ih.cons_cons key

theorem nodup_select (table : CatalogTable Vector) {order : List String}
    (hperm : order.Perm table.rows.keys) : ((table.select order).map Prod.fst).Nodup :=
  (map_select_sublist table order).nodup (hperm.nodup_iff.mpr table.rows.keysNodup)

structure Counted (config : Config) (s : System Vector) : Prop where
  sound : s.store.Sound config
  rows : ∀ rows, s.boot = .selected rows → (rows.map Prod.fst).Nodup

theorem Counted.startTask (hs : Counted config s) (command : Command) :
    Counted config (s.startTask command) := by
  rw [System.startTask]
  split
  · exact ⟨hs.sound, hs.rows⟩
  · exact hs

theorem Counted.endJob (hs : Counted config s) (id : ℕ) : Counted config (s.endJob id) :=
  ⟨hs.sound, hs.rows⟩

/-- What an upsert leaves, when it is admitted. -/
theorem sound_upsertResource (hs : store.Sound config) {result : Store Vector × Entry × Scheduling}
    (hstays : ∀ existing ∈ store.resources.get resource.key,
      existing.resource.payTo = resource.payTo)
    (hupsert : store.upsertResource config now resource source = .ok result) :
    result.1.Sound config ∧ RaisedWithinCap config store result.1 := by
  obtain ⟨hlimits, hresult⟩ := upsertResource_eq_ok hupsert
  have hpayTo := payTo_newEntry config store now resource source
  rw [hresult]
  refine ⟨⟨?_, ?_⟩, ?_⟩
  · exact (exact_insertEntry hs.1 hstays hpayTo).congr (resources_scheduleEmbed config _ _)
      (payToCounts_scheduleEmbed config _ _)
  · rw [resources_scheduleEmbed]
    exact size_insertEntry_le hs.2 hlimits
  · intro payTo hraised
    rw [owned_scheduleEmbed] at hraised ⊢
    exact raisedWithinCap_insertEntry hs.1 hstays hpayTo hlimits payTo hraised

theorem store_startTask (s : System Vector) (command : Command) :
    (s.startTask command).store = s.store := by
  rw [System.startTask]
  split <;> rfl

theorem upsert_cases (config : Config) (s : System Vector) (resource : Resource)
    (source : String) : s.upsert config resource source = s ∨
      ∃ result, s.store.upsertResource config s.now resource source = .ok result ∧
        (s.upsert config resource source).store = result.1 ∧
        (s.upsert config resource source).boot = s.boot := by
  rw [System.upsert]
  split
  · exact Or.inl rfl
  · next hupsert => exact Or.inr ⟨_, hupsert, rfl, rfl⟩
  · next hupsert =>
      refine Or.inr ⟨_, hupsert, store_startTask _ _, ?_⟩
      rw [System.startTask]
      split <;> rfl

theorem Counted.upsert (hs : Counted config s) {source : String}
    (hstays : ∀ existing ∈ s.store.resources.get resource.key,
      existing.resource.payTo = resource.payTo) :
    Counted config (s.upsert config resource source) := by
  rcases upsert_cases config s resource source with hsame | ⟨result, hupsert, hstore, hboot⟩
  · rw [hsame]
    exact hs
  · constructor
    · rw [hstore]
      exact (sound_upsertResource hs.sound hstays hupsert).1
    · rw [hboot]
      exact hs.rows

theorem sound_empty : (Store.empty : Store Vector).Sound config :=
  ⟨fun _ => rfl, Nat.zero_le _⟩

theorem counted_init (config : Config) (table : CatalogTable Vector) (durable : Bool) :
    Counted config (.init table durable) := by
  refine ⟨sound_empty, ?_⟩
  intro rows hboot
  cases durable <;> cases hboot

theorem counted_step (hs : Counted config s) (hmeets : ListingsStay config s action)
    (hstep : step config durable s action = some s') : Counted config s' := by
  cases steps_of_step hstep with
  | upserts resource source => exact hs.upsert hmeets
  | deletes url toolName =>
      rw [System.delete]
      split
      · exact hs.startTask _
      · exact ⟨sound_deleteResource hs.sound, hs.rows⟩
  | prunes =>
      have hpruned : Counted config { s with store := s.store.pruneExpired s.now } :=
        ⟨sound_pruneExpired hs.sound, hs.rows⟩
      rw [System.prune]
      split
      · exact hpruned
      · exact hpruned.startTask _
  | imports | importFails | selectFails => exact ⟨hs.sound, fun _ hboot => by cases hboot⟩
  | selects hboot hperm =>
      refine ⟨hs.sound, fun rows hselected => ?_⟩
      cases hselected
      exact nodup_select s.table hperm
  | hydrates hboot =>
      obtain ⟨habsent, hfits⟩ := hmeets _ hboot
      exact ⟨sound_hydrate hs.sound.1 (hs.rows _ hboot) habsent hfits,
        fun _ hready => by cases hready⟩
  | sends | executes | fails | waits => exact ⟨hs.sound, hs.rows⟩
  | @answers id command htask =>
      cases command with
      | persist entry => exact ⟨hs.sound, hs.rows⟩
      | erase keys => exact ⟨hs.sound, hs.rows⟩
      | delete key => exact ⟨sound_deleteResource hs.sound, hs.rows⟩
  | @endsJob id => exact hs.endJob id
  | @embeds id =>
      refine Counted.endJob ?_ id
      rw [System.embed]
      refine Counted.startTask ?_ _
      exact ⟨hs.sound, hs.rows⟩
  | restarts =>
      refine ⟨sound_empty, fun rows hboot => ?_⟩
      cases durable <;> cases hboot

def listingOf (payTo : String) : Resource :=
  ⟨"http", "https://api.example", none, none, none, none, none, none, none, none, payTo, none⟩

def smallCatalog : Config := ⟨1, 10, 1000, false⟩

end X402Facilitator.Catalog
