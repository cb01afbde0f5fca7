import X402Facilitator.Catalog.Placed
import X402Facilitator.Catalog.Search
import X402Facilitator.Library.Cuts

/-!
# Keys of listings

A key is a url and a tool with `::` between them, and both parts are chosen by callers.  Where
the separator straddles two of them, one listing is written, read and deleted by the address
of the other.
-/

namespace X402Facilitator.Catalog

open Execution InsertionMap Separator

section Statement

variable {Vector : Type}

def addressOf (url : String) (toolName : Option String) : String × Option String :=
  (url, toolName.filter (· ≠ ""))

def Resource.address (resource : Resource) : String × Option String :=
  addressOf resource.url resource.toolName

/-- The policy of the catalog: a tool makes a listing one of `mcp`. -/
def Resource.Admitted (resource : Resource) : Prop :=
  resource.type = "mcp" ↔ resource.address.2 ≠ none

instance (resource : Resource) : Decidable resource.Admitted :=
  inferInstanceAs (Decidable (resource.type = "mcp" ↔ resource.address.2 ≠ none))

/-- The separator of one address lies across the parts of the other. -/
def Overlaps (address other : String × Option String) : Prop :=
  Straddles ':' address.1.toList (address.2.getD "").toList other.1.toList
      (other.2.getD "").toList ∨
    Straddles ':' other.1.toList (other.2.getD "").toList address.1.toList
      (address.2.getD "").toList

/-- A listing is held at a key, in memory or in the table. -/
inductive System.Lists (s : System Vector) (key : String) (resource : Resource) : Prop where
  | memory {entry : Entry} (hget : s.store.resources.get key = some entry)
      (hresource : entry.resource = resource)
  | row {row : Row Vector} (hget : s.table.rows.get key = some row)
      (hresource : row.resource = resource)

/-- What is done by an address is done to the listing of that address alone. -/
structure ReachesOwn (config : Config) (s : System Vector) (url : String)
    (toolName : Option String) : Prop where
  created : ∀ now resource source store entry scheduling, resource.Admitted →
    resource.address = addressOf url toolName →
    s.store.upsertResource config now resource source = .ok (store, entry, scheduling) →
    store.resources.get (keyOf url toolName) = some entry ∧
      entry.resource.address = addressOf url toolName
  read : ∀ now item, s.store.getResource now url toolName = some item →
    item.entry.resource.address = addressOf url toolName
  overwrites : ∀ now resource source store entry scheduling, resource.Admitted →
    resource.address = addressOf url toolName →
    s.store.upsertResource config now resource source = .ok (store, entry, scheduling) →
    ∀ key found, s.store.resources.get key = some found →
      found.resource.address ≠ addressOf url toolName → store.resources.get key = some found
  overwritesRow : ∀ row : Row Vector, row.resource.Admitted →
    row.resource.address = addressOf url toolName → ∀ key found,
      s.table.rows.get key = some found → found.resource.address ≠ addressOf url toolName →
      (s.table.execute (.insert row)).rows.get key = some found
  deletes : ∀ now key found, s.store.resources.get key = some found →
    found.resource.address ≠ addressOf url toolName →
    (s.store.deleteResource now (keyOf url toolName)).resources.get key = some found
  deletesRow : ∀ key found, s.table.rows.get key = some found →
    found.resource.address ≠ addressOf url toolName →
    (s.table.execute (.delete [keyOf url toolName])).rows.get key = some found

def AdmittedWrites : System Vector → Action Vector → Prop
  | _, .upsert resource _ => resource.Admitted
  | _, _ => True

/-- Two listings have one key exactly when they have one address, and after any run of either
store each address reaches its own listing, exactly where addresses are `apart`. -/
def KeysExact (Vector : Type) (apart : String × Option String → String × Option String → Prop) :
    Prop :=
  (∀ resource other : Resource, resource.Admitted → other.Admitted →
    ((resource.key = other.key ↔ resource.address = other.address) ↔
      apart resource.address other.address)) ∧
  ∀ (config : Config) (durable : Bool) (table : CatalogTable Vector) (s : System Vector),
    table.Has Resource.Admitted →
    Reaches (step config durable) AdmittedWrites (.init table durable) s →
    ∀ url toolName, ReachesOwn config s url toolName ↔
      ∀ key resource, s.Lists key resource → apart resource.address (addressOf url toolName)

end Statement

variable {Vector : Type} {config : Config} {durable : Bool} {s s' : System Vector}
  {action : Action Vector} {resource other : Resource} {key url : String}
  {toolName : Option String} {address address' : String × Option String}

def keyOfAddress (address : String × Option String) : String :=
  String.ofList (joined ':' address.1.toList (address.2.getD "").toList)

theorem keyOf_eq (url : String) (toolName : Option String) :
    keyOf url toolName = keyOfAddress (addressOf url toolName) := by
  apply String.toList_injective
  rw [keyOfAddress, String.toList_ofList, joined]
  cases toolName with
  | none => simp [keyOf, addressOf]
  | some name =>
      by_cases hempty : name = ""
      · simp [keyOf, addressOf, Option.filter, hempty]
      · simp [keyOf, addressOf, Option.filter, hempty]

/-- An admitted listing is stored under the key that it is looked up by. -/
theorem Resource.Admitted.key_eq (hadmitted : resource.Admitted) :
    resource.key = keyOf resource.url resource.toolName := by
  by_cases hnamed : resource.address.2 = none
  · have htype : resource.type ≠ "mcp" := fun hmcp => hadmitted.mp hmcp hnamed
    rw [keyOf_eq, Resource.key, if_neg htype]
    apply String.toList_injective
    change _ = (keyOfAddress resource.address).toList
    rw [keyOfAddress, String.toList_ofList, joined, hnamed]
    simp [Resource.address, addressOf]
  · rw [Resource.key, if_pos (hadmitted.mpr hnamed)]
    rw [Resource.address, addressOf] at hnamed
    cases htool : resource.toolName with
    | none =>
        rw [htool] at hnamed
        exact absurd rfl hnamed
    | some name =>
        have hname : name ≠ "" := by
          rintro rfl
          rw [htool] at hnamed
          exact hnamed rfl
        simp only [keyOf, Option.getD_some, if_neg hname]

theorem address_eq_of_parts (hurl : address.1 = address'.1)
    (htool : address.2.getD "" = address'.2.getD "")
    (hnamed : ∀ name ∈ address.2, name ≠ "") (hnamed' : ∀ name ∈ address'.2, name ≠ "") :
    address = address' := by
  obtain ⟨url, tool⟩ := address
  obtain ⟨url', tool'⟩ := address'
  obtain rfl : url = url' := hurl
  cases tool with
  | none =>
      cases tool' with
      | none => rfl
      | some name => exact absurd htool.symm (hnamed' name rfl)
  | some name =>
      cases tool' with
      | none => exact absurd htool (hnamed name rfl)
      | some name' =>
          obtain rfl : name = name' := htool
          rfl

/-- Keys are equal for one address, and for two that overlap. -/
theorem keyOf_eq_keyOf_iff (url url' : String) (toolName toolName' : Option String) :
    keyOf url toolName = keyOf url' toolName' ↔
      addressOf url toolName = addressOf url' toolName' ∨
        Overlaps (addressOf url toolName) (addressOf url' toolName') := by
  have hnamed : ∀ (url : String) (toolName : Option String),
      ∀ name ∈ (addressOf url toolName).2, name ≠ "" := by
    intro url toolName name hname
    exact of_decide_eq_true (Option.filter_eq_some_iff.mp hname).2
  rw [keyOf_eq, keyOf_eq, keyOfAddress, keyOfAddress, String.ofList_inj, joined_eq_iff,
    String.toList_inj, String.toList_inj, Overlaps]
  refine or_congr_left ⟨?_, ?_⟩
  · rintro ⟨hurl, htool⟩
    exact address_eq_of_parts hurl htool (hnamed url toolName) (hnamed url' toolName')
  · intro haddress
    rw [haddress]
    exact ⟨rfl, rfl⟩

theorem ne_of_overlaps (hoverlaps : Overlaps address address') : address ≠ address' := by
  rintro rfl
  rcases hoverlaps with hstraddles | hstraddles
  · exact ne_of_straddles hstraddles rfl
  · exact ne_of_straddles hstraddles rfl

/-- Two admitted listings share a key exactly for one address, unless these overlap. -/
theorem keys_iff (hadmitted : resource.Admitted) (hother : other.Admitted) :
    (resource.key = other.key ↔ resource.address = other.address) ↔
      ¬ Overlaps resource.address other.address := by
  rw [hadmitted.key_eq, hother.key_eq, keyOf_eq_keyOf_iff]
  constructor
  · intro hsame hoverlaps
    exact ne_of_overlaps hoverlaps (hsame.mp (.inr hoverlaps))
  · intro hapart
    exact ⟨fun hkeys => hkeys.resolve_right hapart, .inl⟩

theorem Placed.lists (hs : Placed Resource.Admitted s) (hlists : s.Lists key resource) :
    Fits Resource.Admitted key resource := by
  cases hlists with
  | memory hget hresource =>
      rw [← hresource]
      exact hs.memory _ _ hget
  | row hget hresource =>
      rw [← hresource]
      exact ⟨hs.table _ _ hget, s.table.keyed _ _ hget⟩

/-- A listing with the key of an address has the address, or one that overlaps it. -/
theorem key_eq_keyOf_iff (hfits : Fits Resource.Admitted key resource) (url : String)
    (toolName : Option String) :
    key = keyOf url toolName ↔ resource.address = addressOf url toolName ∨
      Overlaps resource.address (addressOf url toolName) := by
  obtain ⟨hadmitted, rfl⟩ := hfits
  rw [hadmitted.key_eq]
  exact keyOf_eq_keyOf_iff resource.url url resource.toolName toolName

theorem key_eq_of_address (hadmitted : resource.Admitted)
    (haddress : resource.address = addressOf url toolName) :
    resource.key = keyOf url toolName :=
  (key_eq_keyOf_iff ⟨hadmitted, rfl⟩ url toolName).mpr (.inl haddress)

/-- Where no listing overlaps an address, the address reaches its own. -/
theorem reachesOwn_of_apart (hs : Placed Resource.Admitted s)
    (hapart : ∀ key resource, s.Lists key resource →
      ¬ Overlaps resource.address (addressOf url toolName)) :
    ReachesOwn config s url toolName := by
  have hother : ∀ key resource, s.Lists key resource →
      resource.address ≠ addressOf url toolName → key ≠ keyOf url toolName := by
    intro key resource hlists hne hkey
    rcases (key_eq_keyOf_iff (hs.lists hlists) url toolName).mp hkey with hsame | hoverlaps
    · exact hne hsame
    · exact hapart key resource hlists hoverlaps
  constructor
  · intro now resource source store entry scheduling hadmitted haddress hupsert
    obtain ⟨rfl, hupserted⟩ := upserted_of_upsertResource hupsert
    refine ⟨?_, ?_⟩
    · rw [hupserted.resources, ← key_eq_of_address hadmitted haddress, get_set_self]
    · rw [← haddress]
      change Resource.address (Option.elim _ resource fun old : Entry =>
        resource.over old.resource) = _
      cases s.store.resources.get resource.key <;> rfl
  · intro now item hitem
    rw [Store.getResource] at hitem
    split at hitem
    · cases hitem
    · next entry hentry =>
        split at hitem
        · cases hitem
        · cases hitem
          by_contra hne
          exact hother _ _ (.memory hentry rfl) hne rfl
  · intro now resource source store entry scheduling hadmitted haddress hupsert key found hfound
      hne
    obtain ⟨-, hupserted⟩ := upserted_of_upsertResource hupsert
    have hkey := hother key found.resource (.memory hfound rfl) hne
    rw [hupserted.resources, key_eq_of_address hadmitted haddress, get_set_of_ne _ _ hkey]
    exact hfound
  · intro row hadmitted haddress key found hfound hne
    have hkey := hother key found.resource (.row hfound rfl) hne
    rw [← key_eq_of_address hadmitted haddress] at hkey
    exact (get_set_of_ne _ _ hkey).trans hfound
  · intro now key found hfound hne
    rw [get_deleteResource, if_neg (hother key found.resource (.memory hfound rfl) hne)]
    exact hfound
  · intro key found hfound hne
    exact (get_erase_of_ne _ (hother key found.resource (.row hfound rfl) hne)).trans hfound

/-- A listing that overlaps an address is deleted by it. -/
theorem not_overlaps_of_reachesOwn (hs : Placed Resource.Admitted s)
    (hreaches : ReachesOwn config s url toolName) (hlists : s.Lists key resource) :
    ¬ Overlaps resource.address (addressOf url toolName) := by
  intro hoverlaps
  have hkey := (key_eq_keyOf_iff (hs.lists hlists) url toolName).mpr (.inr hoverlaps)
  have hne := ne_of_overlaps hoverlaps
  cases hlists with
  | memory hget hresource =>
      subst hresource hkey
      have hkept := hreaches.deletes 0 _ _ hget hne
      rw [get_deleteResource, if_pos rfl] at hkept
      cases hkept
  | row hget hresource =>
      subst hresource hkey
      have hkept := hreaches.deletesRow _ _ hget hne
      cases (get_erase_self s.table.rows _).symm.trans hkept

/-- Keys tell addresses apart exactly where these do not overlap. -/
theorem keysExact_apart (Vector : Type) :
    KeysExact Vector fun address other => ¬ Overlaps address other := by
  refine ⟨fun resource other hadmitted hother => keys_iff hadmitted hother, ?_⟩
  intro config durable table s htable hreach url toolName
  have hs : Placed Resource.Admitted s := hreach.preserves
    (fun _ _ _ hbefore hmeets hstep =>
      placed_step (fun _ _ hadmitted => hadmitted) hbefore
        (fun _ _ hupsert => by rwa [hupsert] at hmeets) hstep)
    (placed_init htable durable)
  exact ⟨fun hreaches key resource hlists => not_overlaps_of_reachesOwn hs hreaches hlists,
    reachesOwn_of_apart hs⟩

def toolListing (url toolName payTo : String) : Resource :=
  { listingOf payTo with type := "mcp", url := url, toolName := some toolName }

/-- A tool `b::c` of one url has the key of the tool `c` of another. -/
theorem not_keysExact : ¬ KeysExact Unit fun _ _ => True := by
  rintro ⟨hkeys, -⟩
  have hsame := (hkeys (toolListing "https://x.example/a" "b::c" "first")
    (toolListing "https://x.example/a::b" "c" "second") (by decide) (by decide)).mpr trivial
  exact absurd (hsame.mp (by decide)) (by decide)

end X402Facilitator.Catalog
