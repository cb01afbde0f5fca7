import X402Facilitator.Catalog.Listings

/-!
# Writes to the catalog

A listing is made of the writes to its key since it was created.  What marks it as
provisional is decided by whether a settlement or an operator is among them.
-/

namespace X402Facilitator.Catalog

open Execution InsertionMap

inductive WriteSource where
  | verify
  | settle
  | manual
  deriving DecidableEq

def WriteSource.text : WriteSource → String
  | .verify => "verify"
  | .settle => "settle"
  | .manual => "manual"

inductive Write where
  | upsert (now : ℕ) (resource : Resource) (source : WriteSource)
  | delete (now : ℕ) (url : String) (toolName : Option String)
  | prune (now : ℕ)

structure Landed where
  now : ℕ
  resource : Resource
  source : WriteSource

/-- A write that stands for a payment or for an operator. -/
def Landed.proves (landed : Landed) : Bool := landed.source ≠ .verify

/-- The catalog, with the writes to each listing since it was created. -/
structure History (Vector : Type) where
  store : Store Vector
  written : String → List Landed

namespace History

variable {Vector : Type}

def empty : History Vector := ⟨.empty, fun _ => []⟩

def upsert (config : Config) (history : History Vector) (now : ℕ) (resource : Resource)
    (source : WriteSource) : History Vector :=
  match history.store.upsertResource config now resource source.text with
  | .error _ => history
  | .ok (store, _, _) =>
      ⟨store, Function.update history.written resource.key
        (history.written resource.key ++ [⟨now, resource, source⟩])⟩

def delete (history : History Vector) (now : ℕ) (key : String) : History Vector :=
  ⟨history.store.deleteResource now key, Function.update history.written key []⟩

def prune (history : History Vector) (now : ℕ) : History Vector :=
  ⟨history.store.pruneExpired now,
    fun key => if key ∈ history.store.expiredKeys now then [] else history.written key⟩

def step (config : Config) (history : History Vector) : Write → Option (History Vector)
  | .upsert now resource source => some (history.upsert config now resource source)
  | .delete now url toolName => some (history.delete now (keyOf url toolName))
  | .prune now => some (history.prune now)

/-- Some settlement or operator has written the listing since it was created. -/
def Proven (history : History Vector) (key : String) : Prop :=
  ∃ landed ∈ history.written key, landed.proves = true

end History

def Write.Deletes (key : String) : Write → Prop
  | .delete _ url toolName => keyOf url toolName = key
  | _ => False

/-- A listing is provisional exactly from verifications, and then it expires. -/
structure Entry.Marked (config : Config) (entry : Entry) : Prop where
  provisional : entry.provisional = true ↔ entry.source = "verify"
  expires : entry.provisional = true ↔ entry.expiresAt ≠ none
  expiresAt : ∀ time ∈ entry.expiresAt, time = entry.lastSeenAt + config.verifyTtlMs

/-- What holds of the listings of a catalog, and over each further write. -/
structure Provenance {Vector : Type} (config : Config) (history : History Vector) : Prop where
  marked : ∀ key entry, history.store.resources.get key = some entry → entry.Marked config
  proven : ∀ key, history.Proven key → ∃ entry, history.store.resources.get key = some entry ∧
    entry.source ≠ "verify" ∧ ∀ now, entry.isExpired now = false
  staysProven : ∀ write history' key, history.step config write = some history' →
    history.Proven key → ¬ write.Deletes key → history'.Proven key
  firstSeenAt : ∀ write history' key entry entry', history.step config write = some history' →
    history.store.resources.get key = some entry →
    history'.store.resources.get key = some entry' → entry'.firstSeenAt = entry.firstSeenAt
  pruned : ∀ now key, (history.store.pruneExpired now).resources.get key =
    (history.store.resources.get key).filter fun entry => !entry.isExpired now

/-- Provenance after any writes at any times, from an empty catalog. -/
def ProvenanceAlways (Vector : Type) (config : Config) : Prop :=
  ∀ history : History Vector,
    Reaches (History.step config) anyStep .empty history → Provenance config history

def recordedSource (writes : List Landed) : WriteSource :=
  ((writes.find? Landed.proves).map Landed.source).getD .verify

structure Entry.WrittenBy (config : Config) (entry : Entry) (writes : List Landed) : Prop where
  firstSeenAt : ∃ first ∈ writes.head?, entry.firstSeenAt = first.now
  lastSeenAt : ∃ last ∈ writes.getLast?, entry.lastSeenAt = last.now
  source : entry.source = (recordedSource writes).text
  provisional : entry.provisional = decide (recordedSource writes = .verify)
  expiresAt : entry.expiresAt =
    if entry.provisional then some (entry.lastSeenAt + config.verifyTtlMs) else none

variable {Vector : Type} {config : Config} {history history' : History Vector} {write : Write}
  {key : String} {entry : Entry} {writes : List Landed} {now : ℕ} {resource : Resource}
  {source : WriteSource}

@[simp]
theorem text_eq_verify_iff (source : WriteSource) : source.text = "verify" ↔ source = .verify := by
  cases source with
  | verify | settle | manual => simp [WriteSource.text]

/-- A listing is recorded as a verification until something proves it. -/
theorem recordedSource_eq_verify_iff :
    recordedSource writes = .verify ↔ ∀ landed ∈ writes, landed.proves = false := by
  rw [recordedSource]
  cases hfind : writes.find? Landed.proves with
  | none =>
      have hnone := List.find?_eq_none.mp hfind
      simp only [Option.map_none, Option.getD_none, true_iff]
      exact fun landed hlanded => Bool.eq_false_iff.mpr (hnone landed hlanded)
  | some found =>
      have hproves : found.proves = true := List.find?_some hfind
      have hmem := List.mem_of_find?_eq_some hfind
      constructor
      · intro hverify
        exact absurd hverify (of_decide_eq_true hproves)
      · intro hnone
        rw [hnone found hmem] at hproves
        cases hproves

/-- One more write, over what the listing records. -/
theorem recordedSource_append (writes : List Landed) (landed : Landed) :
    recordedSource (writes ++ [landed]) =
      if recordedSource writes = .verify then landed.source else recordedSource writes := by
  rw [recordedSource, recordedSource, List.find?_append]
  cases hfind : writes.find? Landed.proves with
  | some found =>
      have hfound : found.proves = true := List.find?_some hfind
      have hproves : found.source ≠ .verify := of_decide_eq_true hfound
      exact (if_neg hproves).symm
  | none =>
      cases hproves : landed.proves with
      | true =>
          rw [List.find?_cons_of_pos hproves]
          rfl
      | false =>
          have hverify : landed.source = .verify := by
            simpa [Landed.proves] using hproves
          rw [List.find?_cons_of_neg (by simp [hproves]), hverify]
          rfl

theorem Entry.WrittenBy.marked (hentry : entry.WrittenBy config writes) :
    entry.Marked config := by
  refine ⟨?_, ?_, ?_⟩
  · rw [hentry.source, hentry.provisional, decide_eq_true_iff, text_eq_verify_iff]
  · rw [hentry.expiresAt]
    cases entry.provisional <;> simp
  · intro time htime
    rw [hentry.expiresAt] at htime
    split at htime
    · exact (Option.some.inj htime).symm
    · cases htime

/-- A proven listing never expires. -/
theorem Entry.WrittenBy.proven (hentry : entry.WrittenBy config writes)
    (hproven : ∃ landed ∈ writes, landed.proves = true) :
    entry.source ≠ "verify" ∧ ∀ now, entry.isExpired now = false := by
  obtain ⟨landed, hlanded, hproves⟩ := hproven
  have hrecorded : recordedSource writes ≠ .verify := by
    intro hverify
    rw [recordedSource_eq_verify_iff.mp hverify landed hlanded] at hproves
    cases hproves
  constructor
  · rw [hentry.source]
    exact fun hverify => hrecorded ((text_eq_verify_iff _).mp hverify)
  · intro now
    rw [Entry.isExpired, hentry.provisional, decide_eq_false hrecorded, Bool.false_and]

structure History.Kept (config : Config) (history : History Vector) : Prop where
  listed : ∀ key entry, history.store.resources.get key = some entry →
    entry.WrittenBy config (history.written key)
  absent : ∀ key, history.store.resources.get key = none → history.written key = []

theorem kept_empty : (History.empty : History Vector).Kept config where
  listed := fun key entry hentry => by cases hentry
  absent := fun _ _ => rfl

/-- The new listing at a key is made of one more write. -/
theorem writtenBy_newEntry (hs : history.Kept config) (now : ℕ) (resource : Resource)
    (source : WriteSource) :
    (history.store.newEntry config now resource source.text).WrittenBy config
      (history.written resource.key ++ [⟨now, resource, source⟩]) := by
  cases hexisting : history.store.resources.get resource.key with
  | none =>
      rw [hs.absent _ hexisting, List.nil_append, Store.newEntry, hexisting]
      cases source with
      | verify | settle | manual => exact ⟨⟨_, rfl, rfl⟩, ⟨_, rfl, rfl⟩, rfl, rfl, rfl⟩
  | some old =>
      have hold := hs.listed _ old hexisting
      obtain ⟨first, hfirst, hseen⟩ := hold.firstSeenAt
      have hsettled : decide (old.source ≠ "verify") =
          decide (recordedSource (history.written resource.key) ≠ .verify) := by
        rw [hold.source, decide_eq_decide, ne_eq, text_eq_verify_iff]
      rw [Store.newEntry, hexisting]
      constructor
      · refine ⟨first, ?_, hseen⟩
        rw [List.head?_append_of_ne_nil]
        · exact hfirst
        · rintro hnil
          rw [hnil] at hfirst
          cases hfirst
      · exact ⟨_, List.getLast?_concat, rfl⟩
      · simp only [Option.any_some, Option.elim_some, hsettled, recordedSource_append]
        by_cases hrecorded : recordedSource (history.written resource.key) = .verify
        · simp [hrecorded]
        · simp [hrecorded, hold.source]
      · simp only [Option.any_some, hsettled, recordedSource_append]
        by_cases hrecorded : recordedSource (history.written resource.key) = .verify
        · simp [hrecorded]
        · simp [hrecorded]
      · rfl

inductive MovesAt (config : Config) (history : History Vector) (write : Write) (key : String)
    (history' : History Vector) : Prop where
  | same (hget : history'.store.resources.get key = history.store.resources.get key)
      (hwritten : history'.written key = history.written key)
  | upserted {now : ℕ} {resource : Resource} {source : WriteSource}
      (hwrite : write = .upsert now resource source) (hkey : resource.key = key)
      (hget : history'.store.resources.get key =
        some (history.store.newEntry config now resource source.text))
      (hwritten : history'.written key = history.written key ++ [⟨now, resource, source⟩])
  | gone (hgone : write.Deletes key ∨
        ∃ now, write = .prune now ∧
          (history.store.resources.get key).any (Entry.isExpired now) = true)
      (hget : history'.store.resources.get key = none) (hwritten : history'.written key = [])

theorem movesAt_upsert (config : Config) (history : History Vector) (now : ℕ)
    (resource : Resource) (source : WriteSource) (key : String) :
    MovesAt config history (.upsert now resource source) key
      (history.upsert config now resource source) := by
  rw [History.upsert]
  split
  · exact .same rfl rfl
  · next hupsert =>
      obtain ⟨rfl, hupserted⟩ := upserted_of_upsertResource hupsert
      by_cases hkey : key = resource.key
      · subst hkey
        refine .upserted rfl rfl ?_ (Function.update_self _ _ _)
        rw [hupserted.resources, get_set_self]
      · refine .same ?_ (Function.update_of_ne hkey _ _)
        rw [hupserted.resources, get_set_of_ne _ _ hkey]

theorem movesAt_delete (config : Config) (history : History Vector) (now : ℕ) (url : String)
    (toolName : Option String) (key : String) :
    MovesAt config history (.delete now url toolName) key
      (history.delete now (keyOf url toolName)) := by
  have hget := get_deleteResource history.store now (keyOf url toolName) key
  by_cases hkey : key = keyOf url toolName
  · rw [if_pos hkey] at hget
    refine .gone (.inl hkey.symm) hget ?_
    rw [hkey]
    exact Function.update_self _ _ _
  · rw [if_neg hkey] at hget
    exact .same hget (Function.update_of_ne hkey _ _)

theorem movesAt_prune (config : Config) (history : History Vector) (now : ℕ) (key : String) :
    MovesAt config history (.prune now) key (history.prune now) := by
  have hget := (pruneExpired_spec history.store now).2.2 key
  by_cases hexpired : (history.store.resources.get key).any (Entry.isExpired now) = true
  · rw [if_pos hexpired] at hget
    have hmem := (mem_expiredKeys history.store now key).mpr hexpired
    exact .gone (.inr ⟨now, rfl, hexpired⟩) hget (if_pos hmem)
  · rw [if_neg hexpired] at hget
    have hnot : key ∉ history.store.expiredKeys now := by
      rwa [mem_expiredKeys]
    exact .same hget (if_neg hnot)

theorem movesAt_of_step (hstep : history.step config write = some history') (key : String) :
    MovesAt config history write key history' := by
  cases write with
  | upsert now resource source =>
      cases hstep
      exact movesAt_upsert config history now resource source key
  | delete now url toolName =>
      cases hstep
      exact movesAt_delete config history now url toolName key
  | prune now =>
      cases hstep
      exact movesAt_prune config history now key

theorem kept_write (hs : history.Kept config) (hstep : history.step config write = some history') :
    history'.Kept config := by
  constructor
  · intro key entry hentry
    cases movesAt_of_step hstep key with
    | same hget hwritten =>
        rw [hwritten]
        exact hs.listed key entry (hget.symm.trans hentry)
    | upserted hwrite hkey hget hwritten =>
        subst hkey
        rw [hget] at hentry
        rw [hwritten, ← Option.some.inj hentry]
        exact writtenBy_newEntry hs _ _ _
    | gone hgone hget hwritten => cases hget.symm.trans hentry
  · intro key habsent
    cases movesAt_of_step hstep key with
    | same hget hwritten =>
        rw [hwritten]
        exact hs.absent key (hget.symm.trans habsent)
    | upserted hwrite hkey hget hwritten => cases hget.symm.trans habsent
    | gone hgone hget hwritten => exact hwritten

theorem kept_of_reaches (hreach : Reaches (History.step config) anyStep .empty history) :
    history.Kept config :=
  hreach.preserves (fun _ _ _ hbefore _ hstep => kept_write hbefore hstep) kept_empty

/-- A proven listing is stored, and never expires. -/
theorem History.Kept.proven (hs : history.Kept config) (hproven : history.Proven key) :
    ∃ entry, history.store.resources.get key = some entry ∧
      entry.source ≠ "verify" ∧ ∀ now, entry.isExpired now = false := by
  cases hentry : history.store.resources.get key with
  | none =>
      obtain ⟨landed, hlanded, -⟩ := hproven
      rw [hs.absent key hentry] at hlanded
      cases hlanded
  | some entry => exact ⟨entry, rfl, (hs.listed key entry hentry).proven hproven⟩

theorem History.Kept.staysProven (hs : history.Kept config)
    (hstep : history.step config write = some history') (hproven : history.Proven key)
    (hkept : ¬ write.Deletes key) : history'.Proven key := by
  cases movesAt_of_step hstep key with
  | same hget hwritten =>
      rw [History.Proven, hwritten]
      exact hproven
  | upserted hwrite hkey hget hwritten =>
      obtain ⟨landed, hlanded, hproves⟩ := hproven
      refine ⟨landed, ?_, hproves⟩
      rw [hwritten]
      exact List.mem_append_left _ hlanded
  | gone hgone hget hwritten =>
      rcases hgone with hdeletes | ⟨now, -, hexpired⟩
      · exact absurd hdeletes hkept
      · obtain ⟨entry, hentry, -, hpublic⟩ := hs.proven hproven
        rw [hentry, Option.any_some, hpublic] at hexpired
        cases hexpired

/-- A listing that stays was first seen when it was. -/
theorem firstSeenAt_of_step {entry' : Entry}
    (hstep : history.step config write = some history')
    (hentry : history.store.resources.get key = some entry)
    (hentry' : history'.store.resources.get key = some entry') :
    entry'.firstSeenAt = entry.firstSeenAt := by
  cases movesAt_of_step hstep key with
  | same hget hwritten =>
      rw [hget, hentry] at hentry'
      rw [Option.some.inj hentry']
  | upserted hwrite hkey hget hwritten =>
      subst hkey
      rw [hget] at hentry'
      rw [← Option.some.inj hentry', Store.newEntry, hentry]
      rfl
  | gone hgone hget hwritten => cases hget.symm.trans hentry'

theorem get_pruneExpired (store : Store Vector) (now : ℕ) (key : String) :
    (store.pruneExpired now).resources.get key =
      (store.resources.get key).filter fun entry => !entry.isExpired now := by
  rw [(pruneExpired_spec store now).2.2]
  cases store.resources.get key with
  | none => rfl
  | some entry =>
      rw [Option.any_some, Option.filter_some]
      cases entry.isExpired now with
      | true => rfl
      | false => rfl

/-- Whatever is written at whatever times, provenance holds. -/
theorem provenanceAlways (Vector : Type) (config : Config) :
    ProvenanceAlways Vector config := by
  intro history hreach
  have hs := kept_of_reaches hreach
  exact {
    marked := fun key entry hentry => (hs.listed key entry hentry).marked
    proven := fun key hproven => hs.proven hproven
    staysProven := fun write history' key hstep hproven hkept =>
      hs.staysProven hstep hproven hkept
    firstSeenAt := fun write history' key entry entry' hstep hentry hentry' =>
      firstSeenAt_of_step hstep hentry hentry'
    pruned := fun now key => get_pruneExpired history.store now key }

end X402Facilitator.Catalog
