import X402Facilitator.Catalog.Writes

/-!
# Listings that were paid for

A permanent listing keeps its marks when a verification writes over it, but not its content:
`{ ...existing, ...resource }` takes all that the new resource carries, and the terms of the
old one where the new has none.
-/

namespace X402Facilitator.Catalog

open Execution InsertionMap

section Statement

variable {Vector : Type}

/-- A permanent listing says what one of the settle or manual writes to its key does. -/
def History.ListsProven (history : History Vector) : Prop :=
  ∀ key entry, history.store.resources.get key = some entry → entry.source ≠ "verify" →
    ∃ landed ∈ history.written key, landed.proves = true ∧ entry.resource = landed.resource

def Write.isVerify : Write → Bool
  | .upsert _ _ source => source = .verify
  | _ => false

/-- A write leaves permanent listings proven, and a verification leaves them as they are. -/
structure KeepsListings (history : History Vector) (write : Write)
    (history' : History Vector) : Prop where
  proven : history'.ListsProven
  unchanged : write.isVerify = true → ∀ key entry,
    history.store.resources.get key = some entry → entry.source ≠ "verify" →
    ∃ entry', history'.store.resources.get key = some entry' ∧ entry'.resource = entry.resource

/-- In every run of writes that meet a condition permanent listings are proven, and the writes
that keep them so are those that meet it. -/
def ProvenListings (Vector : Type) (config : Config)
    (meets : History Vector → Write → Prop) : Prop :=
  ∀ history, Reaches (History.step config) meets .empty history →
    history.ListsProven ∧ ∀ write history', history.step config write = some history' →
      (KeepsListings history write history' ↔ meets history write)

/-- A verification of a permanent listing repeats it.  Where another write leaves out terms
that the listing has, it repeats with them what some such write has said before. -/
def RepeatsProven (history : History Vector) : Write → Prop
  | .upsert _ resource .verify => ∀ entry ∈ history.store.resources.get resource.key,
      entry.source ≠ "verify" → resource.over entry.resource = entry.resource
  | .upsert _ resource _ => ∀ entry ∈ history.store.resources.get resource.key,
      ∀ terms ∈ entry.resource.pactwright, resource.pactwright = none →
        ∃ landed ∈ history.written resource.key, landed.proves = true ∧
          landed.resource = { resource with pactwright := some terms }
  | _ => True

end Statement

variable {Vector : Type} {config : Config} {history history' : History Vector} {write : Write}
  {key : String} {entry : Entry} {now : ℕ} {resource existing : Resource} {source : WriteSource}

/-- A listing is overwritten but for terms that are left out. -/
theorem over_cases (resource existing : Resource) :
    (resource.over existing = resource ∧
      ∀ terms ∈ existing.pactwright, resource.pactwright ≠ none) ∨
    ∃ terms, existing.pactwright = some terms ∧ resource.pactwright = none ∧
      resource.over existing = { resource with pactwright := some terms } := by
  cases hnew : resource.pactwright with
  | some own =>
      left
      refine ⟨?_, fun terms _ => Option.some_ne_none own⟩
      rw [Resource.over, hnew, Option.some_or, ← hnew]
  | none =>
      cases hold : existing.pactwright with
      | none =>
          left
          refine ⟨?_, fun terms hterms => by cases hterms⟩
          rw [Resource.over, hnew, hold, Option.or_none, ← hnew]
      | some terms =>
          right
          refine ⟨terms, rfl, rfl, ?_⟩
          rw [Resource.over, hnew, hold, Option.none_or]

theorem resource_newEntry (config : Config) (store : Store Vector) (now : ℕ)
    (resource : Resource) (source : String) :
    (store.newEntry config now resource source).resource =
      (store.resources.get resource.key).elim resource fun old => resource.over old.resource := rfl

/-- A listing is a verification's while nothing else has written it. -/
theorem source_newEntry (config : Config) (store : Store Vector) (now : ℕ)
    (resource : Resource) (source : WriteSource) :
    (store.newEntry config now resource source.text).source = "verify" ↔
      source = .verify ∧
        ∀ entry ∈ store.resources.get resource.key, entry.source = "verify" := by
  rw [Store.newEntry]
  cases store.resources.get resource.key with
  | none => simp
  | some old =>
      by_cases hold : old.source = "verify"
      · simp [hold]
      · simp [hold]

/-- What is listed already can be written. -/
theorem upsert_of_listed (config : Config) (history : History Vector) (now : ℕ)
    (source : WriteSource) (hentry : history.store.resources.get resource.key = some entry) :
    (history.upsert config now resource source).store.resources.get resource.key =
        some (history.store.newEntry config now resource source.text) ∧
      (history.upsert config now resource source).written resource.key =
        history.written resource.key ++ [⟨now, resource, source⟩] := by
  have hlimits : history.store.checkLimits config resource = .ok () := by
    rw [Store.checkLimits, hentry]
  rw [History.upsert]
  split
  · next hrefused =>
      rw [Store.upsertResource, hlimits] at hrefused
      cases hrefused
  · next hupsert =>
      obtain ⟨rfl, hupserted⟩ := upserted_of_upsertResource hupsert
      refine ⟨?_, Function.update_self _ _ _⟩
      rw [hupserted.resources, get_set_self]

/-- A write that repeats what was proven lists what was proven. -/
theorem listsProven_newEntry (hs : history.ListsProven)
    (hmeets : RepeatsProven history (.upsert now resource source))
    (hsource : (history.store.newEntry config now resource source.text).source ≠ "verify") :
    ∃ landed ∈ history.written resource.key ++ [⟨now, resource, source⟩],
      landed.proves = true ∧
        (history.store.newEntry config now resource source.text).resource = landed.resource := by
  have hnew : source ≠ .verify → ∀ found, found = resource →
      ∃ landed ∈ history.written resource.key ++ [(⟨now, resource, source⟩ : Landed)],
        landed.proves = true ∧ found = landed.resource := by
    rintro hproves _ rfl
    exact ⟨_, List.mem_append_right _ List.mem_cons_self, decide_eq_true hproves, rfl⟩
  rw [resource_newEntry]
  cases hold : history.store.resources.get resource.key with
  | none =>
      refine hnew (fun hverify => hsource ?_) _ rfl
      rw [source_newEntry, hold]
      exact ⟨hverify, fun entry hentry => by cases hentry⟩
  | some old =>
      rw [Option.elim_some]
      by_cases hverify : source = .verify
      · subst hverify
        have hpermanent : old.source ≠ "verify" := by
          intro hprovisional
          refine hsource ((source_newEntry config history.store now resource .verify).mpr
            ⟨rfl, fun entry hentry => ?_⟩)
          rw [hold] at hentry
          rw [← Option.some.inj hentry]
          exact hprovisional
        obtain ⟨landed, hlanded, hproves, hresource⟩ := hs _ old hold hpermanent
        refine ⟨landed, List.mem_append_left _ hlanded, hproves, ?_⟩
        rw [hmeets old hold hpermanent, hresource]
      · rcases over_cases resource old.resource with ⟨hover, -⟩ | ⟨terms, hterms, hnone, hover⟩
        · exact hnew hverify _ hover
        · have hrepeats : ∃ landed ∈ history.written resource.key, landed.proves = true ∧
              landed.resource = { resource with pactwright := some terms } := by
            cases source with
            | verify => exact absurd rfl hverify
            | settle | manual => exact hmeets old hold terms hterms hnone
          obtain ⟨landed, hlanded, hproves, hresource⟩ := hrepeats
          refine ⟨landed, List.mem_append_left _ hlanded, hproves, ?_⟩
          rw [hover, hresource]

theorem listsProven_step (hs : history.ListsProven)
    (hmeets : RepeatsProven history write)
    (hstep : history.step config write = some history') : history'.ListsProven := by
  intro key entry hentry hsource
  cases movesAt_of_step hstep key with
  | same hget hwritten =>
      rw [hwritten]
      exact hs key entry (hget.symm.trans hentry) hsource
  | upserted hwrite hkey hget hwritten =>
      subst hwrite hkey
      rw [hget] at hentry
      obtain rfl := Option.some.inj hentry
      rw [hwritten]
      exact listsProven_newEntry hs hmeets hsource
  | gone hgone hget hwritten => cases hget.symm.trans hentry

/-- A verification that repeats a permanent listing leaves it as it is. -/
theorem unchanged_of_repeatsProven (hmeets : RepeatsProven history write)
    (hstep : history.step config write = some history') (hverify : write.isVerify = true)
    (hentry : history.store.resources.get key = some entry) (hsource : entry.source ≠ "verify") :
    ∃ entry', history'.store.resources.get key = some entry' ∧
      entry'.resource = entry.resource := by
  cases movesAt_of_step hstep key with
  | same hget hwritten => exact ⟨entry, hget.trans hentry, rfl⟩
  | upserted hwrite hkey hget hwritten =>
      rename_i now resource source
      subst hwrite hkey
      obtain rfl : source = .verify := of_decide_eq_true hverify
      refine ⟨_, hget, ?_⟩
      rw [resource_newEntry, hentry]
      exact hmeets entry hentry hsource
  | gone hgone hget hwritten =>
      cases write with
      | upsert now resource source =>
          rcases hgone with hdeletes | ⟨now, hprune, -⟩
          · exact hdeletes.elim
          · cases hprune
      | delete now url toolName => cases hverify
      | prune now => cases hverify

/-- A write keeps the listings exactly where it repeats what was proven. -/
theorem keepsListings_iff (hs : history.ListsProven)
    (hstep : history.step config write = some history') :
    KeepsListings history write history' ↔ RepeatsProven history write := by
  constructor
  · intro hkeeps
    cases write with
    | upsert now resource source =>
        cases hstep
        have hproves : source ≠ .verify → ∀ entry ∈ history.store.resources.get resource.key,
            ∀ terms ∈ entry.resource.pactwright, resource.pactwright = none →
              ∃ landed ∈ history.written resource.key, landed.proves = true ∧
                landed.resource = { resource with pactwright := some terms } := by
          intro hsource entry hentry terms hterms hnone
          obtain ⟨hget, hwritten⟩ := upsert_of_listed config history now source hentry
          have hpermanent : (history.store.newEntry config now resource source.text).source ≠
              "verify" :=
            fun hverify => hsource ((source_newEntry _ _ _ _ _).mp hverify).1
          obtain ⟨landed, hlanded, hproves, hresource⟩ := hkeeps.proven _ _ hget hpermanent
          have hover : landed.resource = { resource with pactwright := some terms } := by
            rw [← hresource, resource_newEntry, hentry, Option.elim_some, Resource.over, hnone,
              hterms, Option.none_or]
          rw [hwritten] at hlanded
          rcases List.mem_append.mp hlanded with hearlier | hnew
          · exact ⟨landed, hearlier, hproves, hover⟩
          · rw [List.mem_singleton.mp hnew] at hover
            have hsame := congrArg Resource.pactwright hover
            rw [hnone] at hsame
            cases hsame
        cases source with
        | verify =>
            intro entry hentry hsource
            obtain ⟨entry', hentry', hsame⟩ := hkeeps.unchanged rfl _ entry hentry hsource
            rw [(upsert_of_listed config history now .verify hentry).1] at hentry'
            have hover : entry'.resource = resource.over entry.resource := by
              rw [← Option.some.inj hentry', resource_newEntry, hentry, Option.elim_some]
            exact hover.symm.trans hsame
        | settle => exact hproves (by decide)
        | manual => exact hproves (by decide)
    | delete now url toolName => trivial
    | prune now => trivial
  · intro hmeets
    exact ⟨listsProven_step hs hmeets hstep, fun hverify key entry hentry hsource =>
      unchanged_of_repeatsProven hmeets hstep hverify hentry hsource⟩

theorem listsProven_empty : (History.empty : History Vector).ListsProven :=
  fun key entry hentry => by cases hentry

/-- Permanent listings stay what was proven exactly in the runs whose verifications repeat
them and whose other writes leave no terms out. -/
theorem provenListings_repeatsProven (Vector : Type) (config : Config) :
    ProvenListings Vector config RepeatsProven := by
  intro history hreach
  have hs : history.ListsProven := hreach.preserves
    (fun _ _ _ hbefore hmeets hstep => listsProven_step hbefore hmeets hstep) listsProven_empty
  exact ⟨hs, fun write history' hstep => keepsListings_iff hs hstep⟩

def redirects : List Write :=
  [.upsert 0 (listingOf "seller") .settle, .upsert 1 (listingOf "attacker") .verify]

def observe (history : History Unit) : Option (String × String) × List String :=
  ((history.store.resources.get "https://api.example::").map fun entry =>
      (entry.resource.payTo, entry.source),
    ((history.written "https://api.example::").filter Landed.proves).map fun landed =>
      landed.resource.payTo)

/-- A verification redirects a listing that was paid for. -/
theorem not_provenListings : ¬ ProvenListings Unit smallCatalog anyStep := by
  intro hproven
  have hrun : (run (History.step smallCatalog) .empty redirects).map observe =
      some (some ("attacker", "settle"), ["seller"]) := by decide
  obtain ⟨history, hreach, hobserved⟩ := exists_reaches_of_run hrun
  obtain ⟨hmarks, haccounts⟩ := Prod.mk.inj hobserved
  obtain ⟨entry, hentry, hmark⟩ := Option.map_eq_some_iff.mp hmarks
  obtain ⟨hpayTo, hsource⟩ := Prod.mk.inj hmark
  have hpermanent : entry.source ≠ "verify" := by
    rw [hsource]
    decide
  obtain ⟨landed, hlanded, hproves, hresource⟩ := (hproven _ hreach).1 _ entry hentry hpermanent
  have hmem : landed.resource.payTo ∈ ["seller"] := by
    rw [← haccounts]
    exact List.mem_map_of_mem (List.mem_filter.mpr ⟨hlanded, hproves⟩)
  rw [← hresource, hpayTo] at hmem
  exact absurd hmem (by decide)

end X402Facilitator.Catalog
