import X402Facilitator.Catalog.InOrder

/-!
# Vectors and their texts

An upsert starts with the vector of the listing that it replaces, and drops it when the text
has another fingerprint.  A text that cannot be composed stops it in between: the listing is
stored by then, with the vector of the old text.
-/

namespace X402Facilitator.Catalog

open Execution InsertionMap

def fingerprintOf (text : String) : String :=
  let units := text.toList.flatMap codeUnits
  let lanes := units.foldl hashUnit (0x811c9dc5, 0x01000193)
  toString units.length ++ ":" ++ String.ofList (Nat.toDigits 16 lanes.1.toNat) ++ ":" ++
    String.ofList (Nat.toDigits 16 lanes.2.toNat)

section Statement

variable {Vector : Type} (computes : String → Vector → Prop)

/-- The vectors of stored listings are computed from texts with the fingerprint of what the
listings compose to. -/
def VectorsDescribe (s : System Vector) : Prop :=
  ∀ key entry vector, s.store.resources.get key = some entry →
    (s.store.embeddings entry.object).embedding = some vector →
    ∃ text, computes text vector ∧ documentFingerprint entry.resource = some (fingerprintOf text)

end Statement

variable {Vector : Type} {computes : String → Vector → Prop} {config : Config}
  {store store' : Store Vector} {s s' : System Vector} {action : Action Vector}
  {resource : Resource} {source key : String} {entry : Entry} {scheduling : Scheduling} {now : ℕ}

theorem documentFingerprint_eq (resource : Resource) :
    documentFingerprint resource = (composeDocument resource).map fingerprintOf := rfl

def Store.inherited (store : Store Vector) (resource : Resource) : Embedding Vector :=
  (store.resources.get resource.key).elim ⟨none, none⟩ fun old => store.embeddings old.object

/-- Memory alone, its entries told apart by their objects, and its vectors recorded with the
fingerprints of their texts. -/
structure Described (computes : String → Vector → Prop) (s : System Vector) : Prop where
  memoryOnly : s.boot = .absent
  noTasks : s.tasks = []
  known : ∀ entry, s.Holds entry → entry.object < s.store.objects
  identity : ∀ entry entry', s.Holds entry → s.Holds entry' → entry.object = entry'.object →
    entry = entry'
  fingerprints : ∀ job ∈ s.jobs, documentFingerprint job.entry.resource = some job.fingerprint
  vectors : ∀ key entry vector, s.store.resources.get key = some entry →
    (s.store.embeddings entry.object).embedding = some vector →
    ∃ text, computes text vector ∧
      (s.store.embeddings entry.object).embeddingSource = some (fingerprintOf text) ∧
      documentFingerprint entry.resource = some (fingerprintOf text)

theorem Described.describe (hs : Described computes s) : VectorsDescribe computes s := by
  intro key entry vector hentry hvector
  obtain ⟨text, hcomputes, -, hdocument⟩ := hs.vectors key entry vector hentry hvector
  exact ⟨text, hcomputes, hdocument⟩

theorem not_persists (hs : Described computes s) : s.persists = false := by
  rw [System.persists, hs.memoryOnly, Boot.hasPool, Bool.and_false]

theorem startTask_of_not_persists (hpersists : s.persists = false) (command : Command) :
    s.startTask command = s := by
  rw [System.startTask, hpersists]
  rfl

/-- A step that only drops listings, and leaves objects and vectors alone. -/
theorem Described.mono (hs : Described computes s) (hboot : s'.boot = s.boot)
    (htasks : s'.tasks = s.tasks)
    (hsubset : ∀ key entry, s'.store.resources.get key = some entry →
      s.store.resources.get key = some entry)
    (hobjects : s'.store.objects = s.store.objects)
    (hembeddings : s'.store.embeddings = s.store.embeddings)
    (hjobs : s'.jobs = s.jobs) : Described computes s' := by
  have hholds : ∀ entry, s'.Holds entry → s.Holds entry :=
    fun entry hholds => holds_of_subset hholds hsubset htasks hjobs
  refine ⟨hboot.trans hs.memoryOnly, htasks.trans hs.noTasks, fun entry hentry => ?_,
    fun entry entry' hentry hentry' => hs.identity entry entry' (hholds entry hentry)
      (hholds entry' hentry'), ?_, fun key entry vector hentry hvector => ?_⟩
  · rw [hobjects]
    exact hs.known entry (hholds entry hentry)
  · rw [hjobs]
    exact hs.fingerprints
  · rw [hembeddings] at hvector ⊢
    exact hs.vectors key entry vector (hsubset key entry hentry) hvector

theorem Described.endJob (hs : Described computes s) (id : ℕ) :
    Described computes (s.endJob id) := by
  refine ⟨hs.memoryOnly, hs.noTasks, fun entry hentry => hs.known entry (holds_endJob hentry),
    fun entry entry' hentry hentry' => hs.identity entry entry' (holds_endJob hentry)
      (holds_endJob hentry'), fun job hjob => ?_, hs.vectors⟩
  rcases Table.mem_modify_cases hjob with ⟨before, hbefore, rfl⟩ | hold
  · exact hs.fingerprints before hbefore
  · exact hs.fingerprints job hold

/-- A vector that arrives is written to the entry that it was computed for. -/
theorem Described.embed (hs : Described computes s) {job : Job} (hjob : job ∈ s.jobs)
    {vector : Vector}
    (hcomputes : ∀ text ∈ composeDocument job.entry.resource, computes text vector) :
    Described computes (s.embed job vector) := by
  have hpersists := not_persists hs
  rw [System.embed, startTask_of_not_persists (by exact hpersists)]
  have hholds : ∀ entry, System.Holds { s with
      store := s.store.setEmbedding job.entry.object ⟨some vector, some job.fingerprint⟩ } entry →
      s.Holds entry :=
    fun entry hholds => holds_of_subset hholds (fun _ _ hget => hget) rfl rfl
  refine ⟨hs.memoryOnly, hs.noTasks, fun entry hentry => hs.known entry (hholds entry hentry),
    fun entry entry' hentry hentry' => hs.identity entry entry' (hholds entry hentry)
      (hholds entry' hentry'), hs.fingerprints, fun key entry found hentry hfound => ?_⟩
  change (Function.update s.store.embeddings job.entry.object
    ⟨some vector, some job.fingerprint⟩ entry.object).embedding = some found at hfound
  change ∃ text, computes text found ∧ (Function.update s.store.embeddings job.entry.object
    ⟨some vector, some job.fingerprint⟩ entry.object).embeddingSource = _ ∧ _
  by_cases hobject : entry.object = job.entry.object
  · obtain rfl : entry = job.entry :=
      hs.identity entry job.entry (.memory hentry) (.job hjob rfl) hobject
    rw [Function.update_self] at hfound ⊢
    cases hfound
    have hfingerprint := hs.fingerprints job hjob
    rw [documentFingerprint_eq] at hfingerprint ⊢
    obtain ⟨text, htext, hsource⟩ := Option.map_eq_some_iff.mp hfingerprint
    exact ⟨text, hcomputes text htext, congrArg some hsource.symm, congrArg _ htext⟩
  · rw [Function.update_of_ne hobject] at hfound ⊢
    exact hs.vectors key entry found hentry hfound

end X402Facilitator.Catalog
