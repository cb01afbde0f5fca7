import X402Facilitator.Catalog.Placed
import X402Facilitator.Catalog.Search

/-!
# What a search fuses

The fused order is an order of the listings whose key has a rank in one of the legs.  Where
every listing has a key of its own, these are the listings that match.
-/

namespace X402Facilitator.Catalog

open InsertionMap

/-- `_key` of an item. -/
def Item.key {Vector : Type} (item : Item Vector) : String := item.entry.resource.key

/-- Setting values under the keys of a list adds these keys. -/
theorem isSome_get_foldl_set {A Value : Type} (keyOf : A → String)
    (value : InsertionMap String Value → A → Value) (rrfScores : InsertionMap String Value)
    (entries : List A) (key : String) :
    ((entries.foldl (fun scores entry => scores.set (keyOf entry) (value scores entry))
      rrfScores).get key).isSome = true ↔
      key ∈ entries.map keyOf ∨ (rrfScores.get key).isSome = true := by
  induction entries generalizing rrfScores with
  | nil => simp
  | cons entry entries ih =>
      rw [List.foldl_cons, ih, get_set, List.map_cons, List.mem_cons]
      by_cases hkey : key = keyOf entry
      · simp [hkey]
      · simp [hkey]

theorem map_key_zipIdx {Vector : Type} (items : List (Item Vector)) :
    (items.zipIdx.map fun s => s.1.key) = items.map Item.key := by
  have hpairs : (items.zipIdx.map Prod.fst) = items := List.zipIdx_map_fst 0 items
  calc items.zipIdx.map (fun s => s.1.key) = (items.zipIdx.map Prod.fst).map Item.key := by
        rw [List.map_map]
        rfl
    _ = items.map Item.key := by rw [hpairs]

variable {Score : Type} [Arithmetic Score]

theorem isSome_get_setRanks (items : List (Item (List Score))) (key : String) :
    ((setRanks items).get key).isSome = true ↔ key ∈ items.map Item.key := by
  have hadds := isSome_get_foldl_set (fun s : Item (List Score) × ℕ => s.1.key)
    (fun _ s => (reciprocalRank s.2 : Score)) .empty items.zipIdx key
  rw [map_key_zipIdx] at hadds
  refine hadds.trans (or_iff_left ?_)
  exact Bool.false_ne_true

theorem isSome_get_addRanks (rrfScores : InsertionMap String Score)
    (items : List (Item (List Score))) (key : String) :
    ((addRanks rrfScores items).get key).isSome = true ↔
      key ∈ items.map Item.key ∨ (rrfScores.get key).isSome = true := by
  have hadds := isSome_get_foldl_set (fun s : Item (List Score) × ℕ => s.1.key)
    (fun scores s => (scores.get s.1.key).getD 0 + (reciprocalRank s.2 : Score)) rrfScores
    items.zipIdx key
  rw [map_key_zipIdx] at hadds
  exact hadds

variable {runtime : Runtime Score} {items : List (Item (List Score))}
  {item : Item (List Score)}

theorem map_fst_filterMap {A B : Type} (value : A → Option B) (entries : List A) :
    (entries.filterMap fun entry => (value entry).map (entry, ·)).map Prod.fst =
      entries.filter fun entry => (value entry).isSome := by
  induction entries with
  | nil => rfl
  | cons entry entries ih =>
      rw [List.filterMap_cons, List.filter_cons]
      cases value entry with
      | none => exact ih
      | some found => exact congrArg (entry :: ·) ih

/-- The fused order is one of the listings that have a rank. -/
theorem combine_perm (runtime : Runtime Score) (items lexical dense : List (Item (List Score))) :
    (runtime.combine items lexical dense).Perm
      (items.filter fun item =>
        ((addRanks (setRanks lexical) dense).get item.key).isSome) := by
  rw [Runtime.combine]
  refine ((List.mergeSort_perm _ _).map Prod.fst).trans (List.Perm.of_eq ?_)
  exact map_fst_filterMap (fun item => (addRanks (setRanks lexical) dense).get item.key) items

/-- A listing matches the words of a query, or its vector: one of the legs scores it. -/
def Runtime.matching (runtime : Runtime Score) (now : ℕ) (query : Option String)
    (queryVector : Option (List Score)) (item : Item (List Score)) : Bool :=
  !(runtime.lexicalScores now [item] query).isEmpty ||
    !(runtime.denseScores [item] queryVector).isEmpty

/-- The fused order of a search, before it is cut into pages. -/
def Runtime.fusedOrder (runtime : Runtime Score) (now : ℕ) (query : Option String)
    (queryVector : Option (List Score)) (items : List (Item (List Score))) :
    List (Item (List Score)) :=
  runtime.combine items ((ranked (runtime.lexicalScores now items query)).map Prod.fst)
    ((ranked (runtime.denseScores items queryVector)).map Prod.fst)

theorem mem_lexical_iff (now : ℕ) (query : Option String) :
    item ∈ (ranked (runtime.lexicalScores now items query)).map Prod.fst ↔
      item ∈ items ∧ 0 < runtime.scoreResource now item.entry query := by
  rw [(map_fst_ranked_perm _).mem_iff, Runtime.lexicalScores]
  simp only [List.mem_map, List.mem_filter, decide_eq_true_eq]
  constructor
  · rintro ⟨scored, ⟨⟨found, hfound, rfl⟩, hpositive⟩, rfl⟩
    exact ⟨hfound, hpositive⟩
  · rintro ⟨hitem, hpositive⟩
    exact ⟨_, ⟨⟨item, hitem, rfl⟩, hpositive⟩, rfl⟩

theorem mem_dense_iff (queryVector : Option (List Score)) :
    item ∈ (ranked (runtime.denseScores items queryVector)).map Prod.fst ↔
      item ∈ items ∧ ∃ vector ∈ queryVector, ∃ embedding ∈ item.embedding.embedding,
        1 / 10 < runtime.cosineSimilarity vector embedding := by
  rw [(map_fst_ranked_perm _).mem_iff]
  cases queryVector with
  | none => simp [Runtime.denseScores]
  | some vector =>
      simp only [Runtime.denseScores, List.mem_map, List.mem_filterMap, Option.mem_some_iff,
        exists_eq_left', Option.bind_eq_some_iff, Option.ite_none_right_eq_some]
      constructor
      · rintro ⟨scored, ⟨found, hfound, embedding, hembedding, hclose, hscored⟩, rfl⟩
        rw [← Option.some.inj hscored]
        exact ⟨hfound, embedding, hembedding, hclose⟩
      · rintro ⟨hitem, embedding, hembedding, hclose⟩
        exact ⟨_, ⟨item, hitem, embedding, hembedding, hclose, rfl⟩, rfl⟩

theorem matching_iff (now : ℕ) (query : Option String) (queryVector : Option (List Score)) :
    runtime.matching now query queryVector item = true ↔
      0 < runtime.scoreResource now item.entry query ∨
        ∃ vector ∈ queryVector, ∃ embedding ∈ item.embedding.embedding,
          1 / 10 < runtime.cosineSimilarity vector embedding := by
  have hlexical : (runtime.lexicalScores now [item] query).isEmpty = false ↔
      0 < runtime.scoreResource now item.entry query := by
    by_cases hpositive : 0 < runtime.scoreResource now item.entry query
    · simp [Runtime.lexicalScores, hpositive]
    · simp [Runtime.lexicalScores, hpositive]
  have hdense : (runtime.denseScores [item] queryVector).isEmpty = false ↔
      ∃ vector ∈ queryVector, ∃ embedding ∈ item.embedding.embedding,
        1 / 10 < runtime.cosineSimilarity vector embedding := by
    cases queryVector with
    | none => simp [Runtime.denseScores]
    | some vector =>
        cases hembedding : item.embedding.embedding with
        | none | some embedding => simp [Runtime.denseScores, hembedding]
  rw [Runtime.matching, Bool.or_eq_true, Bool.not_eq_true', Bool.not_eq_true', hlexical, hdense]

/-- What has a rank matches, where each listing has a key of its own. -/
theorem isSome_rank_iff (hkeys : (items.map Item.key).Nodup) (hitem : item ∈ items) (now : ℕ)
    (query : Option String) (queryVector : Option (List Score)) :
    ((addRanks (setRanks ((ranked (runtime.lexicalScores now items query)).map Prod.fst))
      ((ranked (runtime.denseScores items queryVector)).map Prod.fst)).get item.key).isSome = true ↔
      runtime.matching now query queryVector item = true := by
  have hown : ∀ {ranks : List (Item (List Score))}, (∀ found ∈ ranks, found ∈ items) →
      (item.key ∈ ranks.map Item.key ↔ item ∈ ranks) := by
    intro ranks hranks
    constructor
    · intro hmem
      obtain ⟨found, hfound, hkey⟩ := List.mem_map.mp hmem
      rwa [← List.inj_on_of_nodup_map hkeys (hranks found hfound) hitem hkey]
    · exact List.mem_map_of_mem
  rw [isSome_get_addRanks, isSome_get_setRanks, hown fun found hfound =>
    (mem_dense_iff queryVector).mp hfound |>.1, hown fun found hfound =>
    (mem_lexical_iff now query).mp hfound |>.1, mem_dense_iff, mem_lexical_iff, matching_iff]
  constructor
  · rintro (⟨-, hdense⟩ | ⟨-, hlexical⟩)
    · exact .inr hdense
    · exact .inl hlexical
  · rintro (hlexical | hdense)
    · exact .inr ⟨hitem, hlexical⟩
    · exact .inl ⟨hitem, hdense⟩

/-- The fused order is one of the listings that match. -/
theorem fusedOrder_perm (runtime : Runtime Score) (hkeys : (items.map Item.key).Nodup) (now : ℕ)
    (query : Option String) (queryVector : Option (List Score)) :
    (runtime.fusedOrder now query queryVector items).Perm
      (items.filter (runtime.matching now query queryVector)) := by
  refine (combine_perm runtime items _ _).trans (List.Perm.of_eq (List.filter_congr ?_))
  intro item hitem
  rw [Bool.eq_iff_iff]
  exact isSome_rank_iff hkeys hitem now query queryVector

theorem nodup_publicItems {Vector : Type} {store : Store Vector} (hkeyed : Keyed store) (now : ℕ) :
    ((store.publicItems now).map Item.key).Nodup := by
  have hkeys : store.resources.entries.map (fun entry => entry.2.resource.key) =
      store.resources.entries.map Prod.fst := by
    refine List.map_congr_left fun entry hentry => ?_
    exact hkeyed entry.1 entry.2 (store.resources.get_of_mem hentry)
  have hsublist : ((store.publicItems now).map Item.key).Sublist
      (store.resources.entries.map fun entry => entry.2.resource.key) := by
    rw [Store.publicItems, List.map_map]
    have hall : store.resources.entries.map (fun entry => entry.2.resource.key) =
        (store.resources.entries.map Prod.snd).map fun entry => entry.resource.key := by
      rw [List.map_map]
      rfl
    rw [hall]
    exact List.Sublist.map _ List.filter_sublist
  exact hsublist.nodup (hkeys ▸ store.resources.keysNodup)

end X402Facilitator.Catalog
