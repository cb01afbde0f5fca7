import X402Facilitator.Catalog.DiscoveryCache
import X402Facilitator.Catalog.Listings
import X402Facilitator.Library.Sorting

/-!
# What a version tells

The version moves with every write, and reads also depend on what is no write: the time,
vectors that arrive, rows that are loaded, and a restart.  While none of these shows, two
moments of one version answer the same.  Scores are whatever the arithmetic of the runtime
makes of them: as they decay, roundings can exchange two listings.
-/

namespace X402Facilitator.Catalog

open Execution InsertionMap

section Statement

variable {Score : Type} [Arithmetic Score]

/-- Every read answers the same at two moments, with the same answers of the provider. -/
structure SameAnswers (config : Config) (runtime : Runtime Score)
    (s s' : System (List Score)) : Prop where
  getResource : ∀ url toolName,
    s'.store.getResource s'.now url toolName = s.store.getResource s.now url toolName
  listResources : ∀ params,
    s'.store.listResources runtime s'.now params = s.store.listResources runtime s.now params
  search : ∀ provider params,
    s'.store.search config runtime provider s'.now params =
      s.store.search config runtime provider s.now params

/-- Two moments of one version answer the same; so do two between which a response was not
modified; and a tag tells the parameters, up to their hash. -/
structure VersionDetermines (config : Config) (durable : Bool)
    (table : CatalogTable (List Score)) (runtime : Runtime Score) (sha1 : String → String)
    (meets : System (List Score) → Action (List Score) → Prop) : Prop where
  answers : ∀ s s', Reaches (step config durable) anyStep (.init table durable) s →
    Reaches (step config durable) meets s s' → s'.store.version = s.store.version →
    SameAnswers config runtime s s'
  notModified : ∀ s s', Reaches (step config durable) anyStep (.init table durable) s →
    Reaches (step config durable) meets s s' →
    ∀ params header,
      (∀ tag ∈ headerTags header, tag = discoveryETag sha1 s.store.version params) →
      (applyDiscoveryCache sha1 s'.store.version params (some header)).notModified = true →
      SameAnswers config runtime s s'
  apart : ∀ version version' params params',
    canonicalizeDiscoveryParams params ≠ canonicalizeDiscoveryParams params' →
    paramsHash sha1 params ≠ paramsHash sha1 params' →
    discoveryETag sha1 version params ≠ discoveryETag sha1 version' params'

/-- The scores of the stored listings that are public at `now` are compared with zero and
with each other as they are at `later`. -/
structure ScoredAlike (runtime : Runtime Score) (store : Store (List Score))
    (now later : ℕ) : Prop where
  positive : ∀ query key, ∀ entry ∈ store.resources.get key, entry.isExpired now = false →
    (0 < runtime.scoreResource later entry query ↔ 0 < runtime.scoreResource now entry query)
  ordered : ∀ query key other, ∀ first ∈ store.resources.get key,
    ∀ second ∈ store.resources.get other,
    first.isExpired now = false → second.isExpired now = false →
    (runtime.scoreResource later first query ≤ runtime.scoreResource later second query ↔
      runtime.scoreResource now first query ≤ runtime.scoreResource now second query)

/-- What reads see changes with writes alone.  No listing expires as time passes, and the
public ones are scored alike before and after; a vector is written for a listing that is
no longer stored; no row is loaded; and only an untouched store is restarted. -/
def OnlyWrites (runtime : Runtime Score) (s : System (List Score)) :
    Action (List Score) → Prop
  | .wait ms =>
      (∀ key, ∀ entry ∈ s.store.resources.get key,
        entry.isExpired (s.now + ms) = entry.isExpired s.now) ∧
      ScoredAlike runtime s.store s.now (s.now + ms)
  | .embeds id (some _) => ∀ job ∈ s.jobs[id]?, ∀ key, ∀ entry ∈ s.store.resources.get key,
      entry.object ≠ job.entry.object
  | .hydrates => ∀ rows, s.boot = .selected rows → rows = []
  | .restart => s.store.version = 0 ∧ s.store.resources.entries = []
  | _ => True

end Statement

section Scores

variable {Score : Type} [Arithmetic Score] {runtime : Runtime Score}
  {store store' : Store (List Score)} {now later latest : ℕ}

theorem ScoredAlike.refl : ScoredAlike runtime store now now :=
  ⟨fun _ _ _ _ _ => Iff.rfl, fun _ _ _ _ _ _ _ _ _ => Iff.rfl⟩

theorem ScoredAlike.trans (hfirst : ScoredAlike runtime store now later)
    (hsecond : ScoredAlike runtime store' later latest)
    (hresources : store'.resources = store.resources)
    (hexpired : ∀ key, ∀ entry ∈ store.resources.get key,
      entry.isExpired later = entry.isExpired now) : ScoredAlike runtime store now latest := by
  have hkept : ∀ key, ∀ entry ∈ store.resources.get key,
      entry ∈ store'.resources.get key := by
    intro key entry hentry
    rw [hresources]
    exact hentry
  have hpublic : ∀ key, ∀ entry ∈ store.resources.get key, entry.isExpired now = false →
      entry.isExpired later = false := by
    intro key entry hentry hnow
    rw [hexpired key entry hentry, hnow]
  constructor
  · intro query key entry hentry hnow
    have hlater := hsecond.positive query key entry (hkept key entry hentry)
      (hpublic key entry hentry hnow)
    exact hlater.trans (hfirst.positive query key entry hentry hnow)
  · intro query key other first hfound second hother hnow hnow'
    have hlater := hsecond.ordered query key other first (hkept key first hfound) second
      (hkept other second hother) (hpublic key first hfound hnow)
      (hpublic other second hother hnow')
    exact hlater.trans (hfirst.ordered query key other first hfound second hother hnow hnow')

/-- Exact scores decay alike: time alone exchanges no two listings, unless one was last
seen in the future. -/
theorem scoredAlike_of_seen {Score : Type} [Field Score] [LinearOrder Score]
    (runtime : ExactRuntime Score) {store : Store (List Score)} {now : ℕ} (ms : ℕ)
    (hseen : ∀ key, ∀ entry ∈ store.resources.get key, entry.isExpired now = false →
      entry.lastSeenAt ≤ now) : ScoredAlike runtime.toRuntime store now (now + ms) := by
  have := runtime.ordered
  have hdecay := decay_pos runtime ms
  constructor
  · intro query key entry hentry hpublic
    rw [scoreResource_later runtime (hseen key entry hentry hpublic)]
    exact mul_pos_iff_of_pos_right hdecay
  · intro query key other first hfirst second hsecond hpublic hpublic'
    rw [scoreResource_later runtime (hseen key first hfirst hpublic),
      scoreResource_later runtime (hseen other second hsecond hpublic')]
    exact mul_le_mul_iff_left₀ hdecay

end Scores

section Steps

variable {Vector : Type} {config : Config} {durable : Bool} {store store' : Store Vector}
  {s s' s'' : System Vector} {action : Action Vector} {now : ℕ} {entry : Entry}

theorem version_scheduleEmbed (config : Config) (store : Store Vector) (entry : Entry) :
    (store.scheduleEmbed config entry).1.version = store.version := by
  rw [Store.scheduleEmbed]
  repeat' split
  all_goals rfl

theorem version_upsertResource {resource : Resource} {source : String}
    {result : Store Vector × Entry × Scheduling}
    (hupsert : store.upsertResource config now resource source = .ok result) :
    result.1.version = store.version + 1 := by
  rw [Store.upsertResource] at hupsert
  split at hupsert
  · cases hupsert
  · cases hupsert
    exact version_scheduleEmbed config _ _

theorem deleteResource_cases (store : Store Vector) (now : ℕ) (key : String) :
    store.deleteResource now key = store ∨
      (store.deleteResource now key).version = store.version + 1 := by
  rw [Store.deleteResource]
  split
  · exact Or.inl rfl
  · exact Or.inr rfl

theorem version_removeExpired (now : ℕ) (store : Store Vector) (entries : List (String × Entry)) :
    (Store.removeExpired now store entries).version = store.version := by
  induction entries generalizing store with
  | nil => rfl
  | cons entry rest ih =>
      rw [Store.removeExpired, List.foldl_cons]
      split
      · exact ih _
      · exact ih store

theorem pruneExpired_cases (store : Store Vector) (now : ℕ) :
    store.pruneExpired now = store ∨
      (store.pruneExpired now).version = store.version + 1 := by
  by_cases hempty : (store.expiredKeys now).isEmpty = true
  · exact Or.inl (pruneExpired_of_empty store now hempty)
  · rw [Store.pruneExpired, if_neg hempty]
    exact Or.inr (congrArg (· + 1) (version_removeExpired now store _))

theorem startTask_cases (s : System Vector) (command : Command) :
    (s.startTask command).store = s.store ∧ (s.startTask command).now = s.now := by
  rw [System.startTask]
  split <;> exact ⟨rfl, rfl⟩

end Steps

section Moves

variable {Score : Type} [Arithmetic Score] {runtime : Runtime Score} {config : Config}
  {durable : Bool} {s s' s'' : System (List Score)} {action : Action (List Score)}

structure Unchanged (runtime : Runtime Score) (s s' : System (List Score)) : Prop where
  resources : s'.store.resources = s.store.resources
  embeddings : ∀ key, ∀ entry ∈ s.store.resources.get key,
    s'.store.embeddings entry.object = s.store.embeddings entry.object
  expired : ∀ key, ∀ entry ∈ s.store.resources.get key,
    entry.isExpired s'.now = entry.isExpired s.now
  scored : ScoredAlike runtime s.store s.now s'.now

theorem unchanged_of_eq (hstore : s'.store = s.store) (hnow : s'.now = s.now) :
    Unchanged runtime s s' where
  resources := by rw [hstore]
  embeddings := by
    intro key entry _
    rw [hstore]
  expired := by
    intro key entry _
    rw [hnow]
  scored := by
    rw [hnow]
    exact .refl

theorem Unchanged.trans (hfirst : Unchanged runtime s s') (hsecond : Unchanged runtime s' s'') :
    Unchanged runtime s s'' := by
  have hkept : ∀ key, ∀ entry ∈ s.store.resources.get key,
      entry ∈ s'.store.resources.get key := by
    intro key entry hentry
    rw [hfirst.resources]
    exact hentry
  refine ⟨hsecond.resources.trans hfirst.resources, fun key entry hentry => ?_,
    fun key entry hentry => ?_,
    hfirst.scored.trans hsecond.scored hfirst.resources hfirst.expired⟩
  · rw [hsecond.embeddings key entry (hkept key entry hentry), hfirst.embeddings key entry hentry]
  · rw [hsecond.expired key entry (hkept key entry hentry), hfirst.expired key entry hentry]

def Moved (runtime : Runtime Score) (s s' : System (List Score)) : Prop :=
  s.store.version < s'.store.version ∨
    s'.store.version = s.store.version ∧ Unchanged runtime s s'

theorem moved_of_eq (hstore : s'.store = s.store) (hnow : s'.now = s.now) : Moved runtime s s' :=
  Or.inr ⟨by rw [hstore], unchanged_of_eq hstore hnow⟩

theorem Moved.trans (hfirst : Moved runtime s s') (hsecond : Moved runtime s' s'') :
    Moved runtime s s'' := by
  rcases hfirst with hless | ⟨hsame, hunchanged⟩
  · rcases hsecond with hless' | ⟨hsame', -⟩
    · exact Or.inl (Nat.lt_trans hless hless')
    · exact Or.inl (Nat.lt_of_lt_of_eq hless hsame'.symm)
  · rcases hsecond with hless' | ⟨hsame', hunchanged'⟩
    · exact Or.inl (hsame ▸ hless')
    · exact Or.inr ⟨hsame'.trans hsame, hunchanged.trans hunchanged'⟩

/-- A write of memory that is followed by a task at most. -/
theorem moved_of_cases (hnow : s'.now = s.now) (hwrite : s'.store = s.store ∨
    s'.store.version = s.store.version + 1) : Moved runtime s s' := by
  rcases hwrite with hsame | hversion
  · exact moved_of_eq hsame hnow
  · exact Or.inl (Nat.lt_of_lt_of_eq (Nat.lt_succ_self _) hversion.symm)

/-- A vector for a listing that is no longer stored. -/
theorem moved_of_setEmbedding {object : ℕ} {embedding : Embedding (List Score)}
    (hstore : s'.store = s.store.setEmbedding object embedding) (hnow : s'.now = s.now)
    (hstored : ∀ key, ∀ entry ∈ s.store.resources.get key, entry.object ≠ object) :
    Moved runtime s s' := by
  refine Or.inr ⟨?_, ?_, fun key entry hentry => ?_, fun key entry _ => ?_, ?_⟩
  · rw [hstore]
    rfl
  · rw [hstore]
    rfl
  · rw [hstore]
    exact Function.update_of_ne (hstored key entry hentry) _ _
  · rw [hnow]
  · rw [hnow]
    exact .refl

theorem step_moved (hmeets : OnlyWrites runtime s action)
    (hstep : step config durable s action = some s') : Moved runtime s s' := by
  cases steps_of_step hstep with
  | upserts resource source =>
      rw [System.upsert]
      split
      · exact moved_of_eq rfl rfl
      · next store _ hupsert =>
          have hversion : store.version = s.store.version + 1 := version_upsertResource hupsert
          exact moved_of_cases rfl (Or.inr hversion)
      · next store entry scheduling _ hupsert =>
          have hversion : store.version = s.store.version + 1 := version_upsertResource hupsert
          obtain ⟨hstore, hnow⟩ := startTask_cases
            { s with store := store, jobs := s.jobs ++ scheduling.jobs entry } (.persist entry)
          exact moved_of_cases hnow (Or.inr (hstore ▸ hversion))
  | deletes url toolName =>
      rw [System.delete]
      split
      · exact moved_of_eq (startTask_cases s _).1 (startTask_cases s _).2
      · exact moved_of_cases rfl (deleteResource_cases s.store s.now _)
  | prunes =>
      have hpruned := pruneExpired_cases s.store s.now
      rw [System.prune]
      split
      · exact moved_of_cases rfl hpruned
      · obtain ⟨hstore, hnow⟩ := startTask_cases
          { s with store := s.store.pruneExpired s.now } (.erase (s.store.expiredKeys s.now))
        refine moved_of_cases hnow ?_
        rw [hstore]
        exact hpruned
  | imports | importFails | selects | selectFails | sends | executes | fails | endsJob =>
      exact moved_of_eq rfl rfl
  | hydrates hboot =>
      obtain rfl := hmeets _ hboot
      exact moved_of_eq rfl rfl
  | @answers id command htask =>
      cases command with
      | persist entry => exact moved_of_eq rfl rfl
      | erase keys => exact moved_of_eq rfl rfl
      | delete key => exact moved_of_cases rfl (deleteResource_cases s.store s.now key)
  | @embeds id entry fingerprint vector hjob =>
      have hstored := hmeets _ hjob
      obtain ⟨hstore, hnow⟩ := startTask_cases { s with
        store := s.store.setEmbedding entry.object ⟨some vector, some fingerprint⟩ }
        (.persist entry)
      exact moved_of_setEmbedding hstore hnow hstored
  | waits ms =>
      exact Or.inr ⟨rfl, rfl, fun _ _ _ => rfl, hmeets.1, hmeets.2⟩
  | restarts =>
      obtain ⟨hversion, hentries⟩ := hmeets
      have hempty := eq_empty_of_entries hentries
      refine Or.inr ⟨hversion.symm, hempty.symm, ?_, fun _ _ _ => rfl, .refl⟩
      intro key entry hentry
      rw [hempty] at hentry
      cases hentry

theorem reaches_moved (hreach : Reaches (step config durable) (OnlyWrites runtime) s s') :
    Moved runtime s s' :=
  hreach.preserves (fun _ _ _ hmoved hmeets hstep => hmoved.trans (step_moved hmeets hstep))
    (moved_of_eq rfl rfl)

end Moves

section Answers

variable {Score : Type} [Arithmetic Score] {runtime : Runtime Score}
  {s s' : System (List Score)}

theorem getResource_unchanged (hunchanged : Unchanged runtime s s') (url : String)
    (toolName : Option String) :
    s'.store.getResource s'.now url toolName = s.store.getResource s.now url toolName := by
  rw [Store.getResource, Store.getResource, hunchanged.resources]
  cases hget : s.store.resources.get (keyOf url toolName) with
  | none => rfl
  | some entry =>
      simp only [hunchanged.expired _ entry hget, Store.item,
        hunchanged.embeddings _ entry hget]

omit [Arithmetic Score] in
/-- The public listings are stored under some key. -/
theorem stored_of_mem_publicItems {store : Store (List Score)} {now : ℕ}
    {item : Item (List Score)} (hitem : item ∈ store.publicItems now) :
    item.entry.isExpired now = false ∧ ∃ key, item.entry ∈ store.resources.get key := by
  obtain ⟨entry, hentry, rfl⟩ := List.mem_map.mp hitem
  obtain ⟨hmem, hpublic⟩ := List.mem_filter.mp hentry
  obtain ⟨⟨key, found⟩, hstored, rfl⟩ := List.mem_map.mp hmem
  exact ⟨(Bool.not_eq_true' _).mp hpublic, key, store.resources.get_of_mem hstored⟩

theorem publicItems_unchanged (hunchanged : Unchanged runtime s s') :
    s'.store.publicItems s'.now = s.store.publicItems s.now := by
  have hentries : ∀ entry ∈ s.store.resources.entries.map Prod.snd,
      ∃ key, entry ∈ s.store.resources.get key := by
    intro entry hentry
    obtain ⟨⟨key, found⟩, hmem, rfl⟩ := List.mem_map.mp hentry
    exact ⟨key, s.store.resources.get_of_mem hmem⟩
  rw [Store.publicItems, Store.publicItems, hunchanged.resources]
  have hpublic : (s.store.resources.entries.map Prod.snd).filter
      (fun entry => !entry.isExpired s'.now) =
        (s.store.resources.entries.map Prod.snd).filter fun entry => !entry.isExpired s.now := by
    apply List.filter_congr
    intro entry hentry
    obtain ⟨key, hget⟩ := hentries entry hentry
    rw [hunchanged.expired key entry hget]
  rw [hpublic]
  apply List.map_congr_left
  intro entry hentry
  obtain ⟨key, hget⟩ := hentries entry (List.mem_filter.mp hentry).1
  rw [Store.item, Store.item, hunchanged.embeddings key entry hget]

/-- The order of the lexical leg comes of the scores of the listings alone. -/
theorem map_fst_ranked_lexicalScores (now : ℕ) (items : List (Item (List Score)))
    (query : Option String) :
    (ranked (runtime.lexicalScores now items query)).map Prod.fst =
      (items.filter fun item => decide (0 < runtime.scoreResource now item.entry query)).mergeSort
        fun a b => decide (runtime.scoreResource now b.entry query ≤
          runtime.scoreResource now a.entry query) := by
  have hscores : runtime.lexicalScores now items query =
      (items.filter fun item => decide (0 < runtime.scoreResource now item.entry query)).map
        fun item => (item, runtime.scoreResource now item.entry query) := by
    rw [Runtime.lexicalScores, List.filter_map]
    rfl
  have hmap : ranked ((items.filter fun item =>
      decide (0 < runtime.scoreResource now item.entry query)).map
        fun item => (item, runtime.scoreResource now item.entry query)) =
      ((items.filter fun item =>
        decide (0 < runtime.scoreResource now item.entry query)).mergeSort
          fun a b => decide (runtime.scoreResource now b.entry query ≤
            runtime.scoreResource now a.entry query)).map
        fun item => (item, runtime.scoreResource now item.entry query) := by
    refine (List.map_mergeSort fun a _ b _ => ?_).symm
    rfl
  rw [hscores, hmap, List.map_map]
  exact List.map_id _

/-- Listings that are scored alike have one order. -/
theorem ranked_lexicalScores_of_alike {now later : ℕ} {items : List (Item (List Score))}
    {query : Option String}
    (hpositive : ∀ item ∈ items, 0 < runtime.scoreResource later item.entry query ↔
      0 < runtime.scoreResource now item.entry query)
    (hordered : ∀ a ∈ items, ∀ b ∈ items,
      runtime.scoreResource later b.entry query ≤ runtime.scoreResource later a.entry query ↔
        runtime.scoreResource now b.entry query ≤ runtime.scoreResource now a.entry query) :
    (ranked (runtime.lexicalScores later items query)).map Prod.fst =
      (ranked (runtime.lexicalScores now items query)).map Prod.fst := by
  have hfilter : (items.filter fun item =>
      decide (0 < runtime.scoreResource later item.entry query)) =
        items.filter fun item => decide (0 < runtime.scoreResource now item.entry query) :=
    List.filter_congr fun item hitem => decide_eq_decide.mpr (hpositive item hitem)
  rw [map_fst_ranked_lexicalScores, map_fst_ranked_lexicalScores, hfilter]
  apply mergeSort_congr
  intro a ha b hb
  exact decide_eq_decide.mpr (hordered a (List.mem_filter.mp ha).1 b (List.mem_filter.mp hb).1)

/-- A search among listings that are scored alike sees no time pass. -/
theorem searchItems_of_scoredAlike {store : Store (List Score)} {now later : ℕ}
    (halike : ScoredAlike runtime store now later) (config : Config)
    (provider : Provider Score) (params : Params) :
    runtime.searchItems config provider later params (store.publicItems now) =
      runtime.searchItems config provider now params (store.publicItems now) := by
  have hstored : ∀ item ∈ applyCommonFilters (store.publicItems now) params,
      item.entry.isExpired now = false ∧ ∃ key, item.entry ∈ store.resources.get key :=
    fun item hitem => stored_of_mem_publicItems (List.mem_filter.mp hitem).1
  have hlexical := @ranked_lexicalScores_of_alike _ _ runtime now later
    (applyCommonFilters (store.publicItems now) params) params.query
    (by
      intro item hitem
      obtain ⟨hpublic, key, hkey⟩ := hstored item hitem
      exact halike.positive params.query key item.entry hkey hpublic)
    (by
      intro a ha b hb
      obtain ⟨hpublic, key, hkey⟩ := hstored a ha
      obtain ⟨hpublic', other, hother⟩ := hstored b hb
      exact halike.ordered params.query other key b.entry hother a.entry hkey hpublic' hpublic)
  rw [Runtime.searchItems, Runtime.searchItems, hlexical]

theorem sameAnswers_unchanged (config : Config) (hunchanged : Unchanged runtime s s') :
    SameAnswers config runtime s s' := by
  have hitems := publicItems_unchanged hunchanged
  refine ⟨getResource_unchanged hunchanged, fun params => ?_, fun provider params => ?_⟩
  · rw [Store.listResources, Store.listResources, hitems]
  · rw [Store.search, Store.search, hitems]
    exact searchItems_of_scoredAlike hunchanged.scored config provider params

end Answers

variable {Score : Type} [Arithmetic Score]

/-- As long as reads change with writes alone, the version determines every answer,
whatever the arithmetic. -/
theorem versionDetermines_onlyWrites (config : Config) (durable : Bool)
    (table : CatalogTable (List Score)) (runtime : Runtime Score) (sha1 : String → String) :
    VersionDetermines config durable table runtime sha1 (OnlyWrites runtime) := by
  have hanswers : ∀ s s' : System (List Score),
      Reaches (step config durable) (OnlyWrites runtime) s s' →
      s'.store.version = s.store.version → SameAnswers config runtime s s' := by
    intro s s' hreach hversion
    rcases reaches_moved hreach with hless | ⟨-, hunchanged⟩
    · exact absurd hversion.symm (Nat.ne_of_lt hless)
    · exact sameAnswers_unchanged config hunchanged
  refine ⟨fun s s' _ => hanswers s s', fun s s' _ hreach params header htags hmatch => ?_,
    fun version version' params params' _ hhash heq => hhash (discoveryETag_injective heq).2⟩
  obtain ⟨found, hfound, hmem⟩ := etag_mem_of_notModified hmatch
  cases hfound
  exact hanswers s s' hreach (discoveryETag_injective (htags _ hmem)).1

def verified : List (Action (List ℚ)) := [.upsert (listingOf "seller") "verify"]

/-- The listing has expired, and the version is what it was. -/
theorem not_versionDetermines_anyStep :
    ¬ ∃ (runtime : Runtime ℚ) (sha1 : String → String),
      VersionDetermines smallCatalog false .empty runtime sha1 anyStep := by
  rintro ⟨_, _, hdetermines⟩
  have hverified : (run (step smallCatalog false) (.init .empty false) verified).map
      (fun s => (s.store.version,
        (s.store.getResource s.now "https://api.example" none).isSome)) =
          some (1, true) := by decide +kernel
  have hexpired : (run (step smallCatalog false) (.init .empty false)
      (verified ++ [.wait 1000])).map (fun s => (s.store.version,
        (s.store.getResource s.now "https://api.example" none).isSome)) =
          some (1, false) := by decide +kernel
  obtain ⟨s, s', hreach, hreach', hs, hs'⟩ := exists_reaches_of_run_append hverified hexpired
  obtain ⟨hversion, hsome⟩ := Prod.mk.inj hs
  obtain ⟨hversion', hnone⟩ := Prod.mk.inj hs'
  have hanswers := hdetermines.answers s s' hreach hreach' (hversion'.trans hversion.symm)
  rw [hanswers.getResource, hsome] at hnone
  cases hnone

end X402Facilitator.Catalog
