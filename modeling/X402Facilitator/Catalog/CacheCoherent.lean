import X402Facilitator.Catalog.SearchCache

/-!
# Coherence of the search cache

What the tiers hold was computed from the content of the version in its key, as long as a
version has one content on all replicas and a store is not written between the start of a
load and its search.  A retired generation is not answered from a tier, as long as no
load that may still fill one is under way when the invalidation arrives.
-/

namespace X402Facilitator.Catalog

open Execution InsertionMap

variable {R Content Result : Type}

section Statement

/-- An answer from a tier was computed from what the store held when the caller came, and
no invalidation that has arrived retired its generation. -/
def Answer.Coherent (answer : Answer Content Result) : Prop :=
  answer.tier ≠ .store → answer.found.origin = answer.content ∧ answer.retired = false

def CacheCoherent [DecidableEq R] (config : CacheConfig)
    (storeSearch : Content → Params → Option Result)
    (meets : World R Content Result → CacheAction R Content → Prop) : Prop :=
  ∀ s, Reaches (cacheStep config storeSearch) meets .init s → ∀ answer ∈ s.answers, answer.Coherent

/-- The load has not had the store search yet, and may come to it. -/
def Phase.mayAskStore : Phase Content Result → Bool
  | .asking | .told none => true
  | _ => false

/-- The load may still fill a tier or be answered from one. -/
def Phase.usesTiers : Phase Content Result → Bool
  | .answering .store _ => false
  | _ => true

/-- A version comes with the content that it had before, on any replica; a store is not
written while a live load is to search it, nor is an invalidation received while a live
load of an older generation uses the tiers; and no announced version is ahead of the
store. -/
def GenerationsAgree (s : World R Content Result) : CacheAction R Content → Prop
  | .starts _ content => ∀ other, (0, other) ∈ s.generations → other = content
  | .stores r content => ∀ replica ∈ s.replicas r,
      (∀ other, (replica.version + 1, other) ∈ s.generations → other = content) ∧
        ∀ key, ∀ call ∈ replica.inflight.get key, call.live = true →
          call.phase.mayAskStore = false
  | .receives r version => ∀ replica ∈ s.replicas r, ∀ key, ∀ call ∈ replica.inflight.get key,
      call.live = true → call.phase.usesTiers = true → version ≤ call.version
  | .invalidates r (some version) _ => ∀ replica ∈ s.replicas r, version ≤ replica.version
  | _ => True

end Statement

variable {config : CacheConfig} {storeSearch : Content → Params → Option Result}
  {s s' : World R Content Result} {action : CacheAction R Content}
  {generations generations' : List (ℕ × Content)} {replica : Replica Content Result}
  {call : Call Content Result} {found : Found Content Result} {key other : String} {r : R}
  {params : Params} {usable : Bool} {now version : ℕ}

theorem toList_keyFor (toLowerCase : String → String) (params : Params) (version : ℕ) :
    (keyFor toLowerCase params version).toList =
      (keyPrefix ++ ":v").toList ++ (Nat.toDigits 10 version ++
        ':' :: (searchCacheKey toLowerCase params).toList) := by
  have hcolon : ":".toList = [':'] := rfl
  rw [keyFor, String.toList_append, String.toList_append, String.toList_append,
    Text.toList_toString, hcolon]
  simp only [List.append_assoc, List.cons_append, List.nil_append]

/-- A key tells its version. -/
theorem keyFor_injective {toLowerCase : String → String} {params params' : Params}
    {version version' : ℕ}
    (heq : keyFor toLowerCase params version = keyFor toLowerCase params' version') :
    version = version' := by
  have hchars := congrArg String.toList heq
  rw [toList_keyFor, toList_keyFor] at hchars
  obtain ⟨hversion, -⟩ := Text.toDigits_append_injective (by decide)
    (List.append_cancel_left hchars)
  exact hversion

section LruTtlCache

variable {Value : Type} {cache : LruTtlCache Value} {value : Value} {timed : Timed Value}

theorem get_of_read (hget : InsertionMap.get (cache.read now key).2 other = some timed) :
    InsertionMap.get cache other = some timed := by
  rw [LruTtlCache.read] at hget
  split at hget
  · exact hget
  · next found hfound =>
      split at hget
      · rw [get_erase] at hget
        split at hget
        · cases hget
        · exact hget
      · rcases get_set_cases hget with ⟨rfl, rfl⟩ | ⟨hne, hold⟩
        · exact hfound
        · rw [get_erase_of_ne _ hne] at hold
          exact hold

theorem value_of_read (hread : (cache.read now key).1 = some value) :
    ∃ timed, InsertionMap.get cache key = some timed ∧ timed.value = value := by
  rw [LruTtlCache.read] at hread
  split at hread
  · cases hread
  · next found hfound =>
      split at hread
      · cases hread
      · exact ⟨found, hfound, Option.some.inj hread⟩

theorem get_of_write
    (hget : InsertionMap.get (cache.write config now key value) other = some timed) :
    (other = key ∧ timed.value = value) ∨ InsertionMap.get cache other = some timed := by
  rcases get_set_cases (get_of_keepLast hget) with ⟨rfl, rfl⟩ | ⟨hne, hold⟩
  · exact Or.inl ⟨rfl, rfl⟩
  · rw [get_erase_of_ne _ hne] at hold
    exact Or.inr hold

end LruTtlCache

def Filed (config : CacheConfig) (generations : List (ℕ × Content)) (key : String)
    (found : Found Content Result) : Prop :=
  ∃ params version, key = keyFor config.toLowerCase params version ∧
    (version, found.origin) ∈ generations

theorem Filed.origin_mem (hfiled : Filed config generations key found)
    (hkey : key = keyFor config.toLowerCase params version) :
    (version, found.origin) ∈ generations := by
  obtain ⟨_, _, hother, hmem⟩ := hfiled
  rw [keyFor_injective (hkey.symm.trans hother)]
  exact hmem

def EntrySound (config : CacheConfig) (generations : List (ℕ × Content)) (current received : ℕ)
    (key : String) (found : Found Content Result) : Prop :=
  ∃ params version, key = keyFor config.toLowerCase params version ∧ version ≤ current ∧
    (version, found.origin) ∈ generations ∧ (version = current → received ≤ version)

def PhaseSound (generations : List (ℕ × Content)) (current version : ℕ) (live : Bool) :
    Phase Content Result → Prop
  | .asking | .told none => live = true ∧ version = current
  | .told (some found) | .answering .l2 found | .answering .l1 found =>
      live = true ∧ (version, found.origin) ∈ generations
  | .searching (some found) => live = true → (version, found.origin) ∈ generations
  | .searching none | .answering .store _ => True

structure CallSound (config : CacheConfig) (generations : List (ℕ × Content))
    (current received : ℕ) (key : String) (call : Call Content Result) : Prop where
  key : key = keyFor config.toLowerCase call.params call.version
  past : call.version ≤ current
  callers : ∀ content ∈ call.callers, (call.version, content) ∈ generations
  unretired : call.live = true → call.phase.usesTiers = true → received ≤ call.version
  phase : PhaseSound generations current call.version call.live call.phase

structure ReplicaSound (config : CacheConfig) (generations : List (ℕ × Content))
    (replica : Replica Content Result) : Prop where
  current : (replica.version, replica.content) ∈ generations
  floor : replica.received ≤ replica.minValidVersion
  ceiling : replica.minValidVersion ≤ max replica.version replica.received
  l1 : ∀ key timed, InsertionMap.get replica.l1 key = some timed →
    EntrySound config generations replica.version replica.received key timed.value
  calls : ∀ key call, replica.inflight.get key = some call →
    CallSound config generations replica.version replica.received key call

variable {current : ℕ} {live : Bool} {content : Content} {shared : Option (Found Content Result)}

theorem PhaseSound.mono {phase : Phase Content Result} (hsub : generations ⊆ generations')
    (hs : PhaseSound generations current version live phase) :
    PhaseSound generations' current version live phase := by
  unfold PhaseSound at hs ⊢
  split at hs
  · exact hs
  · exact hs
  · exact ⟨hs.1, hsub hs.2⟩
  · exact ⟨hs.1, hsub hs.2⟩
  · exact ⟨hs.1, hsub hs.2⟩
  · exact fun hlive => hsub (hs hlive)
  · trivial
  · trivial

theorem ReplicaSound.mono (hsub : generations ⊆ generations')
    (hs : ReplicaSound config generations replica) : ReplicaSound config generations' replica := by
  refine ⟨hsub hs.current, hs.floor, hs.ceiling, fun key timed hget => ?_, fun key call hget => ?_⟩
  · obtain ⟨params, version, hkey, hpast, hmem, hunretired⟩ := hs.l1 key timed hget
    exact ⟨params, version, hkey, hpast, hsub hmem, hunretired⟩
  · obtain ⟨hkey, hpast, hcallers, hunretired, hphase⟩ := hs.calls key call hget
    exact ⟨hkey, hpast, fun content hcontent => hsub (hcallers content hcontent), hunretired,
      hphase.mono hsub⟩

theorem sound_start (hmem : (0, content) ∈ generations) :
    ReplicaSound config generations (Replica.start content : Replica Content Result) := by
  refine ⟨hmem, Nat.le_refl _, Nat.zero_le _, fun key timed hget => ?_, fun key call hget => ?_⟩
  · cases hget
  · cases hget

/-- After a write all that is cached, or will be, belongs to past versions. -/
theorem sound_store (hs : ReplicaSound config generations replica)
    (hmem : (replica.version + 1, content) ∈ generations)
    (hsearched : ∀ key, ∀ call ∈ replica.inflight.get key, call.live = true →
      call.phase.mayAskStore = false) :
    ReplicaSound config generations (replica.store content) := by
  refine ⟨hmem, hs.floor, ?_, fun key timed hget => ?_, fun key call hget => ?_⟩
  · exact Nat.le_trans hs.ceiling (max_le_max_right _ (Nat.le_succ _))
  · obtain ⟨params, version, hkey, hpast, hfiled, -⟩ := hs.l1 key timed hget
    refine ⟨params, version, hkey, Nat.le_succ_of_le hpast, hfiled, fun hcurrent => ?_⟩
    exact absurd hcurrent (Nat.ne_of_lt (Nat.lt_succ_of_le hpast))
  · obtain ⟨hkey, hpast, hcallers, hunretired, hphase⟩ := hs.calls key call hget
    refine ⟨hkey, Nat.le_succ_of_le hpast, hcallers, hunretired, ?_⟩
    have hasks := hsearched key call hget
    unfold PhaseSound at hphase ⊢
    unfold Phase.mayAskStore at hasks
    split at hphase <;> simp_all

theorem sound_observe (hs : ReplicaSound config generations replica) :
    ReplicaSound config generations replica.observe := by
  rw [Replica.observe]
  split
  · exact hs
  · refine ⟨hs.current, Nat.le_trans hs.floor (Nat.le_max_left _ _),
      max_le hs.ceiling (Nat.le_max_left _ _), fun key timed hget => ?_, hs.calls⟩
    cases hget

theorem sound_read (hs : ReplicaSound config generations replica) (key : String) :
    ReplicaSound config generations
      { replica with l1 := (replica.l1.read replica.now key).2 } :=
  ⟨hs.current, hs.floor, hs.ceiling, fun other timed hget => hs.l1 other timed (get_of_read hget),
    hs.calls⟩

theorem sound_setCall (hs : ReplicaSound config generations replica)
    (hcall : CallSound config generations replica.version replica.received key call) :
    ReplicaSound config generations (replica.setCall key call) := by
  refine ⟨hs.current, hs.floor, hs.ceiling, hs.l1, fun other found hget => ?_⟩
  rcases get_set_cases hget with ⟨rfl, rfl⟩ | ⟨-, hold⟩
  · exact hcall
  · exact hs.calls other found hold

theorem sound_endCall (hs : ReplicaSound config generations replica) (key : String) :
    ReplicaSound config generations (replica.endCall key) := by
  refine ⟨hs.current, hs.floor, hs.ceiling, hs.l1, fun other call hget => ?_⟩
  change (replica.inflight.erase key).get other = some call at hget
  rw [get_erase] at hget
  split at hget
  · cases hget
  · exact hs.calls other call hget

theorem sound_setL1 (hs : ReplicaSound config generations replica)
    (hentry : EntrySound config generations replica.version replica.received key found) :
    ReplicaSound config generations (replica.setL1 config key found) := by
  refine ⟨hs.current, hs.floor, hs.ceiling, fun other timed hget => ?_, hs.calls⟩
  rcases get_of_write hget with ⟨rfl, hvalue⟩ | hold
  · rw [hvalue]
    exact hentry
  · exact hs.l1 other timed hold

/-- A live load may file what belongs to its version. -/
theorem CallSound.entrySound {received : ℕ}
    (hcall : CallSound config generations current received key call) (hlive : call.live = true)
    (huses : call.phase.usesTiers = true) (hmem : (call.version, found.origin) ∈ generations) :
    EntrySound config generations current received key found :=
  ⟨call.params, call.version, hcall.key, hcall.past, hmem, fun _ => hcall.unretired hlive huses⟩

theorem origin_searchStore (hfound : replica.searchStore storeSearch params = some found) :
    found.origin = replica.content := by
  obtain ⟨result, -, rfl⟩ := Option.map_eq_some_iff.mp hfound
  rfl

/-- A load whose store search sees the content of its version. -/
theorem phaseSound_searching (hcontent : (version, replica.content) ∈ generations) :
    PhaseSound generations current version live
      (.searching (replica.searchStore storeSearch params)) := by
  cases hfound : replica.searchStore storeSearch params with
  | none => trivial
  | some found =>
      intro _
      rw [origin_searchStore hfound]
      exact hcontent

theorem callSound_load (hs : ReplicaSound config generations replica) (params : Params)
    (usable : Bool) :
    CallSound config generations replica.version replica.received
      (keyFor config.toLowerCase params replica.version)
      (replica.load storeSearch params usable) := by
  refine ⟨rfl, Nat.le_refl _, fun content hcontent => ?_, fun hlive _ => ?_, ?_⟩
  · rw [List.mem_singleton.mp hcontent]
    exact hs.current
  · exact Nat.le_trans hs.floor (of_decide_eq_true hlive)
  · simp only [Replica.load]
    by_cases hlive : replica.minValidVersion ≤ replica.version
    · cases usable <;> simp [PhaseSound, hlive]
    · simp only [hlive, decide_false, Bool.false_eq_true, if_false]
      exact phaseSound_searching hs.current

theorem callSound_join (hs : ReplicaSound config generations replica)
    (hcall : CallSound config generations replica.version replica.received key call)
    (hkey : key = keyFor config.toLowerCase params replica.version) :
    CallSound config generations replica.version replica.received key
      { call with callers := call.callers ++ [replica.content] } := by
  have hversion : call.version = replica.version :=
    keyFor_injective (hcall.key.symm.trans hkey)
  refine ⟨hcall.key, hcall.past, fun content hcontent => ?_, hcall.unretired, hcall.phase⟩
  rcases List.mem_append.mp hcontent with hbefore | hnew
  · exact hcall.callers content hbefore
  · rw [List.mem_singleton.mp hnew]
    exact hversion ▸ hs.current

theorem sound_join (hs : ReplicaSound config generations replica) (params : Params)
    (usable : Bool) :
    ReplicaSound config generations (replica.join storeSearch
      (keyFor config.toLowerCase params replica.version) params usable) := by
  rw [Replica.join]
  split
  · next call hget => exact sound_setCall hs (callSound_join hs (hs.calls _ call hget) rfl)
  · exact sound_setCall hs (callSound_load hs params usable)

/-- A caller is answered from the first tier with what its version has. -/
theorem coherent_read (hs : ReplicaSound config generations replica)
    (hfunctional : ∀ version content content', (version, content) ∈ generations →
      (version, content') ∈ generations → content = content')
    (hread : (replica.l1.read replica.now
      (keyFor config.toLowerCase params replica.version)).1 = some found) :
    Answer.Coherent ⟨replica.content, .l1, found, decide (replica.version < replica.received)⟩ := by
  obtain ⟨timed, hget, rfl⟩ := value_of_read hread
  obtain ⟨_, version, hkey, -, hmem, hunretired⟩ := hs.l1 _ timed hget
  obtain rfl := keyFor_injective hkey
  intro _
  exact ⟨hfunctional _ _ _ hmem hs.current, decide_eq_false (Nat.not_lt.mpr (hunretired rfl))⟩

theorem sound_search (hs : ReplicaSound config generations replica)
    (hfunctional : ∀ version content content', (version, content) ∈ generations →
      (version, content') ∈ generations → content = content')
    (params : Params) (usable : Bool) :
    ReplicaSound config generations (replica.search config storeSearch params usable).1 ∧
      ∀ answer ∈ (replica.search config storeSearch params usable).2, answer.Coherent := by
  have hobserved := sound_observe hs
  have hread := sound_read hobserved (keyFor config.toLowerCase params replica.observe.version)
  rw [Replica.search]
  split
  · next found l1 hfound =>
      refine ⟨?_, fun answer hanswer => ?_⟩
      · rw [hfound] at hread
        exact hread
      · rw [List.mem_singleton.mp hanswer]
        exact coherent_read hobserved hfunctional (congrArg Prod.fst hfound)
  · next l1 hmiss =>
      refine ⟨?_, fun answer hanswer => by cases hanswer⟩
      rw [hmiss] at hread
      exact sound_join hread params usable

theorem sound_told (hs : ReplicaSound config generations replica)
    (hget : replica.inflight.get key = some call) (hphase : call.phase = .asking)
    (hshared : ∀ found ∈ shared, Filed config generations key found) :
    ReplicaSound config generations
      (replica.setCall key { call with phase := .told shared }) := by
  have hcall := hs.calls key call hget
  have huses : call.phase.usesTiers = true := by
    rw [hphase]
    rfl
  obtain ⟨hlive, hversion⟩ := hphase ▸ hcall.phase
  refine sound_setCall hs ⟨hcall.key, hcall.past, hcall.callers,
    fun _ _ => hcall.unretired hlive huses, ?_⟩
  cases shared with
  | none => exact ⟨hlive, hversion⟩
  | some found => exact ⟨hlive, (hshared found rfl).origin_mem hcall.key⟩

theorem sound_resume (hs : ReplicaSound config generations replica)
    (hget : replica.inflight.get key = some call) (hphase : call.phase = .told shared) :
    ReplicaSound config generations (replica.resume config storeSearch key call shared) := by
  have hcall := hs.calls key call hget
  have huses : call.phase.usesTiers = true := by
    rw [hphase]
    rfl
  have hsound := hcall.phase
  rw [hphase] at hsound
  cases shared with
  | some found =>
      obtain ⟨hlive, hmem⟩ := hsound
      have hset := sound_setL1 hs (hcall.entrySound hlive huses hmem)
      exact sound_setCall hset ⟨hcall.key, hcall.past, hcall.callers,
        fun _ _ => hcall.unretired hlive huses, hlive, hmem⟩
  | none =>
      obtain ⟨hlive, hversion⟩ := hsound
      refine sound_setCall hs ⟨hcall.key, hcall.past, hcall.callers,
        fun _ _ => hcall.unretired hlive huses, phaseSound_searching ?_⟩
      exact hversion ▸ hs.current

theorem sound_cache (hs : ReplicaSound config generations replica)
    (hget : replica.inflight.get key = some call) (hphase : call.phase = .searching (some found)) :
    ReplicaSound config generations (replica.cache config key call found) ∧
      (call.live = true → Filed config generations key found) := by
  have hcall := hs.calls key call hget
  have huses : call.phase.usesTiers = true := by
    rw [hphase]
    rfl
  have hmem : call.live = true → (call.version, found.origin) ∈ generations := by
    have hsound := hcall.phase
    rw [hphase] at hsound
    exact hsound
  have hanswering : CallSound config generations replica.version replica.received key
      { call with phase := .answering .store found } :=
    ⟨hcall.key, hcall.past, hcall.callers, (fun _ huses => by cases huses), trivial⟩
  refine ⟨?_, fun hlive => ⟨call.params, call.version, hcall.key, hmem hlive⟩⟩
  rw [Replica.cache]
  split
  · next hlive =>
      have hset := sound_setL1 hs (hcall.entrySound hlive huses (hmem hlive))
      exact sound_setCall hset hanswering
  · exact sound_setCall hs hanswering

theorem sound_invalidate (hs : ReplicaSound config generations replica)
    (hversion : version ≤ replica.version) :
    ReplicaSound config generations (replica.invalidate version) := by
  refine ⟨hs.current, Nat.le_trans hs.floor (Nat.le_max_left _ _),
    max_le hs.ceiling (Nat.le_trans hversion (Nat.le_max_left _ _)), fun key timed hget => ?_,
    hs.calls⟩
  cases hget

/-- An invalidation retires no load that uses the tiers, and leaves no entry it retires. -/
theorem sound_onMessage (hs : ReplicaSound config generations replica)
    (hloads : ∀ key, ∀ call ∈ replica.inflight.get key, call.live = true →
      call.phase.usesTiers = true → version ≤ call.version) :
    ReplicaSound config generations (replica.onMessage version) := by
  have hcalls : ∀ key call, replica.inflight.get key = some call →
      CallSound config generations replica.version (max replica.received version) key call := by
    intro key call hget
    obtain ⟨hkey, hpast, hcallers, hunretired, hphase⟩ := hs.calls key call hget
    refine ⟨hkey, hpast, hcallers, fun hlive huses => ?_, hphase⟩
    exact max_le (hunretired hlive huses) (hloads key call hget hlive huses)
  have hfloor := hs.floor
  have hceiling := hs.ceiling
  rw [Replica.onMessage]
  split
  · next hknown =>
      refine ⟨hs.current, max_le hfloor hknown, ?_, fun key timed hget => ?_, hcalls⟩
      · change replica.minValidVersion ≤ max replica.version (max replica.received version)
        omega
      · obtain ⟨params, filed, hkey, hpast, hmem, hunretired⟩ := hs.l1 key timed hget
        refine ⟨params, filed, hkey, hpast, hmem, fun hcurrent => ?_⟩
        have hreceived := hunretired hcurrent
        change max replica.received version ≤ filed
        change filed = replica.version at hcurrent
        omega
  · next hnew =>
      refine ⟨hs.current, ?_, ?_, fun key timed hget => ?_, hcalls⟩
      · change max replica.received version ≤ version
        omega
      · change version ≤ max replica.version (max replica.received version)
        omega
      · cases hget

/-- The answers at the end of a load. -/
theorem coherent_answers (hs : ReplicaSound config generations replica)
    (hfunctional : ∀ version content content', (version, content) ∈ generations →
      (version, content') ∈ generations → content = content')
    {tier : Tier} (hget : replica.inflight.get key = some call)
    (hphase : call.phase = .answering tier found) :
    ∀ answer ∈ replica.answers call tier found, answer.Coherent := by
  intro answer hanswer
  obtain ⟨content, hcontent, rfl⟩ := List.mem_map.mp hanswer
  intro htier
  have hcall := hs.calls key call hget
  have hsound := hcall.phase
  have hunretired := hcall.unretired
  rw [hphase] at hsound hunretired
  have htiers : call.live = true ∧ (call.version, found.origin) ∈ generations ∧
      replica.received ≤ call.version := by
    cases tier with
    | l1 | l2 => exact ⟨hsound.1, hsound.2, hunretired hsound.1 rfl⟩
    | store => exact absurd rfl htier
  obtain ⟨-, hmem, hreceived⟩ := htiers
  exact ⟨hfunctional _ _ _ hmem (hcall.callers content hcontent),
    decide_eq_false (Nat.not_lt.mpr hreceived)⟩

structure WorldSound (config : CacheConfig) (s : World R Content Result) : Prop where
  functional : ∀ version content content', (version, content) ∈ s.generations →
    (version, content') ∈ s.generations → content = content'
  replicas : ∀ r replica, s.replicas r = some replica →
    ReplicaSound config s.generations replica
  l2 : ∀ key found, s.l2.get key = some found → Filed config s.generations key found
  sets : ∀ set ∈ s.sets, Filed config s.generations set.1 set.2
  answers : ∀ answer ∈ s.answers, answer.Coherent

theorem WorldSound.record (hs : WorldSound config s) {answers : List (Answer Content Result)}
    (hanswers : ∀ answer ∈ answers, answer.Coherent) : WorldSound config (s.record answers) := by
  refine ⟨hs.functional, hs.replicas, hs.l2, hs.sets, fun answer hanswer => ?_⟩
  rcases List.mem_append.mp hanswer with hbefore | hnew
  · exact hs.answers answer hbefore
  · exact hanswers answer hnew

theorem WorldSound.send (hs : WorldSound config s)
    (hfiled : usable = true → Filed config s.generations key found) :
    WorldSound config (s.send usable key found) := by
  rw [World.send]
  split
  · next husable =>
      refine ⟨hs.functional, hs.replicas, hs.l2, fun set hset => ?_, hs.answers⟩
      rcases List.mem_append.mp hset with hbefore | hnew
      · exact hs.sets set hbefore
      · rw [List.mem_singleton.mp hnew]
        exact hfiled husable
  · exact hs

theorem call_eq_some {result : Replica Content Result × Call Content Result}
    (hcall : s.call r key = some result) :
    s.replicas r = some result.1 ∧ result.1.inflight.get key = some result.2 := by
  obtain ⟨replica, hreplica, hget⟩ := Option.bind_eq_some_iff.mp hcall
  obtain ⟨call, hfound, rfl⟩ := Option.map_eq_some_iff.mp hget
  exact ⟨hreplica, hfound⟩

theorem sound_init (config : CacheConfig) :
    WorldSound config (World.init : World R Content Result) := by
  refine ⟨fun version content content' hcontent => ?_, fun r replica hreplica => ?_,
    fun key found hget => ?_, fun set hset => ?_, fun answer hanswer => ?_⟩
  · cases hcontent
  · cases hreplica
  · cases hget
  · cases hset
  · cases hanswer

variable [DecidableEq R]

theorem WorldSound.setReplica (hs : WorldSound config s) (r : R)
    (hreplica : ReplicaSound config s.generations replica) :
    WorldSound config (s.setReplica r replica) := by
  refine ⟨hs.functional, fun other found hfound => ?_, hs.l2, hs.sets, hs.answers⟩
  rcases update_cases hfound with ⟨-, hsame⟩ | ⟨-, hold⟩
  · cases hsame
    exact hreplica
  · exact hs.replicas other found hold

/-- A version that no replica had, or that had this content, comes to a replica. -/
theorem WorldSound.setStore (hs : WorldSound config s) (r : R)
    (hagrees : ∀ other, (replica.version, other) ∈ s.generations → other = replica.content)
    (hreplica : ReplicaSound config (s.generations ++ [(replica.version, replica.content)])
      replica) : WorldSound config (s.setStore r replica) := by
  have hsub : s.generations ⊆ s.generations ++ [(replica.version, replica.content)] :=
    List.subset_append_left _ _
  have hfiled : ∀ {key : String} {found : Found Content Result},
      Filed config s.generations key found →
        Filed config (s.generations ++ [(replica.version, replica.content)]) key found := by
    rintro key found ⟨params, version, hkey, hmem⟩
    exact ⟨params, version, hkey, hsub hmem⟩
  refine ⟨fun version content content' hcontent hcontent' => ?_, fun other found hfound => ?_,
    fun key found hget => hfiled (hs.l2 key found hget),
    fun set hset => hfiled (hs.sets set hset), hs.answers⟩
  · rcases List.mem_append.mp hcontent with hbefore | hnew
    · rcases List.mem_append.mp hcontent' with hbefore' | hnew'
      · exact hs.functional version content content' hbefore hbefore'
      · cases List.mem_singleton.mp hnew'
        exact hagrees content hbefore
    · cases List.mem_singleton.mp hnew
      rcases List.mem_append.mp hcontent' with hbefore' | hnew'
      · exact (hagrees content' hbefore').symm
      · cases List.mem_singleton.mp hnew'
        rfl
  · rcases update_cases hfound with ⟨-, hsame⟩ | ⟨-, hold⟩
    · cases hsame
      exact hreplica
    · exact (hs.replicas other found hold).mono hsub

/-- What all replicas share is filed under its version, and no answer is incoherent. -/
theorem sound_step (hs : WorldSound config s) (hmeets : GenerationsAgree s action)
    (hstep : cacheStep config storeSearch s action = some s') : WorldSound config s' := by
  cases action with
  | starts r content =>
      simp only [cacheStep] at hstep
      split at hstep
      · cases hstep
        refine hs.setStore r hmeets (sound_start ?_)
        exact List.mem_append_right _ List.mem_cons_self
      · cases hstep
  | stores r content =>
      obtain ⟨replica, hreplica, rfl⟩ := Option.map_eq_some_iff.mp hstep
      obtain ⟨hagrees, hsearched⟩ := hmeets replica hreplica
      have hbefore := (hs.replicas r replica hreplica).mono
        (List.subset_append_left s.generations [(replica.version + 1, content)])
      refine hs.setStore r hagrees (sound_store hbefore ?_ hsearched)
      exact List.mem_append_right _ List.mem_cons_self
  | searches r params usable =>
      obtain ⟨replica, hreplica, rfl⟩ := Option.map_eq_some_iff.mp hstep
      obtain ⟨hsound, hanswers⟩ :=
        sound_search (hs.replicas r replica hreplica) hs.functional params usable
      exact (hs.setReplica r hsound).record hanswers
  | gets r key =>
      simp only [cacheStep] at hstep
      split at hstep
      · cases hstep
      · next replica call hcall =>
          obtain ⟨hreplica, hget⟩ := call_eq_some hcall
          split at hstep
          · next hphase =>
              cases hstep
              have hsound := hs.replicas r replica hreplica
              exact hs.setReplica r (sound_told hsound hget hphase fun found => hs.l2 key found)
          · cases hstep
  | missesGet r key =>
      simp only [cacheStep] at hstep
      split at hstep
      · cases hstep
      · next replica call hcall =>
          obtain ⟨hreplica, hget⟩ := call_eq_some hcall
          split at hstep
          · next hphase =>
              cases hstep
              have hsound := hs.replicas r replica hreplica
              exact hs.setReplica r (sound_told hsound hget hphase (by simp))
          · cases hstep
  | resumes r key =>
      simp only [cacheStep] at hstep
      split at hstep
      · cases hstep
      · next replica call hcall =>
          obtain ⟨hreplica, hget⟩ := call_eq_some hcall
          split at hstep
          · next shared hphase =>
              cases hstep
              have hsound := hs.replicas r replica hreplica
              exact hs.setReplica r (sound_resume hsound hget hphase)
          · cases hstep
  | finds r key usable =>
      simp only [cacheStep] at hstep
      split at hstep
      · cases hstep
      · next replica call hcall =>
          obtain ⟨hreplica, hget⟩ := call_eq_some hcall
          have hsound := hs.replicas r replica hreplica
          split at hstep
          · cases hstep
            exact hs.setReplica r (sound_endCall hsound key)
          · next found hphase =>
              cases hstep
              obtain ⟨hcached, hfiled⟩ := sound_cache hsound hget hphase
              refine (hs.setReplica r hcached).send fun husable => hfiled ?_
              exact ((Bool.and_eq_true _ _).mp husable).1
          · cases hstep
  | returns r key =>
      simp only [cacheStep] at hstep
      split at hstep
      · cases hstep
      · next replica call hcall =>
          obtain ⟨hreplica, hget⟩ := call_eq_some hcall
          have hsound := hs.replicas r replica hreplica
          split at hstep
          · next tier found hphase =>
              cases hstep
              exact (hs.setReplica r (sound_endCall hsound key)).record
                (coherent_answers hsound hs.functional hget hphase)
          · cases hstep
  | executesSet id =>
      obtain ⟨set, hset, rfl⟩ := Option.map_eq_some_iff.mp hstep
      refine ⟨hs.functional, hs.replicas, fun key found hget => ?_, hs.sets, hs.answers⟩
      rcases get_set_cases hget with ⟨rfl, rfl⟩ | ⟨-, hold⟩
      · exact hs.sets set (List.mem_of_getElem? hset)
      · exact hs.l2 key found hold
  | expires key =>
      cases hstep
      refine ⟨hs.functional, hs.replicas, fun other found hget => ?_, hs.sets, hs.answers⟩
      change (s.l2.erase key).get other = some found at hget
      rw [get_erase] at hget
      split at hget
      · cases hget
      · exact hs.l2 other found hget
  | invalidates r version usable =>
      obtain ⟨replica, hreplica, rfl⟩ := Option.map_eq_some_iff.mp hstep
      have hsound := hs.replicas r replica hreplica
      have hversion : version.getD replica.version ≤ replica.version := by
        cases version with
        | none => exact Nat.le_refl _
        | some version => exact hmeets replica hreplica
      obtain ⟨hfunctional, hreplicas, hl2, hsets, hanswers⟩ :=
        hs.setReplica r (sound_invalidate hsound hversion)
      exact ⟨hfunctional, hreplicas, hl2, hsets, hanswers⟩
  | receives r version =>
      simp only [cacheStep] at hstep
      split at hstep
      · obtain ⟨replica, hreplica, rfl⟩ := Option.map_eq_some_iff.mp hstep
        have hsound := hs.replicas r replica hreplica
        exact hs.setReplica r (sound_onMessage hsound (hmeets replica hreplica))
      · cases hstep
  | waits r ms =>
      obtain ⟨replica, hreplica, rfl⟩ := Option.map_eq_some_iff.mp hstep
      obtain ⟨hcurrent, hfloor, hceiling, hl1, hcalls⟩ := hs.replicas r replica hreplica
      exact hs.setReplica r ⟨hcurrent, hfloor, hceiling, hl1, hcalls⟩

/-- As long as generations agree, the tiers are coherent. -/
theorem cacheCoherent_generationsAgree (R : Type) [DecidableEq R] (config : CacheConfig)
    (storeSearch : Content → Params → Option Result) :
    CacheCoherent (R := R) config storeSearch GenerationsAgree := by
  intro s hreach
  have hsound : WorldSound config s :=
    hreach.preserves (fun _ _ _ hs hmeets hstep => sound_step hs hmeets hstep)
      (sound_init config)
  exact hsound.answers

def smallCache : CacheConfig := ⟨10, 5000, id⟩

def anyQuery : Params := ⟨some "api", none, none, none, none, none, none, none, none⟩

def anyKey : String := keyFor id anyQuery 1

def twoHistories : List (CacheAction Bool ℕ) :=
  [.starts false 0, .starts true 0, .stores false 1, .stores true 2,
    .searches false anyQuery true, .gets false anyKey, .resumes false anyKey,
    .finds false anyKey true, .executesSet 0,
    .searches true anyQuery true, .gets true anyKey, .resumes true anyKey,
    .returns true anyKey]

theorem not_cacheCoherent_anyStep :
    ¬ CacheCoherent (R := Bool) smallCache (fun (content : ℕ) _ => some content) anyStep := by
  intro hcoherent
  have hrun : (run (cacheStep smallCache fun (content : ℕ) _ => some content) .init
      twoHistories).map (fun s => s.answers.map fun answer =>
        (answer.tier, answer.found.origin, answer.content)) = some [(Tier.l2, 1, 2)] := by
    decide +kernel
  obtain ⟨s, hreach, hanswers⟩ := exists_reaches_of_run hrun
  obtain ⟨answer, hanswer, hsame⟩ := List.map_eq_singleton_iff.mp hanswers
  obtain ⟨htier, hpair⟩ := Prod.mk.inj hsame
  obtain ⟨horigin, hcontent⟩ := Prod.mk.inj hpair
  have hcoherent := (hcoherent s hreach answer (hanswer ▸ List.mem_cons_self)
    (by rw [htier]; decide)).1
  rw [horigin, hcontent] at hcoherent
  cases hcoherent

end X402Facilitator.Catalog
