import Mathlib.Data.List.Induction
import X402Facilitator.RateLimit.CrdtStore

/-!
# Counting in a full store

A store at its cap sheds the bucket that is reset first, and that can be the
bucket which has just been created.  Both capped stores count every increment
of a bucket exactly as long as no increment sheds it.
-/

namespace X402Facilitator.RateLimit

variable {Id : Type*}

/-- The arguments of a store's `increment`. -/
structure Increment (Id : Type*) where
  id : Id
  amount : ℕ
  resetAt : ℕ
  now : ℕ

/-- A call made while the window of `id`, which ends at `resetAt`, is open. -/
structure Increment.Within (id : Id) (resetAt : ℕ) (call : Increment Id) : Prop where
  inside : call.now < resetAt
  positive : 0 < call.amount
  resets : call.id = id → call.resetAt = resetAt

variable [DecidableEq Id]

/-- The sum of the amounts for `id`. -/
def recorded (id : Id) (calls : List (Increment Id)) : ℕ :=
  (calls.map fun call => if call.id = id then call.amount else 0).sum

/-- If `id` has a bucket, then it is one of the window that ends at `resetAt`. -/
def Opened (id : Id) (resetAt : ℕ) (map : InsertionMap Id Bucket) : Prop :=
  ∀ bucket, map.get id = some bucket → bucket.resetAt = resetAt ∧ 0 < bucket.count

/-- The call creates a bucket in a full map, and `id` is then the bucket that is
reset first. -/
def Sheds (maxSize : ℕ) (map : InsertionMap Id Bucket) (call : Increment Id) (id : Id) : Prop :=
  map.Sheds Bucket.resetAt maxSize call.id ⟨call.amount, call.resetAt⟩ id

def MemoryStore.record {maxSize : ℕ} (store : MemoryStore Id maxSize) (call : Increment Id) :
    MemoryStore Id maxSize :=
  store.increment call.id call.amount call.resetAt call.now

/-- The count that `get` reports. -/
def MemoryStore.report {maxSize : ℕ} (id : Id) (store : MemoryStore Id maxSize) (now : ℕ) : ℕ :=
  ((store.get id now).map Bucket.count).getD 0

def Crdt.record (maxSize : ℕ) (counters : InsertionMap Id Bucket) (call : Increment Id) :
    InsertionMap Id Bucket :=
  Crdt.increment maxSize counters call.id call.amount call.resetAt call.now

/-- The count that `get` reports without a database. -/
def Crdt.report (id : Id) (counters : InsertionMap Id Bucket) (now : ℕ) : ℕ :=
  ((Crdt.merged (counters.get id) now none).map Reading.count).getD 0

section Run

variable {S : Type*}

/-- After any of the calls, `report` has grown by what has been recorded. -/
def Counts (record : S → Increment Id → S) (report : S → ℕ → ℕ) (id : Id) (resetAt : ℕ)
    (start : S) (calls : List (Increment Id)) : Prop :=
  ∀ earlier, earlier <+: calls → ∀ now < resetAt,
    report (earlier.foldl record start) now = report start now + recorded id earlier

/-- None of the calls sheds `id`. -/
def Spares (maxSize : ℕ) (toMap : S → InsertionMap Id Bucket) (record : S → Increment Id → S)
    (id : Id) (start : S) (calls : List (Increment Id)) : Prop :=
  ∀ earlier call, earlier ++ [call] <+: calls →
    ¬ Sheds maxSize (toMap (earlier.foldl record start)) call id

/-- What an increment does to the map of a capped store: it goes on with a live
bucket, starts a missing one, and sheds. -/
structure Recorder (maxSize : ℕ) (toMap : S → InsertionMap Id Bucket)
    (record : S → Increment Id → S) : Prop where
  records : ∀ store call, ∃ bucket,
    toMap (record store call) = ((toMap store).set call.id bucket).shed Bucket.resetAt maxSize ∧
    ((toMap store).get call.id = none → bucket = ⟨call.amount, call.resetAt⟩) ∧
    ∀ found, (toMap store).get call.id = some found → call.now < found.resetAt →
      found.resetAt = call.resetAt → bucket = ⟨found.count + call.amount, call.resetAt⟩

variable {maxSize : ℕ} {toMap : S → InsertionMap Id Bucket} {record : S → Increment Id → S}
variable {id : Id} {resetAt : ℕ}

variable {call : Increment Id} {store start : S} {calls earlier : List (Increment Id)}

/-- One call either sheds the bucket or counts in it. -/
theorem Recorder.step (hrecorder : Recorder maxSize toMap record)
    (hcapped : (toMap store).size ≤ maxSize) (hopened : Opened id resetAt (toMap store))
    (hcall : call.Within id resetAt) :
    (Sheds maxSize (toMap store) call id ∧ (toMap (record store call)).get id = none) ∨
    (¬ Sheds maxSize (toMap store) call id ∧ Opened id resetAt (toMap (record store call)) ∧
      held id (toMap (record store call)) =
        held id (toMap store) + if call.id = id then call.amount else 0) := by
  obtain ⟨bucket, hmap, hnew, hlive⟩ := hrecorder.records store call
  -- the shedding only looks at the new bucket where the id is missing
  have hsheds : (toMap store).Sheds Bucket.resetAt maxSize call.id bucket id ↔
      Sheds maxSize (toMap store) call id := by
    constructor
    · intro hshed
      rwa [hnew hshed.1] at hshed
    · intro hshed
      rw [hnew hshed.1]
      exact hshed
  rw [hmap]
  rcases InsertionMap.get_shed_set Bucket.resetAt hcapped call.id bucket id with
    ⟨hshed, hget⟩ | ⟨hspared, hget⟩
  · exact Or.inl ⟨hsheds.mp hshed, hget⟩
  · refine Or.inr ⟨fun hshed => hspared (hsheds.mpr hshed), ?_⟩
    by_cases hid : call.id = id
    · have hbucket : bucket = ⟨held id (toMap store) + call.amount, resetAt⟩ := by
        rw [← hcall.resets hid]
        cases hfound : (toMap store).get id with
        | none => rw [hnew (hid ▸ hfound), held, hfound, Option.map_none, Option.getD_none,
            Nat.zero_add]
        | some found =>
            obtain ⟨hreset, -⟩ := hopened found hfound
            have hinside : call.now < found.resetAt := hreset ▸ hcall.inside
            have hsame : found.resetAt = call.resetAt := hreset.trans (hcall.resets hid).symm
            rw [hlive found (hid ▸ hfound) hinside hsame, held, hfound]
            rfl
      rw [if_pos hid.symm] at hget
      constructor
      · intro other hother
        rw [hget, hbucket] at hother
        obtain rfl := Option.some.inj hother
        exact ⟨rfl, Nat.add_pos_right _ hcall.positive⟩
      · rw [held, hget, hbucket, if_pos hid]
        rfl
    · rw [if_neg (Ne.symm hid)] at hget
      refine ⟨fun other hother => hopened other (hget ▸ hother), ?_⟩
      rw [held, hget, if_neg hid, Nat.add_zero]
      rfl

theorem Recorder.capped (hrecorder : Recorder maxSize toMap record)
    (hcapped : (toMap store).size ≤ maxSize) (call : Increment Id) :
    (toMap (record store call)).size ≤ maxSize := by
  obtain ⟨bucket, hmap, -, -⟩ := hrecorder.records store call
  rw [hmap]
  exact InsertionMap.size_shed_le
    ((InsertionMap.size_set_le _ _ _).trans (Nat.succ_le_succ hcapped))

omit [DecidableEq Id] in
theorem mem_of_concat (hinitial : earlier ++ [call] <+: calls) : call ∈ calls :=
  hinitial.subset (List.mem_append_right earlier List.mem_cons_self)

omit [DecidableEq Id] in
theorem initial_of_concat (hinitial : earlier ++ [call] <+: calls) : earlier <+: calls :=
  (List.prefix_append earlier [call]).trans hinitial

theorem recorded_concat (earlier : List (Increment Id)) (call : Increment Id) :
    recorded id (earlier ++ [call]) =
      recorded id earlier + if call.id = id then call.amount else 0 := by
  simp [recorded]

/-- A run that spares the bucket keeps it open and counts in it. -/
theorem Recorder.run (hrecorder : Recorder maxSize toMap record)
    (hcapped : (toMap start).size ≤ maxSize) (hopened : Opened id resetAt (toMap start))
    (hcalls : ∀ call ∈ calls, call.Within id resetAt)
    (hspares : Spares maxSize toMap record id start calls) (hinitial : earlier <+: calls) :
    (toMap (earlier.foldl record start)).size ≤ maxSize ∧
      Opened id resetAt (toMap (earlier.foldl record start)) ∧
      held id (toMap (earlier.foldl record start)) =
        held id (toMap start) + recorded id earlier := by
  induction earlier using List.reverseRecOn with
  | nil => exact ⟨hcapped, hopened, rfl⟩
  | append_singleton earlier call ih =>
      obtain ⟨hcapped', hopened', hheld⟩ := ih (initial_of_concat hinitial)
      have hcall := hcalls call (mem_of_concat hinitial)
      rw [List.foldl_concat, recorded_concat, ← Nat.add_assoc, ← hheld]
      rcases hrecorder.step hcapped' hopened' hcall with ⟨hshed, -⟩ | ⟨-, hopen, hnext⟩
      · exact absurd hshed (hspares earlier call hinitial)
      · exact ⟨hrecorder.capped hcapped' call, hopen, hnext⟩

variable {report : S → ℕ → ℕ}

/-- A bucket that has just been shed reports nothing, and it had counted something. -/
theorem Recorder.spares_last (hrecorder : Recorder maxSize toMap record)
    (hreport : ∀ store, Opened id resetAt (toMap store) → ∀ now < resetAt,
      report store now = held id (toMap store)) (hcapped : (toMap start).size ≤ maxSize)
    (hopened : Opened id resetAt (toMap start)) {last : Increment Id}
    (hcalls : ∀ call ∈ calls ++ [last], call.Within id resetAt)
    (hspares : Spares maxSize toMap record id start calls)
    (hcounts : ∀ now < resetAt, report ((calls ++ [last]).foldl record start) now =
      report start now + recorded id (calls ++ [last])) :
    ¬ Sheds maxSize (toMap (calls.foldl record start)) last id := by
  intro hshed
  have hlast := hcalls last (List.mem_append_right calls List.mem_cons_self)
  obtain ⟨hcapped', hopened', hheld⟩ := hrecorder.run hcapped hopened
    (fun call hcall => hcalls call (List.mem_append_left [last] hcall)) hspares
    (List.prefix_refl calls)
  rcases hrecorder.step hcapped' hopened' hlast with ⟨-, hnone⟩ | ⟨hspared, -⟩
  · have hclosed : Opened id resetAt (toMap (record (calls.foldl record start) last)) :=
      fun bucket hbucket => by rw [hnone] at hbucket; cases hbucket
    have hnothing := hcounts last.now hlast.inside
    rw [List.foldl_concat, recorded_concat, hreport _ hclosed _ hlast.inside,
      hreport _ hopened _ hlast.inside, held, hnone, ← Nat.add_assoc, ← hheld] at hnothing
    have hother : last.id ≠ id := by
      intro heq
      have hpositive := hlast.positive
      rw [if_pos heq] at hnothing
      simp at hnothing
      omega
    have hempty : held id (toMap (calls.foldl record start)) = 0 := by
      rw [if_neg hother] at hnothing
      simpa using hnothing.symm
    -- what is shed was in the map, and so had a positive count
    have hmem := hshed.2.2.mem
    rw [List.map_append, List.mem_append] at hmem
    have hkey : id ∈ (toMap (calls.foldl record start)).keys :=
      hmem.resolve_right fun hin => hother (List.mem_singleton.mp hin).symm
    obtain ⟨bucket, hbucket⟩ :=
      Option.isSome_iff_exists.mp ((InsertionMap.mem_keys_iff _ _).mp hkey)
    rw [held, hbucket] at hempty
    exact absurd hempty (hopened' bucket hbucket).2.ne'
  · exact hspared hshed

/-- Sparing the bucket is also necessary: a bucket that was shed reports nothing. -/
theorem Recorder.counts_iff (hrecorder : Recorder maxSize toMap record)
    (hreport : ∀ store, Opened id resetAt (toMap store) → ∀ now < resetAt,
      report store now = held id (toMap store)) (hcapped : (toMap start).size ≤ maxSize)
    (hopened : Opened id resetAt (toMap start)) (hcalls : ∀ call ∈ calls, call.Within id resetAt) :
    Counts record report id resetAt start calls ↔
      Spares maxSize toMap record id start calls := by
  constructor
  · intro hcounts
    induction calls using List.reverseRecOn with
    | nil => exact fun earlier call hinitial => by simp at hinitial
    | append_singleton calls last ih =>
        have hcalls' : ∀ call ∈ calls, call.Within id resetAt :=
          fun call hcall => hcalls call (List.mem_append_left [last] hcall)
        have hspares : Spares maxSize toMap record id start calls :=
          ih hcalls' fun earlier hinitial =>
            hcounts earlier (hinitial.trans (List.prefix_append _ _))
        intro earlier call hinitial
        rcases List.prefix_concat_iff.mp hinitial with heq | hbefore
        · obtain ⟨rfl, hlast⟩ := List.append_inj' heq rfl
          obtain rfl : call = last := by simpa using hlast
          exact hrecorder.spares_last hreport hcapped hopened hcalls hspares
            (hcounts _ (List.prefix_refl _))
        · exact hspares earlier call hbefore
  · intro hspares earlier hinitial now hnow
    obtain ⟨-, hopen, hheld⟩ := hrecorder.run hcapped hopened hcalls hspares hinitial
    rw [hreport _ hopen now hnow, hreport start hopened now hnow, hheld]

end Run

section Stores

variable {maxSize : ℕ} {id : Id} {resetAt : ℕ}

theorem MemoryStore.recorder :
    Recorder (S := MemoryStore Id maxSize) maxSize MemoryStore.map MemoryStore.record where
  records := by
    intro store call
    refine ⟨_, rfl, fun hnew => ?_, fun found hfound hlive hsame => ?_⟩
    · rw [MemoryStore.counted, MemoryStore.get_of_absent hnew, Option.getD_none, Nat.zero_add]
    · rw [MemoryStore.counted, MemoryStore.get_of_live hfound hlive, Option.getD_some, hsame]

theorem Crdt.recorder :
    Recorder maxSize (fun counters : InsertionMap Id Bucket => counters) (Crdt.record maxSize) where
  records := by
    intro counters call
    refine ⟨_, rfl, fun hnew => ?_, fun found hfound hlive hsame => ?_⟩
    · rw [Crdt.counted, hnew]
      rfl
    · rw [Crdt.counted, hfound, Option.filter_some_pos (by simpa using hlive)]

theorem MemoryStore.report_eq {store : MemoryStore Id maxSize}
    (hopened : Opened id resetAt store.map) {now : ℕ} (hnow : now < resetAt) :
    store.report id now = held id store.map := by
  rw [MemoryStore.report, held]
  cases hfound : store.map.get id with
  | none => rw [MemoryStore.get_of_absent hfound]
  | some found =>
      obtain ⟨hreset, -⟩ := hopened found hfound
      rw [MemoryStore.get_of_live hfound (hreset ▸ hnow)]

theorem Crdt.report_eq {counters : InsertionMap Id Bucket} (now : ℕ) :
    Crdt.report id counters now = held id counters := by
  rw [Crdt.report, held, Crdt.merged.eq_def]
  cases counters.get id with
  | none => rfl
  | some found =>
      by_cases hlive : now < found.resetAt
      · rw [Option.filter_some_pos (by simpa using hlive)]
        rfl
      · rw [Option.filter_some_neg (by simpa using hlive)]
        rfl

/-- In both capped stores, the bucket of an open window reports every increment
if and only if no increment sheds it. -/
theorem counts_iff_spares {calls : List (Increment Id)}
    (hcalls : ∀ call ∈ calls, call.Within id resetAt) :
    (∀ start : MemoryStore Id maxSize, Opened id resetAt start.map →
      (Counts MemoryStore.record (MemoryStore.report id) id resetAt start calls ↔
        Spares maxSize MemoryStore.map MemoryStore.record id start calls)) ∧
    ∀ counters : InsertionMap Id Bucket, counters.size ≤ maxSize → Opened id resetAt counters →
      (Counts (Crdt.record maxSize) (Crdt.report id) id resetAt counters calls ↔
        Spares maxSize (fun counters => counters) (Crdt.record maxSize) id counters calls) := by
  constructor
  · intro start hopened
    exact MemoryStore.recorder.counts_iff
      (fun _ hopen now hnow => MemoryStore.report_eq hopen hnow) start.capped hopened hcalls
  · intro counters hcapped hopened
    exact Crdt.recorder.counts_iff (fun _ _ now _ => Crdt.report_eq now) hcapped hopened
      hcalls

/-- A store with room for one bucket, which is taken by a daily one. -/
def takenForTheDay : MemoryStore String 1 :=
  MemoryStore.empty.record ⟨"day", 1, 86400, 0⟩

/-- One increment of a bucket that is reset sooner. -/
def oneMinute : List (Increment String) := [⟨"minute", 1, 60, 0⟩]

theorem oneMinute_within : ∀ call ∈ oneMinute, call.Within "minute" 60 := by
  intro call hcall
  obtain rfl := List.mem_singleton.mp hcall
  exact ⟨by decide, by decide, fun _ => rfl⟩

theorem oneMinute_counts_iff_spares :
    Counts MemoryStore.record (MemoryStore.report "minute") "minute" 60 takenForTheDay oneMinute ↔
      Spares 1 MemoryStore.map MemoryStore.record "minute" takenForTheDay oneMinute :=
  have hnone : takenForTheDay.map.get "minute" = none := by decide
  (counts_iff_spares oneMinute_within).1 takenForTheDay
    fun bucket hbucket => by rw [hnone] at hbucket; cases hbucket

theorem full_store_sheds_new_bucket :
    ¬ ∀ calls : List (Increment String), (∀ call ∈ calls, call.Within "minute" 60) →
      Counts MemoryStore.record (MemoryStore.report "minute") "minute" 60 takenForTheDay calls := by
  intro hcounts
  have hreport := hcounts oneMinute oneMinute_within _ (List.prefix_refl _) 0 (by decide)
  exact absurd hreport (by decide)

end Stores

end X402Facilitator.RateLimit
