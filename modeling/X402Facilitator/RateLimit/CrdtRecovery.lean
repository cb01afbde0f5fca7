import X402Facilitator.RateLimit.CrdtSteps

/-!
# Recovery of a degraded region

The flag keeps every run of `_sync` from starting, and only the end of a run
clears it.  So a degraded region recovers exactly when a run was already in
flight when it was degraded.
-/

namespace X402Facilitator.RateLimit

namespace Crdt

open Execution

variable {R Id : Type*} [DecidableEq Id]

section Statement

/-- Requests, ticks of the timer and successful queries at the time `now`. -/
def Succeeds (now : ℕ) : Action R Id → Prop
  | .get _ _ time | .sweep _ time | .sync _ _ time | .resume _ _ time => time = now
  | .answer _ _ | .execute _ _ => True
  | _ => False

/-- The table has what the local bucket of `id` has, if that is live. -/
def MergedBucket (now : ℕ) (counters : InsertionMap Id Bucket) (table : Table Id) (id : Id) :
    Prop :=
  ∀ bucket, counters.get id = some bucket → now < bucket.resetAt →
    ∃ row, table id = some row ∧ (bucket.resetAt < row.resetAt ∨
      (row.resetAt = bucket.resetAt ∧ bucket.count ≤ row.count))

variable [DecidableEq R]

/-- Successful queries and ticks of the timer lead to a state where the region is
not degraded and has merged its live buckets into the table. -/
def Recovers (maxSize now : ℕ) (s : System R Id) (index : R) : Prop :=
  ∃ s', Reaches (step maxSize) (fun _ action => Succeeds now action) s s' ∧
    (s'.regions index).degraded = false ∧
    ∀ id, MergedBucket now (s'.regions index).counters s'.table id

omit [DecidableEq Id] [DecidableEq R] in
/-- A run of the region's `_sync` is in flight. -/
def Syncing (s : System R Id) (index : R) : Prop :=
  ∃ run, ((s.regions index).syncs run).InFlight

end Statement

section Stuck

variable [DecidableEq R] {maxSize now : ℕ} {s s' : System R Id} {index : R}

omit [DecidableEq Id] in
structure Region.Stuck (region : Region Id) : Prop where
  degraded : region.degraded = true
  idle : ∀ run, ¬ (region.syncs run).InFlight

variable {region : Region Id} {action : Action R Id}

theorem Region.Stuck.setCounters (hstuck : region.Stuck) (counters : InsertionMap Id Bucket) :
    (region.setCounters counters).Stuck where
  degraded := hstuck.degraded
  idle := fun run hflight =>
    hstuck.idle run ((SyncRun.narrows_forget (region.syncs run) counters).inFlight hflight)

omit [DecidableEq Id] in
theorem Region.Stuck.setSync (hstuck : region.Stuck) {run : ℕ} {state : SyncRun Id}
    (hstate : ¬ state.InFlight) : (region.setSync run state).Stuck where
  degraded := hstuck.degraded
  idle := by
    intro other hflight
    rcases SyncRun.inFlight_update hflight with ⟨-, hnew⟩ | ⟨-, hold⟩
    · exact hstate hnew
    · exact hstuck.idle other hold

omit [DecidableEq R] in
theorem Region.Stuck.turns {region' : Region Id} (hstuck : region.Stuck)
    (hturns : region.Turns action region') : region'.Stuck := by
  cases hturns with
  | starts startup degraded hstartup hdegraded => exact ⟨hdegraded hstuck.degraded, hstuck.idle⟩
  | asks queries hasked => exact ⟨hstuck.degraded, hstuck.idle⟩
  | counts counters queries hasked =>
      have hcounted := hstuck.setCounters counters
      exact ⟨hcounted.degraded, hcounted.idle⟩
  | rejects query => exact ⟨rfl, hstuck.idle⟩
  | skips run htimer => exact hstuck.setSync not_false
  | begins run state htimer honline =>
      rw [hstuck.degraded] at honline
      cases honline
  | executes run state hrun => exact absurd hrun (hstuck.idle run)
  | resumes run state counters hrun => exact absurd hrun (hstuck.idle run)
  | fails run hrun => exact absurd hrun (hstuck.idle run)

/-- No step whatsoever gets a stuck region going. -/
theorem stuck_step (hstuck : (s.regions index).Stuck) (hstep : step maxSize s action = some s') :
    (s'.regions index).Stuck := by
  obtain hsame | hturns := turns_of_step hstep index
  · rw [hsame]
    exact hstuck
  · exact hstuck.turns hturns

theorem stuck_of_reaches {meets : System R Id → Action R Id → Prop}
    (hstuck : (s.regions index).Stuck) (hreach : Reaches (step maxSize) meets s s') :
    (s'.regions index).Stuck := by
  induction hreach with
  | refl => exact hstuck
  | tail _ hlast ih =>
      obtain ⟨action, -, hstep⟩ := hlast
      exact stuck_step ih hstep

/-- The region stays degraded for ever. -/
theorem not_recovers_of_stuck (hstuck : (s.regions index).Stuck) :
    ¬ Recovers maxSize now s index := by
  rintro ⟨s', hreach, hrecovered, -⟩
  rw [(stuck_of_reaches hstuck hreach).degraded] at hrecovered
  cases hrecovered

end Stuck

section Started

variable [DecidableEq R] {maxSize : ℕ} {s s' : System R Id}

omit [DecidableEq Id] in
structure Region.Started (region : Region Id) : Prop where
  fresh : ∃ bound, ∀ run, bound ≤ run → region.syncs run = .notStarted
  timer : ∀ run, region.syncs run ≠ .notStarted → region.startup = .syncing

variable {region region' : Region Id} {action : Action R Id}

theorem Region.Started.setCounters (hstarted : region.Started) (counters : InsertionMap Id Bucket) :
    (region.setCounters counters).Started where
  fresh := by
    obtain ⟨bound, hfresh⟩ := hstarted.fresh
    refine ⟨bound, fun run hle => ?_⟩
    change (region.syncs run).forget counters = .notStarted
    rw [hfresh run hle]
    rfl
  timer := by
    intro run hrun
    apply hstarted.timer run
    intro hnot
    apply hrun
    change (region.syncs run).forget counters = .notStarted
    rw [hnot]
    rfl

section

omit [DecidableEq Id]

theorem Region.Started.setSync (hstarted : region.Started) (htimer : region.startup = .syncing)
    (run : ℕ) (state : SyncRun Id) : (region.setSync run state).Started where
  fresh := by
    obtain ⟨bound, hfresh⟩ := hstarted.fresh
    refine ⟨max bound (run + 1), fun other hle => ?_⟩
    have hne : other ≠ run := by omega
    change Function.update region.syncs run state other = .notStarted
    rw [Function.update_of_ne hne]
    exact hfresh other (by omega)
  timer := fun _ _ => htimer

theorem Region.Started.congr (hstarted : region.Started)
    (hstartup : region.startup = .syncing → region'.startup = .syncing)
    (hsyncs : region'.syncs = region.syncs) : region'.Started where
  fresh := hsyncs ▸ hstarted.fresh
  timer := fun run hrun => hstartup (hstarted.timer run (hsyncs ▸ hrun))

theorem Region.Started.proceed (hstarted : region.Started) (htimer : region.startup = .syncing)
    (run : ℕ) (state : SyncRun Id) : (region.proceed run state).Started := by
  apply (hstarted.setSync htimer run state).congr
  · intro _
    cases state <;> exact htimer
  · rw [proceed_syncs]
    rfl

end

omit [DecidableEq R] in
theorem Region.Started.turns (hstarted : region.Started) (hturns : region.Turns action region') :
    region'.Started := by
  have htimed {run : ℕ} (hrun : (region.syncs run).InFlight) : region.startup = .syncing := by
    apply hstarted.timer run
    intro hnot
    rw [hnot] at hrun
    exact hrun
  cases hturns with
  | starts startup degraded hstartup hdegraded => exact hstarted.congr hstartup rfl
  | asks queries hasked => exact hstarted.congr (fun htimer => htimer) rfl
  | counts counters queries hasked =>
      exact (hstarted.setCounters counters).congr (fun htimer => htimer) rfl
  | rejects query => exact hstarted.congr (fun htimer => htimer) rfl
  | skips run htimer => exact hstarted.setSync htimer run .skipped
  | begins run state htimer honline => exact hstarted.proceed htimer run state
  | executes run state hrun => exact hstarted.setSync (htimed hrun) run state
  | resumes run state counters hrun =>
      have habsorbed : Region.Started { region with counters := counters } :=
        hstarted.congr (fun htimer => htimer) rfl
      exact habsorbed.proceed (htimed hrun) run state
  | fails run hrun =>
      exact (hstarted.setSync (htimed hrun) run .failed).congr (fun htimer => htimer) rfl

theorem started_step (hstarted : ∀ index, (s.regions index).Started)
    (hstep : step maxSize s action = some s') (index : R) : (s'.regions index).Started := by
  obtain hsame | hturns := turns_of_step hstep index
  · rw [hsame]
    exact hstarted index
  · exact (hstarted index).turns hturns

def AllStarted (s : System R Id) : Prop := ∀ index, (s.regions index).Started

theorem started_of_reaches {startup : R → Startup}
    (hreach : Reaches (step maxSize) anyStep (.init startup) s) : AllStarted s :=
  hreach.preserves (fun _ _ _ hstarted _ hstep => started_step hstarted hstep)
    fun _ => ⟨⟨0, fun _ _ => rfl⟩, fun _ hrun => absurd rfl hrun⟩

end Started

section Loop

variable {counters : InsertionMap Id Bucket} {visited : List Id} {now : ℕ}

variable {asked id : Id} {bucket : Bucket} {visited' : List Id} {region : Region Id}
  {table : Table Id}

/-- What the loop has visited when it asks for the next bucket. -/
theorem visited_of_advance
    (hadvance : advance counters visited now = .querying visited' asked bucket) :
    visited ⊆ visited' ∧ asked ∈ visited' ∧ asked ∉ visited ∧
      ∀ id ∈ visited', id ∈ visited ∨ id = asked ∨
        ∃ found, counters.get id = some found ∧ found.resetAt ≤ now := by
  rw [advance] at hadvance
  cases hrest : (unvisited counters visited).dropWhile
      fun entry => decide (entry.2.resetAt ≤ now) with
  | nil => simp [hrest] at hadvance
  | cons entry rest =>
      simp only [hrest, SyncRun.querying.injEq] at hadvance
      obtain ⟨rfl, rfl, rfl⟩ := hadvance
      have hmem : entry ∈ unvisited counters visited :=
        (List.dropWhile_suffix _).mem (hrest ▸ List.mem_cons_self)
      refine ⟨fun id hid => ?_, ?_, by simpa using List.of_mem_filter hmem, fun id hid => ?_⟩
      · exact List.mem_append_left _ (List.mem_append_left _ hid)
      · exact List.mem_append_right _ List.mem_cons_self
      · simp only [List.mem_append, List.mem_map, List.mem_singleton] at hid
        obtain (hold | ⟨passed, hpassed, rfl⟩) | rfl := hid
        · exact Or.inl hold
        · have hfound := counters.get_of_mem
            (List.mem_of_mem_filter ((List.takeWhile_prefix _).mem hpassed))
          exact Or.inr (Or.inr ⟨passed.2, hfound, by simpa using List.mem_takeWhile_imp hpassed⟩)
        · exact Or.inr (Or.inl rfl)

theorem length_unvisited (counters : InsertionMap Id Bucket) (visited : List Id) :
    (unvisited counters visited).length = (counters.keys.filter fun id => id ∉ visited).length := by
  rw [unvisited, InsertionMap.keys, List.filter_map, List.length_map]
  rfl

/-- The loop has less to visit after each bucket. -/
theorem length_unvisited_lt {counters' : InsertionMap Id Bucket}
    (hkeys : counters'.keys = counters.keys) (hsub : visited ⊆ visited')
    (hmem : asked ∈ counters.keys) (hout : asked ∉ visited) (hin : asked ∈ visited') :
    (unvisited counters' visited').length < (unvisited counters visited).length := by
  rw [length_unvisited, length_unvisited, hkeys]
  have hfilter : (counters.keys.filter fun id => id ∉ visited') =
      (counters.keys.filter fun id => id ∉ visited).filter fun id => id ∉ visited' := by
    rw [List.filter_filter]
    apply List.filter_congr
    intro id _
    by_cases hid : id ∈ visited
    · simp [hsub hid]
    · simp [hid]
  rw [hfilter]
  apply List.length_filter_lt_length_iff_exists.mpr
  exact ⟨asked, List.mem_filter.mpr ⟨hmem, by simpa using hout⟩, by simpa using hin⟩

variable [DecidableEq R] {s s' : System R Id} {index : R} {run : ℕ}

structure Resumes (now : ℕ) (index : R) (run : ℕ) (buckets : InsertionMap Id Bucket)
    (visited : List Id) (s s' : System R Id) : Prop where
  counters : (s'.regions index).counters = buckets
  sync : (s'.regions index).syncs run = advance buckets visited now
  recovered : advance buckets visited now = .finished → (s'.regions index).degraded = false
  startup : (s'.regions index).startup = (s.regions index).startup
  others : ∀ other, other ≠ run → (s'.regions index).syncs other = (s.regions index).syncs other

omit [DecidableEq Id] in
theorem proceed_startup (region : Region Id) (run : ℕ) (state : SyncRun Id) :
    (region.proceed run state).startup = region.startup := by
  cases state <;> rfl

omit [DecidableEq Id] in
theorem proceed_degraded {run : ℕ} {state : SyncRun Id} (hfinished : state = .finished) :
    (region.proceed run state).degraded = false := by
  subst hfinished
  rfl

theorem resumes_setRegion (visited : List Id)
    (hstartup : region.startup = (s.regions index).startup)
    (hothers : ∀ other, other ≠ run → region.syncs other = (s.regions index).syncs other) :
    Resumes now index run region.counters visited s
      (s.setRegion index (region.proceed run (advance region.counters visited now))) where
  counters := by rw [regions_setRegion_self, proceed_counters]
  sync := by rw [regions_setRegion_self, proceed_syncs, Function.update_self]
  recovered := fun hfinished => by
    rw [regions_setRegion_self]
    exact proceed_degraded hfinished
  startup := by rw [regions_setRegion_self, proceed_startup, hstartup]
  others := fun other hother => by
    rw [regions_setRegion_self, proceed_syncs, Function.update_of_ne hother, hothers other hother]

/-- The answer of a query that has been executed arrives. -/
theorem exists_resumes_of_answered (maxSize now : ℕ) {merged : Option ℕ}
    (hrun : (s.regions index).syncs run = .answered visited asked bucket merged) :
    ∃ s', Reaches (step maxSize) (fun _ action => Succeeds now action) s s' ∧
      s'.table = s.table ∧
      Resumes now index run (absorb (s.regions index).counters asked bucket merged) visited
        s s' := by
  let absorbed : Region Id :=
    { s.regions index with counters := absorb (s.regions index).counters asked bucket merged }
  have hstep : step maxSize s (.resume index run now) = some (s.setRegion index
      (absorbed.proceed run (advance absorbed.counters visited now))) := by
    simp only [step, hrun]
    rfl
  have hsucceeds : Succeeds now (.resume index run now : Action R Id) := rfl
  have hresumes : Resumes now index run absorbed.counters visited s (s.setRegion index
      (absorbed.proceed run (advance absorbed.counters visited now))) :=
    resumes_setRegion visited rfl fun _ _ => rfl
  exact ⟨_, (Reaches.refl s).tail hsucceeds hstep, rfl, hresumes⟩

/-- A query succeeds and its answer arrives. -/
theorem exists_resumes_of_querying (maxSize now : ℕ)
    (hrun : (s.regions index).syncs run = .querying visited asked bucket) :
    ∃ s', Reaches (step maxSize) (fun _ action => Succeeds now action) s s' ∧
      s'.table = (upsert s.table asked bucket).2 ∧
      Resumes now index run (absorb (s.regions index).counters asked bucket
        (upsert s.table asked bucket).1) visited s s' := by
  let answered : Region Id := (s.regions index).setSync run
    (.answered visited asked bucket (upsert s.table asked bucket).1)
  let executed : System R Id :=
    { s.setRegion index answered with table := (upsert s.table asked bucket).2 }
  have hstep : step maxSize s (.execute index run) = some executed := by
    simp only [step, hrun]
    rfl
  have hself : executed.regions index = answered := regions_setRegion_self s index answered
  have hanswered : (executed.regions index).syncs run =
      .answered visited asked bucket (upsert s.table asked bucket).1 := by
    rw [hself]
    exact Function.update_self _ _ _
  obtain ⟨s', hreach, htable, hresumes⟩ :=
    exists_resumes_of_answered maxSize now hanswered
  have hsucceeds : Succeeds now (.execute index run : Action R Id) := trivial
  refine ⟨s', ((Reaches.refl s).tail hsucceeds hstep).trans hreach, htable, ?_⟩
  rw [hself] at hresumes
  refine ⟨hresumes.counters, hresumes.sync, hresumes.recovered, ?_, fun other hother => ?_⟩
  · rw [hresumes.startup, hself]
    rfl
  · rw [hresumes.others other hother, hself]
    exact Function.update_of_ne hother _ _

/-- The bucket that was asked for is merged when its answer has arrived. -/
theorem mergedBucket_asked (counters : InsertionMap Id Bucket) (table : Table Id)
    (hasked : counters.get asked = some bucket) :
    MergedBucket now (absorb counters asked bucket (upsert table asked bucket).1)
      (upsert table asked bucket).2 asked := by
  intro found hfound hlive
  rw [upsert] at hfound ⊢
  cases hrow : table asked with
  | none =>
      simp only [hrow, absorb, InsertionMap.get_set_self, Option.some.injEq] at hfound ⊢
      exact ⟨bucket, Function.update_self _ _ _, Or.inr (by simp [← hfound])⟩
  | some row =>
      simp only [hrow] at hfound ⊢
      split at hfound
      · next hle =>
          simp only [absorb, InsertionMap.get_set_self, Option.some.injEq] at hfound
          rw [if_pos hle]
          exact ⟨_, Function.update_self _ _ _, Or.inr (by simp [← hfound])⟩
      · next hlt =>
          obtain rfl := Option.some.inj (hasked.symm.trans hfound)
          rw [if_neg hlt]
          exact ⟨row, hrow, Or.inl (not_le.mp hlt)⟩

/-- Any other bucket is merged as before. -/
theorem mergedBucket_of_ne (hne : id ≠ asked) (hmerged : MergedBucket now counters table id) :
    MergedBucket now (absorb counters asked bucket (upsert table asked bucket).1)
      (upsert table asked bucket).2 id := by
  intro found hfound hlive
  rw [get_absorb_of_ne _ _ _ hne] at hfound
  rw [upsert_of_ne hne]
  exact hmerged found hfound hlive

/-- A loop at its end has visited every live bucket. -/
theorem mergedBucket_of_finished (hfinished : advance counters visited now = .finished)
    (hvisited : id ∈ visited → MergedBucket now counters table id) :
    MergedBucket now counters table id := by
  by_cases hid : id ∈ visited
  · exact hvisited hid
  · intro bucket hbucket hlive
    obtain ⟨visited', asked, found, hadvance, -⟩ := advance_of_live hid hbucket hlive
    rw [hfinished] at hadvance
    cases hadvance

theorem keys_absorb (merged : Option ℕ) (hasked : counters.get asked = some bucket) :
    (absorb counters asked bucket merged).keys = counters.keys := by
  cases merged with
  | none => rfl
  | some count => exact counters.keys_set_of_present _ hasked

/-- A run whose queries all succeed comes to its end, and has merged what it had
still to visit. -/
theorem exists_finished (maxSize now : ℕ) (index : R) (run remaining : ℕ) :
    ∀ (s : System R Id) (visited : List Id),
      (unvisited (s.regions index).counters visited).length ≤ remaining →
      (s.regions index).syncs run = advance (s.regions index).counters visited now →
      (advance (s.regions index).counters visited now = .finished →
        (s.regions index).degraded = false) →
      ∃ s', Reaches (step maxSize) (fun _ action => Succeeds now action) s s' ∧
        (s'.regions index).degraded = false ∧
        (s'.regions index).startup = (s.regions index).startup ∧
        (∀ other, other ≠ run → (s'.regions index).syncs other = (s.regions index).syncs other) ∧
        ∀ id, (id ∈ visited → MergedBucket now (s.regions index).counters s.table id) →
          MergedBucket now (s'.regions index).counters s'.table id := by
  -- on the number of buckets that the loop has still to visit
  induction remaining with
  | zero =>
      intro s visited hremaining hrun hrecovered
      have hnone : unvisited (s.regions index).counters visited = [] :=
        List.eq_nil_of_length_eq_zero (Nat.le_zero.mp hremaining)
      have hfinished : advance (s.regions index).counters visited now = .finished := by
        rw [advance, hnone]
        rfl
      exact ⟨s, .refl s, hrecovered hfinished, rfl, fun _ _ => rfl,
        fun id hvisited => mergedBucket_of_finished hfinished hvisited⟩
  | succ remaining ih =>
      intro s visited hremaining hrun hrecovered
      rcases advance_eq (s.regions index).counters visited now with
        hfinished | ⟨visited', asked, bucket, hadvance⟩
      · exact ⟨s, .refl s, hrecovered hfinished, rfl, fun _ _ => rfl,
          fun id hvisited => mergedBucket_of_finished hfinished hvisited⟩
      · obtain ⟨hsub, hin, hout, hvisited⟩ := visited_of_advance hadvance
        have hasked := advance_querying hadvance
        obtain ⟨s₁, hreach, htable, hresumes⟩ :=
          exists_resumes_of_querying maxSize now (hrun.trans hadvance)
        have hkeys : (s₁.regions index).counters.keys = (s.regions index).counters.keys := by
          rw [hresumes.counters]
          exact keys_absorb _ hasked
        have hmem : asked ∈ (s.regions index).counters.keys := by
          rw [InsertionMap.mem_keys_iff, hasked]
          rfl
        have hless := length_unvisited_lt hkeys hsub hmem hout hin
        obtain ⟨s₂, hreach', hdegraded, hstartup, hothers, hmerged⟩ := ih s₁ visited'
          (by omega) (by rw [hresumes.sync, hresumes.counters])
          (by rw [hresumes.counters]; exact hresumes.recovered)
        refine ⟨s₂, hreach.trans hreach', hdegraded, hstartup.trans hresumes.startup,
          fun other hother => (hothers other hother).trans (hresumes.others other hother),
          fun id hold => hmerged id fun hid => ?_⟩
        rw [hresumes.counters, htable]
        by_cases hne : id = asked
        · subst hne
          exact mergedBucket_asked _ _ hasked
        · apply mergedBucket_of_ne hne
          obtain hbefore | hsame | ⟨found, hfound, hexpired⟩ := hvisited id hid
          · exact hold hbefore
          · exact absurd hsame hne
          · intro other hother hlive
            obtain rfl := Option.some.inj (hfound.symm.trans hother)
            omega

/-- A run in flight comes to its end where its queries succeed. -/
theorem exists_finished_of_inFlight (maxSize now : ℕ)
    (hflight : ((s.regions index).syncs run).InFlight) :
    ∃ s', Reaches (step maxSize) (fun _ action => Succeeds now action) s s' ∧
      (s'.regions index).degraded = false ∧
      (s'.regions index).startup = (s.regions index).startup ∧
      ∀ other, other ≠ run → (s'.regions index).syncs other = (s.regions index).syncs other := by
  obtain ⟨visited, counters, s₁, hreach, hresumes⟩ : ∃ visited counters s₁,
      Reaches (step maxSize) (fun _ action => Succeeds now action) s s₁ ∧
      Resumes now index run counters visited s s₁ := by
    cases hrun : (s.regions index).syncs run with
    | querying visited asked bucket =>
        obtain ⟨s₁, hreach, -, hresumes⟩ := exists_resumes_of_querying maxSize now hrun
        exact ⟨visited, _, s₁, hreach, hresumes⟩
    | answered visited asked bucket merged =>
        obtain ⟨s₁, hreach, -, hresumes⟩ := exists_resumes_of_answered maxSize now hrun
        exact ⟨visited, _, s₁, hreach, hresumes⟩
    | notStarted | skipped | finished | failed => rw [hrun] at hflight; exact False.elim hflight
  obtain ⟨s₂, hreach', hdegraded, hstartup, hothers, -⟩ :=
    exists_finished maxSize now index run _ s₁ visited le_rfl
      (by rw [hresumes.sync, hresumes.counters])
      (by rw [hresumes.counters]; exact hresumes.recovered)
  exact ⟨s₂, hreach.trans hreach', hdegraded, hstartup.trans hresumes.startup,
    fun other hother => (hothers other hother).trans (hresumes.others other hother)⟩

/-- A region that is not degraded merges its live buckets in its next run. -/
theorem recovers_of_fresh (maxSize now : ℕ) (hdegraded : (s.regions index).degraded = false)
    (htimer : (s.regions index).startup = .syncing)
    (hfresh : (s.regions index).syncs run = .notStarted) : Recovers maxSize now s index := by
  have hstep : step maxSize s (.sync index run now) = some (s.setRegion index
      ((s.regions index).proceed run (advance (s.regions index).counters [] now))) := by
    simp [step, htimer, hfresh, hdegraded]
  have hresumes : Resumes now index run (s.regions index).counters [] s (s.setRegion index
      ((s.regions index).proceed run (advance (s.regions index).counters [] now))) :=
    resumes_setRegion [] rfl fun _ _ => rfl
  have hsucceeds : Succeeds now (.sync index run now : Action R Id) := rfl
  obtain ⟨s', hreach, hrecovered, -, -, hmerged⟩ := exists_finished maxSize now index run _ _ []
    le_rfl (by rw [hresumes.sync, hresumes.counters])
    (by rw [hresumes.counters]; exact hresumes.recovered)
  exact ⟨s', ((Reaches.refl s).tail hsucceeds hstep).trans hreach, hrecovered,
    fun id => hmerged id fun hid => absurd hid List.not_mem_nil⟩

/-- A degraded region recovers if and only if one of its runs is in flight. -/
theorem recovers_iff_syncing {maxSize : ℕ} {startup : R → Startup} {s : System R Id} {index : R}
    (hreach : Reaches (step maxSize) anyStep (.init startup) s)
    (hdegraded : (s.regions index).degraded = true) (now : ℕ) :
    Recovers maxSize now s index ↔ Syncing s index := by
  constructor
  · intro hrecovers
    by_contra hidle
    exact not_recovers_of_stuck ⟨hdegraded, fun run hflight => hidle ⟨run, hflight⟩⟩ hrecovers
  · rintro ⟨run, hflight⟩
    have hstarted := started_of_reaches hreach index
    obtain ⟨bound, hfresh⟩ := hstarted.fresh
    have htimer : (s.regions index).startup = .syncing := by
      apply hstarted.timer run
      intro hnot
      rw [hnot] at hflight
      exact hflight
    obtain ⟨s₁, hreach₁, hrecovered, hstartup, hothers⟩ :=
      exists_finished_of_inFlight maxSize now hflight
    have hne : max bound (run + 1) ≠ run := by omega
    obtain ⟨s₂, hreach₂, hrecovered₂, hmerged⟩ := recovers_of_fresh maxSize now hrecovered
      (hstartup.trans htimer)
      ((hothers _ hne).trans (hfresh (max bound (run + 1)) (Nat.le_max_left _ _)))
    exact ⟨s₂, hreach₁.trans hreach₂, hrecovered₂, hmerged⟩

end Loop

section Examples

def overtaken : List (Action Unit String) :=
  [.increment () "b" 1 60 0, .sync () 0 0, .sync () 1 0, .fail () 1]

theorem overtaken_recovers : ∃ s : System Unit String,
    (s.regions ()).degraded = true ∧ (Recovers 10 0 s () ↔ Syncing s ()) := by
  let start : System Unit String := .init fun _ => .syncing
  let s := (run (step 10) start overtaken).get (by decide)
  have hreach : Reaches (step 10) anyStep start s := reaches_of_run (Option.some_get _).symm
  have hdegraded : (s.regions ()).degraded = true := by decide
  exact ⟨s, hdegraded, recovers_iff_syncing hreach hdegraded 0⟩

def failsAlone : List (Action Unit String) :=
  [.increment () "b" 1 60 0, .sync () 0 0, .fail () 0]

theorem degraded_for_ever : ¬ ∀ s : System Unit String,
    Reaches (step 10) anyStep (.init fun _ => .syncing) s → (s.regions ()).degraded = true →
      Recovers 10 0 s () := by
  intro hrecovers
  let start : System Unit String := .init fun _ => .syncing
  let s := (run (step 10) start failsAlone).get (by decide)
  have hreach : Reaches (step 10) anyStep start s := reaches_of_run (Option.some_get _).symm
  have hdegraded : (s.regions ()).degraded = true := by decide
  have hidle : ∀ run, ¬ ((s.regions ()).syncs run).InFlight := by
    intro run hflight
    cases run with
    | zero =>
        have hfailed : (s.regions ()).syncs 0 = .failed := by decide
        rw [hfailed] at hflight
        exact hflight
    | succ run =>
        have hnot : (s.regions ()).syncs (run + 1) = .notStarted := rfl
        rw [hnot] at hflight
        exact hflight
  exact not_recovers_of_stuck ⟨hdegraded, hidle⟩ (hrecovers s hreach hdegraded)

end Examples

end Crdt

end X402Facilitator.RateLimit
