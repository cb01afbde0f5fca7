import X402Facilitator.RateLimit.CrdtSteps

/-!
# Where the total is

The table or some region has all that was counted, and a run in flight does not
take it away.
-/

namespace X402Facilitator.RateLimit

namespace Crdt

open Execution

variable {R Id : Type*}

section RegionSound

variable [DecidableEq Id] {id : Id} {resetAt row own : ℕ} {region region' : Region Id}

structure Region.Sound (id : Id) (resetAt row own : ℕ) (region : Region Id) : Prop where
  counter : ∀ bucket, region.counters.get id = some bucket → bucket.resetAt = resetAt
  querying : ∀ run visited bucket, region.syncs run = .querying visited id bucket →
    bucket.resetAt = resetAt ∧ (region.counters.get id).isSome ∧
      held id region.counters ≤ max row bucket.count ∧ own ≤ bucket.count
  answered : ∀ run visited bucket merged, region.syncs run = .answered visited id bucket merged →
    bucket.resetAt = resetAt ∧ (region.counters.get id).isSome ∧
      held id region.counters ≤ row ∧ ∃ count, merged = some count ∧ count ≤ row ∧ own ≤ count
  alone : ∀ run run', (region.syncs run).InFlight → (region.syncs run').InFlight → run = run'
  own : own ≤ held id region.counters

theorem Region.Sound.mono (hsound : region.Sound id resetAt row own) {row' : ℕ}
    (hle : row ≤ row') : region.Sound id resetAt row' own where
  counter := hsound.counter
  querying := by
    intro run visited bucket hrun
    obtain ⟨hreset, hsome, hheld, hown⟩ := hsound.querying run visited bucket hrun
    exact ⟨hreset, hsome, hheld.trans (max_le_max_right _ hle), hown⟩
  answered := by
    intro run visited bucket merged hrun
    obtain ⟨hreset, hsome, hheld, count, hmerged, hcount, hown⟩ :=
      hsound.answered run visited bucket merged hrun
    exact ⟨hreset, hsome, hheld.trans hle, count, hmerged, hcount.trans hle, hown⟩
  alone := hsound.alone
  own := hsound.own

theorem Region.Sound.keeps (hsound : region.Sound id resetAt row own)
    (hkeeps : region.Keeps id region') : region'.Sound id resetAt row own where
  counter := fun bucket hbucket => hsound.counter bucket (hkeeps.get ▸ hbucket)
  querying := by
    intro run visited bucket hrun
    obtain ⟨visited', hold, -⟩ := (hrun ▸ hkeeps.narrows run).of_querying
    rw [hkeeps.get, hkeeps.held]
    exact hsound.querying run visited' bucket hold
  answered := by
    intro run visited bucket merged hrun
    obtain ⟨visited', hold, -⟩ := (hrun ▸ hkeeps.narrows run).of_answered
    rw [hkeeps.get, hkeeps.held]
    exact hsound.answered run visited' bucket merged hold
  alone := fun run run' hflight hflight' => hsound.alone run run'
    ((hkeeps.narrows run).inFlight hflight) ((hkeeps.narrows run').inFlight hflight')
  own := by
    rw [hkeeps.held]
    exact hsound.own

/-- The region counts, with no run waiting for the bucket. -/
theorem Region.Sound.counted (hsound : region.Sound id resetAt row own) {amount : ℕ}
    (hfree : ∀ run, ¬ (region.syncs run).Awaits id)
    (hget : region'.counters.get id = some ⟨held id region.counters + amount, resetAt⟩)
    (hnarrows : ∀ run, (region.syncs run).Narrows (region'.syncs run)) :
    region'.Sound id resetAt row (own + amount) where
  counter := by
    intro bucket hbucket
    rw [hget] at hbucket
    obtain rfl := Option.some.inj hbucket
    rfl
  querying := by
    intro run visited bucket hrun
    obtain ⟨visited', hold, -⟩ := (hrun ▸ hnarrows run).of_querying
    exact absurd (by rw [hold]; rfl) (hfree run)
  answered := by
    intro run visited bucket merged hrun
    obtain ⟨visited', hold, -⟩ := (hrun ▸ hnarrows run).of_answered
    exact absurd (by rw [hold]; rfl) (hfree run)
  alone := fun run run' hflight hflight' => hsound.alone run run'
    ((hnarrows run).inFlight hflight) ((hnarrows run').inFlight hflight')
  own := by
    rw [held, hget]
    exact Nat.add_le_add_right hsound.own amount

variable {run : ℕ} {asked : Id} {bucket : Bucket} {merged : Option ℕ} {visited : List Id}

/-- A run is replaced, and if it is in flight afterwards then no other one is. -/
theorem Region.Sound.replace (hsound : region.Sound id resetAt row own) {state : SyncRun Id}
    (hcounters : region'.counters = region.counters)
    (hsyncs : region'.syncs = Function.update region.syncs run state) (hflight : state.InFlight →
      ∀ other, (region.syncs other).InFlight → other = run)
    (hquerying : ∀ visited bucket, state = .querying visited id bucket →
      region.counters.get id = some bucket)
    (hanswered : ∀ visited bucket merged, state = .answered visited id bucket merged →
      bucket.resetAt = resetAt ∧ (region.counters.get id).isSome ∧
        held id region.counters ≤ row ∧ ∃ count, merged = some count ∧ count ≤ row ∧ own ≤ count) :
    region'.Sound id resetAt row own where
  counter := by
    rw [hcounters]
    exact hsound.counter
  querying := by
    intro other visited bucket hother
    rw [hsyncs] at hother
    rw [hcounters]
    rcases update_cases hother with ⟨rfl, hstate⟩ | ⟨-, hold⟩
    · have hget := hquerying visited bucket hstate
      have hheld : held id region.counters = bucket.count := by rw [held, hget]; rfl
      refine ⟨hsound.counter bucket hget, by rw [hget]; rfl, ?_, hheld ▸ hsound.own⟩
      rw [hheld]
      exact le_max_right _ _
    · exact hsound.querying other visited bucket hold
  answered := by
    intro other visited bucket merged hother
    rw [hsyncs] at hother
    rw [hcounters]
    rcases update_cases hother with ⟨rfl, hstate⟩ | ⟨-, hold⟩
    · exact hanswered visited bucket merged hstate
    · exact hsound.answered other visited bucket merged hold
  alone := by
    intro first second hfirst hsecond
    rw [hsyncs] at hfirst hsecond
    rcases SyncRun.inFlight_update hfirst with ⟨rfl, hstate⟩ | ⟨-, hold⟩
    · rcases SyncRun.inFlight_update hsecond with ⟨rfl, -⟩ | ⟨-, hold⟩
      · rfl
      · exact (hflight hstate second hold).symm
    · rcases SyncRun.inFlight_update hsecond with ⟨rfl, hstate⟩ | ⟨-, hold'⟩
      · exact hflight hstate first hold
      · exact hsound.alone first second hold hold'
  own := by
    rw [hcounters]
    exact hsound.own

/-- The local bucket takes the answer of the one run in flight. -/
theorem Region.Sound.absorbed (hsound : region.Sound id resetAt row own)
    (hrun : region.syncs run = .answered visited asked bucket merged) :
    { region with counters := absorb region.counters asked bucket merged }.Sound id resetAt
      row own := by
  by_cases hasked : asked = id
  · subst hasked
    obtain ⟨hreset, -, -, count, rfl, hcount, hown⟩ :=
      hsound.answered run visited bucket merged hrun
    have hget : (region.counters.set asked ⟨count, bucket.resetAt⟩).get asked =
        some ⟨count, bucket.resetAt⟩ := InsertionMap.get_set_self _ _ _
    have hheld : held asked (region.counters.set asked ⟨count, bucket.resetAt⟩) = count := by
      rw [held, hget]
      rfl
    have honly : ∀ other, (region.syncs other).InFlight → other = run := fun other hflight =>
      hsound.alone other run hflight (by rw [hrun]; trivial)
    constructor
    · intro found hfound
      obtain rfl := Option.some.inj (hget.symm.trans hfound)
      exact hreset
    · intro other visited' found hother
      obtain rfl := honly other (by rw [hother]; trivial)
      simp [hrun] at hother
    · intro other visited' found merged' hother
      obtain rfl := honly other (by rw [hother]; trivial)
      simp only [hrun, SyncRun.answered.injEq, true_and] at hother
      obtain ⟨-, rfl, rfl⟩ := hother
      rw [absorb, hget, hheld]
      exact ⟨hreset, rfl, hcount, count, rfl, hcount, hown⟩
    · exact hsound.alone
    · rw [absorb, hheld]
      exact hown
  · apply hsound.keeps
    exact ⟨get_absorb_of_ne _ _ _ (Ne.symm hasked), fun _ => .refl _⟩

theorem Region.Sound.resumed (hsound : region.Sound id resetAt row own) {now : ℕ}
    (hrun : region.syncs run = .answered visited asked bucket merged)
    (hcounters : region'.counters = absorb region.counters asked bucket merged)
    (hsyncs : region'.syncs = Function.update region.syncs run
      (advance region'.counters visited now)) : region'.Sound id resetAt row own := by
  apply (hsound.absorbed hrun).replace hcounters hsyncs
  · exact fun _ other hflight => hsound.alone other run hflight (by rw [hrun]; trivial)
  · intro visited' found hstate
    rw [← hcounters]
    exact advance_querying hstate
  · exact fun _ _ _ hstate => absurd hstate advance_ne_answered

end RegionSound

section Sound

variable [DecidableEq Id] [DecidableEq R] {id : Id} {resetAt maxSize : ℕ} {s s' : System R Id}

structure Sound (id : Id) (resetAt : ℕ) (s : System R Id) : Prop where
  row : ∀ row, s.table id = some row → row.resetAt = resetAt
  sweep : ∀ index, SweepsInside resetAt (s.regions index).queries
  region : ∀ index, (s.regions index).Sound id resetAt (rowCount id s.table) (own id s index)
  holder : total id s ≤ rowCount id s.table ∨
    ∃ index, total id s ≤ held id (s.regions index).counters

theorem Sound.dated (hsound : Sound id resetAt s) : Dated id resetAt s where
  row := hsound.row
  counter := fun index => (hsound.region index).counter
  sweep := hsound.sweep

theorem sound_init (startup : R → Startup) : Sound id resetAt (.init startup) where
  row := fun _ hrow => by cases hrow
  sweep := fun _ _ hquery => by simp [System.init, Region.init] at hquery
  region := fun index => by
    constructor
    · exact fun _ hbucket => by cases hbucket
    · exact fun _ _ _ hrun => by cases hrun
    · exact fun _ _ _ _ hrun => by cases hrun
    · exact fun _ _ hflight => False.elim hflight
    · exact Nat.le_refl 0
  holder := Or.inl (Nat.le_refl 0)

variable {action : Action R Id} {amount : ℕ} {index : R}

theorem sweepsInside_of_step (hsweep : ∀ index, SweepsInside resetAt (s.regions index).queries)
    (hinside : InWindow id resetAt action) (hstep : step maxSize s action = some s') (other : R) :
    SweepsInside resetAt (s'.regions other).queries := by
  have hasked {queries : List (Query Id)} (hqueries : ∀ now, .delete now ∈ queries →
      .delete now ∈ (s.regions other).queries ∨ ∃ index, action = .sweep index now) :
      SweepsInside resetAt queries := by
    intro now hmem
    obtain hold | ⟨index, rfl⟩ := hqueries now hmem
    · exact hsweep other now hold
    · exact hinside
  obtain hsame | hturns := turns_of_step hstep other
  · rw [hsame]
    exact hsweep other
  · generalize s'.regions other = region' at hturns
    cases hturns with
    | asks queries hqueries => exact hasked hqueries
    | counts counters queries hqueries => exact hasked hqueries
    | rejects query => exact hasked fun now hmem => Or.inl (List.mem_of_mem_eraseIdx hmem)
    | begins run state htimer honline | resumes run state counters hrun =>
        rw [proceed_queries]
        exact hsweep other
    | starts | skips | executes | fails => exact hsweep other

omit [DecidableEq R] in
theorem total_concat (hincrements : s'.increments = s.increments ++ [(index, id, amount)]) :
    total id s' = total id s + amount := by
  simp [total, hincrements]

theorem own_concat (hincrements : s'.increments = s.increments ++ [(index, id, amount)]) (other : R) :
    own id s' other = own id s other + if other = index then amount else 0 := by
  simp [own, hincrements, eq_comm]

omit [DecidableEq R] in
theorem total_congr (hincrements : s'.increments = s.increments) : total id s' = total id s := by
  rw [total, total, hincrements]

theorem own_congr (hincrements : s'.increments = s.increments) (index : R) :
    own id s' index = own id s index := by
  rw [own, own, hincrements]

/-- What a query of a sound region leaves in the row. -/
theorem Sound.upserted (hsound : Sound id resetAt s) {run : ℕ} {visited : List Id} {asked : Id}
    {bucket : Bucket} (hrun : (s.regions index).syncs run = .querying visited asked bucket) :
    (∀ row, (upsert s.table asked bucket).2 id = some row → row.resetAt = resetAt) ∧
      rowCount id s.table ≤ rowCount id (upsert s.table asked bucket).2 ∧
      (asked = id → rowCount id (upsert s.table asked bucket).2 =
          max (rowCount id s.table) bucket.count ∧
        (upsert s.table asked bucket).1 =
          some (rowCount id (upsert s.table asked bucket).2)) := by
  by_cases hasked : asked = id
  · subst hasked
    obtain ⟨hreset, -⟩ := (hsound.region index).querying run visited bucket hrun
    obtain ⟨hmerged, hrow⟩ := upsert_self fun row hrow => (hsound.row row hrow).trans hreset.symm
    have hcount : rowCount asked (upsert s.table asked bucket).2 =
        max (rowCount asked s.table) bucket.count := by
      rw [rowCount, hrow]
      rfl
    refine ⟨fun row hfound => ?_, ?_, fun _ => ⟨hcount, by rw [hmerged, hcount]⟩⟩
    · rw [hrow] at hfound
      obtain rfl := Option.some.inj hfound
      exact hreset
    · rw [hcount]
      exact le_max_left _ _
  · have hrow : (upsert s.table asked bucket).2 id = s.table id := upsert_of_ne (Ne.symm hasked)
    refine ⟨fun row hfound => hsound.row row (hrow ▸ hfound), ?_, fun heq => absurd heq hasked⟩
    rw [rowCount, rowCount, hrow]

omit [DecidableEq R] in
theorem held_unchanged (hcounters : (s'.regions index).counters = (s.regions index).counters)
    (hothers : ∀ other, other ≠ index → s'.regions other = s.regions other) (other : R) :
    held id (s'.regions other).counters = held id (s.regions other).counters := by
  by_cases hother : other = index
  · rw [hother, hcounters]
  · rw [hothers other hother]

theorem Sound.preserved (hsound : Sound id resetAt s) (hinside : InWindow id resetAt action)
    (hmeets : CountsWithTotal maxSize id s action) (hstep : step maxSize s action = some s') :
    Sound id resetAt s' := by
  have hsweep := sweepsInside_of_step hsound.sweep hinside hstep
  cases moves_of_step hsound.dated hinside hmeets hstep with
  | quiet hregions htable htotal hown =>
      have hrow : rowCount id s'.table = rowCount id s.table := by
        rw [rowCount, rowCount, htable]
      refine ⟨fun row hfound => hsound.row row (htable ▸ hfound), hsweep, fun index => ?_, ?_⟩
      · rw [hrow, hown]
        exact (hsound.region index).keeps (hregions index)
      · rw [hrow, htotal]
        refine hsound.holder.imp_right ?_
        rintro ⟨index, hindex⟩
        refine ⟨index, ?_⟩
        rw [(hregions index).held]
        exact hindex
  | @counted index amount now hget hnarrows hothers htable hincrements =>
      obtain ⟨hholds, hfree⟩ := hmeets.2 rfl
      have htotal := total_concat hincrements
      refine ⟨fun row hfound => hsound.row row (htable ▸ hfound), hsweep, fun other => ?_,
        Or.inr ⟨index, ?_⟩⟩
      · rw [htable, own_concat hincrements]
        by_cases hother : other = index
        · subst hother
          rw [if_pos rfl]
          exact (hsound.region other).counted hfree hget hnarrows
        · rw [if_neg hother, hothers other hother]
          exact hsound.region other
      · rw [htotal, held, hget]
        exact Nat.add_le_add_right hholds amount
  | @started index run now state hnow hrun hstate hcounters hsyncs hothers htable hincrements =>
      refine ⟨fun row hfound => hsound.row row (htable ▸ hfound), hsweep, fun other => ?_, ?_⟩
      · rw [htable, own_congr hincrements]
        by_cases hother : other = index
        · subst hother
          apply (hsound.region other).replace hcounters hsyncs
          · exact fun _ run' hflight => absurd hflight (hmeets run')
          · intro visited bucket hquerying
            rcases hstate with rfl | rfl
            · cases hquerying
            · exact advance_querying hquerying
          · intro visited bucket merged hanswered
            rcases hstate with rfl | rfl
            · cases hanswered
            · exact absurd hanswered advance_ne_answered
        · rw [hothers other hother]
          exact hsound.region other
      · rw [htable, total_congr hincrements]
        refine hsound.holder.imp_right ?_
        rintro ⟨other, hother⟩
        exact ⟨other, hother.trans (held_unchanged hcounters hothers other).ge⟩
  | @executed index run visited asked bucket hrun hcounters hsyncs hothers htable hincrements =>
      obtain ⟨hdated, hgrows, hmerged⟩ := hsound.upserted hrun
      refine ⟨fun row hfound => hdated row (htable ▸ hfound), hsweep, fun other => ?_, ?_⟩
      · rw [htable, own_congr hincrements]
        by_cases hother : other = index
        · subst hother
          apply ((hsound.region other).mono hgrows).replace hcounters hsyncs
          · exact fun _ run' hflight =>
              (hsound.region other).alone run' run hflight (by rw [hrun]; trivial)
          · exact fun _ _ hquerying => by cases hquerying
          · intro visited' bucket' merged hanswered
            simp only [SyncRun.answered.injEq] at hanswered
            obtain ⟨-, rfl, rfl, rfl⟩ := hanswered
            obtain ⟨hreset, hsome, hheld, hown⟩ :=
              (hsound.region other).querying run visited bucket hrun
            obtain ⟨hcount, hfirst⟩ := hmerged rfl
            refine ⟨hreset, hsome, hcount ▸ hheld, _, hfirst, le_rfl, ?_⟩
            rw [hcount]
            exact hown.trans (le_max_right _ _)
        · rw [hothers other hother]
          exact (hsound.region other).mono hgrows
      · rw [htable, total_congr hincrements]
        rcases hsound.holder with hrow | ⟨other, hother⟩
        · exact Or.inl (hrow.trans hgrows)
        · exact Or.inr ⟨other, hother.trans (held_unchanged hcounters hothers other).ge⟩
  | @resumed index run now visited asked bucket merged hnow hrun hcounters hsyncs hothers
      htable hincrements =>
      refine ⟨fun row hfound => hsound.row row (htable ▸ hfound), hsweep, fun other => ?_, ?_⟩
      · rw [htable, own_congr hincrements]
        by_cases hother : other = index
        · subst hother
          exact (hsound.region other).resumed hrun hcounters hsyncs
        · rw [hothers other hother]
          exact hsound.region other
      · rw [htable, total_congr hincrements]
        rcases hsound.holder with hrow | ⟨other, hother⟩
        · exact Or.inl hrow
        · by_cases hne : other = index
          · subst hne
            by_cases hasked : asked = id
            · subst hasked
              obtain ⟨-, -, hheld, -⟩ :=
                (hsound.region other).answered run visited bucket merged hrun
              exact Or.inl (hother.trans hheld)
            · refine Or.inr ⟨other, ?_⟩
              rw [held, hcounters, get_absorb_of_ne _ _ _ (Ne.symm hasked)]
              exact hother
          · exact Or.inr ⟨other, by rw [hothers other hne]; exact hother⟩
  | @failed index run hrun hcounters hsyncs hothers htable hincrements =>
      refine ⟨fun row hfound => hsound.row row (htable ▸ hfound), hsweep, fun other => ?_, ?_⟩
      · rw [htable, own_congr hincrements]
        by_cases hother : other = index
        · subst hother
          apply (hsound.region other).replace hcounters hsyncs
          · exact fun hflight => False.elim hflight
          · exact fun _ _ hquerying => by cases hquerying
          · exact fun _ _ _ hanswered => by cases hanswered
        · rw [hothers other hother]
          exact hsound.region other
      · rw [htable, total_congr hincrements]
        refine hsound.holder.imp_right ?_
        rintro ⟨other, hother⟩
        exact ⟨other, hother.trans (held_unchanged hcounters hothers other).ge⟩

end Sound

end Crdt

end X402Facilitator.RateLimit
