import X402Facilitator.RateLimit.CrdtInvariant

/-!
# Undercounting after convergence

The merge takes the larger of two whole counts, so what two regions have counted
apart is never added up.  Where the bucket is only counted with the total at
hand, one round of runs brings the total into the table and a second one brings
it to every region.
-/

namespace X402Facilitator.RateLimit

namespace Crdt

open Execution

variable {R Id : Type*}

section Statement

variable [DecidableEq Id]

omit [DecidableEq Id] in
/-- Every region completes a run of `_sync` that it starts on the way. -/
def Completes (s s' : System R Id) : Prop :=
  ∀ index, ∃ run, (s.regions index).syncs run = .notStarted ∧
    (s'.regions index).syncs run = .finished

/-- The count that a region's `get` answers when its query is answered. -/
def reported (id : Id) (s : System R Id) (index : R) (now : ℕ) : ℕ :=
  ((merged ((s.regions index).counters.get id) now (s.table id)).map Reading.count).getD 0

variable [DecidableEq R]

variable (maxSize : ℕ) (startup : R → Startup) (id : Id) (resetAt : ℕ)

/-- In runs inside one window whose actions satisfy `meets`, no region loses what
it has counted itself; and once nothing more is counted and every region has
completed a run of `_sync` and then another one, every region reports the total. -/
def NeverUndercounts (meets : System R Id → Action R Id → Prop) : Prop :=
  ∀ s, Reaches (step maxSize) (fun s action => InWindow id resetAt action ∧ meets s action)
      (.init startup) s →
    (∀ index, own id s index ≤ held id (s.regions index).counters) ∧
    ∀ s' s'', Reaches (step maxSize) (fun s action =>
        (InWindow id resetAt action ∧ meets s action) ∧ ¬ action.Counts id) s s' →
      Reaches (step maxSize) (fun s action =>
        (InWindow id resetAt action ∧ meets s action) ∧ ¬ action.Counts id) s' s'' →
      Completes s s' → Completes s' s'' →
      ∀ index, ∀ now < resetAt, total id s ≤ reported id s'' index now

end Statement

section Rounds

variable [DecidableEq Id] [DecidableEq R] {id : Id} {resetAt maxSize amount : ℕ}
variable {s s' : System R Id} {action : Action R Id} {index : R} {run : ℕ}

def SyncRun.Carries (id : Id) (amount : ℕ) : SyncRun Id → Prop
  | querying visited asked bucket =>
      (asked = id ∧ amount ≤ bucket.count) ∨ (asked ≠ id ∧ id ∉ visited)
  | answered visited asked _ _ => asked ≠ id ∧ id ∉ visited
  | finished => False
  | _ => True

def SyncRun.Fetches (id : Id) (amount : ℕ) : SyncRun Id → Prop
  | querying visited asked _ => asked = id ∨ id ∉ visited
  | answered visited asked _ merged =>
      (asked = id ∧ ∀ count, merged = some count → amount ≤ count) ∨ (asked ≠ id ∧ id ∉ visited)
  | finished => False
  | _ => True

structure Region.Settled (id : Id) (amount : ℕ) (region : Region Id) : Prop where
  counter : ∀ bucket, region.counters.get id = some bucket → amount ≤ bucket.count
  answered : ∀ run visited bucket count,
    region.syncs run = .answered visited id bucket (some count) → amount ≤ count

variable {state state' : SyncRun Id} {region region' : Region Id}
  {counters : InsertionMap Id Bucket} {now own row : ℕ} {visited : List Id} {bucket : Bucket}

omit [DecidableEq Id] in
theorem SyncRun.Carries.narrows (hcarries : state.Carries id amount)
    (hnarrows : state.Narrows state') : state'.Carries id amount := by
  cases hnarrows with
  | refl => exact hcarries
  | querying hsub => exact hcarries.imp_right (And.imp_right fun hout hin => hout (hsub hin))
  | answered hsub => exact hcarries.imp_right fun hout hin => hout (hsub hin)

omit [DecidableEq Id] in
theorem SyncRun.Fetches.narrows (hfetches : state.Fetches id amount)
    (hnarrows : state.Narrows state') : state'.Fetches id amount := by
  cases hnarrows with
  | refl => exact hfetches
  | querying hsub => exact hfetches.imp_right fun hout hin => hout (hsub hin)
  | answered hsub => exact hfetches.imp_right (And.imp_right fun hout hin => hout (hsub hin))

omit [DecidableEq R] in
theorem Region.Settled.keeps (hsettled : region.Settled id amount)
    (hkeeps : region.Keeps id region') : region'.Settled id amount where
  counter := fun bucket hbucket => hsettled.counter bucket (hkeeps.get ▸ hbucket)
  answered := by
    intro run visited bucket count hrun
    obtain ⟨visited', hold, -⟩ := (hrun ▸ hkeeps.narrows run).of_answered
    exact hsettled.answered run visited' bucket count hold

/-- A loop that has not visited a bucket with `amount` carries it. -/
theorem carries_advance (hvisited : id ∉ visited) (hamount : 0 < amount)
    (hheld : amount ≤ held id counters)
    (hlive : ∀ bucket, counters.get id = some bucket → now < bucket.resetAt) :
    (advance counters visited now).Carries id amount := by
  cases hbucket : counters.get id with
  | none =>
      rw [held, hbucket] at hheld
      exact absurd hheld (Nat.not_le.mpr hamount)
  | some bucket =>
      obtain ⟨visited', asked, found, hadvance, hwhich⟩ :=
        advance_of_live hvisited hbucket (hlive bucket hbucket)
      rw [hadvance]
      by_cases hasked : asked = id
      · subst hasked
        obtain rfl := Option.some.inj (hbucket.symm.trans (advance_querying hadvance))
        rw [held, hbucket] at hheld
        exact Or.inl ⟨rfl, hheld⟩
      · exact Or.inr ⟨hasked, hwhich.resolve_left hasked⟩

/-- A loop that has not visited the bucket fetches it, where there is one. -/
theorem fetches_advance (hvisited : id ∉ visited) (hbucket : counters.get id = some bucket)
    (hlive : now < bucket.resetAt) : (advance counters visited now).Fetches id amount := by
  obtain ⟨visited', asked, found, hadvance, hwhich⟩ := advance_of_live hvisited hbucket hlive
  rw [hadvance]
  exact hwhich

theorem Sound.row_mono (hsound : Sound id resetAt s) (hmoves : Moves id resetAt s s' action) :
    rowCount id s.table ≤ rowCount id s'.table := by
  cases hmoves with
  | quiet hregions htable htotal hown => rw [rowCount, rowCount, htable]
  | counted hget hnarrows hothers htable hincrements => rw [htable]
  | started state hnow hrun hstate hcounters hsyncs hothers htable hincrements => rw [htable]
  | executed hrun hcounters hsyncs hothers htable hincrements =>
      rw [htable]
      exact (hsound.upserted hrun).2.1
  | resumed hnow hrun hcounters hsyncs hothers htable hincrements => rw [htable]
  | failed hrun hcounters hsyncs hothers htable hincrements => rw [htable]

def Sends (id : Id) (amount : ℕ) (index : R) (run : ℕ) (s : System R Id) : Prop :=
  amount ≤ rowCount id s.table ∨
    (amount ≤ held id (s.regions index).counters ∧
      ((s.regions index).syncs run).Carries id amount)

omit [DecidableEq Id] [DecidableEq R] in
/-- A run that the step is not about goes on as it was. -/
theorem syncs_of_ne {region : R} {other : ℕ}
    (hsyncs : (s'.regions region).syncs = Function.update (s.regions region).syncs other state)
    (hothers : ∀ index, index ≠ region → s'.regions index = s.regions index)
    (hne : ¬ (index = region ∧ run = other)) :
    (s'.regions index).syncs run = (s.regions index).syncs run := by
  by_cases hregion : index = region
  · subst hregion
    rw [hsyncs, Function.update_of_ne fun hother => hne ⟨rfl, hother⟩]
  · rw [hothers index hregion]

theorem Sound.sends_step (hsound : Sound id resetAt s) (hamount : 0 < amount)
    (hquiet : ¬ action.Counts id) (hmoves : Moves id resetAt s s' action)
    (hsends : Sends id amount index run s) : Sends id amount index run s' := by
  rcases hsends with hrow | ⟨hheld, hcarries⟩
  · exact Or.inl (hrow.trans (hsound.row_mono hmoves))
  cases hmoves with
  | quiet hregions htable htotal hown =>
      exact Or.inr ⟨(hregions index).held.symm ▸ hheld,
        hcarries.narrows ((hregions index).narrows run)⟩
  | counted hget hnarrows hothers htable hincrements => exact absurd rfl hquiet
  | @started region other now state hnow hrun hstate hcounters hsyncs hothers htable =>
      refine Or.inr ⟨hheld.trans (held_unchanged hcounters hothers index).ge, ?_⟩
      by_cases hindex : index = region ∧ run = other
      · obtain ⟨rfl, rfl⟩ := hindex
        rw [hsyncs, Function.update_self]
        rcases hstate with rfl | rfl
        · trivial
        · exact carries_advance List.not_mem_nil hamount hheld fun bucket hbucket =>
            ((hsound.region index).counter bucket hbucket).symm ▸ hnow
      · rw [syncs_of_ne hsyncs hothers hindex]
        exact hcarries
  | @executed region other visited asked bucket hrun hcounters hsyncs hothers htable =>
      by_cases hindex : index = region ∧ run = other
      · obtain ⟨rfl, rfl⟩ := hindex
        rw [hrun] at hcarries
        rcases hcarries with ⟨hasked, hcount⟩ | hcarries
        · left
          rw [htable, ((hsound.upserted hrun).2.2 hasked).1]
          exact hcount.trans (le_max_right _ _)
        · refine Or.inr ⟨hheld.trans (held_unchanged hcounters hothers index).ge, ?_⟩
          rw [hsyncs, Function.update_self]
          exact hcarries
      · refine Or.inr ⟨hheld.trans (held_unchanged hcounters hothers index).ge, ?_⟩
        rw [syncs_of_ne hsyncs hothers hindex]
        exact hcarries
  | @resumed region other now visited asked bucket merged hnow hrun hcounters hsyncs hothers =>
      by_cases hindex : index = region
      · subst hindex
        by_cases hasked : asked = id
        · subst hasked
          obtain ⟨-, -, hle, -⟩ := (hsound.region index).answered other visited bucket merged hrun
          left
          exact (hheld.trans hle).trans (hsound.row_mono
            (.resumed hnow hrun hcounters hsyncs hothers ‹_› ‹_›))
        · have hsame : (s'.regions index).counters.get id = (s.regions index).counters.get id := by
            rw [hcounters, get_absorb_of_ne _ _ _ (Ne.symm hasked)]
          have hheld' : amount ≤ held id (s'.regions index).counters := by
            rw [held, hsame]
            exact hheld
          refine Or.inr ⟨hheld', ?_⟩
          rw [hsyncs]
          by_cases hother : run = other
          · subst hother
            rw [hrun] at hcarries
            rw [Function.update_self]
            apply carries_advance hcarries.2 hamount hheld'
            intro found hfound
            rw [(hsound.region index).counter found (hsame ▸ hfound)]
            exact hnow
          · rw [Function.update_of_ne hother]
            exact hcarries
      · rw [Sends, hothers index hindex]
        exact Or.inr ⟨hheld, hcarries⟩
  | @failed region other hrun hcounters hsyncs hothers htable =>
      refine Or.inr ⟨hheld.trans (held_unchanged hcounters hothers index).ge, ?_⟩
      by_cases hindex : index = region ∧ run = other
      · obtain ⟨rfl, rfl⟩ := hindex
        rw [hsyncs, Function.update_self]
        trivial
      · rw [syncs_of_ne hsyncs hothers hindex]
        exact hcarries

structure Receives (id : Id) (amount : ℕ) (index : R) (run : ℕ) (s : System R Id) : Prop where
  row : amount ≤ rowCount id s.table
  region : (s.regions index).Settled id amount ∨
    ((s.regions index).syncs run).Fetches id amount

/-- A sound region without the bucket has nothing to receive. -/
theorem Region.Sound.settled_of_absent (hsound : region.Sound id resetAt row own)
    (habsent : region.counters.get id = none) : region.Settled id amount where
  counter := fun bucket hbucket => by rw [habsent] at hbucket; cases hbucket
  answered := by
    intro run visited bucket count hrun
    obtain ⟨-, hsome, -⟩ := hsound.answered run visited bucket _ hrun
    simp [habsent] at hsome

/-- The loop goes on: it fetches the bucket, unless there is none. -/
theorem settled_or_fetches_advance (hsound : region.Sound id resetAt row own)
    (hvisited : id ∉ visited) (hnow : now < resetAt) : region.Settled id amount ∨
      (advance region.counters visited now).Fetches id amount := by
  cases hbucket : region.counters.get id with
  | none => exact Or.inl (hsound.settled_of_absent hbucket)
  | some bucket =>
      exact Or.inr (fetches_advance hvisited hbucket (hsound.counter bucket hbucket ▸ hnow))

/-- A run is replaced; a run that is answered now has been answered with the amount. -/
theorem Region.Settled.replace (hsettled : region.Settled id amount)
    (hcounters : region'.counters = region.counters)
    (hsyncs : region'.syncs = Function.update region.syncs run state)
    (hanswered : ∀ visited bucket count, state = .answered visited id bucket (some count) →
      amount ≤ count) : region'.Settled id amount where
  counter := hcounters ▸ hsettled.counter
  answered := by
    intro other visited bucket count hother
    rw [hsyncs] at hother
    rcases update_cases hother with ⟨-, hstate⟩ | ⟨-, hold⟩
    · exact hanswered visited bucket count hstate
    · exact hsettled.answered other visited bucket count hold

/-- The one run in flight brings the amount. -/
theorem Region.Sound.settled_of_resumed {count : ℕ} (hsound : region.Sound id resetAt row own)
    (hrun : region.syncs run = .answered visited id bucket (some count)) (hle : amount ≤ count)
    (hcounters : region'.counters = absorb region.counters id bucket (some count))
    (hsyncs : region'.syncs = Function.update region.syncs run
      (advance region'.counters visited now)) : region'.Settled id amount where
  counter := by
    intro found hfound
    rw [hcounters, absorb, InsertionMap.get_set_self] at hfound
    obtain rfl := Option.some.inj hfound
    exact hle
  answered := by
    intro other visited' bucket' count' hother
    rw [hsyncs] at hother
    rcases update_cases hother with ⟨-, hstate⟩ | ⟨hne, hold⟩
    · exact absurd hstate advance_ne_answered
    · exact absurd (hsound.alone other run (by rw [hold]; trivial) (by rw [hrun]; trivial)) hne

/-- The other bucket of a resumed run leaves this one settled. -/
theorem Region.Settled.resumed_of_ne {asked : Id} {merged : Option ℕ}
    (hsettled : region.Settled id amount) (hasked : asked ≠ id)
    (hcounters : region'.counters = absorb region.counters asked bucket merged)
    (hsyncs : region'.syncs = Function.update region.syncs run
      (advance region'.counters visited now)) : region'.Settled id amount where
  counter := by
    intro found hfound
    rw [hcounters, get_absorb_of_ne _ _ _ (Ne.symm hasked)] at hfound
    exact hsettled.counter found hfound
  answered := by
    intro other visited' bucket' count hother
    rw [hsyncs] at hother
    rcases update_cases hother with ⟨-, hstate⟩ | ⟨-, hold⟩
    · exact absurd hstate advance_ne_answered
    · exact hsettled.answered other visited' bucket' count hold

/-- A settled region stays settled. -/
theorem Sound.settled_step (hsound : Sound id resetAt s) (hquiet : ¬ action.Counts id)
    (hmoves : Moves id resetAt s s' action) (hrow : amount ≤ rowCount id s.table)
    (hsettled : (s.regions index).Settled id amount) : (s'.regions index).Settled id amount := by
  cases hmoves with
  | quiet hregions htable htotal hown => exact hsettled.keeps (hregions index)
  | counted hget hnarrows hothers htable hincrements => exact absurd rfl hquiet
  | @started region other now state hnow hrun hstate hcounters hsyncs hothers htable =>
      by_cases hindex : index = region
      · subst hindex
        apply hsettled.replace hcounters hsyncs
        intro visited bucket count hanswered
        rcases hstate with rfl | rfl
        · cases hanswered
        · exact absurd hanswered advance_ne_answered
      · rw [hothers index hindex]
        exact hsettled
  | @executed region other visited asked bucket hrun hcounters hsyncs hothers htable =>
      by_cases hindex : index = region
      · subst hindex
        apply hsettled.replace hcounters hsyncs
        intro visited' bucket' count hanswered
        simp only [SyncRun.answered.injEq] at hanswered
        obtain ⟨-, hasked, -, hmerged⟩ := hanswered
        rw [((hsound.upserted hrun).2.2 hasked).2] at hmerged
        obtain rfl := Option.some.inj hmerged
        exact hrow.trans (hsound.upserted hrun).2.1
      · rw [hothers index hindex]
        exact hsettled
  | @resumed region other now visited asked bucket merged hnow hrun hcounters hsyncs hothers =>
      by_cases hindex : index = region
      · subst hindex
        by_cases hasked : asked = id
        · subst hasked
          obtain ⟨-, -, -, count, rfl, -⟩ :=
            (hsound.region index).answered other visited bucket merged hrun
          exact (hsound.region index).settled_of_resumed hrun
            (hsettled.answered other visited bucket count hrun) hcounters hsyncs
        · exact hsettled.resumed_of_ne hasked hcounters hsyncs
      · rw [hothers index hindex]
        exact hsettled
  | @failed region other hrun hcounters hsyncs hothers htable =>
      by_cases hindex : index = region
      · subst hindex
        exact hsettled.replace hcounters hsyncs fun _ _ _ hanswered => by cases hanswered
      · rw [hothers index hindex]
        exact hsettled

/-- A run that fetches the amount goes on to, or settles the region. -/
theorem Sound.fetches_step (hsound : Sound id resetAt s) (hsound' : Sound id resetAt s')
    (hquiet : ¬ action.Counts id) (hmoves : Moves id resetAt s s' action)
    (hrow : amount ≤ rowCount id s.table)
    (hfetches : ((s.regions index).syncs run).Fetches id amount) :
    (s'.regions index).Settled id amount ∨
      ((s'.regions index).syncs run).Fetches id amount := by
  cases hmoves with
  | quiet hregions htable htotal hown =>
      exact Or.inr (hfetches.narrows ((hregions index).narrows run))
  | counted hget hnarrows hothers htable hincrements => exact absurd rfl hquiet
  | @started region other now state hnow hrun hstate hcounters hsyncs hothers htable =>
      by_cases hindex : index = region ∧ run = other
      · obtain ⟨rfl, rfl⟩ := hindex
        rw [hsyncs, Function.update_self]
        rcases hstate with rfl | rfl
        · exact Or.inr trivial
        · rw [← hcounters]
          exact settled_or_fetches_advance (hsound'.region index) List.not_mem_nil hnow
      · right
        rw [syncs_of_ne hsyncs hothers hindex]
        exact hfetches
  | @executed region other visited asked bucket hrun hcounters hsyncs hothers htable =>
      right
      by_cases hindex : index = region ∧ run = other
      · obtain ⟨rfl, rfl⟩ := hindex
        rw [hrun] at hfetches
        rw [hsyncs, Function.update_self]
        by_cases hasked : asked = id
        · refine Or.inl ⟨hasked, fun count hmerged => ?_⟩
          rw [((hsound.upserted hrun).2.2 hasked).2] at hmerged
          obtain rfl := Option.some.inj hmerged
          exact hrow.trans (hsound.upserted hrun).2.1
        · exact Or.inr ⟨hasked, hfetches.resolve_left hasked⟩
      · rw [syncs_of_ne hsyncs hothers hindex]
        exact hfetches
  | @resumed region other now visited asked bucket merged hnow hrun hcounters hsyncs hothers =>
      by_cases hindex : index = region ∧ run = other
      · obtain ⟨rfl, rfl⟩ := hindex
        rw [hrun] at hfetches
        rcases hfetches with ⟨rfl, hmerged⟩ | ⟨hasked, hvisited⟩
        · obtain ⟨-, -, -, count, rfl, -⟩ :=
            (hsound.region index).answered run visited bucket merged hrun
          exact Or.inl ((hsound.region index).settled_of_resumed hrun (hmerged count rfl)
            hcounters hsyncs)
        · rw [hsyncs, Function.update_self]
          exact settled_or_fetches_advance (hsound'.region index) hvisited hnow
      · right
        rw [syncs_of_ne hsyncs hothers hindex]
        exact hfetches
  | @failed region other hrun hcounters hsyncs hothers htable =>
      right
      by_cases hindex : index = region ∧ run = other
      · obtain ⟨rfl, rfl⟩ := hindex
        rw [hsyncs, Function.update_self]
        trivial
      · rw [syncs_of_ne hsyncs hothers hindex]
        exact hfetches

end Rounds

section Converged

variable [DecidableEq Id] [DecidableEq R] {id : Id} {resetAt maxSize amount : ℕ}
variable {s s' : System R Id} {index : R} {run : ℕ}

def Quiet (maxSize : ℕ) (id : Id) (resetAt : ℕ) (s : System R Id) (action : Action R Id) : Prop :=
  (InWindow id resetAt action ∧ CountsWithTotal maxSize id s action) ∧ ¬ action.Counts id

theorem Sound.reaches (hsound : Sound id resetAt s)
    (hreach : Reaches (step maxSize) (fun s action => InWindow id resetAt action ∧
      CountsWithTotal maxSize id s action) s s') : Sound id resetAt s' :=
  hreach.preserves
    (fun _ _ _ hsound hmeets hstep => hsound.preserved hmeets.1 hmeets.2 hstep) hsound

theorem Sound.quiet (hsound : Sound id resetAt s)
    (hreach : Reaches (step maxSize) (Quiet maxSize id resetAt) s s') : Sound id resetAt s' :=
  hsound.reaches (hreach.mono fun _ _ hquiet => hquiet.1)

/-- After the first round the row has what a region had. -/
theorem Sound.sends_reaches (hsound : Sound id resetAt s) (hamount : 0 < amount)
    (hreach : Reaches (step maxSize) (Quiet maxSize id resetAt) s s')
    (hsends : Sends id amount index run s) : Sends id amount index run s' := by
  induction hreach with
  | refl => exact hsends
  | tail hbefore hlast ih =>
      obtain ⟨action, hquiet, hstep⟩ := hlast
      have hsound' := hsound.quiet hbefore
      exact hsound'.sends_step hamount hquiet.2
        (moves_of_step hsound'.dated hquiet.1.1 hquiet.1.2 hstep) ih

theorem Sound.receives_reaches (hsound : Sound id resetAt s)
    (hreach : Reaches (step maxSize) (Quiet maxSize id resetAt) s s')
    (hreceives : Receives id amount index run s) : Receives id amount index run s' := by
  induction hreach with
  | refl => exact hreceives
  | tail hbefore hlast ih =>
      obtain ⟨action, hquiet, hstep⟩ := hlast
      have hsound' := hsound.quiet hbefore
      have hmoves := moves_of_step hsound'.dated hquiet.1.1 hquiet.1.2 hstep
      refine ⟨ih.row.trans (hsound'.row_mono hmoves), ?_⟩
      rcases ih.region with hsettled | hfetches
      · exact Or.inl (hsound'.settled_step hquiet.2 hmoves ih.row hsettled)
      · exact hsound'.fetches_step (hsound'.preserved hquiet.1.1 hquiet.1.2 hstep) hquiet.2 hmoves
          ih.row hfetches

theorem Sound.row_reaches (hsound : Sound id resetAt s)
    (hreach : Reaches (step maxSize) (Quiet maxSize id resetAt) s s')
    (hrow : amount ≤ rowCount id s.table) : amount ≤ rowCount id s'.table := by
  induction hreach with
  | refl => exact hrow
  | tail hbefore hlast ih =>
      obtain ⟨action, hquiet, hstep⟩ := hlast
      have hsound' := hsound.quiet hbefore
      exact ih.trans (hsound'.row_mono
        (moves_of_step hsound'.dated hquiet.1.1 hquiet.1.2 hstep))

/-- The first round brings the total into the row. -/
theorem Sound.row_of_completes (hsound : Sound id resetAt s)
    (hreach : Reaches (step maxSize) (Quiet maxSize id resetAt) s s')
    (hcompletes : Completes s s') : total id s ≤ rowCount id s'.table := by
  rcases Nat.eq_zero_or_pos (total id s) with hzero | hpositive
  · rw [hzero]
    exact Nat.zero_le _
  rcases hsound.holder with hrow | ⟨index, hheld⟩
  · exact hsound.row_reaches hreach hrow
  · obtain ⟨run, hstart, hfinished⟩ := hcompletes index
    have hsends : Sends id (total id s) index run s :=
      Or.inr ⟨hheld, by rw [hstart]; trivial⟩
    rcases hsound.sends_reaches hpositive hreach hsends with hrow | ⟨-, hcarries⟩
    · exact hrow
    · rw [hfinished] at hcarries
      exact False.elim hcarries

/-- The second round brings what is in the row to every region. -/
theorem Sound.reported_of_completes (hsound : Sound id resetAt s)
    (hreach : Reaches (step maxSize) (Quiet maxSize id resetAt) s s')
    (hrow : amount ≤ rowCount id s.table) (hcompletes : Completes s s') (index : R) {now : ℕ}
    (hnow : now < resetAt) : amount ≤ reported id s' index now := by
  obtain ⟨run, hstart, hfinished⟩ := hcompletes index
  have hreceives := hsound.receives_reaches hreach
    (⟨hrow, Or.inr (by rw [hstart]; trivial)⟩ : Receives id amount index run s)
  have hsettled : (s'.regions index).Settled id amount := by
    apply hreceives.region.resolve_right
    rw [hfinished]
    exact not_false
  have hsound' := hsound.quiet hreach
  rw [reported, merged.eq_def]
  cases hbucket : (s'.regions index).counters.get id with
  | some bucket =>
      have hlive : now < bucket.resetAt :=
        ((hsound'.region index).counter bucket hbucket).symm ▸ hnow
      rw [Option.filter_some_pos (by simpa using hlive)]
      cases s'.table id with
      | none | some row => exact hsettled.counter bucket hbucket
  | none =>
      have hin := hreceives.row
      rw [rowCount] at hin
      cases hfound : s'.table id with
      | none => simpa [hfound] using hin
      | some row =>
          have hlive : now ≤ row.resetAt := (hsound'.row row hfound).symm ▸ hnow.le
          simpa [hfound, hlive] using hin

/-- In every run inside one window, whatever the regions, in which the bucket is
only counted with the total at hand, no region undercounts. -/
theorem never_undercounts (maxSize : ℕ) (startup : R → Startup) (id : Id) (resetAt : ℕ) :
    NeverUndercounts maxSize startup id resetAt (CountsWithTotal maxSize id) := by
  intro s hreach
  have hsound : Sound id resetAt s := (sound_init startup).reaches hreach
  refine ⟨fun index => (hsound.region index).own, fun s' s'' hfirst hsecond hall hall' => ?_⟩
  intro index now hnow
  exact (hsound.quiet hfirst).reported_of_completes hsecond
    (hsound.row_of_completes hfirst hall) hall' index hnow

def countOnceEach : List (Action Bool String) :=
  [.increment false "b" 1 60 0, .increment true "b" 1 60 0]

def syncBoth (run : ℕ) : List (Action Bool String) :=
  [.sync false run 0, .execute false run, .resume false run 0,
    .sync true run 0, .execute true run, .resume true run 0]

theorem two_regions_undercount :
    ¬ NeverUndercounts (R := Bool) 10 (fun _ => .syncing) "b" 60 (fun _ _ => True) := by
  intro hnever
  let start : System Bool String := .init fun _ => .syncing
  let s := (run (step 10) start countOnceEach).get (by decide)
  let s' := (run (step 10) s (syncBoth 0)).get (by decide)
  let s'' := (run (step 10) s' (syncBoth 1)).get (by decide)
  have hcount : Reaches (step 10) (fun _ action => InWindow "b" 60 action ∧ True) start s :=
    reaches_of_run_of_forall (by simp [countOnceEach, InWindow]) (Option.some_get _).symm
  have hfirst : Reaches (step 10)
      (fun _ action => (InWindow "b" 60 action ∧ True) ∧ ¬ action.Counts "b") s s' :=
    reaches_of_run_of_forall (by simp [syncBoth, InWindow, Action.Counts])
      (Option.some_get _).symm
  have hsecond : Reaches (step 10)
      (fun _ action => (InWindow "b" 60 action ∧ True) ∧ ¬ action.Counts "b") s' s'' :=
    reaches_of_run_of_forall (by simp [syncBoth, InWindow, Action.Counts])
      (Option.some_get _).symm
  have hall : Completes s s' := fun index => ⟨0, by cases index <;> decide⟩
  have hall' : Completes s' s'' := fun index => ⟨1, by cases index <;> decide⟩
  have hle := (hnever s hcount).2 s' s'' hfirst hsecond hall hall' false 0 (by decide)
  exact absurd hle (by decide)

end Converged

end Crdt

end X402Facilitator.RateLimit
