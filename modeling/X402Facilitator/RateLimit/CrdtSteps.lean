import Mathlib.Data.List.TakeWhile
import X402Facilitator.RateLimit.CrdtStore

/-!
# Steps of the multi-region store inside one window

A bucket is followed through the steps of one window.  It is counted in a region
that has the total already, with no run under way there that would write back
the count it has merged over what was counted while it waited.
-/

namespace X402Facilitator.RateLimit

namespace Crdt

open Execution

variable {R Id : Type*}

section Statement

variable [DecidableEq Id]

/-- All that was counted for `id`. -/
def total (id : Id) (s : System R Id) : ℕ :=
  (s.increments.map fun entry => if entry.2.1 = id then entry.2.2 else 0).sum

/-- The actions inside one window of `id`, the one that ends at `resetAt`. -/
def InWindow (id : Id) (resetAt : ℕ) : Action R Id → Prop
  | .increment _ other _ reset now => now < resetAt ∧ (other = id → reset = resetAt)
  | .get _ _ now | .sweep _ now | .sync _ _ now | .resume _ _ now => now < resetAt
  | _ => True

/-- The action counts `id`. -/
def Action.Counts (id : Id) : Action R Id → Prop
  | .increment _ other _ _ _ => other = id
  | _ => False

variable [DecidableEq R]

/-- What one region counted for `id`. -/
def own (id : Id) (s : System R Id) (index : R) : ℕ :=
  (s.increments.map fun entry =>
    if entry.1 = index ∧ entry.2.1 = id then entry.2.2 else 0).sum

omit [DecidableEq R] in
/-- An increment of any bucket keeps the bucket `id`, and one of `id` happens in
a region that has the total, while no run of that region waits for `id`.  A
region's runs do not overlap. -/
def CountsWithTotal (maxSize : ℕ) (id : Id) (s : System R Id) : Action R Id → Prop
  | .increment index other amount reset now =>
      let counters := (s.regions index).counters
      id ∉ (counters.set other (counted counters other amount reset now)).victims
        Bucket.resetAt maxSize ∧
      (other = id → total id s ≤ held id counters ∧
        ∀ run, ¬ ((s.regions index).syncs run).Awaits id)
  | .sync index _ _ => ∀ run, ¬ ((s.regions index).syncs run).InFlight
  | _ => True

end Statement

section Turns

variable [DecidableEq Id] [DecidableEq R] {maxSize : ℕ} {s s' : System R Id}
variable {action : Action R Id}

omit [DecidableEq Id] in
theorem regions_setRegion_self (s : System R Id) (index : R) (region : Region Id) :
    (s.setRegion index region).regions index = region := by
  simp [System.setRegion]

variable {index : R}

omit [DecidableEq Id] in
theorem regions_setRegion_of_ne (s : System R Id) {other : R} (region : Region Id)
    (hne : other ≠ index) : (s.setRegion index region).regions other = s.regions other := by
  simp [System.setRegion, hne]

/-- One region's part in a step.  Only a run in flight, or one that the timer starts
while the region is not degraded, can end that. -/
inductive Region.Turns (action : Action R Id) (region : Region Id) : Region Id → Prop
  | starts (startup : Startup) (degraded : Bool)
      (hstartup : region.startup = .syncing → startup = .syncing)
      (hdegraded : region.degraded = true → degraded = true) :
      Turns action region { region with startup := startup, degraded := degraded }
  | asks (queries : List (Query Id))
      (hasked : ∀ now, .delete now ∈ queries →
        .delete now ∈ region.queries ∨ ∃ index, action = .sweep index now) :
      Turns action region { region with queries := queries }
  | counts (counters : InsertionMap Id Bucket) (queries : List (Query Id))
      (hasked : ∀ now, .delete now ∈ queries →
        .delete now ∈ region.queries ∨ ∃ index, action = .sweep index now) :
      Turns action region { region.setCounters counters with queries := queries }
  | rejects (query : ℕ) :
      Turns action region
        { region with queries := region.queries.eraseIdx query, degraded := true }
  | skips (run : ℕ) (htimer : region.startup = .syncing) :
      Turns action region (region.setSync run .skipped)
  | begins (run : ℕ) (state : SyncRun Id) (htimer : region.startup = .syncing)
      (honline : region.degraded = false) : Turns action region (region.proceed run state)
  | executes (run : ℕ) (state : SyncRun Id) (hrun : (region.syncs run).InFlight) :
      Turns action region (region.setSync run state)
  | resumes (run : ℕ) (state : SyncRun Id) (counters : InsertionMap Id Bucket)
      (hrun : (region.syncs run).InFlight) :
      Turns action region (Region.proceed { region with counters := counters } run state)
  | fails (run : ℕ) (hrun : (region.syncs run).InFlight) :
      Turns action region (region.setSync run .failed).degrade

theorem turns_setRegion {region : Region Id} (hturns : (s.regions index).Turns action region)
    (other : R) : (s.setRegion index region).regions other = s.regions other ∨
      (s.regions other).Turns action ((s.setRegion index region).regions other) := by
  by_cases hother : other = index
  · subst hother
    rw [regions_setRegion_self]
    exact Or.inr hturns
  · exact Or.inl (regions_setRegion_of_ne s region hother)

/-- A step leaves a region as it was, or it is the one that the step is about. -/
theorem turns_of_step (hstep : step maxSize s action = some s') (other : R) :
    s'.regions other = s.regions other ∨
      (s.regions other).Turns action (s'.regions other) := by
  cases action with
  | connected index =>
      simp only [step, Option.ite_none_right_eq_some, Option.some.injEq] at hstep
      obtain ⟨hstartup, rfl⟩ := hstep
      exact turns_setRegion (.starts .initialising _ (by simp [hstartup]) fun h => h) other
  | unavailable index =>
      simp only [step, Option.ite_none_right_eq_some, Option.some.injEq] at hstep
      obtain ⟨hstartup, rfl⟩ := hstep
      exact turns_setRegion (.starts .localOnly true (by simp [hstartup]) fun _ => rfl) other
  | initialised index ok =>
      simp only [step, Option.ite_none_right_eq_some, Option.some.injEq] at hstep
      obtain ⟨-, rfl⟩ := hstep
      cases ok
      · exact turns_setRegion (.starts .syncing true (fun _ => rfl) fun _ => rfl) other
      · exact turns_setRegion (.starts .syncing _ (fun _ => rfl) fun h => h) other
  | poolError index =>
      simp only [step, Option.ite_none_right_eq_some, Option.some.injEq] at hstep
      obtain ⟨-, rfl⟩ := hstep
      exact turns_setRegion (.starts _ true (fun h => h) fun _ => rfl) other
  | increment index id amount reset now =>
      obtain rfl := Option.some.inj hstep
      exact turns_setRegion (.counts _ _ fun _ hmem => Or.inl hmem) other
  | get index id now =>
      simp only [step] at hstep
      split at hstep
      · obtain rfl := Option.some.inj hstep
        refine turns_setRegion (.asks _ fun swept hmem => Or.inl ?_) other
        simpa using hmem
      · obtain rfl := Option.some.inj hstep
        exact Or.inl rfl
  | sweep index now =>
      simp only [step] at hstep
      split at hstep
      · obtain rfl := Option.some.inj hstep
        refine turns_setRegion (.counts _ _ fun swept hmem => ?_) other
        refine (List.mem_append.mp hmem).imp_right fun hnew => ⟨index, ?_⟩
        obtain rfl : swept = now := by simpa using hnew
        rfl
      · obtain rfl := Option.some.inj hstep
        exact turns_setRegion (.counts _ _ fun _ hmem => Or.inl hmem) other
  | answer index query =>
      have hasked : ∀ now, Query.delete now ∈ (s.regions index).queries.eraseIdx query →
          Query.delete now ∈ (s.regions index).queries ∨
            ∃ region, (Action.answer index query : Action R Id) = .sweep region now :=
        fun _ hmem => Or.inl (List.mem_of_mem_eraseIdx hmem)
      simp only [step] at hstep
      split at hstep
      · obtain rfl := Option.some.inj hstep
        exact turns_setRegion (.asks _ hasked) other
      · obtain rfl := Option.some.inj hstep
        exact turns_setRegion (.asks _ hasked) other
      · cases hstep
  | reject index query =>
      simp only [step, Option.ite_none_right_eq_some, Option.some.injEq] at hstep
      obtain ⟨-, rfl⟩ := hstep
      exact turns_setRegion (.rejects query) other
  | sync index run now =>
      simp only [step, Option.ite_none_right_eq_some] at hstep
      obtain ⟨⟨htimer, -⟩, hstep⟩ := hstep
      split at hstep
      · obtain rfl := Option.some.inj hstep
        exact turns_setRegion (.skips run htimer) other
      · next hdegraded =>
          obtain rfl := Option.some.inj hstep
          exact turns_setRegion (.begins run _ htimer (by simpa using hdegraded)) other
  | execute index run =>
      simp only [step] at hstep
      split at hstep
      · next hrun =>
          obtain rfl := Option.some.inj hstep
          exact turns_setRegion (.executes run _ (by rw [hrun]; trivial)) other
      · cases hstep
  | resume index run now =>
      simp only [step] at hstep
      split at hstep
      · next hrun =>
          obtain rfl := Option.some.inj hstep
          exact turns_setRegion (.resumes run _ _ (by rw [hrun]; trivial)) other
      · cases hstep
  | fail index run =>
      simp only [step] at hstep
      split at hstep
      · next hrun =>
          obtain rfl := Option.some.inj hstep
          exact turns_setRegion (.fails run (by rw [hrun]; trivial)) other
      · next hrun =>
          obtain rfl := Option.some.inj hstep
          exact turns_setRegion (.fails run (by rw [hrun]; trivial)) other
      · cases hstep

section

omit [DecidableEq Id]

theorem proceed_syncs (region : Region Id) (run : ℕ) (state : SyncRun Id) :
    (region.proceed run state).syncs = Function.update region.syncs run state := by
  cases state <;> rfl

theorem proceed_counters (region : Region Id) (run : ℕ) (state : SyncRun Id) :
    (region.proceed run state).counters = region.counters := by
  cases state <;> rfl

theorem proceed_queries (region : Region Id) (run : ℕ) (state : SyncRun Id) :
    (region.proceed run state).queries = region.queries := by
  cases state <;> rfl

end

end Turns

section Moves

inductive SyncRun.Narrows : SyncRun Id → SyncRun Id → Prop
  | refl (run : SyncRun Id) : Narrows run run
  | querying {visited visited' : List Id} {id : Id} {bucket : Bucket}
      (hsub : visited' ⊆ visited) : Narrows (.querying visited id bucket)
        (.querying visited' id bucket)
  | answered {visited visited' : List Id} {id : Id} {bucket : Bucket} {merged : Option ℕ}
      (hsub : visited' ⊆ visited) : Narrows (.answered visited id bucket merged)
        (.answered visited' id bucket merged)

variable {run : SyncRun Id} {asked : Id} {visited' : List Id} {region : Region Id}

theorem SyncRun.Narrows.inFlight {run' : SyncRun Id} (hnarrows : run.Narrows run')
    (hflight : run'.InFlight) : run.InFlight := by
  cases hnarrows with
  | refl => exact hflight
  | querying hsub => trivial
  | answered hsub => trivial

theorem SyncRun.Narrows.of_querying {bucket : Bucket}
    (hnarrows : run.Narrows (.querying visited' asked bucket)) :
    ∃ visited, run = .querying visited asked bucket ∧ visited' ⊆ visited := by
  cases hnarrows with
  | refl => exact ⟨visited', rfl, List.Subset.refl _⟩
  | querying hsub => exact ⟨_, rfl, hsub⟩

theorem SyncRun.Narrows.of_answered {bucket : Bucket} {merged : Option ℕ}
    (hnarrows : run.Narrows (.answered visited' asked bucket merged)) :
    ∃ visited, run = .answered visited asked bucket merged ∧ visited' ⊆ visited := by
  cases hnarrows with
  | refl => exact ⟨visited', rfl, List.Subset.refl _⟩
  | answered hsub => exact ⟨_, rfl, hsub⟩

theorem SyncRun.inFlight_update {syncs : ℕ → SyncRun Id} {run other : ℕ} {state : SyncRun Id}
    (hflight : (Function.update syncs run state other).InFlight) :
    (other = run ∧ state.InFlight) ∨ (other ≠ run ∧ (syncs other).InFlight) := by
  by_cases hother : other = run
  · subst hother
    rw [Function.update_self] at hflight
    exact Or.inl ⟨rfl, hflight⟩
  · rw [Function.update_of_ne hother] at hflight
    exact Or.inr ⟨hother, hflight⟩

variable [DecidableEq Id]

theorem SyncRun.narrows_forget (run : SyncRun Id) (counters : InsertionMap Id Bucket) :
    run.Narrows (run.forget counters) := by
  cases run with
  | querying visited id bucket => exact .querying (List.filter_subset_self _)
  | answered visited id bucket merged => exact .answered (List.filter_subset_self _)
  | notStarted | skipped | finished | failed => exact .refl _

structure Region.Keeps (id : Id) (region region' : Region Id) : Prop where
  get : region'.counters.get id = region.counters.get id
  narrows : ∀ run, (region.syncs run).Narrows (region'.syncs run)

theorem Region.Keeps.refl (id : Id) (region : Region Id) : region.Keeps id region :=
  ⟨rfl, fun _ => .refl _⟩

theorem Region.Keeps.held {id : Id} {region' : Region Id} (hkeeps : region.Keeps id region') :
    held id region'.counters = held id region.counters := by
  rw [RateLimit.held, RateLimit.held, hkeeps.get]

variable [DecidableEq R] {id : Id} {resetAt maxSize : ℕ} {s s' : System R Id}

inductive Moves (id : Id) (resetAt : ℕ) (s s' : System R Id) : Action R Id → Prop
  | quiet {action : Action R Id}
      (hregions : ∀ index, (s.regions index).Keeps id (s'.regions index))
      (htable : s'.table id = s.table id) (htotal : total id s' = total id s)
      (hown : ∀ index, own id s' index = own id s index) : Moves id resetAt s s' action
  | counted {index : R} {amount now : ℕ}
      (hget : (s'.regions index).counters.get id =
        some ⟨held id (s.regions index).counters + amount, resetAt⟩)
      (hnarrows : ∀ run, ((s.regions index).syncs run).Narrows ((s'.regions index).syncs run))
      (hothers : ∀ other, other ≠ index → s'.regions other = s.regions other)
      (htable : s'.table = s.table)
      (hincrements : s'.increments = s.increments ++ [(index, id, amount)]) :
      Moves id resetAt s s' (.increment index id amount resetAt now)
  | started {index : R} {run now : ℕ} (state : SyncRun Id)
      (hinside : now < resetAt)
      (hrun : (s.regions index).syncs run = .notStarted)
      (hstate : state = .skipped ∨ state = advance (s.regions index).counters [] now)
      (hcounters : (s'.regions index).counters = (s.regions index).counters)
      (hsyncs : (s'.regions index).syncs = Function.update (s.regions index).syncs run state)
      (hothers : ∀ other, other ≠ index → s'.regions other = s.regions other)
      (htable : s'.table = s.table) (hincrements : s'.increments = s.increments) :
      Moves id resetAt s s' (.sync index run now)
  | executed {index : R} {run : ℕ} {visited : List Id} {asked : Id} {bucket : Bucket}
      (hrun : (s.regions index).syncs run = .querying visited asked bucket)
      (hcounters : (s'.regions index).counters = (s.regions index).counters)
      (hsyncs : (s'.regions index).syncs = Function.update (s.regions index).syncs run
        (.answered visited asked bucket (upsert s.table asked bucket).1))
      (hothers : ∀ other, other ≠ index → s'.regions other = s.regions other)
      (htable : s'.table = (upsert s.table asked bucket).2)
      (hincrements : s'.increments = s.increments) :
      Moves id resetAt s s' (.execute index run)
  | resumed {index : R} {run now : ℕ} {visited : List Id} {asked : Id} {bucket : Bucket}
      {merged : Option ℕ} (hinside : now < resetAt)
      (hrun : (s.regions index).syncs run = .answered visited asked bucket merged)
      (hcounters : (s'.regions index).counters =
        absorb (s.regions index).counters asked bucket merged)
      (hsyncs : (s'.regions index).syncs = Function.update (s.regions index).syncs run
        (advance (s'.regions index).counters visited now))
      (hothers : ∀ other, other ≠ index → s'.regions other = s.regions other)
      (htable : s'.table = s.table) (hincrements : s'.increments = s.increments) :
      Moves id resetAt s s' (.resume index run now)
  | failed {index : R} {run : ℕ}
      (hrun : ((s.regions index).syncs run).InFlight)
      (hcounters : (s'.regions index).counters = (s.regions index).counters)
      (hsyncs : (s'.regions index).syncs = Function.update (s.regions index).syncs run .failed)
      (hothers : ∀ other, other ≠ index → s'.regions other = s.regions other)
      (htable : s'.table = s.table) (hincrements : s'.increments = s.increments) :
      Moves id resetAt s s' (.fail index run)

omit [DecidableEq Id] in
def SweepsInside (resetAt : ℕ) (queries : List (Query Id)) : Prop :=
  ∀ now, Query.delete now ∈ queries → now < resetAt

structure Dated (id : Id) (resetAt : ℕ) (s : System R Id) : Prop where
  row : ∀ row, s.table id = some row → row.resetAt = resetAt
  counter : ∀ index bucket, (s.regions index).counters.get id = some bucket →
    bucket.resetAt = resetAt
  sweep : ∀ index, SweepsInside resetAt (s.regions index).queries

/-- A region has been replaced by one that keeps the bucket. -/
theorem keeps_setRegion (index : R) (hkeeps : (s.regions index).Keeps id region) (other : R) :
    (s.regions other).Keeps id ((s.setRegion index region).regions other) := by
  by_cases hother : other = index
  · subst hother
    rw [regions_setRegion_self]
    exact hkeeps
  · rw [regions_setRegion_of_ne s region hother]
    exact .refl id _

theorem moves_setRegion {action : Action R Id} (index : R)
    (hkeeps : (s.regions index).Keeps id region) :
    Moves id resetAt s (s.setRegion index region) action :=
  .quiet (keeps_setRegion index hkeeps) rfl rfl fun _ => rfl

omit [DecidableEq R] in
theorem get_sweepLocal_of_live (hdated : Dated id resetAt s) (index : R) {now : ℕ}
    (hnow : now < resetAt) :
    (sweepLocal (s.regions index).counters now).get id = (s.regions index).counters.get id := by
  rw [sweepLocal, InsertionMap.get_filter]
  cases hget : (s.regions index).counters.get id with
  | none => rfl
  | some bucket =>
      have hreset := hdated.counter index bucket hget
      rw [Option.filter_some_pos (by simpa [hreset] using hnow)]

omit [DecidableEq R] in
theorem sweepTable_of_live (hdated : Dated id resetAt s) {now : ℕ} (hnow : now < resetAt) :
    sweepTable s.table now id = s.table id := by
  rw [sweepTable]
  cases hrow : s.table id with
  | none => rfl
  | some row => rw [Option.filter_some_pos (by simpa [hdated.row row hrow] using hnow)]

theorem get_increment (counters : InsertionMap Id Bucket) (other : Id) (amount reset now : ℕ)
    (hspared : id ∉ (counters.set other (counted counters other amount reset now)).victims
      Bucket.resetAt maxSize) :
    (increment maxSize counters other amount reset now).get id =
      if id = other then some (counted counters other amount reset now)
      else counters.get id := by
  rw [increment, InsertionMap.get_shed, if_neg hspared, InsertionMap.get_set]

omit [DecidableEq R] in
theorem counted_of_live (hdated : Dated id resetAt s) (index : R) (amount : ℕ) {now : ℕ}
    (hnow : now < resetAt) : counted (s.regions index).counters id amount resetAt now =
      ⟨held id (s.regions index).counters + amount, resetAt⟩ := by
  rw [counted, held]
  cases hget : (s.regions index).counters.get id with
  | none => simp
  | some bucket =>
      have hreset := hdated.counter index bucket hget
      rw [Option.filter_some_pos (by simpa [hreset] using hnow)]
      rfl

/-- A step inside the window that keeps the bucket moves. -/
theorem moves_of_step (hdated : Dated id resetAt s) {action : Action R Id}
    (hinside : InWindow id resetAt action) (hmeets : CountsWithTotal maxSize id s action)
    (hstep : step maxSize s action = some s') : Moves id resetAt s s' action := by
  cases action with
  | connected index | unavailable index =>
      simp only [step, Option.ite_none_right_eq_some, Option.some.injEq] at hstep
      obtain ⟨-, rfl⟩ := hstep
      exact moves_setRegion index ⟨rfl, fun _ => .refl _⟩
  | initialised index ok =>
      simp only [step, Option.ite_none_right_eq_some, Option.some.injEq] at hstep
      obtain ⟨-, rfl⟩ := hstep
      cases ok
      · exact moves_setRegion index ⟨rfl, fun _ => .refl _⟩
      · exact moves_setRegion index ⟨rfl, fun _ => .refl _⟩
  | poolError index =>
      simp only [step, Option.ite_none_right_eq_some, Option.some.injEq] at hstep
      obtain ⟨-, rfl⟩ := hstep
      exact moves_setRegion index ⟨rfl, fun _ => .refl _⟩
  | increment index other amount reset now =>
      obtain ⟨hspared, hcount⟩ := hmeets
      obtain ⟨hnow, hreset⟩ := hinside
      simp only [step, Option.some.injEq] at hstep
      subst hstep
      by_cases hother : other = id
      · obtain rfl := hother
        obtain rfl := hreset rfl
        refine .counted ?_ (fun run => ?_) (fun region hne => ?_) rfl rfl
        · simp only [regions_setRegion_self, Region.setCounters]
          rw [get_increment _ _ _ _ _ hspared, if_pos rfl, counted_of_live hdated index _ hnow]
        · simp only [regions_setRegion_self, Region.setCounters]
          exact SyncRun.narrows_forget _ _
        · exact regions_setRegion_of_ne s _ hne
      · refine .quiet (keeps_setRegion index ⟨?_, fun run => SyncRun.narrows_forget _ _⟩) rfl ?_
          fun region => ?_
        · simp only [Region.setCounters]
          rw [get_increment _ _ _ _ _ hspared, if_neg (Ne.symm hother)]
        · simp [total, hother]
        · simp [own, hother]
  | get index other now =>
      simp only [step] at hstep
      split at hstep
      · obtain rfl := Option.some.inj hstep
        exact moves_setRegion index ⟨rfl, fun _ => .refl _⟩
      · obtain rfl := Option.some.inj hstep
        exact .quiet (fun _ => .refl id _) rfl rfl fun _ => rfl
  | sweep index now =>
      have hkeeps : (s.regions index).Keeps id
          ((s.regions index).setCounters (sweepLocal (s.regions index).counters now)) :=
        ⟨get_sweepLocal_of_live hdated index hinside, fun run => SyncRun.narrows_forget _ _⟩
      simp only [step] at hstep
      split at hstep
      · obtain rfl := Option.some.inj hstep
        exact moves_setRegion index ⟨hkeeps.get, hkeeps.narrows⟩
      · obtain rfl := Option.some.inj hstep
        exact moves_setRegion index hkeeps
  | answer index query =>
      simp only [step] at hstep
      split at hstep
      · obtain rfl := Option.some.inj hstep
        exact moves_setRegion index ⟨rfl, fun _ => .refl _⟩
      · next now hquery =>
          obtain rfl := Option.some.inj hstep
          have hnow := hdated.sweep index now (List.mem_of_getElem? hquery)
          exact .quiet (keeps_setRegion index ⟨rfl, fun _ => .refl _⟩)
            (sweepTable_of_live hdated hnow) rfl fun _ => rfl
      · cases hstep
  | reject index query =>
      simp only [step, Option.ite_none_right_eq_some, Option.some.injEq] at hstep
      obtain ⟨-, rfl⟩ := hstep
      exact moves_setRegion index ⟨rfl, fun _ => .refl _⟩
  | sync index run now =>
      simp only [step, Option.ite_none_right_eq_some] at hstep
      obtain ⟨⟨-, hrun⟩, hstep⟩ := hstep
      split at hstep
      · obtain rfl := Option.some.inj hstep
        refine .started .skipped hinside hrun (Or.inl rfl) ?_ ?_
          (fun other hne => regions_setRegion_of_ne s _ hne) rfl rfl
        · rw [regions_setRegion_self]
          rfl
        · rw [regions_setRegion_self]
          rfl
      · obtain rfl := Option.some.inj hstep
        refine .started _ hinside hrun (Or.inr rfl) ?_ ?_
          (fun other hne => regions_setRegion_of_ne s _ hne) rfl rfl
        · rw [regions_setRegion_self, proceed_counters]
        · rw [regions_setRegion_self, proceed_syncs]
  | execute index run =>
      simp only [step] at hstep
      split at hstep
      · next visited asked bucket hrun =>
          obtain rfl := Option.some.inj hstep
          refine .executed hrun ?_ ?_ (fun other hne => regions_setRegion_of_ne s _ hne) rfl rfl
          · change ((s.setRegion index _).regions index).counters = _
            rw [regions_setRegion_self]
            rfl
          · change ((s.setRegion index _).regions index).syncs = _
            rw [regions_setRegion_self]
            rfl
      · cases hstep
  | resume index run now =>
      simp only [step] at hstep
      split at hstep
      · next visited asked bucket merged hrun =>
          obtain rfl := Option.some.inj hstep
          refine .resumed hinside hrun ?_ ?_ (fun other hne => regions_setRegion_of_ne s _ hne)
            rfl rfl
          · rw [regions_setRegion_self, proceed_counters]
          · rw [regions_setRegion_self, proceed_syncs, proceed_counters]
      · cases hstep
  | fail index run =>
      simp only [step] at hstep
      have hfailed : (∃ visited asked bucket, (s.regions index).syncs run =
          .querying visited asked bucket) ∨ (∃ visited asked bucket merged,
          (s.regions index).syncs run = .answered visited asked bucket merged) →
          s' = s.setRegion index ((s.regions index).setSync run .failed).degrade →
          Moves id resetAt s s' (.fail index run) := by
        intro hrun heq
        subst heq
        refine .failed ?_ ?_ ?_ (fun other hne => regions_setRegion_of_ne s _ hne) rfl rfl
        · obtain ⟨_, _, _, hrun⟩ | ⟨_, _, _, _, hrun⟩ := hrun
          · rw [hrun]
            trivial
          · rw [hrun]
            trivial
        · rw [regions_setRegion_self]
          rfl
        · rw [regions_setRegion_self]
          rfl
      split at hstep
      · next visited asked bucket hrun =>
          exact hfailed (Or.inl ⟨_, _, _, hrun⟩) (Option.some.inj hstep).symm
      · next visited asked bucket merged hrun =>
          exact hfailed (Or.inr ⟨_, _, _, _, hrun⟩) (Option.some.inj hstep).symm
      · cases hstep

end Moves

section Advance

variable [DecidableEq Id] {counters : InsertionMap Id Bucket} {visited : List Id} {now : ℕ}

variable {asked : Id} {visited' : List Id}

/-- The loop only asks for a bucket that it has found live. -/
theorem advance_querying {bucket : Bucket}
    (hadvance : advance counters visited now = .querying visited' asked bucket) :
    counters.get asked = some bucket := by
  rw [advance] at hadvance
  cases hrest : (unvisited counters visited).dropWhile
      fun entry => decide (entry.2.resetAt ≤ now) with
  | nil => simp [hrest] at hadvance
  | cons entry rest =>
      simp only [hrest, SyncRun.querying.injEq] at hadvance
      obtain ⟨-, rfl, rfl⟩ := hadvance
      have hmem : entry ∈ unvisited counters visited :=
        (List.dropWhile_suffix _).mem (hrest ▸ List.mem_cons_self)
      exact counters.get_of_mem (List.mem_of_mem_filter hmem)

/-- The loop does not pass a live bucket that it has not visited. -/
theorem advance_of_live {id : Id} {bucket : Bucket} (hvisited : id ∉ visited)
    (hbucket : counters.get id = some bucket) (hlive : now < bucket.resetAt) :
    ∃ visited' asked found, advance counters visited now = .querying visited' asked found ∧
      (asked = id ∨ id ∉ visited') := by
  have hmem : (id, bucket) ∈ unvisited counters visited :=
    List.mem_filter.mpr ⟨InsertionMap.mem_of_lookup hbucket, by simpa using hvisited⟩
  rw [advance]
  cases hrest : (unvisited counters visited).dropWhile
      fun entry => decide (entry.2.resetAt ≤ now) with
  | nil =>
      have hexpired := List.dropWhile_eq_nil_iff.mp hrest (id, bucket) hmem
      simp only [decide_eq_true_eq] at hexpired
      omega
  | cons entry rest =>
      refine ⟨_, _, _, rfl, ?_⟩
      by_cases hentry : entry.1 = id
      · exact Or.inl hentry
      · refine Or.inr fun hin => ?_
        simp only [List.mem_append, List.mem_map, List.mem_singleton] at hin
        obtain (hin | ⟨passed, hpassed, hkey⟩) | hin := hin
        · exact hvisited hin
        · have hexpired := List.mem_takeWhile_imp hpassed
          have hfound : counters.get passed.1 = some passed.2 :=
            counters.get_of_mem (List.mem_of_mem_filter ((List.takeWhile_prefix _).mem hpassed))
          rw [hkey, hbucket] at hfound
          obtain rfl := Option.some.inj hfound
          simp only [decide_eq_true_eq] at hexpired
          omega
        · exact hentry hin.symm

theorem advance_eq (counters : InsertionMap Id Bucket) (visited : List Id) (now : ℕ) :
    advance counters visited now = .finished ∨
    ∃ visited' asked bucket, advance counters visited now = .querying visited' asked bucket := by
  rw [advance]
  split
  · exact Or.inl rfl
  · exact Or.inr ⟨_, _, _, rfl⟩

theorem advance_ne_answered {bucket : Bucket} {merged : Option ℕ} :
    advance counters visited now ≠ .answered visited' asked bucket merged := by
  rw [advance]
  split <;> simp

end Advance

section Merge

variable [DecidableEq Id] {id : Id} {resetAt : ℕ} {table : Table Id} {bucket : Bucket}

omit [DecidableEq Id] in
def rowCount (id : Id) (table : Table Id) : ℕ := ((table id).map Bucket.count).getD 0

variable {asked : Id}

theorem upsert_of_ne (hne : id ≠ asked) : (upsert table asked bucket).2 id = table id := by
  rw [upsert]
  cases table asked with
  | none => exact Function.update_of_ne hne _ _
  | some row =>
      simp only
      split
      · exact Function.update_of_ne hne _ _
      · rfl

/-- Inside one window the upsert takes the larger count. -/
theorem upsert_self (hrow : ∀ row, table id = some row → row.resetAt = bucket.resetAt) :
    (upsert table id bucket).1 = some (max (rowCount id table) bucket.count) ∧
      (upsert table id bucket).2 id =
        some ⟨max (rowCount id table) bucket.count, bucket.resetAt⟩ := by
  rw [upsert, rowCount]
  cases hfound : table id with
  | none => simp
  | some row => simp [hrow row hfound]

theorem get_absorb_of_ne (counters : InsertionMap Id Bucket) (bucket : Bucket) (merged : Option ℕ)
    (hne : id ≠ asked) : (absorb counters asked bucket merged).get id = counters.get id := by
  cases merged with
  | none => rfl
  | some count => exact InsertionMap.get_set_of_ne _ _ hne

end Merge

end Crdt

end X402Facilitator.RateLimit
