import X402Facilitator.Failover.HealthChecker
import X402Facilitator.Library.Hysteresis

/-!
# The status and the reports

The status of the local region is read from all reports made of it so far: it is tripped by
a streak of failures and cleared by a streak of successes.
-/

namespace X402Facilitator.Failover

open Hysteresis

variable {Priority : Type}

inductive Action where
  | report (healthy : Bool)
  /-- The remote region at this place of `regions` has answered, or thrown. -/
  | remoteCheck (place : ℕ) (answer : Option Bool) (now : ℕ)

/-- One call of `reportLocalHealth`, or one turn of the loop of `_check`. -/
def Checker.step (config : Config Priority) (checker : Checker) : Action → Checker × List Event
  | .report healthy => checker.reportLocalHealth config healthy
  | .remoteCheck place answer now =>
      match config.regions[place]? with
      | none => (checker, [])
      | some remote =>
          if remote.region = config.region ∨ remote.url.getD "" = "" then (checker, [])
          else checker.remoteAnswered remote answer now

/-- The checker after some actions, and all it has emitted. -/
def run (config : Config Priority) (actions : List Action) : Checker × List Event :=
  actions.foldl (fun before action =>
    let after := before.1.step config action
    (after.1, before.2 ++ after.2)) (.initial, [])

def reports (actions : List Action) : List Bool :=
  actions.filterMap fun action =>
    match action with
    | .report healthy => some healthy
    | .remoteCheck _ _ _ => none

theorem run_concat (config : Config Priority) (actions : List Action) (action : Action) :
    run config (actions ++ [action]) =
      (((run config actions).1.step config action).1,
        (run config actions).2 ++ ((run config actions).1.step config action).2) := by
  rw [run, List.foldl_append]
  rfl

theorem reports_concat_report (actions : List Action) (healthy : Bool) :
    reports (actions ++ [.report healthy]) = reports actions ++ [healthy] := by
  rw [reports, List.filterMap_append]
  rfl

theorem reports_concat_remoteCheck (actions : List Action) (place : ℕ) (answer : Option Bool)
    (now : ℕ) : reports (actions ++ [.remoteCheck place answer now]) = reports actions := by
  rw [reports, List.filterMap_append]
  exact List.append_nil _

structure Counts (config : Config Priority) (history : List Bool) (checker : Checker) : Prop where
  failures : checker.localFailures = streak false history
  successes : checker.localStatus ≠ .healthy → checker.localSuccesses = streak true history
  none_healthy : checker.localStatus = .healthy → checker.localSuccesses = 0
  tripped : checker.localStatus ≠ .healthy ↔
    Tripped config.failureThreshold config.recoveryThreshold history
  recovering : checker.localStatus = .recovering ↔
    checker.localStatus ≠ .healthy ∧ history.getLast? = some true

variable {config : Config Priority} {checker : Checker} {history : List Bool}

theorem counts_initial (hfailure : 0 < config.failureThreshold) :
    Counts config [] .initial where
  failures := rfl
  successes hsick := (hsick rfl).elim
  none_healthy _ := rfl
  tripped := by
    constructor
    · exact fun hsick => (hsick rfl).elim
    · exact fun htripped => (not_tripped_nil hfailure htripped).elim
  recovering := by
    constructor
    · exact fun hrecovering => nomatch hrecovering
    · exact fun hlast => nomatch hlast.2

/-- A success counts for nothing, completes the recovery, or is one of it. -/
theorem success_cases (config : Config Priority) (checker : Checker) :
    (checker.localStatus = .healthy ∧
      checker.reportLocalHealth config true = ({ checker with localFailures := 0 }, [])) ∨
    (checker.localStatus ≠ .healthy ∧ config.recoveryThreshold ≤ checker.localSuccesses + 1 ∧
      checker.reportLocalHealth config true =
        ({ checker with localStatus := .healthy, localFailures := 0, localSuccesses := 0 },
          [⟨.recovered, config.region, .healthy⟩])) ∨
    (checker.localStatus ≠ .healthy ∧ checker.localSuccesses + 1 < config.recoveryThreshold ∧
      checker.reportLocalHealth config true =
        ({ checker with
            localStatus := .recovering, localFailures := 0,
            localSuccesses := checker.localSuccesses + 1 }, [])) := by
  have hsick : checker.localStatus = .degraded ∨ checker.localStatus = .recovering ↔
      checker.localStatus ≠ .healthy := by
    cases checker.localStatus <;> simp
  by_cases hhealthy : checker.localStatus = .healthy
  · refine .inl ⟨hhealthy, ?_⟩
    simp [Checker.reportLocalHealth, hhealthy]
  · by_cases hdone : config.recoveryThreshold ≤ checker.localSuccesses + 1
    · refine .inr (.inl ⟨hhealthy, hdone, ?_⟩)
      simp [Checker.reportLocalHealth, hsick, hhealthy, hdone]
    · refine .inr (.inr ⟨hhealthy, Nat.not_le.mp hdone, ?_⟩)
      simp [Checker.reportLocalHealth, hsick, hhealthy, hdone]

/-- A failure ends a recovery, gives the region up, or is only counted. -/
theorem failure_cases (config : Config Priority) (checker : Checker) :
    ((checker.localStatus = .recovering ∨
        checker.localStatus = .healthy ∧ config.failureThreshold ≤ checker.localFailures + 1) ∧
      checker.reportLocalHealth config false =
        ({ checker with
            localStatus := .degraded, localFailures := checker.localFailures + 1,
            localSuccesses := 0 }, [⟨.degraded, config.region, .degraded⟩])) ∨
    ((checker.localStatus = .degraded ∨
        checker.localStatus = .healthy ∧ checker.localFailures + 1 < config.failureThreshold) ∧
      checker.reportLocalHealth config false =
        ({ checker with
            localFailures := checker.localFailures + 1, localSuccesses := 0 }, [])) := by
  cases hstatus : checker.localStatus with
  | healthy =>
      by_cases hmany : config.failureThreshold ≤ checker.localFailures + 1
      · exact .inl ⟨.inr ⟨rfl, hmany⟩, by simp [Checker.reportLocalHealth, hstatus, hmany]⟩
      · refine .inr ⟨.inr ⟨rfl, Nat.not_le.mp hmany⟩, ?_⟩
        simp [Checker.reportLocalHealth, hstatus, hmany]
  | degraded => exact .inr ⟨.inl rfl, by simp [Checker.reportLocalHealth, hstatus]⟩
  | recovering => exact .inl ⟨.inl rfl, by simp [Checker.reportLocalHealth, hstatus]⟩

theorem counts_success (hfailure : 0 < config.failureThreshold)
    (hcounts : Counts config history checker) :
    Counts config (history ++ [true]) (checker.reportLocalHealth config true).1 := by
  have htripped := tripped_concat_true hfailure config.recoveryThreshold history
  rw [← hcounts.tripped, streak_concat, if_pos rfl] at htripped
  obtain ⟨hhealthy, heq⟩ | ⟨hsick, hdone, heq⟩ | ⟨hsick, hmore, heq⟩ :=
    success_cases config checker
  · rw [heq]
    exact
      { failures := by simp
        successes := fun hsick => absurd hhealthy hsick
        none_healthy := hcounts.none_healthy
        tripped := by simp [htripped, hhealthy]
        recovering := by simp [hhealthy] }
  · rw [heq]
    rw [hcounts.successes hsick] at hdone
    exact
      { failures := by simp
        successes := fun hsick => absurd rfl hsick
        none_healthy := fun _ => rfl
        tripped := by simp [htripped, hdone]
        recovering := by simp }
  · rw [heq]
    rw [hcounts.successes hsick] at hmore
    exact
      { failures := by simp
        successes := fun _ => by simp [hcounts.successes hsick]
        none_healthy := fun hhealthy => LocalStatus.noConfusion hhealthy
        tripped := by simp [htripped, hsick, hmore]
        recovering := by simp }

theorem counts_failure (hrecovery : 0 < config.recoveryThreshold)
    (hcounts : Counts config history checker) :
    Counts config (history ++ [false]) (checker.reportLocalHealth config false).1 := by
  have htripped := tripped_concat_false hrecovery config.failureThreshold history
  rw [← hcounts.tripped, streak_concat, if_pos rfl, ← hcounts.failures] at htripped
  obtain ⟨hturned, heq⟩ | ⟨hkept, heq⟩ := failure_cases config checker
  · rw [heq]
    exact
      { failures := by simp [hcounts.failures]
        successes := fun _ => by simp
        none_healthy := fun _ => rfl
        tripped := by
          rcases hturned with hrecovering | ⟨-, hmany⟩
          · simp [htripped, hrecovering]
          · simp [htripped, hmany]
        recovering := by simp }
  · rw [heq]
    exact
      { failures := by simp [hcounts.failures]
        successes := fun _ => by simp
        none_healthy := fun _ => rfl
        tripped := by
          rcases hkept with hdegraded | ⟨hhealthy, hfew⟩
          · simp [htripped, hdegraded]
          · simp [htripped, hhealthy, hfew]
        recovering := by
          rcases hkept with hdegraded | ⟨hhealthy, -⟩
          · simp [hdegraded]
          · simp [hhealthy] }

/-- The answer of a remote region changes nothing about the local one. -/
theorem counts_remoteCheck (hcounts : Counts config history checker) (place : ℕ)
    (answer : Option Bool) (now : ℕ) :
    Counts config history (checker.step config (.remoteCheck place answer now)).1 := by
  rw [Checker.step]
  split
  · exact hcounts
  · split
    · exact hcounts
    · exact ⟨hcounts.failures, hcounts.successes, hcounts.none_healthy, hcounts.tripped,
        hcounts.recovering⟩

theorem counts_run (hfailure : 0 < config.failureThreshold)
    (hrecovery : 0 < config.recoveryThreshold) (actions : List Action) :
    Counts config (reports actions) (run config actions).1 := by
  induction actions using List.reverseRecOn with
  | nil => exact counts_initial hfailure
  | append_singleton actions action ih =>
      rw [run_concat]
      cases action with
      | report healthy =>
          rw [reports_concat_report]
          cases healthy with
          | false => exact counts_failure hrecovery ih
          | true => exact counts_success hfailure ih
      | remoteCheck place answer now =>
          rw [reports_concat_remoteCheck]
          exact counts_remoteCheck ih place answer now

variable {answer : Option Bool} {event : Event} {others types : List EventType}

theorem type_remoteEvents {region : String} {prev : Option Bool}
    (hevent : event ∈ remoteEvents region prev answer) : event.type ≠ .recovered := by
  unfold remoteEvents at hevent
  split at hevent
  · rw [List.mem_singleton.mp hevent]
    exact fun htype => nomatch htype
  · rw [List.mem_singleton.mp hevent]
    exact fun htype => nomatch htype
  · exact absurd hevent List.not_mem_nil

theorem type_remoteCheck {place : ℕ} {now : ℕ}
    (hevent : event ∈ (checker.step config (.remoteCheck place answer now)).2) :
    event.type ≠ .recovered := by
  rw [Checker.step] at hevent
  split at hevent
  · exact absurd hevent List.not_mem_nil
  · split at hevent
    · exact absurd hevent List.not_mem_nil
    · exact type_remoteEvents hevent

/-- The recovery is told of by the report that completes it. -/
theorem recovered_iff (hcounts : Counts config history checker) (action : Action) :
    (∃ event ∈ (checker.step config action).2, event.type = .recovered) ↔
      action = .report true ∧
        Tripped config.failureThreshold config.recoveryThreshold history ∧
        List.replicate config.recoveryThreshold true <:+ history ++ [true] := by
  rw [replicate_isSuffix_iff, streak_concat, if_pos rfl, ← hcounts.tripped]
  cases action with
  | remoteCheck place answer now =>
      constructor
      · rintro ⟨event, hevent, htype⟩
        exact absurd htype (type_remoteCheck hevent)
      · rintro ⟨hreport, -⟩
        cases hreport
  | report healthy =>
      cases healthy with
      | false =>
          rw [Checker.step]
          obtain ⟨-, heq⟩ | ⟨-, heq⟩ := failure_cases config checker
          · simp [heq]
          · simp [heq]
      | true =>
          rw [Checker.step]
          obtain ⟨hhealthy, heq⟩ | ⟨hsick, hdone, heq⟩ | ⟨hsick, hmore, heq⟩ :=
            success_cases config checker
          · simp [heq, hhealthy]
          · rw [hcounts.successes hsick] at hdone
            simp [heq, hsick, hdone]
          · rw [hcounts.successes hsick] at hmore
            simp [heq, hmore]

def Opened (types : List EventType) : Prop :=
  ∃ before after, types = before ++ .degraded :: after ∧ .recovered ∉ after

def Paired (types : List EventType) : Prop :=
  ∀ before after, types = before ++ .recovered :: after → Opened before

theorem Paired.append (hpaired : Paired types) (hnot : .recovered ∉ others) :
    Paired (types ++ others) := by
  intro before after heq
  rcases List.append_eq_append_iff.mp heq with ⟨middle, hbefore, hothers⟩ | ⟨middle, htypes, hrest⟩
  · exact absurd (hothers ▸ List.mem_append_right middle List.mem_cons_self) hnot
  · cases middle with
    | nil => exact absurd (List.nil_append others ▸ hrest ▸ List.mem_cons_self) hnot
    | cons first middle =>
        obtain ⟨rfl, -⟩ := List.cons.inj hrest
        exact hpaired before middle htypes

theorem Opened.append (hopened : Opened types) (hnot : .recovered ∉ others) :
    Opened (types ++ others) := by
  obtain ⟨before, after, rfl, hafter⟩ := hopened
  refine ⟨before, after ++ others, by rw [List.append_assoc, List.cons_append], fun hmem => ?_⟩
  rcases List.mem_append.mp hmem with hold | hnew
  · exact hafter hold
  · exact hnot hnew

theorem Paired.recovered (hpaired : Paired types) (hopened : Opened types) :
    Paired (types ++ [.recovered]) := by
  intro before after heq
  cases after using List.reverseRecOn with
  | nil =>
      obtain ⟨rfl, -⟩ := List.append_inj' heq rfl
      exact hopened
  | append_singleton after last =>
      rw [← List.cons_append, ← List.append_assoc] at heq
      obtain ⟨rfl, -⟩ := List.append_inj' heq rfl
      exact hpaired before after rfl

theorem opened_degraded (types : List EventType) : Opened (types ++ [.degraded]) :=
  ⟨types, [], rfl, List.not_mem_nil⟩

structure Told (types : List EventType) (checker : Checker) : Prop where
  paired : Paired types
  opened : checker.localStatus ≠ .healthy → Opened types

theorem told_step (htold : Told types checker) (action : Action) :
    Told (types ++ (checker.step config action).2.map Event.type)
      (checker.step config action).1 := by
  cases action with
  | remoteCheck place answer now =>
      have hnot : .recovered ∉
          (checker.step config (.remoteCheck place answer now)).2.map Event.type := by
        intro hmem
        obtain ⟨event, hevent, htype⟩ := List.mem_map.mp hmem
        exact type_remoteCheck hevent htype
      have hstatus : (checker.step config (.remoteCheck place answer now)).1.localStatus =
          checker.localStatus := by
        rw [Checker.step]
        split
        · rfl
        · split <;> rfl
      refine ⟨htold.paired.append hnot, fun hsick => (htold.opened ?_).append hnot⟩
      rwa [hstatus] at hsick
  | report healthy =>
      rw [Checker.step]
      cases healthy with
      | false =>
          obtain ⟨-, heq⟩ | ⟨hkept, heq⟩ := failure_cases config checker
          · rw [heq]
            exact ⟨htold.paired.append (by simp), fun _ => opened_degraded types⟩
          · rw [heq, List.map_nil, List.append_nil]
            exact ⟨htold.paired, htold.opened⟩
      | true =>
          obtain ⟨hhealthy, heq⟩ | ⟨hsick, -, heq⟩ | ⟨hsick, -, heq⟩ :=
            success_cases config checker
          · rw [heq, List.map_nil, List.append_nil]
            exact ⟨htold.paired, htold.opened⟩
          · rw [heq]
            exact ⟨htold.paired.recovered (htold.opened hsick), fun hsick => absurd rfl hsick⟩
          · rw [heq, List.map_nil, List.append_nil]
            exact ⟨htold.paired, fun _ => htold.opened hsick⟩

theorem told_run (config : Config Priority) (actions : List Action) :
    Told ((run config actions).2.map Event.type) (run config actions).1 := by
  induction actions using List.reverseRecOn with
  | nil =>
      refine ⟨fun before after heq => ?_, fun hsick => absurd rfl hsick⟩
      exact absurd heq (by simp [run])
  | append_singleton actions action ih =>
      rw [run_concat, List.map_append]
      exact told_step ih action

variable [LinearOrder Priority]

/-- The status of the local region and the recoveries told of are those of the reports, and
the preferred region is the best of what is not known to be unhealthy. -/
theorem failover_follows_reports (config : Config Priority)
    (hfailure : 0 < config.failureThreshold) (hrecovery : 0 < config.recoveryThreshold)
    (actions : List Action) :
    let checker := (run config actions).1
    let history := reports actions
    (checker.localStatus ≠ .healthy ↔
      ∃ before after,
        history = before ++ List.replicate config.failureThreshold false ++ after ∧
          ¬ List.replicate config.recoveryThreshold true <:+: after) ∧
    (checker.localStatus = .recovering ↔
      checker.localStatus ≠ .healthy ∧ history.getLast? = some true) ∧
    (∀ action, (∃ event ∈ (checker.step config action).2, event.type = .recovered) ↔
      action = .report true ∧ checker.localStatus ≠ .healthy ∧
        List.replicate config.recoveryThreshold true <:+ history ++ [true]) ∧
    (∀ before after, (run config actions).2.map Event.type = before ++ .recovered :: after →
      ∃ earlier later, before = earlier ++ .degraded :: later ∧ .recovered ∉ later) ∧
    (∀ state : Checker,
      (state.localStatus = .healthy → (state.getState config).preferredRegion = config.region) ∧
      (state.localStatus ≠ .healthy →
        (∃ remote ∈ config.remotes, state.knownUnhealthy remote = false ∧
          (state.getState config).preferredRegion = remote.region ∧
          ∀ other ∈ config.remotes, state.knownUnhealthy other = false →
            remote.priority ≤ other.priority) ∨
        ((∀ remote ∈ config.remotes, state.knownUnhealthy remote = true) ∧
          (state.getState config).preferredRegion = config.region))) := by
  have hcounts := counts_run hfailure hrecovery actions
  refine ⟨hcounts.tripped, hcounts.recovering, fun action => ?_, (told_run config actions).paired,
    fun state => ⟨preferredRegion_of_healthy, preferredRegion_of_not_healthy⟩⟩
  rw [hcounts.tripped]
  exact recovered_iff hcounts action

/-- Three failures give a region up, and the second of two successes takes it back. -/
theorem failover_follows_reports_recovery :
    let config : Config ℕ := ⟨"us", [⟨"us", 1, none⟩, ⟨"eu", 2, none⟩], 3, 2⟩
    let checker :=
      (run config [.report false, .report false, .report false, .report true]).1
    checker.localStatus = .recovering ∧ (checker.getState config).preferredRegion = "eu" ∧
      ∃ event ∈ (checker.step config (.report true)).2, event.type = .recovered := by
  have hfollows := failover_follows_reports
    (⟨"us", [⟨"us", 1, none⟩, ⟨"eu", 2, none⟩], 3, 2⟩ : Config ℕ) (by decide) (by decide)
    [.report false, .report false, .report false, .report true]
  refine ⟨by decide, by decide +kernel, (hfollows.2.2.1 (.report true)).mpr ⟨rfl, by decide, ?_⟩⟩
  exact ⟨[false, false, false], rfl⟩

end X402Facilitator.Failover
