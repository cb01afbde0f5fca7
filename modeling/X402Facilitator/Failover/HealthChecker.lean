import X402Facilitator.Library.InsertionMap
import X402Facilitator.Library.Sorting

/-!
# Regional health

An instance is told how its own region fares, asks the others, and says which region is to
be preferred.  Its own region is given up after so many failures in a row, and taken back
after so many successes in a row.
-/

namespace X402Facilitator.Failover

inductive LocalStatus where
  | healthy
  | degraded
  | recovering
  deriving DecidableEq, Repr

/-- An entry of `regions`; the lower priority is preferred. -/
structure Region (Priority : Type) where
  region : String
  priority : Priority
  url : Option String

structure Config (Priority : Type) where
  region : String
  regions : List (Region Priority)
  failureThreshold : ℕ
  recoveryThreshold : ℕ

structure RemoteStatus where
  healthy : Bool
  lastCheck : ℕ

inductive EventType where
  | degraded
  | recovered
  | remoteDegraded
  | remoteRecovered
  deriving DecidableEq, Repr

structure Event where
  type : EventType
  region : String
  status : LocalStatus
  deriving DecidableEq, Repr

structure Checker where
  localStatus : LocalStatus
  remoteStatus : InsertionMap String RemoteStatus
  localFailures : ℕ
  localSuccesses : ℕ

def Checker.initial : Checker := ⟨.healthy, .empty, 0, 0⟩

variable {Priority : Type}

def Checker.reportLocalHealth (config : Config Priority) (checker : Checker) (healthy : Bool) :
    Checker × List Event :=
  if healthy then
    let checker := { checker with localFailures := 0 }
    if checker.localStatus = .degraded ∨ checker.localStatus = .recovering then
      let checker := { checker with localSuccesses := checker.localSuccesses + 1 }
      if config.recoveryThreshold ≤ checker.localSuccesses then
        ({ checker with localStatus := .healthy, localSuccesses := 0 },
          [⟨.recovered, config.region, .healthy⟩])
      else ({ checker with localStatus := .recovering }, [])
    else (checker, [])
  else
    let checker :=
      { checker with localSuccesses := 0, localFailures := checker.localFailures + 1 }
    if checker.localStatus = .recovering then
      ({ checker with localStatus := .degraded }, [⟨.degraded, config.region, .degraded⟩])
    else if config.failureThreshold ≤ checker.localFailures ∧ checker.localStatus = .healthy then
      ({ checker with localStatus := .degraded }, [⟨.degraded, config.region, .degraded⟩])
    else (checker, [])

/-- What is emitted where the answer of a remote region differs from the one before. -/
def remoteEvents (region : String) (prev answer : Option Bool) : List Event :=
  match prev, answer with
  | some false, some true => [⟨.remoteRecovered, region, .healthy⟩]
  | some true, some false => [⟨.remoteDegraded, region, .degraded⟩]
  | _, _ => []

/-- What `_check` does with the answer of one remote region, none where it throws. -/
def Checker.remoteAnswered (checker : Checker) (remote : Region Priority)
    (answer : Option Bool) (now : ℕ) : Checker × List Event :=
  let prev := (checker.remoteStatus.get remote.region).map RemoteStatus.healthy
  ({ checker with
      remoteStatus := checker.remoteStatus.set remote.region ⟨answer.getD false, now⟩ },
    remoteEvents remote.region prev answer)

/-- The remote regions, and of these the ones that are not known to be unhealthy. -/
def Config.remotes (config : Config Priority) : List (Region Priority) :=
  config.regions.filter fun r => r.region ≠ config.region

def Checker.knownUnhealthy (checker : Checker) (remote : Region Priority) : Bool :=
  (checker.remoteStatus.get remote.region).any fun status => !status.healthy

variable [LinearOrder Priority]

/-- `_getPreferredRegion` -/
def Checker.preferredRegion (config : Config Priority) (checker : Checker) : String :=
  if checker.localStatus = .healthy then config.region
  else
    let healthyRemotes :=
      sortBy Region.priority (config.remotes.filter fun r => !checker.knownUnhealthy r)
    (healthyRemotes.head?.map Region.region).getD config.region

structure RemoteState (Priority : Type) where
  status : Option RemoteStatus
  priority : Priority

structure FailoverState (Priority : Type) where
  region : String
  localStatus : LocalStatus
  failoverActive : Bool
  preferredRegion : String
  remoteRegions : InsertionMap String (RemoteState Priority)

def Checker.getState (config : Config Priority) (checker : Checker) : FailoverState Priority where
  region := config.region
  localStatus := checker.localStatus
  failoverActive := checker.localStatus = .degraded || checker.localStatus = .recovering
  preferredRegion := checker.preferredRegion config
  remoteRegions := config.remotes.foldl (fun remoteRegions r =>
    remoteRegions.set r.region ⟨checker.remoteStatus.get r.region, r.priority⟩) .empty

/-- A region that is healthy is preferred to all others. -/
theorem preferredRegion_of_healthy {config : Config Priority} {checker : Checker}
    (hhealthy : checker.localStatus = .healthy) :
    checker.preferredRegion config = config.region := by
  rw [Checker.preferredRegion, if_pos hhealthy]

/-- Otherwise it is the best of the remote regions that may be healthy, if there is one. -/
theorem preferredRegion_of_not_healthy {config : Config Priority} {checker : Checker}
    (hhealthy : checker.localStatus ≠ .healthy) :
    (∃ remote ∈ config.remotes, checker.knownUnhealthy remote = false ∧
      checker.preferredRegion config = remote.region ∧
      ∀ other ∈ config.remotes, checker.knownUnhealthy other = false →
        remote.priority ≤ other.priority) ∨
    ((∀ remote ∈ config.remotes, checker.knownUnhealthy remote = true) ∧
      checker.preferredRegion config = config.region) := by
  rw [Checker.preferredRegion, if_neg hhealthy]
  dsimp only
  cases hfirst : (sortBy Region.priority
      (config.remotes.filter fun r => !checker.knownUnhealthy r)).head? with
  | none =>
      refine .inr ⟨fun remote hremote => ?_, rfl⟩
      by_contra hmay
      have hmem : remote ∈ config.remotes.filter fun r => !checker.knownUnhealthy r :=
        List.mem_filter.mpr ⟨hremote, by simpa using hmay⟩
      rw [← (sortBy_perm Region.priority _).mem_iff, List.head?_eq_none_iff.mp hfirst] at hmem
      exact List.not_mem_nil hmem
  | some first =>
      obtain ⟨hmem, hleast⟩ := le_of_head?_sortBy Region.priority hfirst
      obtain ⟨hremote, hknown⟩ := List.mem_filter.mp hmem
      refine .inl ⟨first, hremote, by simpa using hknown, rfl, fun other hother hmay => ?_⟩
      exact hleast other (List.mem_filter.mpr ⟨hother, by rw [hmay]; rfl⟩)

end X402Facilitator.Failover
