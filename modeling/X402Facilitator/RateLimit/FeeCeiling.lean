import X402Facilitator.Library.Budget
import X402Facilitator.Library.Execution
import X402Facilitator.RateLimit.Limiter

/-!
# The daily fee ceiling

Requests of `/settle` and `/pact/submit` are checked before their settlement and
recorded after it, one bucket at a time.  A check reserves nothing in the store.
Each owner and day is a budget in which a request holds its reservation from its
fee check to its record.
-/

namespace X402Facilitator.RateLimit

open X402Facilitator.Execution

inductive Route where
  | settle (network : String)
  | pactSubmit (network : String)

def Route.network : Route → String
  | settle network => network
  | pactSubmit network => network

/-- What a request that passed its fee check has reserved, for the window of the
check. -/
structure Reservation where
  day : ℕ
  amount : ℕ

/-- How far a request has got.  A request without a reservation was let through by
the allowlist. -/
inductive Request where
  | notReceived
  | checking (caller : Caller) (route : Route) (windows : List (ℕ × Limit))
  | admitted (caller : Caller) (route : Route) (reservation : Option Reservation)
  | recording (caller : Caller) (charge : ℕ) (reservation : Option Reservation)
      (windows : List ℕ)
  | recorded (charge : ℕ) (reservation : Option Reservation)
  | ended

structure System where
  store : Store
  requests : ℕ → Request

def System.init : System where
  store := .empty
  requests := fun _ => .notReceived

inductive Action where
  | receive (request : ℕ) (caller : Caller) (route : Route)
  | checks (request now : ℕ)
  | finishes (request : ℕ) (success : Bool) (feeStroops : ℕ)
  | ends (request : ℕ)
  | increments (request now : ℕ)

def feeCharged (config : Config) (success : Bool) (feeStroops : ℕ) : Route → ℕ
  | .settle network =>
      if success then
        ((config.perNetwork network).map NetworkFees.maxTransactionFeeStroops).getD 50000
      else 0
  | .pactSubmit _ => if success then feeStroops else 0

/-- The simulated fee of a submission is within the ceiling of its network. -/
def withinPactCeiling (config : Config) (feeStroops : ℕ) : Route → Bool
  | .settle _ => true
  | .pactSubmit network =>
      ((config.perNetwork network).map NetworkFees.pactMaxTransactionFeeStroops).any
        fun ceiling => decide (feeStroops ≤ ceiling)

def System.setRequest (s : System) (index : ℕ) (request : Request) : System :=
  { s with requests := Function.update s.requests index request }

def dayOf (now : ℕ) : ℕ := windowStart now 86400

def step (config : Config) (s : System) : Action → Option System
  | .receive index caller route =>
      match s.requests index with
      | .notReceived =>
          if config.rateLimits.allowlisted caller.ip then
            some (s.setRequest index (.admitted caller route none))
          else some (s.setRequest index (.checking caller route
            (config.rateLimits.getKeyConfig caller.owner).settleWindows))
      | _ => none
  | .checks index now =>
      match s.requests index with
      | .checking caller route ((windowSec, limit) :: windows) =>
          some (s.setRequest index
            (if check s.store caller.owner .settle windowSec limit 1 now then
              .checking caller route windows
            else .ended))
      | .checking caller route [] =>
          let amount := config.rateLimits.maxFee route.network
          some (s.setRequest index
            (if check s.store caller.owner .fee 86400
                (config.rateLimits.getKeyConfig caller.owner).feeSpd amount now then
              .admitted caller route (some ⟨dayOf now, amount⟩)
            else .ended))
      | _ => none
  | .finishes index success feeStroops =>
      match s.requests index with
      | .admitted caller route reservation =>
          if withinPactCeiling config feeStroops route then
            some (s.setRequest index (.recording caller
              (feeCharged config success feeStroops route) reservation recordWindows))
          else none
      | _ => none
  -- a replay, a conflict or an exception: nothing is recorded
  | .ends index =>
      match s.requests index with
      | .admitted _ _ _ => some (s.setRequest index .ended)
      | _ => none
  | .increments index now =>
      match s.requests index with
      | .recording caller charge reservation (windowSec :: windows) =>
          some { s.setRequest index (.recording caller charge reservation windows) with
            store := increment s.store caller.owner .settle windowSec 1 now }
      | .recording caller charge reservation [] =>
          some { s.setRequest index (.recorded charge reservation) with
            store := recordFee s.store caller.owner charge now }
      | _ => none

/-- No fee bucket is over the limit of its owner, and no request has been charged
more than it had reserved. -/
structure CeilingHolds (config : Config) (s : System) : Prop where
  total : ∀ owner now bucket, s.store.buckets (feeBucket owner now) = some bucket →
    (config.rateLimits.getKeyConfig owner).feeSpd.Admits bucket.count
  reserved : ∀ request charge reservation,
    s.requests request = .recorded charge reservation →
      charge ≤ (reservation.map Reservation.amount).getD 0

/-- In every state that a run with steps satisfying `meets` reaches. -/
def CeilingAlwaysHolds (config : Config) (meets : System → Action → Prop) : Prop :=
  ∀ s, Reaches (step config) meets .init s → CeilingHolds config s

/-- What a request still holds of the budget of an owner and a day. -/
def Request.held (owner : Owner) (day : ℕ) : Request → ℕ
  | admitted caller _ (some reservation) | recording caller _ (some reservation) _ =>
      if caller.owner = owner ∧ reservation.day = day then reservation.amount else 0
  | _ => 0

/-- What the requests between their check and their record hold together. -/
noncomputable def System.outstanding (s : System) (owner : Owner) (day : ℕ) : ℕ :=
  ∑ᶠ index, (s.requests index).held owner day

/-- A fee check that passes would pass with the outstanding reservations counted, and a
fee is recorded on the day of its check and within its reservation. -/
def HoldsReservations (config : Config) (s : System) : Action → Prop
  | .checks index now =>
      match s.requests index with
      | .checking caller route [] =>
          let limit := (config.rateLimits.getKeyConfig caller.owner).feeSpd
          let amount := config.rateLimits.maxFee route.network
          check s.store caller.owner .fee 86400 limit amount now = true →
            limit.Admits (s.store.total (feeBucket caller.owner now) +
              s.outstanding caller.owner (dayOf now) + amount)
      | _ => True
  | .increments index now =>
      match s.requests index with
      | .recording caller charge reservation [] =>
          charge ≤ (Request.recording caller charge reservation []).held caller.owner
            (dayOf now)
      | _ => True
  | _ => True

def dayBucket (owner : Owner) (day : ℕ) : BucketId := ⟨owner, .fee, day, 86400⟩

structure System.Tracks (s : System) (owner : Owner) (day : ℕ) (budget : Budget ℕ) :
    Prop where
  spent : budget.spent = s.store.total (dayBucket owner day)
  held : ∀ index, budget.held index = (s.requests index).held owner day

section Budgets

variable {s s' : System} {owner : Owner} {day : ℕ} {budget : Budget ℕ}

theorem System.Tracks.outstanding (htracks : s.Tracks owner day budget) :
    budget.committed = s.store.total (dayBucket owner day) + s.outstanding owner day := by
  rw [Budget.committed, htracks.spent, Budget.degree_eq_finsum htracks.held, System.outstanding]

theorem System.Tracks.same (htracks : s.Tracks owner day budget)
    (htotal : s'.store.total (dayBucket owner day) = s.store.total (dayBucket owner day))
    (hheld : ∀ index, (s'.requests index).held owner day =
      (s.requests index).held owner day) : s'.Tracks owner day budget where
  spent := htracks.spent.trans htotal.symm
  held := fun index => (htracks.held index).trans (hheld index).symm

variable {amount index : ℕ} {request : Request}

/-- A request that held nothing reserves. -/
theorem System.Tracks.reserve (htracks : s.Tracks owner day budget)
    (hfree : (s.requests index).held owner day = 0) (hheld : request.held owner day = amount) :
    (s.setRequest index request).Tracks owner day (budget.reserve index amount) where
  spent := htracks.spent
  held := by
    intro other
    change (budget.held + Finsupp.single index amount) other =
      (Function.update s.requests index request other).held owner day
    rw [Finsupp.add_apply, htracks.held other]
    by_cases hother : other = index
    · subst hother
      rw [Finsupp.single_eq_same, Function.update_self, hfree, hheld, Nat.zero_add]
    · rw [Finsupp.single_eq_of_ne hother, Function.update_of_ne hother, Nat.add_zero]

/-- A request is charged and holds nothing afterwards. -/
theorem System.Tracks.charge (htracks : s.Tracks owner day budget)
    (htotal : s'.store.total (dayBucket owner day) =
      s.store.total (dayBucket owner day) + amount)
    (hrequests : s'.requests = Function.update s.requests index request)
    (hheld : request.held owner day = 0) : s'.Tracks owner day (budget.charge index amount) where
  spent := by
    rw [htotal, ← htracks.spent]
    rfl
  held := by
    intro other
    change budget.held.erase index other = (s'.requests other).held owner day
    rw [hrequests]
    by_cases hother : other = index
    · subst hother
      rw [Finsupp.erase_same, Function.update_self, hheld]
    · rw [Finsupp.erase_ne hother, Function.update_of_ne hother, htracks.held other]

end Budgets

structure Tracked (config : Config) (s : System) : Prop where
  dated : s.store.Dated
  budgets : ∀ owner day, ∃ budget, s.Tracks owner day budget ∧
    budget.Within (config.rateLimits.getKeyConfig owner).feeSpd.Admits
  spent : ∀ owner day bucket, s.store.buckets (dayBucket owner day) = some bucket →
    0 < bucket.count
  windows : ∀ index caller charge reservation windows,
    s.requests index = .recording caller charge reservation windows →
      ∀ windowSec ∈ windows, 0 < windowSec
  reserved : ∀ index charge reservation, s.requests index = .recorded charge reservation →
    charge ≤ (reservation.map Reservation.amount).getD 0

theorem Tracked.init (config : Config) : Tracked config .init where
  dated := by
    intro id bucket hbucket
    cases hbucket
  budgets := fun owner day =>
    ⟨.empty, ⟨rfl, fun index => rfl⟩, Budget.within_empty⟩
  spent := by
    intro owner day bucket hbucket
    cases hbucket
  windows := by
    intro index caller charge reservation windows hrequest
    cases hrequest
  reserved := by
    intro index charge reservation hrequest
    cases hrequest

section Steps

variable {config : Config} {s s' : System}

variable {index now : ℕ} {request : Request} {caller : Caller} {reservation : Option Reservation}

/-- The requests after one has moved on, when it has not been recorded. -/
theorem Tracked.windows_update (htracked : Tracked config s)
    (hwindows : ∀ caller charge reservation windows,
      request = .recording caller charge reservation windows →
        ∀ windowSec ∈ windows, 0 < windowSec) (other : ℕ) (caller : Caller) (charge : ℕ)
    (reservation : Option Reservation) (windows : List ℕ)
    (hother : Function.update s.requests index request other =
      .recording caller charge reservation windows) : ∀ windowSec ∈ windows, 0 < windowSec := by
  rcases Execution.update_cases hother with ⟨-, hself⟩ | ⟨-, hold⟩
  · exact hwindows caller charge reservation windows hself
  · exact htracked.windows other caller charge reservation windows hold

theorem Tracked.reserved_update (htracked : Tracked config s)
    (hreserved : ∀ charge reservation, request = .recorded charge reservation →
      charge ≤ (reservation.map Reservation.amount).getD 0) (other charge : ℕ)
    (reservation : Option Reservation) (hother : Function.update s.requests index request other =
      .recorded charge reservation) : charge ≤ (reservation.map Reservation.amount).getD 0 := by
  rcases Execution.update_cases hother with ⟨-, hself⟩ | ⟨-, hold⟩
  · exact hreserved charge reservation hself
  · exact htracked.reserved other charge reservation hold

theorem held_update {requests : ℕ → Request} {owner : Owner} {day : ℕ}
    (hheld : request.held owner day = (requests index).held owner day) (other : ℕ) :
    (Function.update requests index request other).held owner day =
      (requests other).held owner day := by
  by_cases hother : other = index
  · subst hother
    rw [Function.update_self, hheld]
  · rw [Function.update_of_ne hother]

/-- A request moves on with what it holds. -/
theorem Tracked.moves (htracked : Tracked config s)
    (hheld : ∀ owner day, request.held owner day = (s.requests index).held owner day)
    (hwindows : ∀ caller charge reservation windows,
      request = .recording caller charge reservation windows →
        ∀ windowSec ∈ windows, 0 < windowSec)
    (hreserved : ∀ charge reservation, request ≠ .recorded charge reservation) :
    Tracked config (s.setRequest index request) where
  dated := htracked.dated
  budgets := by
    intro owner day
    obtain ⟨budget, htracks, hwithin⟩ := htracked.budgets owner day
    exact ⟨budget, htracks.same rfl (held_update (hheld owner day)), hwithin⟩
  spent := htracked.spent
  windows := htracked.windows_update hwindows
  reserved := htracked.reserved_update fun charge reservation h =>
    absurd h (hreserved charge reservation)

def Request.records : Request → Bool
  | recording _ _ _ _ => true
  | recorded _ _ => true
  | _ => false

/-- A request moves on before its record. -/
theorem Tracked.waits (htracked : Tracked config s)
    (hheld : ∀ owner day, request.held owner day = (s.requests index).held owner day)
    (hwaits : request.records = false) : Tracked config (s.setRequest index request) := by
  apply htracked.moves hheld
  · intro caller charge reservation windows hrecording
    rw [hrecording] at hwaits
    cases hwaits
  · intro charge reservation hrecorded
    rw [hrecorded] at hwaits
    cases hwaits

/-- A request passes its fee check. -/
theorem Tracked.admits (htracked : Tracked config s) {amount : ℕ} {route : Route}
    (hphase : s.requests index = .checking caller route [])
    (hfits : (config.rateLimits.getKeyConfig caller.owner).feeSpd.Admits
      (s.store.total (feeBucket caller.owner now) +
        s.outstanding caller.owner (dayOf now) + amount)) : Tracked config (s.setRequest index
      (.admitted caller route (some ⟨dayOf now, amount⟩))) where
  dated := htracked.dated
  budgets := by
    intro owner day
    obtain ⟨budget, htracks, hwithin⟩ := htracked.budgets owner day
    have hfree : (s.requests index).held owner day = 0 := by rw [hphase]; rfl
    by_cases hkey : caller.owner = owner ∧ dayOf now = day
    · obtain ⟨rfl, rfl⟩ := hkey
      have hheld : (Request.admitted caller route (some ⟨dayOf now, amount⟩)).held
          caller.owner (dayOf now) = amount := if_pos ⟨rfl, rfl⟩
      refine ⟨budget.reserve index amount, htracks.reserve hfree hheld, ?_⟩
      apply Budget.Within.reserve
      rw [htracks.outstanding]
      exact hfits
    · have hheld : (Request.admitted caller route (some ⟨dayOf now, amount⟩)).held
          owner day = (s.requests index).held owner day :=
        (if_neg hkey).trans hfree.symm
      exact ⟨budget, htracks.same rfl (held_update hheld), hwithin⟩
  spent := htracked.spent
  windows := htracked.windows_update fun _ _ _ _ h => by cases h
  reserved := htracked.reserved_update fun _ _ h => by cases h

/-- A request ends without a record. -/
theorem Tracked.releases (htracked : Tracked config s) (index : ℕ) :
    Tracked config (s.setRequest index .ended) where
  dated := htracked.dated
  budgets := by
    intro owner day
    obtain ⟨budget, htracks, hwithin⟩ := htracked.budgets owner day
    have hafter : (s.setRequest index .ended).Tracks owner day (budget.charge index 0) :=
      htracks.charge rfl rfl rfl
    exact ⟨budget.charge index 0, hafter,
      hwithin.charge Limit.Admits.mono (Nat.zero_le _)⟩
  spent := htracked.spent
  windows := htracked.windows_update fun _ _ _ _ h => by cases h
  reserved := htracked.reserved_update fun _ _ h => by cases h

/-- A record counts a settlement in one window. -/
theorem Tracked.counts (htracked : Tracked config s) {windowSec charge : ℕ} {windows : List ℕ}
    (hphase : s.requests index = .recording caller charge reservation (windowSec :: windows)) :
    Tracked config { s.setRequest index (.recording caller charge reservation windows) with
      store := increment s.store caller.owner .settle windowSec 1 now } := by
  have hall := htracked.windows index caller charge reservation _ hphase
  have hwindow : 0 < windowSec := hall windowSec List.mem_cons_self
  have hbuckets : ∀ owner day,
      (increment s.store caller.owner .settle windowSec 1 now).buckets (dayBucket owner day) =
        s.store.buckets (dayBucket owner day) := by
    intro owner day
    rw [buckets_increment htracked.dated hwindow]
    apply if_neg
    intro hsame
    cases congrArg BucketId.type hsame
  have hheld : ∀ owner day, (Request.recording caller charge reservation windows).held
      owner day = (s.requests index).held owner day := by
    intro owner day
    rw [hphase]
    cases reservation <;> rfl
  exact
    { dated := dated_increment htracked.dated hwindow 1
      budgets := by
        intro owner day
        obtain ⟨budget, htracks, hwithin⟩ := htracked.budgets owner day
        refine ⟨budget, htracks.same ?_ (held_update (hheld owner day)), hwithin⟩
        rw [Store.total, hbuckets, Store.total]
      spent := by
        intro owner day bucket hbucket
        rw [hbuckets] at hbucket
        exact htracked.spent owner day bucket hbucket
      windows := htracked.windows_update fun _ _ _ _ h => by
        cases h
        exact fun other hother => hall other (List.mem_cons_of_mem _ hother)
      reserved := htracked.reserved_update fun _ _ h => by cases h }

/-- What a request holds is part of its reservation. -/
theorem held_le_amount (caller : Caller) (charge : ℕ) (reservation : Option Reservation)
    (owner : Owner) (day : ℕ) :
    (Request.recording caller charge reservation []).held owner day ≤
      (reservation.map Reservation.amount).getD 0 := by
  cases reservation with
  | none => exact Nat.zero_le _
  | some reservation =>
      change (if caller.owner = owner ∧ reservation.day = day then reservation.amount else 0) ≤
        reservation.amount
      split
      · exact le_refl _
      · exact Nat.zero_le _

/-- A record adds the fee, on the day and within the reservation of the check. -/
theorem Tracked.charges (htracked : Tracked config s) {charge : ℕ}
    (hphase : s.requests index = .recording caller charge reservation [])
    (hcharge : charge ≤ (Request.recording caller charge reservation []).held caller.owner
      (dayOf now)) : Tracked config { s.setRequest index (.recorded charge reservation) with
      store := recordFee s.store caller.owner charge now } where
  dated := dated_recordFee htracked.dated charge
  budgets := by
    intro owner day
    obtain ⟨budget, htracks, hwithin⟩ := htracked.budgets owner day
    have hafter : System.Tracks { s.setRequest index (.recorded charge reservation) with
        store := recordFee s.store caller.owner charge now } owner day (budget.charge index
          (if dayBucket owner day = feeBucket caller.owner now then charge else 0)) :=
      htracks.charge (total_recordFee htracked.dated charge (dayBucket owner day)) rfl rfl
    refine ⟨_, hafter, hwithin.charge Limit.Admits.mono ?_⟩
    rw [htracks.held index, hphase]
    split
    · next hsame =>
        obtain rfl : owner = caller.owner := congrArg BucketId.owner hsame
        obtain rfl : day = dayOf now := congrArg BucketId.windowStart hsame
        exact hcharge
    · exact Nat.zero_le _
  spent := by
    intro owner day bucket hbucket
    change (recordFee s.store caller.owner charge now).buckets (dayBucket owner day) =
      some bucket at hbucket
    rw [recordFee] at hbucket
    split at hbucket
    · next hpositive =>
        rw [buckets_increment htracked.dated (by decide)] at hbucket
        split at hbucket
        · cases hbucket
          exact Nat.lt_of_lt_of_le hpositive (Nat.le_add_left _ _)
        · exact htracked.spent owner day bucket hbucket
    · exact htracked.spent owner day bucket hbucket
  windows := htracked.windows_update fun _ _ _ _ h => by cases h
  reserved := htracked.reserved_update fun _ _ h => by
    cases h
    exact hcharge.trans (held_le_amount caller charge reservation caller.owner (dayOf now))

theorem Tracked.step {action : Action} (htracked : Tracked config s)
    (hmeets : HoldsReservations config s action) (hstep : step config s action = some s') :
    Tracked config s' := by
  cases action with
  | receive index caller route =>
      rw [RateLimit.step] at hstep
      split at hstep
      · next hphase =>
          have hfree : ∀ owner day, 0 = (s.requests index).held owner day := by
            intro owner day
            rw [hphase]
            rfl
          split at hstep
          · cases hstep
            exact htracked.waits hfree rfl
          · cases hstep
            exact htracked.waits hfree rfl
      · cases hstep
  | checks index now =>
      rw [RateLimit.step] at hstep
      split at hstep
      · next caller route windowSec limit windows hphase =>
          have hfree : ∀ owner day, 0 = (s.requests index).held owner day := by
            intro owner day
            rw [hphase]
            rfl
          cases hstep
          split
          · exact htracked.waits hfree rfl
          · exact htracked.releases index
      · next caller route hphase =>
          cases hstep
          rw [HoldsReservations, hphase] at hmeets
          split
          · next hpasses => exact htracked.admits hphase (hmeets hpasses)
          · exact htracked.releases index
      · cases hstep
  | finishes index success feeStroops =>
      rw [RateLimit.step] at hstep
      split at hstep
      · next caller route reservation hphase =>
          obtain ⟨-, hafter⟩ := Option.ite_none_right_eq_some.mp hstep
          cases hafter
          apply htracked.moves
          · intro owner day
            rw [hphase]
            cases reservation <;> rfl
          · intro _ _ _ _ h
            cases h
            decide
          · intro _ _ h
            cases h
      · cases hstep
  | ends index =>
      rw [RateLimit.step] at hstep
      split at hstep
      · cases hstep
        exact htracked.releases index
      · cases hstep
  | increments index now =>
      rw [RateLimit.step] at hstep
      split at hstep
      · next caller charge reservation windowSec windows hphase =>
          cases hstep
          exact htracked.counts hphase
      · next caller charge reservation hphase =>
          cases hstep
          rw [HoldsReservations, hphase] at hmeets
          exact htracked.charges hphase hmeets
      · cases hstep

end Steps

/-- While every fee check counts the outstanding reservations, and every fee is recorded
on the day of its check and within its reservation, no daily fee ceiling is
exceeded. -/
theorem ceilingAlwaysHolds_holdsReservations (config : Config) :
    CeilingAlwaysHolds config (HoldsReservations config) := by
  intro s hreach
  have htracked : Tracked config s :=
    hreach.preserves (fun _ _ _ h hmeets hstep => h.step hmeets hstep) (Tracked.init config)
  exact
    { total := by
        intro owner now bucket hbucket
        obtain ⟨budget, htracks, hwithin⟩ := htracked.budgets owner (dayOf now)
        have hspent : budget.spent = bucket.count := by
          rw [htracks.spent, Store.total]
          exact congrArg (fun found => (Option.map Bucket.count found).getD 0) hbucket
        have hpositive := htracked.spent owner (dayOf now) bucket hbucket
        rw [← hspent] at hpositive ⊢
        exact hwithin.spent Limit.Admits.mono hpositive
      reserved := htracked.reserved }

def defaultFees : NetworkFees where
  maxTransactionFeeStroops := 50000
  pactMaxTransactionFeeStroops := 250000
  maxBounds := by decide
  pactBounds := by decide

/-- One network with the default ceilings, and a daily limit for one settlement. -/
def oneADay : Config where
  rateLimits :=
    { global := parseLimits [("fee_spd", .number 60000)]
      keys := fun _ => none
      allowlisted := fun _ => false
      perNetwork := fun _ => none }
  perNetwork := fun _ => some defaultFees
  unset := fun _ => rfl

def twoAtOnce : List Action :=
  [Action.receive 0 ⟨none, "203.0.113.7"⟩ (Route.settle "stellar:testnet"),
    Action.receive 1 ⟨none, "203.0.113.7"⟩ (Route.settle "stellar:testnet")] ++
    List.replicate 4 (Action.checks 0 0) ++ List.replicate 4 (Action.checks 1 0) ++
    [Action.finishes 0 true 0, Action.finishes 1 true 0] ++
    List.replicate 4 (Action.increments 0 0) ++ List.replicate 4 (Action.increments 1 0)

/-- Both fees are recorded. -/
theorem not_ceilingAlwaysHolds_anyStep :
    ¬ ∀ config, CeilingAlwaysHolds config anyStep := by
  intro hholds
  have hrun : (run (step oneADay) .init twoAtOnce).map
      (fun s => s.store.buckets (feeBucket (.ip "203.0.113.7") 0)) =
      some (some ⟨100000, 86400⟩) := by
    decide
  obtain ⟨s, hreach, hbucket⟩ := exists_reaches_of_run hrun
  have hadmits := (hholds oneADay s hreach).total (.ip "203.0.113.7") 0 _ hbucket
  exact absurd hadmits (by decide)

/-- What a request checked on a day may still be charged until its record. -/
def Request.exposure (owner : Owner) (day charge : ℕ) : Request → ℕ
  | admitted caller _ (some reservation) | recording caller _ (some reservation) _ =>
      if caller.owner = owner ∧ reservation.day = day then charge else 0
  | _ => 0

/-- What the requests of an owner may still be charged together. -/
noncomputable def System.exposure (s : System) (owner : Owner) (day charge : ℕ) : ℕ :=
  ∑ᶠ index, (s.requests index).exposure owner day charge

/-- A fee check of the owner passes only while the exposure stays within `allowance`, and a fee is
recorded on the day of its check. -/
def ExposureWithin (config : Config) (owner : Owner) (charge allowance : ℕ) (s : System) :
    Action → Prop
  | .checks index now =>
      match s.requests index with
      | .checking caller route [] =>
          check s.store caller.owner .fee 86400
              (config.rateLimits.getKeyConfig caller.owner).feeSpd
              (config.rateLimits.maxFee route.network) now = true →
            caller.owner = owner → s.exposure owner (dayOf now) charge + charge ≤ allowance
      | _ => True
  | .increments index now =>
      match s.requests index with
      | .recording caller fee reservation [] =>
          0 < fee → caller.owner = owner →
            reservation.map Reservation.day = some (dayOf now)
      | _ => True
  | _ => True

/-- Every fee that is recorded is at most `charge`, and every check reserves at least
`reserve`. -/
structure Config.Charges (config : Config) (charge reserve : ℕ) : Prop where
  charged : ∀ success feeStroops route, withinPactCeiling config feeStroops route = true →
    feeCharged config success feeStroops route ≤ charge
  reserved : ∀ network, reserve ≤ config.rateLimits.maxFee network

/-- What a total has beyond the allowance is what a check admits. -/
def Overruns (limit : Limit) (allowance reserve total : ℕ) : Prop :=
  total ≤ allowance ∨ limit.Admits (total - allowance + reserve)

theorem Overruns.mono {limit : Limit} {allowance reserve m n : ℕ} (hle : m ≤ n)
    (hoverruns : Overruns limit allowance reserve n) : Overruns limit allowance reserve m := by
  rcases hoverruns with hwithin | hadmits
  · exact Or.inl (hle.trans hwithin)
  · exact Or.inr (Limit.Admits.mono (by omega) hadmits)

structure System.Exposes (s : System) (owner : Owner) (day charge : ℕ) (budget : Budget ℕ) :
    Prop where
  spent : budget.spent = s.store.total (dayBucket owner day)
  held : ∀ index, budget.held index = (s.requests index).exposure owner day charge

structure Exposed (config : Config) (owner : Owner) (day charge allowance reserve : ℕ)
    (s : System) : Prop where
  dated : s.store.Dated
  within : ∃ budget, s.Exposes owner day charge budget ∧
    budget.Within (Overruns (config.rateLimits.getKeyConfig owner).feeSpd allowance reserve)
  recording : ∀ index caller amount reservation windows,
    s.requests index = .recording caller amount reservation windows →
      amount ≤ charge ∧ ∀ windowSec ∈ windows, 0 < windowSec

section Exposure

variable {config : Config} {owner : Owner} {day charge allowance reserve : ℕ} {s s' : System}

variable {index : ℕ} {request : Request}

/-- A request spends and goes on with another exposure. -/
theorem System.Exposes.move {budget : Budget ℕ} (hexposes : s.Exposes owner day charge budget)
    (amount : ℕ) (hrequests : s'.requests = Function.update s.requests index request)
    (htotal : s'.store.total (dayBucket owner day) =
      s.store.total (dayBucket owner day) + amount) : s'.Exposes owner day charge
      ((budget.charge index amount).reserve index (request.exposure owner day charge)) where
  spent := by
    rw [htotal, ← hexposes.spent]
    rfl
  held := by
    intro other
    change (budget.held.erase index +
      Finsupp.single index (request.exposure owner day charge)) other = _
    rw [Finsupp.add_apply, hrequests]
    by_cases hother : other = index
    · rw [hother, Finsupp.erase_same, Finsupp.single_eq_same, Function.update_self, Nat.zero_add]
    · rw [Finsupp.erase_ne hother, Finsupp.single_eq_of_ne hother, Function.update_of_ne hother,
        hexposes.held, Nat.add_zero]

theorem Exposed.recording_update (hexposed : Exposed config owner day charge allowance reserve s)
    (hrecording : ∀ caller amount reservation windows,
      request = .recording caller amount reservation windows →
        amount ≤ charge ∧ ∀ windowSec ∈ windows, 0 < windowSec) (other : ℕ) (caller : Caller)
    (amount : ℕ) (reservation : Option Reservation) (windows : List ℕ)
    (hother : Function.update s.requests index request other =
      .recording caller amount reservation windows) :
    amount ≤ charge ∧ ∀ windowSec ∈ windows, 0 < windowSec := by
  rcases Execution.update_cases hother with ⟨-, hself⟩ | ⟨-, hold⟩
  · exact hrecording caller amount reservation windows hself
  · exact hexposed.recording other caller amount reservation windows hold

/-- A request moves on, and what it spends and may still be charged was its exposure. -/
theorem Exposed.moves (hexposed : Exposed config owner day charge allowance reserve s) (amount : ℕ)
    (hdated : s'.store.Dated) (hrequests : s'.requests = Function.update s.requests index request)
    (htotal : s'.store.total (dayBucket owner day) = s.store.total (dayBucket owner day) + amount)
    (hspends : amount + request.exposure owner day charge ≤
      (s.requests index).exposure owner day charge)
    (hrecording : ∀ caller amount reservation windows,
      request = .recording caller amount reservation windows →
        amount ≤ charge ∧ ∀ windowSec ∈ windows, 0 < windowSec) :
    Exposed config owner day charge allowance reserve s' where
  dated := hdated
  within := by
    obtain ⟨budget, hexposes, hwithin⟩ := hexposed.within
    refine ⟨_, hexposes.move amount hrequests htotal, ?_⟩
    have hle : ((budget.charge index amount).reserve index
        (request.exposure owner day charge)).committed ≤ budget.committed := by
      rw [Budget.committed_reserve]
      calc
        (budget.charge index amount).committed + request.exposure owner day charge =
            (budget.charge index (amount + request.exposure owner day charge)).committed := by
          simp only [Budget.charge, Budget.committed]
          omega
        _ ≤ budget.committed := Budget.committed_charge_le (hexposes.held index ▸ hspends)
    rcases hwithin with hzero | hfits
    · left
      omega
    · right
      exact hfits.mono hle
  recording := hrequests ▸ hexposed.recording_update hrecording

/-- A request that is not between its check and its record moves on. -/
theorem Exposed.waits (hexposed : Exposed config owner day charge allowance reserve s) (index : ℕ)
    (hfree : request.exposure owner day charge = 0) (hwaits : request.records = false) :
    Exposed config owner day charge allowance reserve (s.setRequest index request) := by
  refine hexposed.moves 0 hexposed.dated rfl rfl ?_ ?_
  · rw [hfree]
    exact Nat.zero_le _
  · intro caller amount reservation windows hrecording
    rw [hrecording] at hwaits
    cases hwaits

/-- A request passes its fee check. -/
theorem Exposed.admits (hexposed : Exposed config owner day charge allowance reserve s)
    (hcharges : config.Charges charge reserve) {now : ℕ} {caller : Caller} {route : Route}
    (amount : ℕ) (hphase : s.requests index = .checking caller route [])
    (hexposure : caller.owner = owner → s.exposure owner (dayOf now) charge + charge ≤ allowance)
    (hpasses : check s.store caller.owner .fee 86400
      (config.rateLimits.getKeyConfig caller.owner).feeSpd
      (config.rateLimits.maxFee route.network) now = true) :
    Exposed config owner day charge allowance reserve
      (s.setRequest index (.admitted caller route (some ⟨dayOf now, amount⟩))) := by
  by_cases hkey : caller.owner = owner ∧ dayOf now = day
  · obtain ⟨rfl, rfl⟩ := hkey
    obtain ⟨budget, hexposes, -⟩ := hexposed.within
    have hafter : (Request.admitted caller route (some ⟨dayOf now, amount⟩)).exposure
        caller.owner (dayOf now) charge = charge := if_pos ⟨rfl, rfl⟩
    have hfree : budget.held index = 0 := by
      rw [hexposes.held, hphase]
      rfl
    rw [check_eq hexposed.dated (by decide), decide_eq_true_eq] at hpasses
    have hcommitted : ((budget.charge index 0).reserve index charge).committed ≤
        s.store.total (dayBucket caller.owner (dayOf now)) +
          s.exposure caller.owner (dayOf now) charge + charge := by
      rw [Budget.committed_reserve, System.exposure, ← Budget.degree_eq_finsum hexposes.held,
        ← hexposes.spent]
      exact Nat.add_le_add_right (Budget.committed_charge_le (Nat.zero_le _)) charge
    exact
      { dated := hexposed.dated
        within := by
          refine ⟨_, hexposes.move 0 rfl rfl, ?_⟩
          rw [hafter]
          apply Or.inr (Overruns.mono hcommitted (Or.inr (Limit.Admits.mono ?_ hpasses)))
          have hreserved := hcharges.reserved route.network
          have hallowed := hexposure rfl
          change _ ≤ s.store.total (dayBucket caller.owner (dayOf now)) + _
          omega
        recording := hexposed.recording_update fun _ _ _ _ h => by cases h }
  · exact hexposed.waits index (if_neg hkey) rfl

theorem Exposed.step {action : Action}
    (hexposed : Exposed config owner day charge allowance reserve s)
    (hcharges : config.Charges charge reserve)
    (hmeets : ExposureWithin config owner charge allowance s action)
    (hstep : step config s action = some s') :
    Exposed config owner day charge allowance reserve s' := by
  cases action with
  | receive index caller route =>
      rw [RateLimit.step] at hstep
      split at hstep
      · split at hstep
        · cases hstep
          exact hexposed.waits index rfl rfl
        · cases hstep
          exact hexposed.waits index rfl rfl
      · cases hstep
  | checks index now =>
      rw [RateLimit.step] at hstep
      split at hstep
      · cases hstep
        split
        · exact hexposed.waits index rfl rfl
        · exact hexposed.waits index rfl rfl
      · next caller route hphase =>
          cases hstep
          rw [ExposureWithin, hphase] at hmeets
          split
          · next hpasses => exact hexposed.admits hcharges _ hphase (hmeets hpasses) hpasses
          · exact hexposed.waits index rfl rfl
      · cases hstep
  | finishes index success feeStroops =>
      rw [RateLimit.step] at hstep
      split at hstep
      · next caller route reservation hphase =>
          obtain ⟨hceiling, hafter⟩ := Option.ite_none_right_eq_some.mp hstep
          cases hafter
          refine hexposed.moves 0 hexposed.dated rfl rfl ?_ ?_
          · rw [hphase, Nat.zero_add]
            cases reservation <;> exact le_refl _
          · intro _ _ _ _ h
            cases h
            exact ⟨hcharges.charged success feeStroops route hceiling, by decide⟩
      · cases hstep
  | ends index =>
      rw [RateLimit.step] at hstep
      split at hstep
      · cases hstep
        exact hexposed.waits index rfl rfl
      · cases hstep
  | increments index now =>
      rw [RateLimit.step] at hstep
      split at hstep
      · next caller amount reservation windowSec windows hphase =>
          cases hstep
          obtain ⟨hamount, hwindows⟩ := hexposed.recording index caller amount _ _ hphase
          have hwindow : 0 < windowSec := hwindows windowSec List.mem_cons_self
          refine hexposed.moves 0 (dated_increment hexposed.dated hwindow 1) rfl ?_ ?_ ?_
          · rw [total_increment hexposed.dated hwindow, if_neg]
            intro hsame
            cases congrArg BucketId.type hsame
          · rw [hphase, Nat.zero_add]
            cases reservation <;> exact le_refl _
          · intro _ _ _ _ h
            cases h
            exact ⟨hamount, fun other hother => hwindows other (List.mem_cons_of_mem _ hother)⟩
      · next caller amount reservation hphase =>
          cases hstep
          rw [ExposureWithin, hphase] at hmeets
          refine hexposed.moves _ (dated_recordFee hexposed.dated amount) rfl
            (total_recordFee hexposed.dated amount _) ?_ ?_
          · rw [hphase]
            split
            · next hsame =>
                obtain rfl : owner = caller.owner := congrArg BucketId.owner hsame
                obtain rfl : day = dayOf now := congrArg BucketId.windowStart hsame
                rcases Nat.eq_zero_or_pos amount with rfl | hpos
                · exact Nat.zero_le _
                · obtain ⟨reservation, rfl, hday⟩ := Option.map_eq_some_iff.mp (hmeets hpos rfl)
                  rw [Request.exposure, if_pos ⟨rfl, hday⟩]
                  exact (hexposed.recording index _ amount _ _ hphase).1
            · exact Nat.zero_le _
          · intro _ _ _ _ h
            cases h
      · cases hstep

end Exposure

/-- While the requests of an owner between check and record are within an allowance, what the
total of a day has beyond the allowance is what its ceiling admits. -/
theorem overruns_exposureWithin {config : Config} {charge reserve : ℕ}
    (hcharges : config.Charges charge reserve) (owner : Owner) (day allowance : ℕ) (s : System)
    (hreach : Reaches (step config) (ExposureWithin config owner charge allowance) .init s) :
    Overruns (config.rateLimits.getKeyConfig owner).feeSpd allowance reserve
      (s.store.total (dayBucket owner day)) := by
  have hinit : Exposed config owner day charge allowance reserve .init :=
    { dated := by
        intro id bucket hbucket
        cases hbucket
      within := ⟨.empty, ⟨rfl, fun index => rfl⟩, Budget.within_empty⟩
      recording := by
        intro index caller amount reservation windows hrequest
        cases hrequest }
  have hexposed : Exposed config owner day charge allowance reserve s :=
    hreach.preserves (fun _ _ _ h hmeets hstep => h.step hcharges hmeets hstep) hinit
  obtain ⟨budget, hexposes, hwithin⟩ := hexposed.within
  have hspent : s.store.total (dayBucket owner day) ≤ budget.committed := by
    rw [← hexposes.spent]
    exact Nat.le_add_right _ _
  rcases hwithin with hzero | hfits
  · left
    omega
  · exact hfits.mono hspent

def sameDay (s : System) : Action → Bool
  | .checks index _ =>
      match s.requests index with
      | .checking _ _ [] => false
      | _ => true
  | .increments index now =>
      match s.requests index with
      | .recording _ _ reservation [] => reservation.map Reservation.day = some (dayOf now)
      | _ => true
  | _ => true

/-- One settlement of an address, whose fee check leaves room for a pact submission. -/
theorem overruns_exposureWithin_oneSettlement :
    ∃ s : System, s.store.total (dayBucket (.ip "203.0.113.7") 0) = 50000 ∧
      Overruns (oneADay.rateLimits.getKeyConfig (.ip "203.0.113.7")).feeSpd 250000 50000
        (s.store.total (dayBucket (.ip "203.0.113.7") 0)) := by
  have hcharges : oneADay.Charges 250000 50000 :=
    { charged := by
        intro success feeStroops route hceiling
        cases route with
        | settle network =>
                cases success
                · exact Nat.zero_le _
                · exact (by decide : 50000 ≤ 250000)
        | pactSubmit network =>
            have hfee : feeStroops ≤ 250000 := of_decide_eq_true hceiling
            cases success
            · exact Nat.zero_le _
            · exact hfee
      reserved := fun network => le_refl 50000 }
  have hmeets : ∀ s action, sameDay s action = true →
      ExposureWithin oneADay (.ip "203.0.113.7") 250000 250000 s action := by
    intro s action hguard
    cases action with
    | checks index now =>
        rw [ExposureWithin]
        split
        · next hphase =>
            rw [sameDay, hphase] at hguard
            cases hguard
        · trivial
    | increments index now =>
        rw [ExposureWithin]
        split
        · next hphase =>
            rw [sameDay, hphase] at hguard
            exact fun _ _ => of_decide_eq_true hguard
        · trivial
    | _ => trivial
  obtain ⟨s, s', finish, hbefore, hchecks, hafter, hfree, hphase, htotal⟩ :
      ∃ s s' finish : System, run (guarded (step oneADay) sameDay) .init
        (.receive 0 ⟨none, "203.0.113.7"⟩ (.settle "stellar:testnet") ::
          List.replicate 3 (.checks 0 0)) = some s ∧ step oneADay s (.checks 0 0) = some s' ∧
        run (guarded (step oneADay) sameDay) s'
          (.finishes 0 true 0 :: List.replicate 4 (.increments 0 0)) = some finish ∧
        (∀ index, (s.requests index).exposure (.ip "203.0.113.7") 0 250000 = 0) ∧
        s.requests 0 = .checking ⟨none, "203.0.113.7"⟩ (.settle "stellar:testnet") [] ∧
        finish.store.total (dayBucket (.ip "203.0.113.7") 0) = 50000 :=
    ⟨_, _, _, rfl, rfl, rfl, fun index => by cases index <;> rfl, rfl, rfl⟩
  have hwithin : ExposureWithin oneADay (.ip "203.0.113.7") 250000 250000 s (.checks 0 0) := by
    rw [ExposureWithin, hphase]
    intro _ _
    have hzero : s.exposure (.ip "203.0.113.7") (dayOf 0) 250000 = 0 :=
      finsum_eq_zero_of_forall_eq_zero hfree
    rw [hzero]
  have hreach := (((reaches_of_run_guarded hbefore).mono hmeets).tail hwithin hchecks).trans
    ((reaches_of_run_guarded hafter).mono hmeets)
  exact ⟨finish, htotal, overruns_exposureWithin hcharges _ 0 250000 finish hreach⟩

end X402Facilitator.RateLimit
