import X402Facilitator.Pact.Submission
import X402Facilitator.RateLimit.FeeCeiling

/-!
# Charging for sponsored transactions

The handlers of `/settle` and `/pact/submit` record a fee when the scheme has
returned, and derive it from the result.  The facilitator pays when a ledger
includes its transaction, successful or failed, whatever the scheme returned.
-/

namespace X402Facilitator.FeeCharging

open X402Facilitator.Execution
open RateLimit

/-- The scheme of a transaction and the route that it comes by. -/
inductive Path where
  | exactSettle
  | pactSettle
  | pactSubmit
  deriving DecidableEq, Repr

def Path.route (network : String) : Path → Route
  | exactSettle => .settle network
  | pactSettle => .settle network
  | pactSubmit => .pactSubmit network

/-- A transaction as it was simulated, and the fee that a ledger takes for it. -/
structure Transaction where
  path : Path
  network : String
  caller : Caller
  minResourceFee : ℕ
  inclusionFeeStroops : ℕ
  feeBump : Bool
  fee : ℕ

namespace Transaction

variable (config : Config) (transaction : Transaction)

def maxTransactionFee : ℕ :=
  ((config.perNetwork transaction.network).map NetworkFees.maxTransactionFeeStroops).getD 50000

def simulatedFee : ℕ := transaction.minResourceFee + transaction.inclusionFeeStroops

/-- What the transaction offers.  The exact scheme stays within its ceiling; a fee
bump pays the inclusion fee for one operation more. -/
def bid : ℕ :=
  match transaction.path with
  | .exactSettle => transaction.maxTransactionFee config
  | _ => transaction.minResourceFee +
      transaction.inclusionFeeStroops * if transaction.feeBump then 2 else 1

def ceiling : ℕ :=
  match transaction.path with
  | .exactSettle => transaction.maxTransactionFee config
  | _ => transaction.simulatedFee

def charge (success : Bool) : ℕ :=
  feeCharged config success transaction.simulatedFee
    (transaction.path.route transaction.network)

end Transaction

/-- No ledger takes more than the transaction offers. -/
structure Sponsorship (config : Config) extends Transaction where
  paid : fee ≤ toTransaction.bid config

/-- How far the handler has got; `increase` is what it has added to the fee bucket
of the caller. -/
inductive Handler where
  | settling
  | recording (success : Bool) (windows : List ℕ)
  | accounted (increase : ℕ)
  deriving DecidableEq, Repr

/-- One request with its transaction.  The phase of the submission is that of the
pact scheme. -/
structure System where
  store : Store
  submission : Pact.Submission
  handler : Handler

def System.init : System := ⟨.empty, .init, .settling⟩

/-- `others` leaves the store as the other requests and its eviction do. -/
inductive Action where
  | submits (action : Pact.SubmissionAction)
  | refuses
  | exactSends
  | exactReturns (success : Bool)
  | returns
  | ends
  | increments (stored : Bool) (now : ℕ)
  | others (store : Store) (hdated : store.Dated)

section Model

variable (config : Config) (submission : Pact.SubmissionConfig) (sponsorship : Sponsorship config)

/-- One step of the scheme, the network, the handler or the rest of the program.  An
increment that fails is skipped.  A response that times out changes nothing, since
`settleOnce` goes on. -/
def step (s : System) : Action → Option System
  | .submits action =>
      if action.ofNetwork = true ∨ s.handler = .settling ∧ sponsorship.path ≠ .exactSettle ∧
          withinPactCeiling config sponsorship.simulatedFee
            (.pactSubmit sponsorship.network) = true then
        (s.submission.step submission action).map fun after => { s with submission := after }
      else none
  | .refuses =>
      if s.handler = .settling ∧ s.submission.phase = .preparing then
        some { s with handler := .recording false recordWindows }
      else none
  | .exactSends =>
      if s.handler = .settling ∧ sponsorship.path = .exactSettle then
        some { s with
          submission := { s.submission with network := s.submission.network.lose true } }
      else none
  | .exactReturns success =>
      if s.handler = .settling ∧ sponsorship.path = .exactSettle then
        some { s with handler := .recording success recordWindows }
      else none
  -- an exception is a failed result for `PactStellarScheme.settle` only
  | .returns =>
      match s.handler, s.submission.phase with
      | .settling, .finished outcome =>
          if outcome = .threw ∧ sponsorship.path = .pactSubmit then
            some { s with handler := .accounted 0 }
          else some { s with handler := .recording outcome.succeeds recordWindows }
      | _, _ => none
  -- a replay, a conflict or an exception: nothing is recorded
  | .ends =>
      if s.handler = .settling ∧ s.submission.phase = .preparing then
        some { s with handler := .accounted 0 }
      else none
  | .increments stored now =>
      let owner := sponsorship.caller.owner
      match s.handler with
      | .recording success (windowSec :: windows) =>
          some { s with
            store := if stored then increment s.store owner .settle windowSec 1 now else s.store
            handler := .recording success windows }
      | .recording success [] =>
          let charge := sponsorship.charge config success
          let store := if stored then recordFee s.store owner charge now else s.store
          let bucket := feeBucket owner now
          some { s with
            store := store
            handler := .accounted (store.total bucket - s.store.total bucket) }
      | _ => none
  | .others store _ => some { s with store := store }

/-- A transaction that a ledger includes has been charged to its caller, with the fee
and with the bound of its scheme. -/
def Charged (s : System) : Prop :=
  ∀ increase, s.handler = .accounted increase → s.submission.network.included →
    sponsorship.fee ≤ increase ∧ sponsorship.ceiling config ≤ increase

/-- In every state that a run with steps satisfying `meets` reaches. -/
def AllCharged (meets : System → Action → Prop) : Prop :=
  ∀ s, Reaches (step config submission sponsorship) meets .init s →
    Charged config sponsorship s

/-- What a success charges covers the transaction. -/
def Covers : Prop :=
  match sponsorship.path with
  | .exactSettle => True
  | .pactSettle =>
      sponsorship.fee ≤ sponsorship.maxTransactionFee config ∧
        sponsorship.simulatedFee ≤ sponsorship.maxTransactionFee config
  | .pactSubmit => sponsorship.fee ≤ sponsorship.simulatedFee

/-- A request goes without a stored charge for a success, or with one that does not
cover its transaction, only when the network has no trace of the transaction. -/
def ChargesSponsored (s : System) : Action → Prop
  | .returns =>
      s.submission.phase = .finished .threw → sponsorship.path = .pactSubmit →
        s.submission.network.Untraced
  | .ends => s.submission.network.Untraced
  | .increments stored _ =>
      match s.handler with
      | .recording success [] =>
          (stored = true ∧ success = true ∧ Covers config sponsorship) ∨
            s.submission.network.Untraced
      | _ => True
  | _ => True

end Model

section Charges

variable {config : Config}

/-- A success is charged to the extent that the transaction is covered. -/
theorem Covers.charge {sponsorship : Sponsorship config} (hcovers : Covers config sponsorship) :
    sponsorship.fee ≤ sponsorship.charge config true ∧
      sponsorship.ceiling config ≤ sponsorship.charge config true := by
  have hpaid := sponsorship.paid
  rw [Transaction.bid] at hpaid
  rw [Covers] at hcovers
  rw [Transaction.charge, Transaction.ceiling]
  cases hpath : sponsorship.path with
  | exactSettle =>
      rw [hpath] at hpaid
      exact ⟨hpaid, le_refl _⟩
  | pactSettle =>
      rw [hpath] at hcovers
      exact hcovers
  | pactSubmit =>
      rw [hpath] at hcovers
      exact ⟨hcovers, le_refl _⟩

/-- The fee bucket grows by a charge that is stored. -/
theorem total_charge {store : Store} (hdated : store.Dated) (owner : Owner) (charge now : ℕ) :
    (recordFee store owner charge now).total (feeBucket owner now) -
      store.total (feeBucket owner now) = charge := by
  rw [total_recordFee hdated, if_pos rfl, Nat.add_sub_cancel_left]

end Charges

section Steps

variable {config : Config} {submission : Pact.SubmissionConfig}
variable {sponsorship : Sponsorship config} {s s' : System}

structure Accounted (sponsorship : Sponsorship config) (s : System) : Prop where
  dated : s.store.Dated
  windows : ∀ success windows, s.handler = .recording success windows →
    ∀ windowSec ∈ windows, 0 < windowSec
  charged : ∀ increase, s.handler = .accounted increase →
    (sponsorship.fee ≤ increase ∧ sponsorship.ceiling config ≤ increase) ∨
      s.submission.network.Untraced

theorem Accounted.init : Accounted sponsorship .init where
  dated := by
    intro id bucket hbucket
    cases hbucket
  windows := by
    intro success windows hhandler
    cases hhandler
  charged := by
    intro increase hhandler
    cases hhandler

theorem recordWindows_pos : ∀ windowSec ∈ recordWindows, 0 < windowSec := by decide

/-- The handler begins to record a result. -/
theorem Accounted.records (haccounted : Accounted sponsorship s) (success : Bool) :
    Accounted sponsorship { s with handler := .recording success recordWindows } where
  dated := haccounted.dated
  windows := by
    intro _ _ hhandler
    cases hhandler
    exact recordWindows_pos
  charged := by
    intro increase hhandler
    cases hhandler

/-- The handler ends without a record. -/
theorem Accounted.ends (haccounted : Accounted sponsorship s)
    (huntraced : s.submission.network.Untraced) :
    Accounted sponsorship { s with handler := .accounted 0 } where
  dated := haccounted.dated
  windows := by
    intro success windows hhandler
    cases hhandler
  charged := fun _ _ => Or.inr huntraced

/-- The transaction moves while the request is under way. -/
theorem Accounted.sends (haccounted : Accounted sponsorship s) (after : Pact.Submission)
    (hsettling : s.handler = .settling) : Accounted sponsorship { s with submission := after } where
  dated := haccounted.dated
  windows := haccounted.windows
  charged := by
    intro increase hhandler
    cases hsettling.symm.trans hhandler

/-- The network moves by itself. -/
theorem Accounted.moves (haccounted : Accounted sponsorship s) {after : Pact.Submission}
    (hmoves : s.submission.network.Moves after.network) :
    Accounted sponsorship { s with submission := after } where
  dated := haccounted.dated
  windows := haccounted.windows
  charged := by
    intro increase hhandler
    rcases haccounted.charged increase hhandler with hcharged | huntraced
    · exact Or.inl hcharged
    · exact absurd huntraced hmoves.not_untraced

/-- A settlement is counted in one window. -/
theorem Accounted.counts (haccounted : Accounted sponsorship s) {success : Bool}
    {windowSec : ℕ} {windows : List ℕ}
    (hphase : s.handler = .recording success (windowSec :: windows)) (owner : Owner)
    (stored : Bool) (now : ℕ) :
    Accounted sponsorship { s with
      store := if stored then increment s.store owner .settle windowSec 1 now else s.store
      handler := .recording success windows } where
  dated := by
    have hwindow := haccounted.windows _ _ hphase windowSec List.mem_cons_self
    cases stored with
    | false => exact haccounted.dated
    | true => exact dated_increment haccounted.dated hwindow 1
  windows := by
    intro _ _ hhandler
    cases hhandler
    exact fun other hother =>
      haccounted.windows _ _ hphase other (List.mem_cons_of_mem _ hother)
  charged := by
    intro increase hhandler
    cases hhandler

/-- The fee is added to the bucket of the caller. -/
theorem Accounted.charges (haccounted : Accounted sponsorship s) {success stored : Bool}
    (hmeets : (stored = true ∧ success = true ∧ Covers config sponsorship) ∨
      s.submission.network.Untraced) (owner : Owner) (now : ℕ) {store : Store}
    (hstore : store = if stored then
      recordFee s.store owner (sponsorship.charge config success) now else s.store) :
    Accounted sponsorship { s with
      store := store
      handler := .accounted (store.total (feeBucket owner now) -
        s.store.total (feeBucket owner now)) } where
  dated := by
    rw [hstore]
    cases stored with
    | false => exact haccounted.dated
    | true => exact dated_recordFee haccounted.dated _
  windows := by
    intro _ _ hhandler
    cases hhandler
  charged := by
    intro increase hhandler
    rcases hmeets with ⟨rfl, rfl, hcovers⟩ | huntraced
    · left
      rw [hstore, if_pos rfl, total_charge haccounted.dated] at hhandler
      cases hhandler
      exact hcovers.charge
    · exact Or.inr huntraced

theorem Accounted.step {action : Action} (haccounted : Accounted sponsorship s)
    (hmeets : ChargesSponsored config sponsorship s action)
    (hstep : step config submission sponsorship s action = some s') :
    Accounted sponsorship s' := by
  cases action with
  | submits action =>
      obtain ⟨henabled, hmap⟩ := Option.ite_none_right_eq_some.mp hstep
      obtain ⟨after, hnext, rfl⟩ := Option.map_eq_some_iff.mp hmap
      rcases henabled with hnetwork | ⟨hsettling, -⟩
      · exact haccounted.moves (Pact.Submission.network_step hnetwork hnext).2
      · exact haccounted.sends after hsettling
  | refuses =>
      obtain ⟨-, hafter⟩ := Option.ite_none_right_eq_some.mp hstep
      cases hafter
      exact haccounted.records false
  | exactSends =>
      obtain ⟨⟨hsettling, -⟩, hafter⟩ := Option.ite_none_right_eq_some.mp hstep
      cases hafter
      exact haccounted.sends _ hsettling
  | exactReturns success =>
      obtain ⟨-, hafter⟩ := Option.ite_none_right_eq_some.mp hstep
      cases hafter
      exact haccounted.records success
  | returns =>
      rw [FeeCharging.step] at hstep
      split at hstep
      · next outcome hsettling hfinished =>
          split at hstep
          · next hthrew =>
              cases hstep
              apply haccounted.ends
              apply hmeets
              · rw [hfinished, hthrew.1]
              · exact hthrew.2
          · cases hstep
            exact haccounted.records outcome.succeeds
      · cases hstep
  | ends =>
      obtain ⟨-, hafter⟩ := Option.ite_none_right_eq_some.mp hstep
      cases hafter
      exact haccounted.ends hmeets
  | increments stored now =>
      rw [FeeCharging.step] at hstep
      split at hstep
      · next success windowSec windows hphase =>
          cases hstep
          exact haccounted.counts hphase sponsorship.caller.owner stored now
      · next success hphase =>
          cases hstep
          rw [ChargesSponsored, hphase] at hmeets
          exact haccounted.charges hmeets sponsorship.caller.owner now rfl
      · cases hstep
  | others store hdated =>
      cases hstep
      exact
        { dated := hdated
          windows := haccounted.windows
          charged := haccounted.charged }

end Steps

/-- While a request goes uncharged, or is charged too little, only when the network has
no trace of its transaction, every transaction that a ledger includes is
charged. -/
theorem allCharged_chargesSponsored (config : Config) (submission : Pact.SubmissionConfig)
    (sponsorship : Sponsorship config) :
    AllCharged config submission sponsorship (ChargesSponsored config sponsorship) := by
  intro s hreach increase hhandler hincluded
  have haccounted : Accounted sponsorship s :=
    hreach.preserves (fun _ _ _ h hmeets hstep => h.step hmeets hstep) .init
  rcases haccounted.charged increase hhandler with hcharged | huntraced
  · exact hcharged
  · exact absurd hincluded huntraced.not_included

def pactPayment : Sponsorship oneADay where
  path := .pactSettle
  network := "stellar:testnet"
  caller := ⟨none, "203.0.113.7"⟩
  minResourceFee := 40000
  inclusionFeeStroops := 100
  feeBump := false
  fee := 30000
  paid := by decide

def failsOnChain : List Action :=
  [Action.submits .sends, Action.submits (.answers .pending), Action.submits (.includes false),
    Action.submits (.polls .failed), Action.returns] ++
    List.replicate 4 (Action.increments true 0)

/-- Nothing is charged for it. -/
theorem not_allCharged_anyStep :
    ¬ ∀ config submission sponsorship, AllCharged config submission sponsorship anyStep := by
  intro hcharged
  have hrun : (run (step oneADay ⟨5, 60, "ab12"⟩ pactPayment) .init failsOnChain).map
      (fun s => (s.handler, s.submission.network.held)) = some (.accounted 0, .failed) := by
    decide
  obtain ⟨s, hreach, hobserved⟩ := exists_reaches_of_run hrun
  simp only [Prod.mk.injEq] at hobserved
  obtain ⟨hhandler, hheld⟩ := hobserved
  have hfee := (hcharged _ _ _ s hreach 0 hhandler (Or.inr hheld)).1
  exact absurd hfee (by decide)

end X402Facilitator.FeeCharging
