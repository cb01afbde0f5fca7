import X402Facilitator.EventStore.Events
import X402Facilitator.Pact.Submission

/-!
# Failed pact settlements

`PactStellarScheme.settle` reports every submission that did not end in a
confirmed success as a failure, and the `/settle` handler records it as `failed`.
A request timeout records `failed` too while nothing has been sent, and the
settlement goes on behind it.  The records are right of the runs in which the
network cannot include the transaction any more when the submission gives up, and
in which nothing is sent after a timeout.
-/

namespace X402Facilitator.Pact

open X402Facilitator.Execution

/-- What `PactStellarScheme.settle` returns. -/
inductive SettleResult where
  | settled (transaction : String)
  | failed (transaction errorReason : String)
  deriving DecidableEq, Repr

/-- The result for an outcome of `submitSponsored`, an exception included. -/
def settleResult : Outcome → SettleResult
  | .threw => .failed "" "unexpected_settle_error"
  | .returned txHash (some errorReason) =>
      .failed (txHash.getD "") ("settle_pact_stellar_" ++ errorReason)
  | .returned txHash none => .settled (txHash.getD "")

inductive Settle where
  | verifying
  | submitting
  | returned (result : SettleResult)
  deriving DecidableEq, Repr

/-- The columns of the settlement record that an update writes. -/
structure Record where
  state : SettlementState
  txHash : Option String
  errorReason : Option String

/-- An update keeps a column where it has no value for it. -/
def Record.update (record : Record) (state : SettlementState)
    (txHash errorReason : Option String) : Record :=
  ⟨state, txHash.or record.txHash, errorReason.or record.errorReason⟩

/-- The update of the handler for a returned result. -/
def Record.report (record : Record) : SettleResult → Record
  | .settled transaction => record.update .settled (some transaction) none
  | .failed transaction errorReason =>
      record.update .failed (if transaction = "" then none else some transaction)
        (some errorReason)

/-- One pact settlement under the `/settle` handler.  `submitted` is the flag that the
first call of `sendTransaction` sets. -/
structure System where
  submission : Submission
  submitted : Bool
  settle : Settle
  record : Record
  recorded : Bool
  replied : Bool
  timedOut : Bool

def System.init : System where
  submission := .init
  submitted := false
  settle := .verifying
  record := ⟨.submitted, none, none⟩
  recorded := false
  replied := false
  timedOut := false

inductive Action where
  | verifies (invalidReason : Option (Option String))
  | verifyThrows
  | submits (action : SubmissionAction)
  | returns
  | records
  | limited
  | replies
  | timesOut (transaction : String)

def System.submit (s : System) (action : SubmissionAction) (submission : Submission) :
    System :=
  { s with
    submission := submission
    submitted := match action with
      | .sends => true
      | _ => s.submitted }

/-- One step of the scheme, the network or the handler.  The timer runs until the
handler replies, also while it awaits the writes after its record; a settlement that
has timed out goes on in the background. -/
def step (config : SubmissionConfig) (s : System) : Action → Option System
  | .verifies none =>
      if s.settle = .verifying then some { s with settle := .submitting } else none
  | .verifies (some invalidReason) =>
      if s.settle = .verifying then
        some { s with
          settle := .returned (.failed "" (invalidReason.getD "verification_failed")) }
      else none
  | .verifyThrows =>
      if s.settle = .verifying then
        some { s with settle := .returned (.failed "" "unexpected_settle_error") }
      else none
  | .submits action =>
      match s.settle, s.submission.phase with
      | .submitting, _ => (s.submission.step config action).map (s.submit action)
      | .returned _, .finished _ => (s.submission.step config action).map (s.submit action)
      | _, _ => none
  | .returns =>
      match s.settle, s.submission.phase with
      | .submitting, .finished outcome =>
          some { s with settle := .returned (settleResult outcome) }
      | _, _ => none
  | .records =>
      match s.settle with
      | .returned result =>
          if s.recorded || s.replied then none
          else some { s with record := s.record.report result, recorded := true }
      | _ => none
  -- the rate limiter refuses to count the settlement, and nothing is recorded
  | .limited =>
      match s.settle with
      | .returned _ => if s.recorded then none else some { s with replied := true }
      | _ => none
  | .replies =>
      if s.recorded && !s.timedOut then some { s with replied := true } else none
  | .timesOut transaction =>
      if s.replied || s.timedOut then none
      else some { s with
        timedOut := true
        record :=
          if s.submitted then
            s.record.update .unknown (some transaction) (some "submitted_outcome_unknown")
          else s.record.update .failed (some transaction) (some "request_timeout") }

/-- What the record says is so: the transaction of a failed one is not successful on
the ledger, an unknown one has its hash, and one is left as submitted only until the
handler has answered. -/
def TruthfullyReported (config : SubmissionConfig) (s : System) : Prop :=
  match s.record.state with
  | .submitted => s.recorded = false ∧ s.replied = false ∧ s.timedOut = false
  | .settled => ∃ transaction, s.settle = .returned (.settled transaction)
  | .failed => s.submission.network.held ≠ .succeeded
  | .unknown => s.record.txHash = some config.txHash

/-- In every state that a run with steps satisfying `meets` reaches. -/
def FailuresAreFinal (config : SubmissionConfig) (meets : System → Action → Prop) : Prop :=
  ∀ s, Reaches (step config) meets .init s → TruthfullyReported config s

/-- The submission gives up only when the network has no trace of the transaction,
or has it as failed. -/
def Submission.GivesUpUnheld (config : SubmissionConfig) (s : Submission) :
    SubmissionAction → Prop
  | .answers status => status ≠ .pending → ¬ s.network.Alive
  | .connectionFails error left expired =>
      match s.phase with
      | .sending attempt =>
          retries config attempt error expired = false → ¬ (s.network.lose left).Alive
      | _ => True
  | .pollsRunOut => ¬ s.network.Alive
  | _ => True

/-- Nothing is sent after a timeout, the submission gives up with nothing alive, a request
that times out after the sending names the hash of its transaction, and the limiter
refuses none before a timeout. -/
def Timely (config : SubmissionConfig) (s : System) : Action → Prop
  | .submits .sends => s.timedOut = false
  | .submits action => s.submission.GivesUpUnheld config action
  | .timesOut transaction => s.submitted = true → transaction = config.txHash
  | .limited => s.timedOut = true
  | _ => True

namespace Submission

structure Unheld (s : Submission) : Prop where
  fresh : s.phase = .preparing → s.network = .empty
  gaveUp : ∀ outcome, s.phase = .finished outcome → outcome.succeeds = false →
    ¬ s.network.Alive

variable {config : SubmissionConfig} {s s' : Submission} {action : SubmissionAction}

theorem Unheld.init : Unheld .init where
  fresh := fun _ => rfl
  gaveUp := by
    intro outcome hphase
    cases hphase

/-- The submission has given up with nothing alive. -/
theorem Unheld.ofDead {outcome : Outcome} (hphase : s.phase = .finished outcome)
    (hdead : ¬ s.network.Alive) : Unheld s where
  fresh := by
    intro hpreparing
    cases hphase.symm.trans hpreparing
  gaveUp := fun _ _ _ => hdead

/-- The submission is under way, or has succeeded. -/
theorem Unheld.ofUnderWay (hfresh : s.phase ≠ .preparing)
    (hsucceeds : ∀ outcome, s.phase = .finished outcome → outcome.succeeds = true) :
    Unheld s where
  fresh := fun hpreparing => absurd hpreparing hfresh
  gaveUp := by
    intro outcome hphase hfails
    rw [hsucceeds outcome hphase] at hfails
    cases hfails

variable {network : Network}

theorem not_alive_of_failed (hheld : network.held = .failed) : ¬ network.Alive := by
  rw [Network.Alive, hheld]
  simp

/-- The network moves by itself. -/
theorem Unheld.moves (hunheld : Unheld s) (hmoves : s.network.Moves network) :
    Unheld { s with network := network } where
  fresh := by
    intro hphase
    rw [hunheld.fresh hphase] at hmoves
    exact absurd ⟨rfl, rfl⟩ hmoves.not_untraced
  gaveUp := by
    intro outcome hphase hfails
    exact hmoves.not_alive (hunheld.gaveUp outcome hphase hfails)

theorem Unheld.step (hunheld : Unheld s) (hmeets : s.GivesUpUnheld config action)
    (hstep : s.step config action = some s') : Unheld s' := by
  have heffect := effect_of_step hstep
  cases heffect with
  | abandoned action outcome hphase hfails =>
      have hempty := hunheld.fresh hphase
      apply Unheld.ofDead rfl
      rw [hempty]
      exact not_alive_empty
  | sent hphase | accepted attempt hphase => exact Unheld.ofUnderWay (by simp) (by simp)
  | rejected attempt status hphase hstatus => exact Unheld.ofDead rfl (hmeets hstatus)
  | redialled attempt error left expired hphase => exact Unheld.ofUnderWay (by simp) (by simp)
  | unanswered attempt error left expired hphase hretries =>
      rw [Submission.GivesUpUnheld, hphase] at hmeets
      exact Unheld.ofDead rfl (hmeets hretries)
  | polled polls answer hphase => exact Unheld.ofUnderWay (by simp) (by simp)
  | confirmed polls hphase hheld =>
      apply Unheld.ofUnderWay (by simp)
      rintro outcome houtcome
      cases houtcome
      rfl
  | reported polls hphase hheld => exact Unheld.ofDead rfl (not_alive_of_failed hheld)
  | ranOut polls hphase => exact Unheld.ofDead rfl hmeets
  | network action network hmoves => exact hunheld.moves hmoves

end Submission

/-- A result that is not a settlement comes from an outcome that does not succeed. -/
theorem succeeds_of_failed {outcome : Outcome} {transaction errorReason : String}
    (hresult : settleResult outcome = .failed transaction errorReason) :
    outcome.succeeds = false := by
  cases outcome with
  | threw => rfl
  | returned txHash reason =>
      cases reason with
      | none => cases hresult
      | some reason => rfl

structure Unsent (s : System) : Prop where
  network : s.submission.network = .empty
  phase : s.submission.phase = .preparing ∨ ∃ outcome, s.submission.phase = .finished outcome

structure Unheld (config : SubmissionConfig) (s : System) : Prop where
  submission : s.submission.Unheld
  verifying : s.settle = .verifying → s.submission.phase = .preparing
  unsent : s.submitted = false → Unsent s
  returned : ∀ transaction errorReason, s.settle = .returned (.failed transaction errorReason) →
    ¬ s.submission.network.Alive
  recorded : s.recorded = true → ∃ result, s.settle = .returned result
  submitted : s.record.state = .submitted →
    s.recorded = false ∧ s.replied = false ∧ s.timedOut = false
  settled : s.record.state = .settled → ∃ transaction, s.settle = .returned (.settled transaction)
  -- a record that fails before the settlement returns is the timeout's
  failed : s.record.state = .failed → ¬ s.submission.network.Alive ∧
    ((∃ result, s.settle = .returned result) ∨ s.timedOut = true ∧ s.submitted = false)
  unknown : s.record.state = .unknown → s.record.txHash = some config.txHash

theorem Unheld.init (config : SubmissionConfig) : Unheld config .init where
  submission := .init
  verifying := fun _ => rfl
  unsent := fun _ => ⟨rfl, Or.inl rfl⟩
  returned := by
    intro transaction errorReason hreturned
    cases hreturned
  recorded := by
    intro hrecorded
    cases hrecorded
  submitted := fun _ => ⟨rfl, rfl, rfl⟩
  settled := by
    intro hstate
    cases hstate
  failed := by
    intro hstate
    cases hstate
  unknown := by
    intro hstate
    cases hstate

section Steps

variable {config : SubmissionConfig} {s s' : System}

theorem Unsent.not_alive (hunsent : Unsent s) : ¬ s.submission.network.Alive := by
  rw [hunsent.network]
  exact not_alive_empty

variable {result : SettleResult} {submission : Submission}

/-- The scheme returns, with nothing alive unless it reports a success. -/
theorem Unheld.returns (hunheld : Unheld config s) (hsettle : ∀ result, s.settle ≠ .returned result)
    (hdead : ∀ transaction errorReason, result = .failed transaction errorReason →
      ¬ s.submission.network.Alive) : Unheld config { s with settle := .returned result } where
  submission := hunheld.submission
  verifying := by
    intro hverifying
    cases hverifying
  unsent := fun hsubmitted => ⟨(hunheld.unsent hsubmitted).1, (hunheld.unsent hsubmitted).2⟩
  returned := by
    intro transaction errorReason hreturned
    cases hreturned
    exact hdead transaction errorReason rfl
  recorded := fun _ => ⟨result, rfl⟩
  submitted := hunheld.submitted
  settled := by
    intro hstate
    obtain ⟨transaction, hreturned⟩ := hunheld.settled hstate
    exact absurd hreturned (hsettle _)
  failed := fun hstate => ⟨(hunheld.failed hstate).1, Or.inl ⟨result, rfl⟩⟩
  unknown := hunheld.unknown

/-- The verification fails before anything has been sent. -/
theorem Unheld.rejects (hunheld : Unheld config s) (hverifying : s.settle = .verifying)
    (result : SettleResult) : Unheld config { s with settle := .returned result } := by
  have hempty := hunheld.submission.fresh (hunheld.verifying hverifying)
  apply hunheld.returns (by simp [hverifying])
  intro transaction errorReason _
  rw [hempty]
  exact not_alive_empty

/-- The payment has been verified. -/
theorem Unheld.verified (hunheld : Unheld config s) (hverifying : s.settle = .verifying) :
    Unheld config { s with settle := .submitting } where
  submission := hunheld.submission
  verifying := by
    intro hsubmitting
    cases hsubmitting
  unsent := fun hsubmitted => ⟨(hunheld.unsent hsubmitted).1, (hunheld.unsent hsubmitted).2⟩
  returned := by
    intro transaction errorReason hreturned
    cases hreturned
  recorded := by
    intro hrecorded
    obtain ⟨result, hreturned⟩ := hunheld.recorded hrecorded
    cases hverifying.symm.trans hreturned
  submitted := hunheld.submitted
  settled := by
    intro hstate
    obtain ⟨transaction, hreturned⟩ := hunheld.settled hstate
    cases hverifying.symm.trans hreturned
  failed := by
    intro hstate
    obtain ⟨hdead, ⟨result, hreturned⟩ | htimedOut⟩ := hunheld.failed hstate
    · cases hverifying.symm.trans hreturned
    · exact ⟨hdead, Or.inr htimedOut⟩
  unknown := hunheld.unknown

/-- While nothing has been sent, a step of the submission other than the sending moves
nothing in the network. -/
theorem Unsent.submit (hunsent : Unsent s) {action : SubmissionAction} (hsends : action ≠ .sends)
    (hstep : s.submission.step config action = some submission) : submission.network = .empty ∧
      (submission.phase = .preparing ∨ ∃ outcome, submission.phase = .finished outcome) := by
  have hphase : ∀ attempt polls, s.submission.phase ≠ .sending attempt ∧
      s.submission.phase ≠ .polling polls := by
    intro attempt polls
    rcases hunsent.phase with hpreparing | ⟨outcome, hfinished⟩
    · simp [hpreparing]
    · simp [hfinished]
  have heffect := Submission.effect_of_step hstep
  cases heffect with
  | abandoned action outcome hpreparing hfails => exact ⟨hunsent.network, Or.inr ⟨outcome, rfl⟩⟩
  | sent hpreparing => exact absurd rfl hsends
  | accepted attempt hsending | rejected attempt status hsending
  | redialled attempt error left expired hsending
  | unanswered attempt error left expired hsending => exact absurd hsending (hphase attempt 0).1
  | polled polls answer hpolling | confirmed polls hpolling | reported polls hpolling
  | ranOut polls hpolling => exact absurd hpolling (hphase 0 polls).2
  | network action network hmoves =>
      rw [hunsent.network] at hmoves
      exact absurd ⟨rfl, rfl⟩ hmoves.not_untraced

/-- A step of the submission. -/
theorem Unheld.submits (hunheld : Unheld config s) {action : SubmissionAction}
    (hmeets : Timely config s (.submits action)) (hsubmission : submission.Unheld)
    (hsettle : s.settle ≠ .verifying) (hstep : s.submission.step config action = some submission)
    (hdead : ∀ result, s.settle = .returned result → ¬ s.submission.network.Alive →
      ¬ submission.network.Alive) : Unheld config (s.submit action submission) where
  submission := hsubmission
  verifying := fun hverifying => absurd hverifying hsettle
  unsent := by
    intro hsubmitted
    have hsends : action ≠ .sends := by
      rintro rfl
      cases hsubmitted
    have hbefore : s.submitted = false := by
      cases action with
      | sends => exact absurd rfl hsends
      | _ => exact hsubmitted
    obtain ⟨hnetwork, hphase⟩ := (hunheld.unsent hbefore).submit hsends hstep
    exact ⟨hnetwork, hphase⟩
  returned := fun transaction errorReason hreturned =>
    hdead _ hreturned (hunheld.returned transaction errorReason hreturned)
  recorded := hunheld.recorded
  submitted := hunheld.submitted
  settled := hunheld.settled
  failed := by
    intro hstate
    obtain ⟨hbefore, ⟨result, hreturned⟩ | ⟨htimedOut, hunsent⟩⟩ := hunheld.failed hstate
    · exact ⟨hdead result hreturned hbefore, Or.inl ⟨result, hreturned⟩⟩
    · -- after the timeout nothing is sent
      have hsends : action ≠ .sends := by
        rintro rfl
        cases htimedOut.symm.trans hmeets
      obtain ⟨hnetwork, -⟩ := (hunheld.unsent hunsent).submit hsends hstep
      refine ⟨?_, Or.inr ⟨htimedOut, ?_⟩⟩
      · change ¬ submission.network.Alive
        rw [hnetwork]
        exact not_alive_empty
      · cases action with
        | sends => exact absurd rfl hsends
        | _ => exact hunsent
  unknown := hunheld.unknown

/-- The handler records what the scheme has returned. -/
theorem Unheld.records (hunheld : Unheld config s) (hreturned : s.settle = .returned result) :
    Unheld config { s with record := s.record.report result, recorded := true } where
  submission := hunheld.submission
  verifying := hunheld.verifying
  unsent := fun hsubmitted => ⟨(hunheld.unsent hsubmitted).1, (hunheld.unsent hsubmitted).2⟩
  returned := hunheld.returned
  recorded := fun _ => ⟨result, hreturned⟩
  submitted := by
    intro hstate
    cases result <;> cases hstate
  settled := by
    intro hstate
    cases result with
    | settled transaction => exact ⟨transaction, hreturned⟩
    | failed transaction errorReason => cases hstate
  failed := by
    intro hstate
    cases result with
    | settled transaction => cases hstate
    | failed transaction errorReason =>
        exact ⟨hunheld.returned transaction errorReason hreturned, Or.inl ⟨_, hreturned⟩⟩
  unknown := by
    intro hstate
    cases result <;> cases hstate

/-- The timeout after the sending records the outcome as unknown. -/
theorem Unheld.timesOutSubmitted (hunheld : Unheld config s) (hsubmitted : s.submitted = true) :
    Unheld config { s with
      timedOut := true
      record := s.record.update .unknown (some config.txHash)
        (some "submitted_outcome_unknown") } where
  submission := hunheld.submission
  verifying := hunheld.verifying
  unsent := fun hunsent => absurd hsubmitted (by simp [show s.submitted = false from hunsent])
  returned := hunheld.returned
  recorded := hunheld.recorded
  submitted := by
    intro hstate
    cases hstate
  settled := by
    intro hstate
    cases hstate
  failed := by
    intro hstate
    cases hstate
  unknown := fun _ => rfl

/-- The timeout before the sending records a failure. -/
theorem Unheld.timesOutUnsent (hunheld : Unheld config s) (hsubmitted : s.submitted = false)
    (transaction : String) :
    Unheld config { s with
      timedOut := true
      record := s.record.update .failed (some transaction) (some "request_timeout") } where
  submission := hunheld.submission
  verifying := hunheld.verifying
  unsent := fun _ => ⟨(hunheld.unsent hsubmitted).1, (hunheld.unsent hsubmitted).2⟩
  returned := hunheld.returned
  recorded := hunheld.recorded
  submitted := by
    intro hstate
    cases hstate
  settled := by
    intro hstate
    cases hstate
  failed := fun _ => ⟨(hunheld.unsent hsubmitted).not_alive, Or.inr ⟨rfl, hsubmitted⟩⟩
  unknown := by
    intro hstate
    cases hstate

/-- The handler replies with a record that is not left as submitted. -/
theorem Unheld.replied (hunheld : Unheld config s) (hstate : s.record.state ≠ .submitted) :
    Unheld config { s with replied := true } where
  submission := hunheld.submission
  verifying := hunheld.verifying
  unsent := fun hsubmitted => ⟨(hunheld.unsent hsubmitted).1, (hunheld.unsent hsubmitted).2⟩
  returned := hunheld.returned
  recorded := hunheld.recorded
  submitted := fun hsubmitted => absurd hsubmitted hstate
  settled := hunheld.settled
  failed := hunheld.failed
  unknown := hunheld.unknown

/-- The guard of a step of the submission alone. -/
theorem Timely.givesUpUnheld {action : SubmissionAction}
    (hmeets : Timely config s (.submits action)) : s.submission.GivesUpUnheld config action := by
  cases action with
  | sends => trivial
  | _ => exact hmeets

theorem Unheld.step {action : Action} (hunheld : Unheld config s)
    (hmeets : Timely config s action) (hstep : step config s action = some s') :
    Unheld config s' := by
  cases action with
  | verifies invalidReason =>
      cases invalidReason with
      | none =>
          obtain ⟨hverifying, hafter⟩ := Option.ite_none_right_eq_some.mp hstep
          cases hafter
          exact hunheld.verified hverifying
      | some invalidReason =>
          obtain ⟨hverifying, hafter⟩ := Option.ite_none_right_eq_some.mp hstep
          cases hafter
          exact hunheld.rejects hverifying _
  | verifyThrows =>
      obtain ⟨hverifying, hafter⟩ := Option.ite_none_right_eq_some.mp hstep
      cases hafter
      exact hunheld.rejects hverifying _
  | submits action =>
      rw [Pact.step] at hstep
      split at hstep
      · next hsubmitting =>
          obtain ⟨submission, hnext, rfl⟩ := Option.map_eq_some_iff.mp hstep
          have hsubmission := hunheld.submission.step hmeets.givesUpUnheld hnext
          apply hunheld.submits hmeets hsubmission (by simp [hsubmitting]) hnext
          intro result hreturned
          cases hsubmitting.symm.trans hreturned
      · next result outcome hreturned hfinished =>
          obtain ⟨submission, hnext, rfl⟩ := Option.map_eq_some_iff.mp hstep
          have hsubmission := hunheld.submission.step hmeets.givesUpUnheld hnext
          apply hunheld.submits hmeets hsubmission (by simp [hreturned]) hnext
          intro _ _ hdead
          exact (Submission.finished_step hfinished hnext).2.not_alive hdead
      · cases hstep
  | returns =>
      rw [Pact.step] at hstep
      split at hstep
      · next outcome hsubmitting hfinished =>
          cases hstep
          apply hunheld.returns (by simp [hsubmitting])
          intro transaction errorReason hresult
          exact hunheld.submission.gaveUp outcome hfinished (succeeds_of_failed hresult)
      · cases hstep
  | records =>
      rw [Pact.step] at hstep
      split at hstep
      · next result hreturned =>
          split at hstep
          · cases hstep
          · cases hstep
            exact hunheld.records hreturned
      · cases hstep
  | limited =>
      rw [Pact.step] at hstep
      split at hstep
      · split at hstep
        · cases hstep
        · cases hstep
          apply hunheld.replied
          intro hstate
          cases hmeets.symm.trans (hunheld.submitted hstate).2.2
      · cases hstep
  | replies =>
      obtain ⟨hrecorded, hafter⟩ := Option.ite_none_right_eq_some.mp hstep
      cases hafter
      apply hunheld.replied
      intro hstate
      rw [(hunheld.submitted hstate).1] at hrecorded
      cases hrecorded
  | timesOut transaction =>
      rw [Pact.step] at hstep
      split at hstep
      · cases hstep
      · by_cases hsubmitted : s.submitted = true
        · rw [if_pos hsubmitted, hmeets hsubmitted] at hstep
          cases hstep
          exact hunheld.timesOutSubmitted hsubmitted
        · rw [if_neg hsubmitted] at hstep
          cases hstep
          exact hunheld.timesOutUnsent ((Bool.not_eq_true _).mp hsubmitted) transaction

theorem Unheld.truthfullyReported (hunheld : Unheld config s) : TruthfullyReported config s := by
  rw [TruthfullyReported]
  split
  · next hstate => exact hunheld.submitted hstate
  · next hstate => exact hunheld.settled hstate
  · next hstate =>
      intro hsucceeded
      exact (hunheld.failed hstate).1 (Or.inr (Or.inl hsucceeded))
  · next hstate => exact hunheld.unknown hstate

end Steps

/-- While nothing is sent after a timeout, the submission gives up only when the network
has no trace of the transaction, or has it as failed, and a timeout names the hash, what
is recorded as failed never succeeds and every other outcome is recorded with its hash. -/
theorem failuresAreFinal_timely (config : SubmissionConfig) :
    FailuresAreFinal config (Timely config) := by
  intro s hreach
  have hunheld : Unheld config s :=
    hreach.preserves (fun _ _ _ h hmeets hstep => h.step hmeets hstep) (Unheld.init config)
  exact hunheld.truthfullyReported

/-- The answer to the first copy is lost, the second one is a duplicate of it, and the
transaction is included afterwards. -/
def lostAnswer : List Action :=
  [.verifies none, .submits .sends,
    .submits (.connectionFails .econnreset true false), .submits (.strayArrives .pending),
    .submits (.answers .duplicate), .returns, .records, .submits (.includes true)]

/-- A transaction that has succeeded is recorded as failed, without its hash. -/
theorem not_failuresAreFinal_anyStep : ¬ ∀ config, FailuresAreFinal config anyStep := by
  intro hfinal
  have hrun : (run (step ⟨5, 60, "ab12"⟩) .init lostAnswer).map (fun s =>
      (s.settle, s.record.state, s.submission.network.held)) =
      some (.returned (.failed "" "settle_pact_stellar_transaction_submission_failed"),
        .failed, .succeeded) := by
    decide
  obtain ⟨s, hreach, hobserved⟩ := exists_reaches_of_run hrun
  simp only [Prod.mk.injEq] at hobserved
  obtain ⟨-, hstate, hheld⟩ := hobserved
  have hreported := hfinal _ s hreach
  rw [TruthfullyReported, hstate] at hreported
  exact hreported hheld

/-- The request times out before the transaction is sent, and the settlement goes on. -/
def sentAfterTimeout : List Action :=
  [.verifies none, .timesOut "", .submits .sends, .submits (.answers .pending),
    .submits (.includes true)]

example : (run (step ⟨5, 60, "ab12"⟩) .init sentAfterTimeout).map (fun s =>
    (s.settle, s.record.state, s.submission.network.held)) =
      some (.submitting, .failed, .succeeded) := by
  decide

end X402Facilitator.Pact
