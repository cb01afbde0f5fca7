import X402Facilitator.Library.Execution

/-!
# Sponsored submission of a transaction

`submitSponsored` sends a signed transaction through `retryingFetch`, which may
send it again when a connection fails, and polls for its result.  A copy whose
connection failed may still arrive, and the network may include a transaction
that it holds at any later time.
-/

namespace X402Facilitator.Pact

open X402Facilitator.Execution

/-- The status that `sendTransaction` answers with. -/
inductive SendStatus where
  | pending
  | duplicate
  | tryAgainLater
  | error
  deriving DecidableEq, Repr

/-- What a call of `getTransaction` tells the poll loop, `threw` for a failed
call. -/
inductive PollAnswer where
  | success
  | failed
  | notFound
  | threw
  deriving DecidableEq, Repr

inductive FetchError where
  | etimedout
  | econnreset
  | econnrefused
  | eaiAgain
  | undErrConnectTimeout
  | undErrSocket
  | other
  deriving DecidableEq, Repr

def FetchError.retryable : FetchError → Bool
  | other => false
  | _ => true

inductive Held where
  | absent
  | queued
  | succeeded
  | failed
  deriving DecidableEq, Repr

/-- The transaction in the network, and the copies whose connection failed and
that may still arrive. -/
structure Network where
  held : Held
  strays : ℕ
  deriving DecidableEq, Repr

namespace Network

def empty : Network := ⟨.absent, 0⟩

/-- A copy arrives and the node answers; it takes the transaction in with
`PENDING` only. -/
def receive (network : Network) (status : SendStatus) : Network :=
  if status = .pending ∧ network.held = .absent then { network with held := .queued }
  else network

/-- The connection of a copy fails; `left` says whether the copy had left. -/
def lose (network : Network) (left : Bool) : Network :=
  { network with strays := network.strays + if left then 1 else 0 }

/-- A ledger includes the transaction, successful or failed. -/
def included (network : Network) : Prop :=
  network.held = .succeeded ∨ network.held = .failed

/-- The network holds the transaction, or a copy is still on its way. -/
def Alive (network : Network) : Prop :=
  network.held = .queued ∨ network.held = .succeeded ∨
    network.held = .absent ∧ 0 < network.strays

/-- The network does not hold the transaction, and no copy is on its way. -/
def Untraced (network : Network) : Prop :=
  network.held = .absent ∧ network.strays = 0

instance (network : Network) : Decidable network.included :=
  inferInstanceAs (Decidable (_ ∨ _))

instance (network : Network) : Decidable network.Alive :=
  inferInstanceAs (Decidable (_ ∨ _ ∨ _ ∧ _))

end Network

/-- What `submitSponsored` returns, or that it threw. -/
inductive Outcome where
  | returned (txHash : Option String) (errorReason : Option String)
  | threw
  deriving DecidableEq, Repr

def Outcome.succeeds : Outcome → Bool
  | returned _ errorReason => errorReason.isNone
  | threw => false

inductive Phase where
  | preparing
  | sending (attempt : ℕ)
  | polling (polls : ℕ)
  | finished (outcome : Outcome)
  deriving DecidableEq, Repr

/-- The attempts of `retryingFetch`, the polls of `submitSponsored` and the hash of
the transaction. -/
structure SubmissionConfig where
  attempts : ℕ
  timeoutSeconds : ℕ
  txHash : String

structure Submission where
  phase : Phase
  network : Network
  deriving DecidableEq, Repr

def Submission.init : Submission := ⟨.preparing, .empty⟩

inductive SubmissionAction where
  | signingFails (errorReason : String)
  | throws
  | sends
  | answers (status : SendStatus)
  | connectionFails (error : FetchError) (left expired : Bool)
  | polls (answer : PollAnswer)
  | pollsRunOut
  | strayArrives (status : SendStatus)
  | strayLost
  | includes (successful : Bool)
  | drops

def SubmissionAction.ofNetwork : SubmissionAction → Bool
  | strayArrives _ => true
  | strayLost => true
  | includes _ => true
  | drops => true
  | _ => false

/-- `retryingFetch` dials again. -/
def retries (config : SubmissionConfig) (attempt : ℕ) (error : FetchError)
    (expired : Bool) : Bool :=
  error.retryable && decide (attempt < config.attempts) && !expired

namespace Submission

variable (config : SubmissionConfig)

/-- One step of the submission or of the network.  The node reports the result of
a transaction only as the ledger has it. -/
def step (s : Submission) : SubmissionAction → Option Submission
  | .signingFails errorReason =>
      if s.phase = .preparing then
        some { s with phase := .finished (.returned none (some errorReason)) }
      else none
  | .throws =>
      if s.phase = .preparing then some { s with phase := .finished .threw } else none
  | .sends => if s.phase = .preparing then some { s with phase := .sending 1 } else none
  | .answers status =>
      match s.phase with
      | .sending _ => some
          { phase :=
              if status = .pending then .polling 0
              else .finished (.returned none (some "transaction_submission_failed"))
            network := s.network.receive status }
      | _ => none
  | .connectionFails error left expired =>
      match s.phase with
      | .sending attempt => some
          { phase :=
              if retries config attempt error expired then .sending (attempt + 1)
              else .finished .threw
            network := s.network.lose left }
      | _ => none
  | .polls answer =>
      match s.phase with
      | .polling polls =>
          if polls < config.timeoutSeconds then
            match answer with
            | .success =>
                if s.network.held = .succeeded then
                  some { s with phase := .finished (.returned (some config.txHash) none) }
                else none
            | .failed =>
                if s.network.held = .failed then
                  some { s with
                  phase := .finished
                    (.returned (some config.txHash) (some "transaction_failed")) }
                else none
            | .notFound | .threw => some { s with phase := .polling (polls + 1) }
          else none
      | _ => none
  | .pollsRunOut =>
      match s.phase with
      | .polling polls =>
          if config.timeoutSeconds ≤ polls then
            some { s with
              phase := .finished
                (.returned (some config.txHash) (some "transaction_failed")) }
          else none
      | _ => none
  | .strayArrives status =>
      match s.network.strays with
      | 0 => none
      | strays + 1 =>
          some { s with network := ({ s.network with strays := strays }).receive status }
  | .strayLost =>
      match s.network.strays with
      | 0 => none
      | strays + 1 => some { s with network := { s.network with strays := strays } }
  | .includes successful =>
      if s.network.held = .queued then
        some { s with
          network := { s.network with held := if successful then .succeeded else .failed } }
      else none
  | .drops =>
      if s.network.held = .queued then
        some { s with network := { s.network with held := .absent } }
      else none

end Submission

inductive Network.Moves (network : Network) : Network → Prop where
  | arrives (strays : ℕ) (status : SendStatus) (hstrays : network.strays = strays + 1) :
      Moves network (({ network with strays := strays }).receive status)
  | loses (strays : ℕ) (hstrays : network.strays = strays + 1) :
      Moves network { network with strays := strays }
  | includes (successful : Bool) (hqueued : network.held = .queued) :
      Moves network { network with held := if successful then .succeeded else .failed }
  | drops (hqueued : network.held = .queued) :
      Moves network { network with held := .absent }

namespace Submission

inductive Effect (config : SubmissionConfig) (s : Submission) :
    SubmissionAction → Submission → Prop where
  | abandoned (action : SubmissionAction) (outcome : Outcome)
      (hphase : s.phase = .preparing) (hfails : outcome.succeeds = false) :
      Effect config s action { s with phase := .finished outcome }
  | sent (hphase : s.phase = .preparing) :
      Effect config s .sends { s with phase := .sending 1 }
  | accepted (attempt : ℕ) (hphase : s.phase = .sending attempt) :
      Effect config s (.answers .pending) ⟨.polling 0, s.network.receive .pending⟩
  | rejected (attempt : ℕ) (status : SendStatus) (hphase : s.phase = .sending attempt)
      (hstatus : status ≠ .pending) :
      Effect config s (.answers status)
        { s with phase := .finished (.returned none (some "transaction_submission_failed")) }
  | redialled (attempt : ℕ) (error : FetchError) (left expired : Bool)
      (hphase : s.phase = .sending attempt) :
      Effect config s (.connectionFails error left expired)
        ⟨.sending (attempt + 1), s.network.lose left⟩
  | unanswered (attempt : ℕ) (error : FetchError) (left expired : Bool)
      (hphase : s.phase = .sending attempt)
      (hretries : retries config attempt error expired = false) :
      Effect config s (.connectionFails error left expired)
        ⟨.finished .threw, s.network.lose left⟩
  | polled (polls : ℕ) (answer : PollAnswer) (hphase : s.phase = .polling polls) :
      Effect config s (.polls answer) { s with phase := .polling (polls + 1) }
  | confirmed (polls : ℕ) (hphase : s.phase = .polling polls)
      (hheld : s.network.held = .succeeded) :
      Effect config s (.polls .success)
        { s with phase := .finished (.returned (some config.txHash) none) }
  | reported (polls : ℕ) (hphase : s.phase = .polling polls)
      (hheld : s.network.held = .failed) :
      Effect config s (.polls .failed) { s with
        phase := .finished (.returned (some config.txHash) (some "transaction_failed")) }
  | ranOut (polls : ℕ) (hphase : s.phase = .polling polls) :
      Effect config s .pollsRunOut { s with
        phase := .finished (.returned (some config.txHash) (some "transaction_failed")) }
  | network (action : SubmissionAction) (network : Network)
      (hmoves : s.network.Moves network) : Effect config s action { s with network := network }

variable {config : SubmissionConfig} {s s' : Submission} {action : SubmissionAction}

attribute [local simp] step

variable {status : SendStatus}

/-- An answer other than `PENDING` takes nothing in. -/
theorem receive_of_ne {network : Network} (hstatus : status ≠ .pending) :
    network.receive status = network :=
  if_neg fun h => hstatus h.1

theorem effect_answers (hstep : step config s (.answers status) = some s') :
    Effect config s (.answers status) s' := by
  rw [step] at hstep
  split at hstep
  · next attempt hphase =>
      by_cases hstatus : status = .pending
      · subst hstatus
        cases hstep
        exact Effect.accepted attempt hphase
      · rw [if_neg hstatus, receive_of_ne hstatus] at hstep
        cases hstep
        exact Effect.rejected attempt status hphase hstatus
  · cases hstep

theorem effect_connectionFails {error : FetchError} {left expired : Bool}
    (hstep : step config s (.connectionFails error left expired) = some s') :
    Effect config s (.connectionFails error left expired) s' := by
  rw [step] at hstep
  split at hstep
  · next attempt hphase =>
      by_cases hretries : retries config attempt error expired = true
      · rw [if_pos hretries] at hstep
        cases hstep
        exact Effect.redialled attempt error left expired hphase
      · rw [if_neg hretries] at hstep
        cases hstep
        exact Effect.unanswered attempt error left expired hphase
          ((Bool.not_eq_true _).mp hretries)
  · cases hstep

theorem effect_polls {answer : PollAnswer} (hstep : step config s (.polls answer) = some s') :
    Effect config s (.polls answer) s' := by
  rw [step] at hstep
  split at hstep
  · next polls hphase =>
      split at hstep
      · cases answer with
        | success =>
            obtain ⟨hheld, hafter⟩ := Option.ite_none_right_eq_some.mp hstep
            cases hafter
            exact Effect.confirmed polls hphase hheld
        | failed =>
            obtain ⟨hheld, hafter⟩ := Option.ite_none_right_eq_some.mp hstep
            cases hafter
            exact Effect.reported polls hphase hheld
        | notFound =>
            cases hstep
            exact Effect.polled polls .notFound hphase
        | threw =>
            cases hstep
            exact Effect.polled polls .threw hphase
      · cases hstep
  · cases hstep

/-- The network moves without the submission. -/
theorem network_step (hnetwork : action.ofNetwork = true)
    (hstep : step config s action = some s') :
    s'.phase = s.phase ∧ s.network.Moves s'.network := by
  cases action with
  | strayArrives status =>
      rw [step] at hstep
      split at hstep
      · cases hstep
      · next strays hstrays =>
          cases hstep
          exact ⟨rfl, .arrives strays status hstrays⟩
  | strayLost =>
      rw [step] at hstep
      split at hstep
      · cases hstep
      · next strays hstrays =>
          cases hstep
          exact ⟨rfl, .loses strays hstrays⟩
  | includes successful =>
      obtain ⟨hqueued, hafter⟩ := Option.ite_none_right_eq_some.mp hstep
      cases hafter
      exact ⟨rfl, .includes successful hqueued⟩
  | drops =>
      obtain ⟨hqueued, hafter⟩ := Option.ite_none_right_eq_some.mp hstep
      cases hafter
      exact ⟨rfl, .drops hqueued⟩
  | _ => cases hnetwork

theorem effect_network (hnetwork : action.ofNetwork = true)
    (hstep : step config s action = some s') : Effect config s action s' := by
  obtain ⟨hphase, hmoves⟩ := network_step hnetwork hstep
  have heffect : Effect config s action { s with network := s'.network } :=
    Effect.network action _ hmoves
  rw [← hphase] at heffect
  exact heffect

/-- Every step has one of the effects. -/
theorem effect_of_step (hstep : step config s action = some s') :
    Effect config s action s' := by
  cases action with
  | signingFails errorReason =>
      obtain ⟨hphase, hafter⟩ := Option.ite_none_right_eq_some.mp hstep
      cases hafter
      exact Effect.abandoned _ (.returned none (some errorReason)) hphase rfl
  | throws =>
      obtain ⟨hphase, hafter⟩ := Option.ite_none_right_eq_some.mp hstep
      cases hafter
      exact Effect.abandoned _ .threw hphase rfl
  | sends =>
      obtain ⟨hphase, hafter⟩ := Option.ite_none_right_eq_some.mp hstep
      cases hafter
      exact Effect.sent hphase
  | answers status => exact effect_answers hstep
  | connectionFails error left expired => exact effect_connectionFails hstep
  | polls answer => exact effect_polls hstep
  | pollsRunOut =>
      rw [step] at hstep
      split at hstep
      · next polls hphase =>
          obtain ⟨-, hafter⟩ := Option.ite_none_right_eq_some.mp hstep
          cases hafter
          exact Effect.ranOut polls hphase
      · cases hstep
  | strayArrives status | strayLost | includes successful | drops => exact effect_network rfl hstep

end Submission

variable {network network' : Network}

theorem Network.Untraced.not_included (huntraced : network.Untraced) : ¬ network.included := by
  rw [Network.included, huntraced.1]
  decide

/-- Without a trace of the transaction nothing moves. -/
theorem Network.Moves.not_untraced (hmoves : network.Moves network') : ¬ network.Untraced := by
  rintro ⟨hheld, hstrays⟩
  cases hmoves with
  | arrives strays status hcopies => cases hstrays.symm.trans hcopies
  | loses strays hcopies => cases hstrays.symm.trans hcopies
  | includes successful hqueued => cases hheld.symm.trans hqueued
  | drops hqueued => cases hheld.symm.trans hqueued

theorem not_alive_empty : ¬ Network.empty.Alive := by decide

theorem Network.Moves.not_alive (hmoves : network.Moves network') (hdead : ¬ network.Alive) :
    ¬ network'.Alive := by
  rw [Network.Alive, not_or, not_or, not_and, Nat.not_lt, Nat.le_zero] at hdead
  obtain ⟨hqueued, hsucceeded, hstrays⟩ := hdead
  cases hmoves with
  | arrives strays status hcopies =>
      have hheld : network.held ≠ .absent := fun h => by
        rw [hstrays h] at hcopies
        cases hcopies
      rw [Network.receive, if_neg fun h => hheld h.2]
      exact fun halive => halive.elim hqueued fun h => h.elim hsucceeded fun h => hheld h.1
  | loses strays hcopies =>
      have hheld : network.held ≠ .absent := fun h => by
        rw [hstrays h] at hcopies
        cases hcopies
      exact fun halive => halive.elim hqueued fun h => h.elim hsucceeded fun h => hheld h.1
  | includes successful hheld => exact absurd hheld hqueued
  | drops hheld => exact absurd hheld hqueued

namespace Submission

variable {config : SubmissionConfig} {s s' : Submission} {action : SubmissionAction}

/-- A finished submission only has its network moving. -/
theorem finished_step {outcome : Outcome} (hfinished : s.phase = .finished outcome)
    (hstep : step config s action = some s') :
    s'.phase = .finished outcome ∧ s.network.Moves s'.network := by
  have heffect := effect_of_step hstep
  cases heffect with
  | network action network hmoves => exact ⟨hfinished, hmoves⟩
  | abandoned action outcome hphase => cases hfinished.symm.trans hphase
  | sent hphase => cases hfinished.symm.trans hphase
  | accepted attempt hphase => cases hfinished.symm.trans hphase
  | rejected attempt status hphase => cases hfinished.symm.trans hphase
  | redialled attempt error left expired hphase => cases hfinished.symm.trans hphase
  | unanswered attempt error left expired hphase => cases hfinished.symm.trans hphase
  | polled polls answer hphase => cases hfinished.symm.trans hphase
  | confirmed polls hphase => cases hfinished.symm.trans hphase
  | reported polls hphase => cases hfinished.symm.trans hphase
  | ranOut polls hphase => cases hfinished.symm.trans hphase

end Submission

end X402Facilitator.Pact
