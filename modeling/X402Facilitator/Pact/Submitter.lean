import X402Facilitator.Pact.VerifySound

/-!
# Sponsored follow-up calls

`submit` of `createPactSubmitter` and the reply of `POST /pact/submit`: the checks of a
transaction that anybody may hand in, and the submission of its operation by a signer of the
facilitator.
-/

namespace X402Facilitator.Pact

open Checks

structure SimulatedCall where
  minResourceFee : Option String
  transactionData : String

/-- The transaction that a signer signs, and the account that pays for it where there is a
fee bump. -/
structure Sent where
  transaction : Rebuilt ℕ
  feeSource : Option String

/-- What the server answers, none for a rejection; a simulation that fails has an error. -/
structure SubmitServer where
  simulateTransaction : Transaction → Option (Except (Option String) SimulatedCall)
  latestLedger : Option ℕ
  ledgerSeconds : Option LedgerSeconds
  hasAccount : String → Bool
  sendTransaction : Sent → Option (SendStatus × String)
  getTransaction : ℕ → PollAnswer

/-- `getNetworkPassphrase` throws for a network that it does not know. -/
structure SubmitSdk where
  networkPassphrase : String → Option String
  decode : String → String → Option Transaction
  signatureStatus : Transaction → SimulatedCall → SignatureStatus

inductive SignAnswer where
  | signed
  | refused
  | threw

structure Signers where
  selectSigner : List String → String
  signTransaction : Rebuilt ℕ → SignAnswer
  signFeeBump : Rebuilt ℕ → String → SignAnswer

/-- The poll loop of `submitSponsored`, with the polls that are left. -/
def awaitResult (getTransaction : ℕ → PollAnswer) (hash : String) : ℕ → ℕ → Outcome
  | 0, _ => .returned (some hash) (some "transaction_failed")
  | left + 1, poll =>
      match getTransaction poll with
      | .success => .returned (some hash) none
      | .failed => .returned (some hash) (some "transaction_failed")
      | .notFound | .threw => awaitResult getTransaction hash left (poll + 1)

section Submission

variable (scheme : PactStellarScheme) (server : SubmitServer) (signers : Signers)

/-- What is handed to `sendTransaction`, or how the submission ends before. -/
def signed (rebuilt : Rebuilt ℕ) : Except Outcome Sent :=
  if server.hasAccount rebuilt.source then
    match signers.signTransaction rebuilt, scheme.feeBumpSigner with
    | .threw, _ => .error .threw
    | .refused, _ => .error (.returned none (some "transaction_signing_failed"))
    | .signed, none => .ok ⟨rebuilt, none⟩
    | .signed, some address =>
        match signers.signFeeBump rebuilt address with
        | .threw => .error .threw
        | .refused => .error (.returned none (some "fee_bump_signing_failed"))
        | .signed => .ok ⟨rebuilt, some address⟩
  else .error .threw

/-- `submitSponsored`: its outcome, and what it has sent. -/
def submitSponsored (rebuilt : Rebuilt ℕ) : Outcome × Option Sent :=
  match signed scheme server signers rebuilt with
  | .error outcome => (outcome, none)
  | .ok sent =>
      match server.sendTransaction sent with
      | none => (.threw, some sent)
      | some (.pending, hash) =>
          (awaitResult server.getTransaction hash rebuilt.timeoutSeconds 0, some sent)
      | some _ => (.returned none (some "transaction_submission_failed"), some sent)

end Submission

/-- How `submit` ends before a submission. -/
inductive Stop where
  | refused (errorReason : String) (errorMessage : Option String)
  | threw

def pactSubmitFunctions : List String :=
  ["record_verdict", "settle", "close_meter", "release", "extend_pact_ttl"]

def submitPrefix : String := "invalid_pact_submit"

def stop (reason : String) : Stop := .refused (submitPrefix ++ reason) none

/-- `return` of a refusal unless a condition holds. -/
def unlessStopped (holds : Bool) (reason : String) : Except Stop Unit :=
  if holds then .ok () else .error (stop reason)

/-- The answer of a call, an exception where there is none. -/
def answered {A : Type} : Option A → Except Stop A
  | some value => .ok value
  | none => .error .threw

/-- A call that has passed the checks, its fee none for `NaN`. -/
structure Allowed where
  transaction : Transaction
  parsed : Parsed
  sim : SimulatedCall
  fee : Option ℤ

section Submit

variable (scheme : PactStellarScheme) (sdk : SubmitSdk) (server : SubmitServer)
variable (signers : Signers) (network txXdr : String)

/-- The transaction and its call, as far as the allow-list. -/
def parseCall : Except Stop (Transaction × Parsed) :=
  match (scheme.pactContracts network).filter (· ≠ "") with
  | none => .error (stop "_network_not_configured")
  | some pactContract => do
      let networkPassphrase ← answered (sdk.networkPassphrase network)
      match sdk.decode txXdr networkPassphrase with
      | none => .error (stop "_malformed")
      | some transaction =>
          match parseInvocation transaction scheme.facilitatorAddresses submitPrefix with
          | .error fault => .error (.refused fault.reason none)
          | .ok parsed => do
              unlessStopped (parsed.contract = pactContract) "_wrong_contract"
              unlessStopped (pactSubmitFunctions.contains parsed.fn) "_function_not_allowed"
              return (transaction, parsed)

/-- The fee of a call, none for `NaN`. -/
def submitFee (sim : SimulatedCall) : Option ℤ := totalFee scheme sim.minResourceFee

/-- The last ledger in which a signature may expire. -/
def submitMaxLedger (latest : ℕ) (ledger : LedgerSeconds) : ℤ :=
  latest + ((defaultTimeoutSeconds : ℚ) / ledger.seconds).ceil

/-- The checks of `submit`; `NaN` exceeds nothing. -/
def checkCall : Except Stop Allowed := do
  let (transaction, parsed) ← parseCall scheme sdk network txXdr
  match ← answered (server.simulateTransaction transaction) with
  | .error error => .error (.refused (submitPrefix ++ "_simulation_failed") error)
  | .ok sim => do
      let fee := submitFee scheme sim
      unlessStopped (!fee.any fun fee => fee > scheme.maxTransactionFeeStroops)
        "_fee_exceeds_maximum"
      let latest ← answered server.latestLedger
      let ledger ← answered server.ledgerSeconds
      match checkAuthEntries parsed.op scheme.facilitatorAddresses
          (.finite (submitMaxLedger latest ledger)) submitPrefix with
      | some reason => .error (.refused reason none)
      | none => do
          unlessStopped (sdk.signatureStatus transaction sim).pendingSignature.isEmpty
            "_unexpected_pending_signatures"
          return ⟨transaction, parsed, sim, fee⟩

/-- The operation of a call with a signer of the facilitator as the source. -/
def rebuildCall (signer : String) (allowed : Allowed) : Rebuilt ℕ where
  source := signer
  fee := scheme.inclusionFeeStroops
  network := network
  ledgerBounds := allowed.transaction.ledgerBounds
  memo := allowed.transaction.memo
  extraSigners := allowed.transaction.extraSigners
  sorobanData := allowed.sim.transactionData
  timeoutSeconds := defaultTimeoutSeconds
  operations := [allowed.parsed.op]

/-- The reply of `POST /pact/submit`; an exception is answered by the error handler. -/
inductive SubmitReply where
  | sponsored (transaction function : String) (feeStroops : Option ℤ)
  | refused (errorReason : String) (errorMessage transaction : Option String)
  | failed (reason : String)

def SubmitReply.threw : SubmitReply := .failed "internal_error"

def Stop.reply : Stop → SubmitReply
  | .refused errorReason errorMessage => .refused errorReason errorMessage none
  | .threw => .threw

def submitReply (allowed : Allowed) : Outcome → SubmitReply
  | .threw => .threw
  | .returned txHash (some errorReason) =>
      .refused ("pact_submit_" ++ errorReason) none (some (txHash.getD ""))
  | .returned txHash none => .sponsored (txHash.getD "") allowed.parsed.fn allowed.fee

/-- `submit`: the reply, and what has been sent.  A signer that is selected and unknown
throws. -/
def submit : SubmitReply × Option Sent :=
  match checkCall scheme sdk server network txXdr with
  | .error stopped => (stopped.reply, none)
  | .ok allowed =>
      let signer := signers.selectSigner scheme.signingAddresses
      if scheme.signingAddresses.contains signer then
        let sponsored := submitSponsored scheme server signers
          (rebuildCall scheme network signer allowed)
        (submitReply allowed sponsored.1, sponsored.2)
      else (.threw, none)

end Submit

end X402Facilitator.Pact
