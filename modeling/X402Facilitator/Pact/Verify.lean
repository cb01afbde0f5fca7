import X402Facilitator.Library.NumberText
import X402Facilitator.Pact.Checks
import X402Facilitator.Pact.ReportedFailed

/-!
# Verification and settlement of a pact payload

`_verify` of `PactStellarScheme`, over the answers of the RPC server to the calls that one
verification makes, and `settle`, which submits what has been verified.
-/

namespace X402Facilitator

namespace Json

/-- `Number(value)`, none for an exception. -/
def toNumber : Json → Option Number
  | null => some (.finite 0)
  | bool value => some (.finite (if value then 1 else 0))
  | num value => some (.ofText value.chars)
  | value => value.toText.map fun text => .ofText text.toList

/-- `BigInt(value)`, none for an exception. -/
def bigInt : Json → Option ℤ
  | null => none
  | bool value => some (if value then 1 else 0)
  | num value => (Number.ofText value.chars).toBigInt
  | value => value.toText.bind fun text => bigIntOfText text.toList

end Json

namespace Pact

structure PactTerms where
  condition : Option (JsValue Number)
  conditionHash : Option Json
  silence : Option Json

/-- `pactContract` and the terms are of `extra`. -/
structure PaymentRequirements where
  scheme : String
  network : String
  asset : String
  amount : Option Json
  payTo : String
  maxTimeoutSeconds : Option Json
  pactContract : Option String
  pactwright : PactTerms

/-- What a payload says of the requirements that it has accepted. -/
structure Accepted where
  scheme : Option String
  network : Option String

/-- A version that is no number counts as absent, and so does a transaction that is no
string. -/
structure PaymentPayload where
  x402Version : Option ℕ
  accepted : Option Accepted
  transaction : Option String

structure Simulation where
  minResourceFee : Option String
  events : List DiagnosticEvent
  retval : Option Native
  transactionData : String

inductive SimulationAnswer where
  | success (simulation : Simulation)
  | failure (error : Option String)

structure LedgerSeconds where
  seconds : ℚ
  positive : 0 < seconds

/-- What the server answers to the calls of one verification, none for a rejection. -/
structure Rpc where
  simulateTransaction : Transaction → Option SimulationAnswer
  latestLedger : Option ℕ
  ledgerSeconds : Option LedgerSeconds
  getAccount : String → Option String
  simulateBalance : String → String → String → Option Bool

structure SignatureStatus where
  alreadySigned : List String
  pendingSignature : List String

/-- `sha256` prints the digest in hexadecimal. -/
structure Sdk where
  isStellarNetwork : String → Bool
  decode : String → String → Option Transaction
  signatureStatus : Transaction → Simulation → SignatureStatus
  sha256 : String → String
  toLowerCase : String → String

def inNameOrder {A : Type} (a b : JsString × A) : Bool := a.1 ≤ b.1

def canonicalMember (member : JsString × List Char) : List Char :=
  JsValue.quote member.1 ++ ':' :: member.2

mutual

/-- The text of `canonicalize`, none for an exception. -/
def canonicalChars : JsValue Number → Option (List Char)
  | .num number => if number.isFinite then some number.toText else none
  | .arr items => (canonicalItems items).map fun texts =>
      '[' :: List.intercalate [','] texts ++ [']']
  | .obj members => (canonicalMembers members).map fun texts =>
      '{' :: List.intercalate [','] ((texts.mergeSort inNameOrder).map canonicalMember) ++ ['}']
  | value => some (value.chars Number.doubles)

def canonicalItems : List (JsValue Number) → Option (List (List Char))
  | [] => some []
  | item :: items =>
      (canonicalChars item).bind fun text => (canonicalItems items).map (text :: ·)

def canonicalMembers : List (JsString × JsValue Number) → Option (List (JsString × List Char))
  | [] => some []
  | (name, value) :: members =>
      (canonicalChars value).bind fun text => (canonicalMembers members).map ((name, text) :: ·)

end

def canonicalize (value : JsValue Number) : Option String :=
  (canonicalChars value).map String.ofList

def conditionHash (sdk : Sdk) (condition : JsValue Number) : Option String :=
  (canonicalize condition).map sdk.sha256

/-- The addresses of the signers and of the account that pays for fee bumps. -/
structure PactStellarScheme where
  signingAddresses : List String
  feeBumpSigner : Option String
  pactContracts : String → Option String
  maxTransactionFeeStroops : ℤ
  inclusionFeeStroops : ℤ

def defaultTimeoutSeconds : ℕ := 60

def PactStellarScheme.facilitatorAddresses (scheme : PactStellarScheme) : List String :=
  scheme.signingAddresses ++ scheme.feeBumpSigner.toList

/-- `parseInt(sim.minResourceFee, 10) + this.inclusionFeeStroops`, none for `NaN`.  The
rounding of larger numbers does not pass a ceiling below 2^53. -/
def totalFee (scheme : PactStellarScheme) (minResourceFee : Option String) : Option ℤ :=
  (minResourceFee.bind fun fee => parseInt fee.toList).map (· + scheme.inclusionFeeStroops)

def payloadFault (reason : String) : Fault := .of (payloadPrefix ++ reason)

/-- What is known of a payload once its parameters are read. -/
structure Opened where
  transaction : Transaction
  op : Operation
  pactContract : String
  params : Native
  buyer : Option Native

/-- A parameter of the call; none is `undefined`. -/
def Opened.param (opened : Opened) (name : String) : Option Native :=
  (opened.params.property name).join

/-- What `_verify` returns for a payload that is valid. -/
structure Verified where
  payer : Option Native
  transaction : Transaction
  op : Operation
  simResponse : Simulation
  pactId : Option String

structure VerifyResponse where
  isValid : Bool
  invalidReason : Option String
  payer : Option Native
  invalidMessage : Option String

/-- `invalid` -/
def Fault.response (fault : Fault) (payer : Option Native) : VerifyResponse :=
  ⟨false, some fault.reason, payer, fault.message⟩

section Verification

variable (scheme : PactStellarScheme) (sdk : Sdk) (rpc : Rpc)
variable (payload : PaymentPayload) (requirements : PaymentRequirements)

/-- The configured contract; empty texts are none. -/
def requestedContract : Except Fault String := do
  require (payload.x402Version = some 2) (.of "invalid_x402_version")
  require (payload.accepted.bind Accepted.scheme = some "pact" && requirements.scheme = "pact")
    (.of "unsupported_scheme")
  require (payload.accepted.bind Accepted.network = some requirements.network)
    (.of "network_mismatch")
  require (sdk.isStellarNetwork requirements.network) (.of "invalid_network")
  match (scheme.pactContracts requirements.network).filter (· ≠ "") with
  | none => .error (payloadFault "_network_not_configured")
  | some pactContract => do
      require ((requirements.pactContract.filter (· ≠ "")).all (· = pactContract))
        (payloadFault "_wrong_contract")
      return pactContract

/-- `_verify` as far as the reading of `params.buyer`. -/
def openPayload : Except Fault Opened := do
  let pactContract ← requestedContract scheme sdk payload requirements
  match payload.transaction.bind fun text => sdk.decode text requirements.network with
  | none => .error (payloadFault "_malformed")
  | some transaction => do
      let inv ← parseInvocation transaction scheme.facilitatorAddresses payloadPrefix
      require (inv.contract = pactContract) (payloadFault "_wrong_contract")
      require (inv.fn = "open" && inv.args.length = 1) (payloadFault "_wrong_function_name")
      let params ← orThrow inv.args[0]?
      let buyer ← orThrow (params.property "buyer")
      return ⟨transaction, inv.op, pactContract, params, buyer⟩

/-- `facilitatorAddresses.has` of a value. -/
def isFacilitator (value : Option Native) : Bool :=
  scheme.facilitatorAddresses.any (isText value)

/-- The silence that has been offered, as the contract numbers it. -/
def expectedSilence (silence : Json) : ℕ := if silence.asString? = some "pay" then 2 else 1

def checkTerms (opened : Opened) (terms : PactTerms) : Except Fault Unit := do
  let committed ← orThrow ((opened.param "condition_hash").bind Native.hex)
  checkOffered terms.condition fun condition => do
    let hash ← orThrow (conditionHash sdk condition)
    require (committed = hash) (payloadFault "_condition_hash_mismatch")
  checkOffered terms.conditionHash fun offered => do
    let text ← orThrow offered.toText
    require (committed = sdk.toLowerCase text) (payloadFault "_condition_hash_mismatch")
  checkOffered terms.silence fun silence =>
    require (((opened.param "silence").map Native.number).getD .nan =
      .finite (expectedSilence silence)) (payloadFault "_wrong_silence")

/-- The parameters of the call against the requirements; the cap. -/
def checkParams (opened : Opened) : Except Fault ℤ := do
  require (!isFacilitator scheme opened.buyer && !isFacilitator scheme (opened.param "seller"))
    (payloadFault "_facilitator_is_party")
  require (isText (opened.param "seller") requirements.payTo) (payloadFault "_wrong_recipient")
  let cap ← orThrow (requirements.amount.bind Json.bigInt)
  let amount ← orThrow ((opened.param "cap").bind Native.bigInt)
  require (amount = cap) (payloadFault "_wrong_amount")
  checkTerms sdk opened requirements.pactwright
  return cap

def simulationReason (error : String) : String :=
  if "Error(Auth, ExistingValue)".toList <:+: error.toList then "_replayed"
  else if "Error(Contract, #2)".toList <:+: error.toList then "_pact_id_used"
  else "_simulation_failed"

def simulate (transaction : Transaction) : Except Fault Simulation :=
  match rpc.simulateTransaction transaction with
  | none => .error .threw
  | some (.failure error) =>
      .error ⟨payloadPrefix ++ simulationReason (error.getD ""), error⟩
  | some (.success sim) => .ok sim

def feeMessage (fee : ℤ) : String :=
  "simulation-derived fee " ++ toString fee ++ " stroops exceeds ceiling " ++
    toString scheme.maxTransactionFeeStroops ++ " stroops"

/-- `NaN` exceeds nothing. -/
def checkFee (sim : Simulation) : Except Fault Unit :=
  match totalFee scheme sim.minResourceFee with
  | none => .ok ()
  | some fee => require (fee ≤ scheme.maxTransactionFeeStroops)
      ⟨payloadPrefix ++ "_fee_exceeds_maximum", some (feeMessage scheme fee)⟩

/-- `requirements.maxTimeoutSeconds ?? DEFAULT_TIMEOUT_SECONDS` -/
def PaymentRequirements.timeout (requirements : PaymentRequirements) : Json :=
  (requirements.maxTimeoutSeconds.getD .null).orElse (.ofNat defaultTimeoutSeconds)

/-- The ledgers that a timeout takes, none for an exception. -/
def timeoutLedgers (ledger : LedgerSeconds) : Option Number :=
  requirements.timeout.toNumber.map fun timeout => timeout.div ledger.seconds

/-- The last ledger in which the payment may be settled.  The rounding of larger sums does not
pass a ledger below 2^53. -/
def maxLedger (latest : ℕ) (ledger : LedgerSeconds) : Option Number :=
  (timeoutLedgers requirements ledger).map fun ledgers => ledgers.ceil.shift latest

def checkAuth (op : Operation) (expected : Expected) : Except Fault Unit := do
  let latest ← orThrow rpc.latestLedger
  let ledger ← orThrow rpc.ledgerSeconds
  let last ← orThrow (maxLedger requirements latest ledger)
  require (!op.auth.isEmpty) (payloadFault "_no_auth_entries")
  match checkAuthEntries op scheme.facilitatorAddresses last payloadPrefix with
  | some reason => .error (.of reason)
  | none => checkAuthTree expected op.auth

def checkSignatures (transaction : Transaction) (sim : Simulation) (buyer : Option Native) :
    Except Fault Unit := do
  let status := sdk.signatureStatus transaction sim
  require (status.alreadySigned.any (isText buyer)) (payloadFault "_missing_payer_signature")
  require status.pendingSignature.isEmpty (payloadFault "_unexpected_pending_signatures")

/-- `hasTrustline`; without an account for the source, that of the first signer is used. -/
def hasTrustline (source seller asset : String) : Except Fault Bool :=
  if seller.toList.head? = some 'C' then .ok true
  else do
    let account ← orThrow ((rpc.getAccount source).or
      (scheme.signingAddresses.head?.bind rpc.getAccount))
    orThrow (rpc.simulateBalance account seller asset)

/-- `_verify` after the reading of `params.buyer`. -/
def verifyOpened (opened : Opened) : Except Fault Verified := do
  let cap ← checkParams scheme sdk requirements opened
  let sim ← simulate rpc opened.transaction
  checkFee scheme sim
  let expected : Expected := ⟨opened.buyer, opened.pactContract, cap, requirements.asset⟩
  checkEvents expected sim.events
  checkAuth scheme rpc requirements opened.op expected
  checkSignatures sdk opened.transaction sim opened.buyer
  let trusted ← hasTrustline scheme rpc opened.transaction.source requirements.payTo
    requirements.asset
  require trusted (payloadFault "_seller_trustline_missing")
  match sim.retval with
  | none => return ⟨opened.buyer, opened.transaction, opened.op, sim, none⟩
  | some retval => do
      let pactId ← orThrow retval.hex
      return ⟨opened.buyer, opened.transaction, opened.op, sim, some pactId⟩

/-- `_verify` -/
def verifyPayload : Except VerifyResponse Verified :=
  match openPayload scheme sdk payload requirements with
  | .error fault => .error (fault.response none)
  | .ok opened =>
      match verifyOpened scheme sdk rpc requirements opened with
      | .error fault => .error (fault.response opened.buyer)
      | .ok verified => .ok verified

def verify : VerifyResponse :=
  match verifyPayload scheme sdk rpc payload requirements with
  | .error response => response
  | .ok verified => ⟨true, none, verified.payer, none⟩

/-- The transaction that `submitSponsored` builds, signs and sends. -/
structure Rebuilt (Timeout : Type) where
  source : String
  fee : ℤ
  network : String
  ledgerBounds : Option (ℕ × ℕ)
  memo : Option String
  extraSigners : List String
  sorobanData : String
  timeoutSeconds : Timeout
  operations : List Operation

def rebuild (signer : String) (verified : Verified) : Rebuilt Json where
  source := signer
  fee := scheme.inclusionFeeStroops
  network := requirements.network
  ledgerBounds := verified.transaction.ledgerBounds
  memo := verified.transaction.memo
  extraSigners := verified.transaction.extraSigners
  sorobanData := verified.simResponse.transactionData
  timeoutSeconds := requirements.timeout
  operations := [verified.op]

/-- `settle`: the result, and what has been handed to the submission.  A signer that is
selected and unknown throws. -/
def settle (selectSigner : List String → String) (submit : Rebuilt Json → Outcome) :
    SettleResult × Option (Rebuilt Json) :=
  match verifyPayload scheme sdk rpc payload requirements with
  | .error response => (.failed "" (response.invalidReason.getD "verification_failed"), none)
  | .ok verified =>
      let signer := selectSigner scheme.signingAddresses
      if scheme.signingAddresses.contains signer then
        let rebuilt := rebuild scheme requirements signer verified
        (settleResult (submit rebuilt), some rebuilt)
      else (settleResult .threw, none)

end Verification

end Pact

end X402Facilitator
