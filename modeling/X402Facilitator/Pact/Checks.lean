import X402Facilitator.Catalog.DiscoveryCache
import X402Facilitator.Library.AllOrNone
import X402Facilitator.Library.Rounding

/-!
# The checks of a pact payload

What the checks of an `open` payload look at: the invocation, the events of its
simulation and the forest of its authorizations.  Addresses are texts, as the library
prints them.
-/

namespace X402Facilitator.Pact

open Checks

/-- Why a check fails, or `unexpected_verify_error` for an exception. -/
structure Fault where
  reason : String
  message : Option String

def Fault.of (reason : String) : Fault := ⟨reason, none⟩

def Fault.threw : Fault := .of "unexpected_verify_error"

/-- `return` of a fault unless a condition holds. -/
def require (holds : Bool) (fault : Fault) : Except Fault Unit :=
  if holds then .ok () else .error fault

def orThrow {A : Type} : Option A → Except Fault A
  | some value => .ok value
  | none => .error .threw

def checkOffered {A : Type} (offered : Option A) (check : A → Except Fault Unit) :
    Except Fault Unit :=
  match offered with
  | none => .ok ()
  | some value => check value

section Fault

variable {A B : Type} {fault : Fault}

variable {holds : Bool} {value : Unit} {offered : Option A}

theorem holds_of_require (hok : require holds fault = .ok value) : holds = true := by
  cases holds with
  | false => cases hok
  | true => rfl

/-- A condition that a sequence of checks goes on from. -/
theorem holds_of_bind {rest : Unit → Except Fault B} {value : B}
    (hok : (require holds fault >>= rest) = .ok value) : holds = true ∧ rest () = .ok value := by
  obtain ⟨⟨⟩, hrequire, hrest⟩ := ok_of_bind hok
  exact ⟨holds_of_require hrequire, hrest⟩

theorem some_of_orThrow {value : A} (hok : orThrow offered = .ok value) : offered = some value := by
  cases offered with
  | none => cases hok
  | some found =>
      cases hok
      rfl

theorem some_of_bind {rest : A → Except Fault B} {value : B}
    (hok : (orThrow offered >>= rest) = .ok value) :
    ∃ found, offered = some found ∧ rest found = .ok value := by
  obtain ⟨found, hfound, hrest⟩ := ok_of_bind hok
  exact ⟨found, some_of_orThrow hfound, hrest⟩

theorem check_of_checkOffered {check : A → Except Fault Unit}
    (hok : checkOffered offered check = .ok value) : ∀ found ∈ offered, check found = .ok () := by
  rintro found rfl
  exact hok

end Fault

/-- A value as `scValToNative` makes it. -/
inductive Native where
  | null
  | bool (value : Bool)
  | integer (value : ℤ)
  | text (value : String)
  | bytes (value : List UInt8)
  | vec (items : List Native)
  | map (fields : List (String × Native))

namespace Native

mutual

/-- `String(value)`, none for what is no numeral in any case. -/
def toText : Native → Option String
  | null => some "null"
  | bool value => some (toString value)
  | integer value => some (toString value)
  | text value => some value
  | bytes value => String.fromUTF8? ⟨value.toArray⟩
  | vec items => (itemTexts items).map (String.intercalate ",")
  | map _ => none

def itemTexts : List Native → Option (List String)
  | [] => some []
  | null :: items => (itemTexts items).map ("" :: ·)
  | item :: items => (toText item).bind fun first => (itemTexts items).map (first :: ·)

end

/-- `BigInt(value)`, none for an exception. -/
def bigInt : Native → Option ℤ
  | integer value => some value
  | bool value => some (if value then 1 else 0)
  | null => none
  | value => value.toText.bind fun text => bigIntOfText text.toList

def number : Native → Number
  | integer value => .finite value
  | bool value => .finite (if value then 1 else 0)
  | null => .finite 0
  | value => ((value.toText).map fun text => Number.ofText text.toList).getD .nan

def byte (item : Native) : UInt8 :=
  match item.number with
  | .finite value => .ofNat ((if value < 0 then value.ceil else value.floor) % 256).toNat
  | _ => 0

/-- `Buffer.from(value)`, none for an exception. -/
def buffer : Native → Option (List UInt8)
  | bytes value => some value
  | text value => some value.toUTF8.toList
  | vec items => some (items.map byte)
  | _ => none

def hex (value : Native) : Option String :=
  value.buffer.map fun bytes => String.ofList (Text.hex bytes)

def isText : Native → String → Bool
  | text value, other => value = other
  | _, _ => false

/-- A member of a value; the inner none is `undefined`. -/
def property (name : String) : Native → Option (Option Native)
  | null => none
  | map fields => some (fields.lookup name)
  | _ => some none

end Native

/-- `value === text` for what may be `undefined`. -/
def isText (value : Option Native) (text : String) : Bool :=
  value.any fun found => found.isText text

/-- `a === b` for what may be `undefined`; objects are made anew and differ. -/
def strictEquals : Option Native → Option Native → Bool
  | none, none | some .null, some .null => true
  | some (.bool a), some (.bool b) => a = b
  | some (.integer a), some (.integer b) => a = b
  | a, some (.text b) => isText a b
  | _, _ => false

structure AddressCredentials where
  address : String
  signatureExpirationLedger : ℕ

inductive AuthorizedFunction where
  | contractFn (contractAddress functionName : String) (args : List Native)
  | other

inductive Invocation where
  | call (function : AuthorizedFunction) (subInvocations : List Invocation)

def Invocation.function : Invocation → AuthorizedFunction
  | call function _ => function

def Invocation.subInvocations : Invocation → List Invocation
  | call _ subInvocations => subInvocations

/-- Credentials that are not of an address are none. -/
structure AuthEntry where
  credentials : Option AddressCredentials
  rootInvocation : Invocation

inductive HostFunction where
  | invokeContract (contractAddress functionName : String) (args : List Native)
  | other

structure Operation where
  type : String
  source : Option String
  func : Option HostFunction
  auth : List AuthEntry

structure Transaction where
  source : String
  operations : List Operation
  ledgerBounds : Option (ℕ × ℕ)
  memo : Option String
  extraSigners : List String

structure Parsed where
  op : Operation
  contract : String
  fn : String
  args : List Native

def parseInvocation (transaction : Transaction) (facilitatorAddresses : List String)
    (reasonPrefix : String) : Except Fault Parsed :=
  match transaction.operations with
  | [op] =>
      if op.type ≠ "invokeHostFunction" then .error (.of (reasonPrefix ++ "_wrong_operation"))
      else if facilitatorAddresses.contains (op.source.getD "") ||
          facilitatorAddresses.contains transaction.source then
        .error (.of (reasonPrefix ++ "_unsafe_tx_or_op_source"))
      else match op.func with
        | some (.invokeContract contract fn args) => .ok ⟨op, contract, fn, args⟩
        | _ => .error (.of (reasonPrefix ++ "_wrong_operation"))
  | _ => .error (.of (reasonPrefix ++ "_wrong_operation"))

def signatureExpirationLedgerTolerance : ℤ := 2

/-- What `checkAuthEntries` finds wrong with an entry; nothing is greater than `NaN`. -/
def checkAuthEntry (facilitatorAddresses : List String) (maxLedger : Number) (reasonPrefix : String)
    (auth : AuthEntry) : Option String :=
  match auth.credentials with
  | none => some (reasonPrefix ++ "_unsupported_credential_type")
  | some creds =>
      if facilitatorAddresses.contains creds.address then
        some (reasonPrefix ++ "_facilitator_in_auth")
      else if maxLedger.shift signatureExpirationLedgerTolerance <
          .finite creds.signatureExpirationLedger then
        some (reasonPrefix ++ "_signature_expiration_too_far")
      else none

def checkAuthEntries (op : Operation) (facilitatorAddresses : List String)
    (maxLedger : Number) (reasonPrefix : String) : Option String :=
  op.auth.findSome? (checkAuthEntry facilitatorAddresses maxLedger reasonPrefix)

def payloadPrefix : String := "invalid_pact_stellar_payload"

/-- What the payment has to be; the buyer is what the parameters of the call hold. -/
structure Expected where
  buyer : Option Native
  pactContract : String
  cap : ℤ
  asset : String

/-- The transfer that a call of `pact.open` may authorize. -/
def checkTransferCall (expected : Expected) (sub : Invocation) : Except Fault Unit :=
  let fault := Fault.of (payloadPrefix ++ "_unexpected_subinvocations")
  if sub.subInvocations ≠ [] then .error fault
  else match sub.function with
    | .other => .error fault
    | .contractFn contractAddress functionName args =>
        if contractAddress ≠ expected.asset || functionName ≠ "transfer" ||
            !strictEquals args[0]? expected.buyer || !isText args[1]? expected.pactContract then
          .error fault
        else match (args[2]?).bind Native.bigInt with
          | none => .error .threw
          | some amount => require (amount = expected.cap) fault

def checkTransferCalls (expected : Expected) : List Invocation → Except Fault Unit
  | [] => .ok ()
  | sub :: subs => do
      checkTransferCall expected sub
      checkTransferCalls expected subs

def checkAuthCall (expected : Expected) (auth : AuthEntry) : Except Fault Unit :=
  let fault := Fault.of (payloadPrefix ++ "_unexpected_auth")
  match auth.rootInvocation.function with
  | .other => .error fault
  | .contractFn contractAddress functionName _ => do
      require (contractAddress = expected.pactContract) fault
      require (functionName = "open") fault
      require (auth.rootInvocation.subInvocations.length ≤ 1)
        (.of (payloadPrefix ++ "_unexpected_subinvocations"))
      checkTransferCalls expected auth.rootInvocation.subInvocations

def checkAuthTree (expected : Expected) : List AuthEntry → Except Fault Unit
  | [] => .ok ()
  | auth :: rest => do
      checkAuthCall expected auth
      checkAuthTree expected rest

inductive ContractEventType where
  | system
  | contract
  | diagnostic
  deriving DecidableEq

structure DiagnosticEvent where
  type : ContractEventType
  contractId : Option String
  topics : List Native
  data : Native

structure Transfer where
  sender : Option Native
  recipient : Option Native
  amount : Native

/-- The amount of a transfer: of a map the member of that name. -/
def amountOf (data : Native) : Native :=
  match data with
  | .map fields => (fields.lookup "amount").getD data
  | _ => data

def DiagnosticEvent.isOwn (event : DiagnosticEvent) (pactContract : String) : Bool :=
  event.contractId = some pactContract && isText event.topics[0]? "pact"

def collectTransfers (expected : Expected) : List DiagnosticEvent → Except Fault (List Transfer)
  | [] => .ok []
  | event :: events =>
      if event.type ≠ .contract then collectTransfers expected events
      else match event.contractId with
        | none => .error (.of (payloadPrefix ++ "_event_missing_contract_id"))
        | some contract =>
            if event.isOwn expected.pactContract then collectTransfers expected events
            else if contract ≠ expected.asset || !isText event.topics[0]? "transfer" then
              .error (.of (payloadPrefix ++ "_unexpected_event"))
            else (collectTransfers expected events).map
              (⟨event.topics[1]?, event.topics[2]?, amountOf event.data⟩ :: ·)

def checkEvents (expected : Expected) (events : List DiagnosticEvent) : Except Fault Unit := do
  match ← collectTransfers expected events with
  | [] => .error (.of (payloadPrefix ++ "_no_transfers"))
  | [transfer] =>
      let fault := Fault.of (payloadPrefix ++ "_wrong_transfer")
      require (strictEquals transfer.sender expected.buyer) fault
      require (isText transfer.recipient expected.pactContract) fault
      let amount ← orThrow transfer.amount.bigInt
      require (amount = expected.cap) fault
  | _ => .error (.of (payloadPrefix ++ "_multiple_transfers"))

end X402Facilitator.Pact
