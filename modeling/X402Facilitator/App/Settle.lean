import Mathlib.Data.List.Infix
import X402Facilitator.App.Request
import X402Facilitator.Idempotency.Stores
import X402Facilitator.Store.Reconciliation

/-!
# The handler of POST /settle

A handler is an asynchronous program: between two of its awaits it computes on
what the last one returned, and it touches the shared stores once for each
await.  `advance` is that program cut at its awaits.  It sees the record of its
own key and the outcome `begin` has for its claim, and it answers with the
effect on the stores.

`settleOnce` races the request timeout.  When the timeout wins, the request goes
on to its catch branch while `settleOnce` keeps running, so a handler has two
points of control.
-/

namespace X402Facilitator

/-- What `facilitator.settle` returns: an object with the members the handler
reads. -/
structure SettleResult where
  body : Json
  isObject : body.isObject = true

namespace SettleResult

variable (result : SettleResult)

def success : Bool := (result.body.member "success").truthy

def transaction : Option String := (result.body.member "transaction").asString?

def errorReason : Option String := Request.nonemptyString (result.body.member "errorReason")

def errorMessage : Option String := Request.nonemptyString (result.body.member "errorMessage")

theorem truthy_body : result.body.truthy = true := by
  obtain ⟨body, hobject⟩ := result
  cases body with
  | obj members => rfl
  | null | bool value | num value | str value | arr items => cases hobject

end SettleResult

/-- A thrown value: its `code`, whether it is a `LockAcquireTimeoutError`, its
`message` and what `describeThrown` makes of it. -/
structure ThrownError where
  code : Option String
  isLockTimeout : Bool
  message : Option String
  description : String
  deriving DecidableEq

def timeoutError (submitted : Bool) : ThrownError :=
  if submitted then
    ⟨some "SUBMITTED_OUTCOME_UNKNOWN", false,
      some "settlement submitted to network but timed out waiting for confirmation",
      "settlement submitted to network but timed out waiting for confirmation"⟩
  else ⟨some "REQUEST_TIMEOUT", false, some "request timeout", "request timeout"⟩

/-- The error of a lock that was not acquired in time. -/
def lockAcquireTimeoutError (key : String) : ThrownError :=
  let message := "could not acquire lock \"" ++ key ++ "\" within 15000ms"
  ⟨none, true, some message, message⟩

def mentionsUnregistered (message : Option String) : Bool :=
  message.any fun text => "unregistered".toList <:+: text.toList

/-- The reason that the catch branch reports for an error. -/
def errorReasonFor (error : ThrownError) (submitted : Bool) : String :=
  if error.code = some "SUBMITTED_OUTCOME_UNKNOWN" then "submitted_outcome_unknown"
  else if error.code = some "REQUEST_TIMEOUT" then
    if submitted then "submitted_outcome_unknown" else "request_timeout"
  else if error.isLockTimeout then "lock_timeout"
  else if error.code = some "RPC_BREAKER_OPEN" then "soroban_rpc_unreachable"
  else if mentionsUnregistered error.message then "unsupported_scheme_network"
  else "facilitator_error"

structure Failure where
  errorReason : String
  errorMessage : String
  transaction : String
  deriving DecidableEq

def Failure.outcomeUnknown (failure : Failure) : Bool :=
  failure.errorReason == "submitted_outcome_unknown"

def Failure.targetState (failure : Failure) : TargetState :=
  if failure.outcomeUnknown then .unknown else .failed

def Failure.details (failure : Failure) : StateDetails where
  txHash := some failure.transaction
  errorReason := some failure.errorReason
  errorMessage := some failure.errorMessage

inductive Reply where
  | invalidBody (error : InvalidBody)
  | rateLimited
  | storedResponse (body : Json)
  | settledRecord (transaction : Option String) (network : String) (payer : Option String)
  | inProgress (errorMessage transaction network : String)
  | failedRecord (errorReason errorMessage : Option String) (transaction network : String)
  | replay (statusCode : ℕ) (response : Json)
  | conflict
  | outcome (result : SettleResult)
  | failure (failure : Failure) (network : String)
  | internalError

/-- `existingRecord.response`, parsed when it is a string. -/
def replyStored (library : Library) (response : Json) : Reply :=
  match response with
  | .str text =>
      match library.jsonParse text with
      | some body => .storedResponse body
      | none => .internalError
  | body => .storedResponse body

/-- The reasons after which a failed settlement may be tried again. -/
def retryable : List String :=
  ["rate_limited", "catalog_rate_limited", "soroban_rpc_unreachable", "lock_timeout",
    "request_timeout"]

section Replay

variable (library : Library) (request : Request) {Time : Type*} (record : Settlement Time)

/-- A record with another caller's id is not replayed. -/
def ownedByThisCaller : Bool :=
  match record.keyId.filter (· ≠ ""), (request.keyId library).filter (· ≠ "") with
  | some recorded, some keyId => library.toUpperCase recorded == library.toUpperCase keyId
  | _, _ => true

/-- The answer that an existing record gives, if it gives one. -/
def replyFromRecord : Option Reply :=
  if ownedByThisCaller library request record then
    match record.state with
    | .settled =>
        if record.response.truthy then some (replyStored library record.response)
        else some (.settledRecord record.txHash record.network record.payer)
    | .submitted | .unknown =>
        some (.inProgress
          ((record.errorMessage.filter (· ≠ "")).getD
            "settlement in progress or outcome unknown")
          (record.txHash.getD "") record.network)
    | .failed =>
        if record.errorReason.any (· ∈ retryable) then none
        else if record.response.truthy then some (replyStored library record.response)
        else some (.failedRecord record.errorReason record.errorMessage
          (record.txHash.getD "") record.network)
  else none

end Replay

/-- Where the request stands once it owns the claim. -/
inductive RacePhase where
  | racing
  | releasing (failure : Failure)
  | recordingFailure (failure : Failure)
  | answered (reply : Reply)

/-- Where `settleOnce` stands. -/
inductive OncePhase where
  | awaitingLock
  | settling
  | metering (result : SettleResult)
  | storing (result : SettleResult)
  | cataloging (result : SettleResult)
  | completing (result : SettleResult)
  | returned (result : SettleResult)
  | threw (error : ThrownError)

/-- The request and its `settleOnce`.  `submitted` is the flag of the request,
with the hash of the transaction that was handed to the network; `lockLost` is
an expired lock. -/
structure Race where
  phase : RacePhase
  once : OncePhase
  submitted : Option String
  lockLost : Bool

inductive Event where
  | rateChecked (allowed : Bool)
  | recordRead
  | recordSaved
  | claimBegun
  | lockAcquired
  | lockTimedOut
  | lockLost
  | broadcast (txHash : String)
  | settleReturned (result : SettleResult)
  | settleThrew (error : ThrownError)
  | settleRecorded
  | outcomeStored
  | cataloged
  | outcomeCompleted (recorded : Bool)
  | timedOut
  | claimReleased
  | failureRecorded

/-- What one await does to the stores, always at the handler's own keys. -/
inductive Effect where
  | nothing
  | save
  | begin
  | settle (details : StateDetails)
  | update (state : TargetState) (details : StateDetails)
  | complete (response : Json)
  | release

/-- The deployment: the library functions, the served networks, whether there is
a distributed lock, and the endpoints of the reconciliation. -/
structure Deployment where
  library : Library
  networks : List String
  distributedLock : Bool
  reconcile : ReconcileConfig

def SettleResult.settledDetails (result : SettleResult) : StateDetails where
  txHash := result.transaction
  response := result.body

/-- The state update of a result that is not successful. -/
def SettleResult.failedDetails (result : SettleResult) : StateDetails where
  txHash := result.transaction.filter (· ≠ "")
  errorReason := some (result.errorReason.getD "facilitator_error")
  errorMessage := result.errorMessage
  response := result.body

namespace Race

/-- The race starts with `settleOnce` under way. -/
def start (distributedLock : Bool) : Race where
  phase := .racing
  once := if distributedLock then .awaitingLock else .settling
  submitted := none
  lockLost := false

variable (request : Request) (race : Race)

def failure (error : ThrownError) : Failure where
  errorReason := errorReasonFor error race.submitted.isSome
  errorMessage := error.description
  transaction := request.transaction

/-- The catch branch: the claim is released unless the outcome is unknown. -/
def caught (error : ThrownError) : RacePhase :=
  if (race.failure request error).outcomeUnknown then
    .recordingFailure (race.failure request error)
  else .releasing (race.failure request error)

/-- `settleOnce` throws; only a request that still waits for it notices. -/
def onceThrows (error : ThrownError) : Race :=
  match race.phase with
  | .racing => { race with phase := race.caught request error, once := .threw error }
  | _ => { race with once := .threw error }

/-- `settleOnce` returns; only a request that still waits for it answers. -/
def onceReturns (result : SettleResult) : Race :=
  match race.phase with
  | .racing => { race with phase := .answered (.outcome result), once := .returned result }
  | _ => { race with once := .returned result }

/-- One await of the request or of `settleOnce`. -/
def advance (library : Library) (event : Event) : Option (Race × Effect) :=
  match event, race.once with
  | .lockAcquired, .awaitingLock => some ({ race with once := .settling }, .nothing)
  | .lockTimedOut, .awaitingLock =>
      some (race.onceThrows request
        (lockAcquireTimeoutError (request.lockKeyFor library)), .nothing)
  | .broadcast txHash, .settling =>
      some ({ race with submitted := some txHash }, .nothing)
  | .settleReturned result, .settling =>
      some ({ race with once := .metering result }, .nothing)
  | .settleThrew error, .settling => some (race.onceThrows request error, .nothing)
  | .settleRecorded, .metering result =>
      some ({ race with once := .storing result }, .nothing)
  | .outcomeStored, .storing result =>
      if result.success then
        some ({ race with once := .cataloging result }, .settle result.settledDetails)
      else
        some ({ race with once := .completing result },
          .update .failed result.failedDetails)
  | .cataloged, .cataloging result =>
      some ({ race with once := .completing result }, .nothing)
  | .outcomeCompleted recorded, .completing result =>
      some (race.onceReturns result,
        if recorded then .complete result.body else .nothing)
  | .lockLost, .settling => some ({ race with lockLost := true }, .nothing)
  | .lockLost, .metering _ => some ({ race with lockLost := true }, .nothing)
  | .lockLost, .storing _ => some ({ race with lockLost := true }, .nothing)
  | .lockLost, .cataloging _ => some ({ race with lockLost := true }, .nothing)
  | .lockLost, .completing _ => some ({ race with lockLost := true }, .nothing)
  | .timedOut, _ =>
      match race.phase with
      | .racing =>
          some ({ race with
            phase := race.caught request (timeoutError race.submitted.isSome) }, .nothing)
      | _ => none
  | .claimReleased, _ =>
      match race.phase with
      | .releasing failure =>
          some ({ race with phase := .recordingFailure failure }, .release)
      | _ => none
  | .failureRecorded, _ =>
      match race.phase with
      | .recordingFailure failure =>
          some ({ race with phase := .answered (.failure failure request.network) },
            .update failure.targetState failure.details)
      | _ => none
  | _, _ => none

end Race

/-- How far a handler has got.  From its read on it carries the record it
found. -/
inductive Stage where
  | checkingRate
  | readingRecord
  | savingRecord (record : Option (Settlement ℕ))
  | claiming (record : Option (Settlement ℕ))
  | declined (reply : Reply)
  | owner (record : Option (Settlement ℕ)) (race : Race)

def Stage.record : Stage → Option (Settlement ℕ)
  | savingRecord record => record
  | claiming record => record
  | owner record _ => record
  | _ => none

/-- The result of `facilitator.settle`, once it has returned one. -/
def OncePhase.result : OncePhase → Option SettleResult
  | metering result | storing result | cataloging result | completing result
  | returned result => some result
  | _ => none

structure Handler where
  request : Request
  stage : Stage

structure View where
  record : Option (Settlement ℕ)
  outcome : BeginOutcome

/-- A new handler: the body is read and validated first. -/
def Handler.start (deployment : Deployment) (request : Request) : Handler where
  request := request
  stage :=
    match validatePaymentBody deployment.networks request with
    | .ok () => .checkingRate
    | .error error => .declined (.invalidBody error)

namespace Handler

variable (deployment : Deployment) (handler : Handler)

def storeKey : String := handler.request.storeKey deployment.library

def claimKey : String := handler.request.keyFor deployment.library

/-- The record that is saved before the claim is taken. -/
def savedRecord : SettlementInput where
  idempotencyKey := handler.storeKey deployment
  network := (handler.request.paymentRequirements.member "network").asString?
  scheme := (handler.request.paymentRequirements.member "scheme").asString?
  payer := (handler.request.paymentPayload.member "payer").asString?
  payTo := (handler.request.paymentRequirements.member "payTo").asString?
  asset := (handler.request.paymentRequirements.member "asset").asString?
  amount := (handler.request.paymentRequirements.member "maxAmountRequired").asString?
  keyId := handler.request.keyId deployment.library

def moveTo (stage : Stage) : Handler := { handler with stage := stage }

def advance (view : View) (event : Event) : Option (Handler × Effect) :=
  match event, handler.stage with
  | .rateChecked true, .checkingRate => some (handler.moveTo .readingRecord, .nothing)
  | .rateChecked false, .checkingRate =>
      some (handler.moveTo (.declined .rateLimited), .nothing)
  | .recordRead, .readingRecord =>
      match view.record.bind (replyFromRecord deployment.library handler.request) with
      | some reply => some (handler.moveTo (.declined reply), .nothing)
      | none => some (handler.moveTo (.savingRecord view.record), .nothing)
  | .recordSaved, .savingRecord record => some (handler.moveTo (.claiming record), .save)
  | .claimBegun, .claiming record =>
      match view.outcome with
      | .owner =>
          some (handler.moveTo (.owner record (.start deployment.distributedLock)), .begin)
      | .replayed statusCode response =>
          some (handler.moveTo (.declined (.replay statusCode response)), .nothing)
      | .conflict => some (handler.moveTo (.declined .conflict), .nothing)
  | event, .owner record race =>
      (race.advance handler.request deployment.library event).map fun (race, effect) =>
        (handler.moveTo (.owner record race), effect)
  | _, _ => none

end Handler

end X402Facilitator
