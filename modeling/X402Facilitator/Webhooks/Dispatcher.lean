import X402Facilitator.Library.JsonObject

/-!
# The webhook dispatcher and its authenticator

A delivery is signed with the secret of its endpoint, if one is found, and goes
over a client certificate, if the record asks for one.  A lookup that fails is
warned about, with the message of the failure, and the delivery goes on without.

Three paths deliver an event: the direct `enqueue`, the `enqueue` over Kafka where
the broker fails, and the consumer of the topic.  What the authenticator, the
receiver, the broker and the dead letter store answer is the environment's choice.
-/

namespace X402Facilitator.Webhooks

/-- The reason of a rejected promise, by its message: `null` and `undefined` have no
members, and reading their message throws. -/
abbrev Rejection := Option String

/-- What a delivery is sent with: the agent that presents a client certificate, and
the headers. -/
structure Auth where
  dispatcher : Option String
  headers : List (String × String)
  deriving DecidableEq, Repr

/-- The options of `createDeliveryAuthenticator`; `hmac` is the digest of a text
under a key, in hexadecimal. -/
structure AuthenticatorOptions where
  mtlsProvider : Option (Json → Except Rejection String)
  signingSecrets : List (String × String)
  resolveSecret : Option (Json → Except Rejection (Option String))
  now : ℕ
  hmac : String → String → String

def signatureHeaders (hmac : String → String → String) (body secret : String) (timestamp : ℕ) :
    List (String × String) :=
  [("x-x402-webhook-signature", "sha256=" ++ hmac secret (toString timestamp ++ "." ++ body)),
    ("x-x402-webhook-timestamp", toString timestamp)]

def isMtlsConfigured (record : Json) : Bool := ((record.member "mtls").member "ref").truthy

/-- The secret that was configured for the endpoint; an empty text is none. -/
def configuredSecret (signingSecrets : List (String × String)) (record : Json) : Option String :=
  match record.member "endpointId" with
  | .str endpointId =>
      if endpointId = "" then none
      else (signingSecrets.lookup endpointId).filter fun secret => secret ≠ ""
  | _ => none

/-- `none` when the promise is rejected. -/
def resolveSigningSecret (options : AuthenticatorOptions) (record : Json) :
    Option (Option String) :=
  match options.resolveSecret with
  | none => some (configuredSecret options.signingSecrets record)
  | some resolveSecret =>
      match resolveSecret record with
      | .ok (some secret) =>
          if secret = "" then some (configuredSecret options.signingSecrets record)
          else some (some secret)
      | .ok none | .error (some _) => some (configuredSecret options.signingSecrets record)
      | .error none => none

/-- `{ ...record.mtls, endpointId }`. -/
def mtlsOf (record : Json) : Json :=
  match record.member "mtls" with
  | .obj members =>
      .obj (Json.assign members "endpointId"
        ((record.member "endpointId").orElse ((record.member "mtls").member "endpointId")))
  | mtls => mtls

/-- `authenticate`; `none` when the promise is rejected. -/
def authenticate (options : AuthenticatorOptions) (record : Json) (body : String) : Option Auth :=
  (resolveSigningSecret options record).bind fun secret =>
    let headers := secret.elim [] fun secret =>
      signatureHeaders options.hmac body secret (options.now / 1000)
    match options.mtlsProvider with
    | none => some ⟨none, headers⟩
    | some getAgent =>
        if isMtlsConfigured record then
          match getAgent (mtlsOf record) with
          | .ok agent => some ⟨some agent, headers⟩
          | .error (some _) => some ⟨none, headers⟩
          | .error none => none
        else some ⟨none, headers⟩

/-- Every lookup that fails does so with a reason that has a message. -/
structure AuthenticatorOptions.FailWithMessage (options : AuthenticatorOptions) : Prop where
  secret : ∀ resolveSecret ∈ options.resolveSecret, ∀ record,
    resolveSecret record ≠ .error none
  agent : ∀ getAgent ∈ options.mtlsProvider, ∀ mtls, getAgent mtls ≠ .error none

variable {options : AuthenticatorOptions}

theorem resolveSigningSecret_isSome (hfail : options.FailWithMessage) (record : Json) :
    (resolveSigningSecret options record).isSome := by
  rw [resolveSigningSecret]
  split
  · rfl
  · next resolveSecret hresolve =>
      split
      · split <;> rfl
      · rfl
      · rfl
      · next hrejected => exact absurd hrejected (hfail.secret resolveSecret hresolve record)

/-- A certificate or a secret that cannot be resolved does not reject the delivery. -/
theorem authenticate_isSome (hfail : options.FailWithMessage) (record : Json) (body : String) :
    (authenticate options record body).isSome := by
  obtain ⟨secret, hsecret⟩ :=
    Option.isSome_iff_exists.mp (resolveSigningSecret_isSome hfail record)
  rw [authenticate, hsecret, Option.bind_some]
  split
  · rfl
  · next getAgent hprovider =>
      split
      · split
        · rfl
        · rfl
        · next hrejected => exact absurd hrejected (hfail.agent getAgent hprovider _)
      · rfl

/-- A failed request: the codes of the error, of its cause and of the cause's cause. -/
structure TransportError where
  code : Option String
  causeCode : Option String
  rootCode : Option String
  deriving DecidableEq, Repr

def certificateCodes : List String :=
  ["CERT_REQUIRED", "UNABLE_TO_VERIFY_LEAF_SIGNATURE", "ERR_TLS_CERT_ALTNAME_INVALID",
    "DEPTH_ZERO_SELF_SIGNED_CERT", "SELF_SIGNED_CERT_IN_CHAIN", "CERT_UNTRUSTED",
    "CERT_SIGNATURE_FAILURE", "UNABLE_TO_GET_ISSUER_CERT_LOCALLY"]

def isCertificateRejection (err : TransportError) : Bool :=
  [err.code, err.causeCode, err.rootCode].any fun code =>
    code.any fun code => certificateCodes.contains code

inductive Attempt where
  | response (status : ℕ)
  | error (err : TransportError)
  deriving DecidableEq, Repr

/-- A `POST`; of two headers with one name the later one counts. -/
structure Request where
  url : Json
  headers : List (String × String)
  body : String
  dispatcher : Option String

structure Delivery where
  delivered : Bool
  status : Option ℕ
  certificateRejected : Bool
  deriving DecidableEq, Repr

/-- The loop of `deliverWebhook`, with the attempts that remain. -/
def deliverAttempts (receive : ℕ → Request → Attempt) (request : Request) :
    ℕ → ℕ → Option ℕ → Delivery
  | 0, _, lastStatus => ⟨false, lastStatus, false⟩
  | remaining + 1, attempt, lastStatus =>
      match receive attempt request with
      | .response status =>
          if status < 500 then ⟨true, some status, false⟩
          else deliverAttempts receive request remaining (attempt + 1) (some status)
      | .error err =>
          if isCertificateRejection err then ⟨false, none, true⟩
          else deliverAttempts receive request remaining (attempt + 1) lastStatus

def deliverWebhook (receive : ℕ → Request → Attempt) (request : Request) (maxAttempts : ℕ) :
    Delivery :=
  deliverAttempts receive request maxAttempts 1 none

/-- A row of the dead letter store as it is inserted. -/
structure DeadLetter where
  messageId : Json
  source : String
  type : Json
  payload : Json
  error : String
  deliveryAttempts : ℕ

/-- The configuration of a dispatcher, and what it gets from outside while it handles
one event: `receive` answers the attempts by number, `send` publishes to the topic. -/
structure Environment where
  url : Json
  uuid : String
  publishedAt : String
  authenticate : Json → String → Option Auth
  receive : ℕ → Request → Attempt
  send : Json → Except String Unit
  dlqTopic : Option (Json → Except String Unit)
  dlq : Option (DeadLetter → Except String ℕ)

def buildRecord (env : Environment) (event : List (String × Json)) : Json :=
  let rest := event.filter fun entry => entry.1 ≠ "signingSecret"
  let record := Json.spread
    [("id", ((Json.obj rest).member "id").orElse (.str env.uuid))] rest
  let withUrl := Json.assign record "url" (((Json.obj rest).member "url").orElse env.url)
  .obj (Json.assign withUrl "publishedAt" (.str env.publishedAt))

/-- `deliver`; `none` when the promise is rejected. -/
def deliver (env : Environment) (record : Json) (maxAttempts : ℕ) : Option Delivery :=
  (env.authenticate record record.stringify).map fun auth =>
    deliverWebhook env.receive
      ⟨record.member "url", ("content-type", "application/json") :: auth.headers,
        record.stringify, auth.dispatcher⟩ maxAttempts

def recordDeadLetter (env : Environment) (source : String) (record : Json) (error : String)
    (deliveryAttempts : ℕ) : List DeadLetter :=
  match env.dlq with
  | none => []
  | some insert =>
      let letter : DeadLetter :=
        ⟨record.member "id", source, record.member "type", record, error, deliveryAttempts⟩
      match insert letter with
      | .ok _ => [letter]
      | .error _ => []

/-- What becomes of one event: its delivery, whether it is in the topic and in the
dead letter topic, its dead letters, and whether a rejection escapes. -/
structure Outcome where
  delivery : Option Delivery
  queued : Bool
  deadTopic : Bool
  letters : List DeadLetter
  escapes : Bool

def Outcome.nothing : Outcome := ⟨none, false, false, [], false⟩

def Outcome.rejected : Outcome := ⟨none, false, false, [], true⟩

def text : Json → String
  | .str value => value
  | value => value.stringify

def maxAttempts : ℕ := 6

/-- The direct `enqueue`, which does not catch. -/
def enqueueDirect (env : Environment) (event : List (String × Json)) : Outcome :=
  let record := buildRecord env event
  if (record.member "url").truthy then
    match deliver env record maxAttempts with
    | none => .rejected
    | some res =>
        if res.delivered then ⟨some res, false, false, [], false⟩
        else
          ⟨some res, false, false,
            recordDeadLetter env "direct" record
              ("webhook delivery to " ++ text (record.member "url") ++ " failed after " ++
                toString maxAttempts ++ " attempts") maxAttempts, false⟩
  else .nothing

/-- The `enqueue` over Kafka; where the broker fails it delivers directly, and a
rejected delivery counts as one that failed. -/
def enqueueKafka (env : Environment) (event : List (String × Json)) : Outcome :=
  let record := buildRecord env event
  match env.send record with
  | .ok () => ⟨none, true, false, [], false⟩
  | .error message =>
      if (record.member "url").truthy then
        let res := (deliver env record maxAttempts).getD ⟨false, none, false⟩
        if res.delivered then ⟨some res, false, false, [], false⟩
        else
          ⟨some res, false, false,
            recordDeadLetter env "direct" record
              ("broker publish failed (" ++ message ++
                ") and direct fallback delivery also failed") maxAttempts, false⟩
      else .nothing

/-- The consumer's delivery of a record, which does not catch. -/
def consumeRecord (env : Environment) (record : Json) : Outcome :=
  if (record.member "url").truthy then
    match deliver env record maxAttempts with
    | none => .rejected
    | some res =>
        if res.delivered then ⟨some res, false, false, [], false⟩
        else
          ⟨some res, false, env.dlqTopic.any fun send => (send record).isOk,
            recordDeadLetter env "kafka-consumer" record
              ("webhook delivery to " ++ text (record.member "url") ++ " failed after " ++
                toString maxAttempts ++ " attempts (last status " ++
                res.status.elim "transport error" toString ++ ")") maxAttempts, false⟩
  else .nothing

/-- `eachMessage`; a message that is no JSON is `none`, and reading a member of `null`
throws. -/
def eachMessage (env : Environment) : Option Json → Outcome
  | none => .nothing
  | some .null => .rejected
  | some record => consumeRecord env record

end X402Facilitator.Webhooks
