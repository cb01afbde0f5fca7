import X402Facilitator.Library.Json
import X402Facilitator.Library.JsText

/-!
# Requests, callers and keys

A settle request carries the caller that the authenticator established, the
`Idempotency-Key` header and the parsed body.  Two keys are computed from it:
the key of the settlement record, scoped by the caller, and the key of the
idempotency claim, which is not.
-/

namespace X402Facilitator

/-- The library functions the service calls: the SHA-256 digest of a text in
hexadecimal, `toUpperCase` and `JSON.parse`. -/
structure Library where
  sha256Hex : String → String
  toUpperCase : String → String
  jsonParse : String → Option Json

def trim (text : String) : String :=
  String.ofList
    ((((text.toList.dropWhile isTrimmed).reverse).dropWhile isTrimmed).reverse)

/-- The caller as `requireApiKey` finds it: no authentication configured, the id
of a configured API key, or the `sub` and `azp` claims of a verified token. -/
inductive Principal where
  | unauthenticated
  | apiKey (id : String)
  | jwt (sub azp : Option String)
  deriving DecidableEq

def Principal.keyId (library : Library) : Principal → Option String
  | unauthenticated => none
  | apiKey id => some (library.toUpperCase id)
  | jwt sub azp => some (library.toUpperCase ((sub.or azp).getD "jwt"))

structure Request where
  principal : Principal
  /-- The `Idempotency-Key` header. -/
  header : Option String
  body : Json

namespace Request

variable (library : Library) (request : Request)

def paymentPayload : Json := request.body.member "paymentPayload"

def paymentRequirements : Json := request.body.member "paymentRequirements"

def keyId : Option String := request.principal.keyId library

def nonemptyString (value : Json) : Option String :=
  value.asString?.filter (· ≠ "")

/-- What the derived key is the digest of: the transaction where there is one,
otherwise the whole payload. -/
def derivedText : String :=
  match (request.paymentPayload.member "transaction").asString?.map trim with
  | some transaction =>
      if transaction ≠ "" then transaction else request.paymentPayload.stringify
  | none => request.paymentPayload.stringify

/-- The header as `deriveIdempotencyKey` accepts it. -/
def trimmedHeader : Option String :=
  (request.header.map trim).filter (· ≠ "")

def deriveIdempotencyKey : String :=
  match request.trimmedHeader with
  | some header => header
  | none => "derived:" ++ library.sha256Hex request.derivedText

/-- A key in the caller's namespace; an empty caller id counts as none. -/
def scopedKey (keyId : Option String) (key : String) : String :=
  match keyId.filter (· ≠ "") with
  | some keyId => keyId ++ ":" ++ key
  | none => key

def storeKey : String :=
  scopedKey (request.keyId library) (request.deriveIdempotencyKey library)

/-- The key of the idempotency claim: the header, or the digest of the body. -/
def keyFor : String :=
  match request.header with
  | some header =>
      if header ≠ "" then trim header
      else "body:" ++ library.sha256Hex request.body.stringify
  | none => "body:" ++ library.sha256Hex request.body.stringify

/-- The header as `keyFor` accepts it. -/
def claimHeader : Option String := (request.header.filter (· ≠ "")).map trim

theorem keyFor_eq : request.keyFor library =
    request.claimHeader.getD ("body:" ++ library.sha256Hex request.body.stringify) := by
  rw [keyFor, claimHeader]
  cases request.header with
  | none => rfl
  | some header => by_cases hblank : header = "" <;> simp [Option.filter, hblank]

def lockKeyFor : String := "settle:" ++ library.sha256Hex request.paymentPayload.stringify

/-- The transaction that a failed request reports and records. -/
def transaction : String :=
  ((request.paymentPayload.member "transaction").asString?).getD ""

def network : String := (request.paymentRequirements.member "network").asString?.getD ""

end Request

/-- A rejected body: the field, the reason and the message. -/
structure InvalidBody where
  field : String
  reason : String
  message : String
  deriving DecidableEq

def requireString (requirements : Json) (name : String) : Except InvalidBody Unit :=
  match Request.nonemptyString (requirements.member name) with
  | some _ => .ok ()
  | none => .error ⟨"paymentRequirements." ++ name, "invalid_request",
      "paymentRequirements." ++ name ++ " must be a non-empty string"⟩

def requireObject (body : Json) (name : String) : Except InvalidBody Unit :=
  if (body.member name).isObject then .ok ()
  else .error ⟨name, "invalid_request", name ++ " must be an object"⟩

def validatePaymentFields (body : Json) : Except InvalidBody Unit := do
  requireObject body "paymentPayload"
  requireObject body "paymentRequirements"
  requireString (body.member "paymentRequirements") "scheme"
  requireString (body.member "paymentRequirements") "network"

def validatePaymentBody (networks : List String) (request : Request) :
    Except InvalidBody Unit := do
  validatePaymentFields request.body
  if request.network ∈ networks then .ok ()
  else .error ⟨"paymentRequirements.network", "unsupported_network",
    "network \"" ++ request.network ++ "\" is not served by this instance (serves: " ++
      ", ".intercalate networks ++ ")"⟩

end X402Facilitator
