import X402Facilitator.Library.PercentEncoding
import X402Facilitator.Library.PlainObject
import X402Facilitator.Sdk.Amounts

/-!
# The catalog policy

A declaration is refused with a reason, or becomes a listing whose invalid fields are
dropped.  The extraction of the declaration and most checks of its fields are the
discovery library's.
-/

namespace X402Facilitator.Catalog

open JsString

/-! A description that holds the start of a tag, or a reference to an angle bracket, is refused.
One that is too long is cut between two characters. -/

/-- `[a-zA-Z/!]`. -/
def isTagChar (c : Char) : Bool :=
  ('a' ≤ c && c ≤ 'z') || ('A' ≤ c && c ≤ 'Z') || c = '/' || c = '!'

/-- Zeros, two digits of which the second is one of these, and a semicolon. -/
def isPadded (first : Char) (second : List Char) (text : Text) : Bool :=
  match text.dropWhile (· = '0') with
  | c :: d :: ';' :: _ => c = first && d ∈ second
  | _ => false

/-- `(?:lt|gt|#0*6[02]|#[xX]0*3[cC]);` at the front of a text. -/
def isMarkupEntity : Text → Bool
  | 'l' :: 't' :: ';' :: _ | 'g' :: 't' :: ';' :: _ => true
  | '#' :: 'x' :: rest | '#' :: 'X' :: rest => isPadded '3' ['c', 'C'] rest
  | '#' :: rest => isPadded '6' ['0', '2'] rest
  | _ => false

/-- `MARKUP_PATTERN` at the front of a text. -/
def startsMarkup : Text → Bool
  | '<' :: c :: _ => isTagChar c
  | '&' :: rest => isMarkupEntity rest
  | _ => false

/-- `MARKUP_PATTERN.test`. -/
def hasMarkup (description : JsString) : Bool := description.chars.tails.any startsMarkup

def MAX_DESCRIPTION_LENGTH : ℕ := 200

def truncateDescription (value : JsString) : JsString :=
  if value.length ≤ MAX_DESCRIPTION_LENGTH then value
  else
    let boundary := value.getD (MAX_DESCRIPTION_LENGTH - 1) 0
    let stop := if 0xD800 ≤ boundary ∧ boundary ≤ 0xDBFF then MAX_DESCRIPTION_LENGTH - 1
      else MAX_DESCRIPTION_LENGTH
    value.take stop

/-- A value in a payment: a string, or a value of another type. -/
inductive Field (Other : Type*) where
  | text (value : JsString)
  | other (value : Other)
  deriving DecidableEq

/-- `pricing.amount`. -/
inductive DeclaredAmount where
  | value (amount : Sdk.Value)
  | null
  /-- A boolean, an array or an object. -/
  | other

/-- `validateAmount(amount).length === 0`. -/
def DeclaredAmount.accepted : DeclaredAmount → Bool
  | .value amount => Sdk.validateAmount (some amount) = []
  | .null => Sdk.validateAmount none = []
  | .other => false

/-- `pricing`; an asset that is null counts as none. -/
structure Pricing where
  amount : Option DeclaredAmount
  asset : Option JsString

structure Bazaar (Other : Type*) where
  pricing : Option Pricing
  routeTemplate : Option (Field Other)
  /-- All that the library's schema check reads besides. -/
  content : Other

/-- The fields of `resource` in a payment. -/
structure ResourceFields (Other : Type*) where
  serviceName : Option (Field Other)
  iconUrl : Option (Field Other)
  description : Option (Field Other)
  /-- None where `tags` is not an array. -/
  tags : Option (List (Field Other))

structure PaymentPayload (Other : Type*) where
  bazaar : Option (Bazaar Other)
  resource : ResourceFields Other
  content : Other

structure PaymentRequirements (Other : Type*) where
  network : JsString
  payTo : Other
  asset : Option JsString
  /-- What `pactwrightListing` makes of the requirements. -/
  pactwright : Option Other

/-- What `extractDiscoveryInfo` returns. -/
structure Extracted (Other : Type*) where
  resourceUrl : JsString
  toolName : Option JsString
  serviceName : Option (Field Other)
  description : Option (Field Other)
  tags : Option (List (Field Other))
  iconUrl : Option (Field Other)
  scheme : Option Other
  extensions : Option Other

/-- What `extractDiscoveryInfo` throws. -/
inductive ExtractError where
  | invalidUrl
  | other

/-- The discovery library, and the `URL` parser: the protocol of a URL, none for what
cannot be parsed. -/
structure DiscoveryLibrary (Other : Type*) where
  extractDiscoveryInfo : PaymentPayload Other → PaymentRequirements Other →
    Except ExtractError (Option (Extracted Other))
  validateDiscoveryExtension : Bazaar Other → Bool
  isValidRouteTemplate : Field Other → Bool
  isValidServiceName : Field Other → Bool
  isValidIconUrl : Field Other → Bool
  sanitizeTags : List (Field Other) → Option (List JsString)
  protocolOf : JsString → Option JsString

structure CheckedListing (Other : Type*) where
  isMcp : Bool
  url : JsString
  toolName : Option JsString
  serviceName : Option (Field Other)
  description : Option (Field Other)
  tags : Option (List (Field Other))
  iconUrl : Option (Field Other)
  scheme : Option Other
  network : JsString
  extensions : Option Other
  payTo : Other
  pactwright : Option Other

structure PolicyResult (Other : Type*) where
  reason : Option String
  softDrops : List String
  truncations : List String
  resource : Option (CheckedListing Other)

variable {Other : Type*}

def PolicyResult.refused (reason : String) : PolicyResult Other := ⟨some reason, [], [], none⟩

def isHostileRouteTemplate : Field Other → Bool
  | .other _ => false
  | .text value =>
      if value = [] then false
      else if !value.includes (js "%") && !value.includes (js "..") &&
          !value.includes (js "://") && !value.includes (js "\\") then false
      else
        match decodeURIComponent value with
        | none => true
        | some decoded =>
            decoded.includes (js "..") || decoded.includes (js "://") || decoded.includes (js "\\")

def pricedAsset (pricing : Pricing) (requirements : PaymentRequirements Other) : JsString :=
  (pricing.asset.or requirements.asset).getD (js "native")

/-- Whether a number exceeds what a lookup in the map of decimals found; what is inherited is
not a number. -/
def exceedsDecimals (count : ℕ) : Property ℕ → Bool
  | .own decimals => decimals < count
  | .inherited => false
  | .absent => Sdk.STELLAR_DECIMALS < count

/-- The digits after the point of a string amount. -/
def fracPart (amount : JsString) : Text := (amount.chars.splitOn '.').tail.headD []

def refusesAmount (assetDecimalsMap : Option (PlainObject ℕ)) (amount : DeclaredAmount)
    (asset : JsString) : Bool :=
  if amount.accepted = false then true
  else
    let decimals := assetDecimalsMap.elim .absent (·.get asset)
    match amount with
    | .value (.text amount) => exceedsDecimals (fracPart amount).length decimals
    | _ => false

def refusesBazaar (library : DiscoveryLibrary Other)
    (assetDecimalsMap : Option (PlainObject ℕ)) (requirements : PaymentRequirements Other)
    (bazaar : Bazaar Other) : Option String :=
  if library.validateDiscoveryExtension bazaar = false then some "invalid_extension_schema"
  else
    bazaar.pricing.bind fun pricing =>
      pricing.amount.bind fun amount =>
        if refusesAmount assetDecimalsMap amount (pricedAsset pricing requirements) then
          some "invalid_pricing_amount"
        else none

/-- The description that is kept, and whether it was dropped or cut. -/
structure DescriptionResult (Other : Type*) where
  description : Option (Field Other)
  dropped : Bool
  truncated : Bool

/-- The branch of the description; what is not a string is left as it was extracted. -/
def checkDescription (extracted : Option (Field Other)) :
    Option (Field Other) → DescriptionResult Other
  | some (.text rawDescription) =>
      let description := rawDescription.trim
      if (unitOf '<' ∈ description ∨ unitOf '&' ∈ description) ∧ hasMarkup description = true then
        ⟨none, true, false⟩
      else if MAX_DESCRIPTION_LENGTH < description.length then
        ⟨some (.text (truncateDescription description)), false, true⟩
      else ⟨some (.text description), false, false⟩
  | _ => ⟨extracted, false, false⟩

/-- A field that the library checks: kept as it is, or dropped. -/
def checkField (isValid : Field Other → Bool) (extracted raw : Option (Field Other)) :
    Option (Field Other) × Bool :=
  match raw with
  | none => (extracted, false)
  | some value => if isValid value then (some value, false) else (none, true)

def checkTags (library : DiscoveryLibrary Other) (extracted raw : Option (List (Field Other))) :
    Option (List (Field Other)) × Bool :=
  match raw with
  | none => (extracted, false)
  | some rawTags =>
      let tags := (library.sanitizeTags rawTags).getD []
      let same := tags.length == rawTags.length && (tags.zip rawTags).all fun pair =>
        match pair.2 with
        | .text raw => pair.1 == raw
        | .other _ => false
      (some (tags.map .text), !same)

def dropOf (dropped : Bool) (name : String) : List String := if dropped then [name] else []

/-- The listing that is made of the extracted declaration, with its dropped fields. -/
def checkedListing (library : DiscoveryLibrary Other) (payload : PaymentPayload Other)
    (requirements : PaymentRequirements Other) (extracted : Extracted Other)
    (templateDropped : Bool) : PolicyResult Other :=
  let serviceName := checkField library.isValidServiceName extracted.serviceName
    payload.resource.serviceName
  let iconUrl := checkField library.isValidIconUrl extracted.iconUrl payload.resource.iconUrl
  let description := checkDescription extracted.description payload.resource.description
  let tags := checkTags library extracted.tags payload.resource.tags
  let protocol := library.protocolOf extracted.resourceUrl
  { reason :=
      if extracted.resourceUrl = [] then none
      else if protocol = none then some "invalid_url"
      else if protocol = some (js "http:") ∨ protocol = some (js "https:") then none
      else some "invalid_url_scheme"
    softDrops := dropOf templateDropped "routeTemplate" ++ dropOf serviceName.2 "serviceName" ++
      dropOf iconUrl.2 "iconUrl" ++ dropOf description.dropped "description" ++
      dropOf tags.2 "tags_filtered"
    truncations := dropOf description.truncated "description"
    resource := some {
      isMcp := extracted.toolName.any (· ≠ [])
      url := extracted.resourceUrl
      toolName := extracted.toolName
      serviceName := serviceName.1
      description := description.description
      tags := tags.1
      iconUrl := iconUrl.1
      scheme := extracted.scheme
      network := requirements.network
      extensions := extracted.extensions
      payTo := requirements.payTo
      pactwright := requirements.pactwright } }

def validatePolicy (library : DiscoveryLibrary Other) (payload : PaymentPayload Other)
    (requirements : PaymentRequirements Other) (assetDecimalsMap : Option (PlainObject ℕ)) :
    PolicyResult Other :=
  match library.extractDiscoveryInfo payload requirements with
  | .error .invalidUrl => .refused "invalid_url"
  | .error .other | .ok none => .refused "missing_or_invalid_discovery_extension"
  | .ok (some extracted) =>
      match payload.bazaar.bind (refusesBazaar library assetDecimalsMap requirements) with
      | some reason => .refused reason
      | none =>
          match payload.bazaar.bind Bazaar.routeTemplate with
          | none => checkedListing library payload requirements extracted false
          | some template =>
              if library.isValidRouteTemplate template then
                checkedListing library payload requirements extracted false
              else if isHostileRouteTemplate template then .refused "invalid_routeTemplate"
              else checkedListing library payload requirements extracted true

/-- `validateForCatalog`, for a payload and requirements that are objects. -/
def validateForCatalog (library : DiscoveryLibrary Other) (payload : PaymentPayload Other)
    (requirements : PaymentRequirements Other)
    (assetDecimalsMap : Option (PlainObject ℕ)) : PolicyResult Other :=
  validatePolicy library payload requirements assetDecimalsMap

namespace Sample

/-- A discovery library that finds every declaration valid. -/
def library : DiscoveryLibrary Unit where
  extractDiscoveryInfo _ _ := .ok (some ⟨js "https://a.test/", none, none, none, none, none, none,
    none⟩)
  validateDiscoveryExtension _ := true
  isValidRouteTemplate _ := true
  isValidServiceName _ := true
  isValidIconUrl _ := true
  sanitizeTags _ := none
  protocolOf _ := some (js "https:")

def requirements : PaymentRequirements Unit := ⟨js "stellar:testnet", (), none, none⟩

end Sample

end X402Facilitator.Catalog
