import X402Facilitator.Library.PercentEncoding
import X402Facilitator.Sdk.Amounts

/-!
# Pay URIs

The builder and the parser share one validator, which sees the values as the caller gave
them on one side and as strings on the other.  Addresses and URLs are checked by libraries.
-/

namespace X402Facilitator.Sdk

namespace Sep7

open JsString

def SEP7_SCHEME : JsString := js "web+stellar:"

def MEMO_TYPES : List JsString :=
  [js "MEMO_TEXT", js "MEMO_ID", js "MEMO_HASH", js "MEMO_RETURN"]

def MAX_URI_LENGTH : ℕ := 8192
def MAX_MSG_LENGTH : ℕ := 300
def MAX_MEMO_TEXT_BYTES : ℕ := 28
def MAX_UINT64 : ℤ := 18446744073709551615

inductive Field where
  | destination
  | amount
  | assetCode
  | assetIssuer
  | memo
  | memoType
  | callback
  | msg
  | networkPassphrase
  | originDomain
  | signature
  deriving DecidableEq

def fields : List Field :=
  [.destination, .amount, .assetCode, .assetIssuer, .memo, .memoType, .callback, .msg,
    .networkPassphrase, .originDomain, .signature]

def Field.key : Field → JsString
  | destination => js "destination"
  | amount => js "amount"
  | assetCode => js "asset_code"
  | assetIssuer => js "asset_issuer"
  | memo => js "memo"
  | memoType => js "memo_type"
  | callback => js "callback"
  | msg => js "msg"
  | networkPassphrase => js "network_passphrase"
  | originDomain => js "origin_domain"
  | signature => js "signature"

def Field.property : Field → JsString
  | destination => js "destination"
  | amount => js "amount"
  | assetCode => js "assetCode"
  | assetIssuer => js "assetIssuer"
  | memo => js "memo"
  | memoType => js "memoType"
  | callback => js "callback"
  | msg => js "msg"
  | networkPassphrase => js "networkPassphrase"
  | originDomain => js "originDomain"
  | signature => js "signature"

/-- What is imported: the checks of addresses, and the protocol of a URL that can be parsed. -/
structure Platform where
  isValidEd25519PublicKey : JsString → Bool
  isValidMed25519PublicKey : JsString → Bool
  isValidContract : JsString → Bool
  protocolOf : JsString → Option JsString

abbrev Values := Field → Option Value

def isLetter (c : Char) : Bool := ('A' ≤ c && c ≤ 'Z') || ('a' ≤ c && c ≤ 'z')

def isAlphanumeric (c : Char) : Bool := isLetter c || ('0' ≤ c && c ≤ '9')

/-- `[A-Za-z]{2,}`. -/
def isTopLevel (text : Text) : Bool := 2 ≤ text.length && text.all isLetter

/-- `/^[^*\s]+\*[A-Za-z0-9.-]+\.[A-Za-z]{2,}$/`. -/
def isFederationAddress (text : Text) : Bool :=
  let name := text.takeWhile (· ≠ '*')
  let domain := (text.dropWhile (· ≠ '*')).tail
  !name.isEmpty && name.all (fun c => !isTrimmed c) &&
    match Text.splitLast '.' domain with
    | some (front, last) =>
        !front.isEmpty && front.all (fun c => isAlphanumeric c || c = '.' || c = '-') &&
          isTopLevel last
    | none => false

/-- `/^[A-Za-z0-9]{1,12}$/`. -/
def isAssetCode (text : Text) : Bool :=
  1 ≤ text.length && text.length ≤ 12 && text.all isAlphanumeric

def base64Body (text : Text) : Text := text.rdropWhile (· = '=')

/-- Groups of four characters, the last one with up to two marks of padding. -/
def isBase64 (text : Text) : Bool :=
  text.length % 4 = 0 && text.length ≤ (base64Body text).length + 2 &&
    (base64Body text).all fun c => isAlphanumeric c || c = '+' || c = '/'

/-- A label of a domain: letters, digits and inner hyphens. -/
def isLabel (text : Text) : Bool :=
  1 ≤ text.length && text.length ≤ 63 && text.all (fun c => isAlphanumeric c || c = '-') &&
    text.head? ≠ some '-' && text.getLast? ≠ some '-'

def isFQDN (text : Text) : Bool :=
  let labels := text.splitOn '.'
  text.length ≤ 253 && 2 ≤ labels.length && labels.dropLast.all isLabel &&
    isTopLevel (labels.getLast?.getD [])

def isValidDestination (platform : Platform) (value : JsString) : Bool :=
  platform.isValidEd25519PublicKey value || platform.isValidMed25519PublicKey value ||
    platform.isValidContract value || isFederationAddress value.chars

/-- The bytes of base64 that the test has let through. -/
def isBase64Bytes (value : JsString) (length : ℕ) : Bool :=
  isBase64 value.chars && (base64Body value.chars).length * 3 / 4 = length

/-- `Buffer.byteLength` in UTF-8: a surrogate that is alone is replaced. -/
def byteLength : JsString → ℕ
  | [] => 0
  | [unit] => if unit.toNat < 0x80 then 1 else if unit.toNat < 0x800 then 2 else 3
  | high :: low :: rest =>
      if Utf16.isHigh high.toNat && Utf16.isLow low.toNat then 4 + byteLength rest
      else
        (if high.toNat < 0x80 then 1 else if high.toNat < 0x800 then 2 else 3) +
          byteLength (low :: rest)

/-- `replace` of the first occurrence of a text. -/
def replaceFirst (pattern replacement : JsString) : JsString → JsString
  | [] => []
  | unit :: rest =>
      if pattern <+: unit :: rest then replacement ++ (unit :: rest).drop pattern.length
      else unit :: replaceFirst pattern replacement rest

/-- `join(', ')`. -/
def joinComma (texts : List JsString) : JsString := (js ", ").intercalate texts

def validateMemo (type memo : JsString) : List JsString :=
  if type ∉ MEMO_TYPES then [js "memo_type must be one of " ++ joinComma MEMO_TYPES]
  else if type = js "MEMO_TEXT" then
    if MAX_MEMO_TEXT_BYTES < byteLength memo then [js "MEMO_TEXT must not exceed 28 bytes"] else []
  else if type = js "MEMO_ID" then
    if isNumeral 10 memo.chars && numeralValue 10 memo.chars ≤ MAX_UINT64 then []
    else [js "MEMO_ID must be an unsigned 64-bit integer"]
  else if isBase64Bytes memo 32 then []
  else [type ++ js " must be base64 of exactly 32 bytes"]

def validateDestination (platform : Platform) : Option Value → List JsString
  | none => [js "destination is required"]
  | some value =>
      let destination := value.toJsString
      if destination = [] then [js "destination is required"]
      else if isValidDestination platform destination then []
      else [js "destination \"" ++ destination ++
        js "\" is not a valid account, contract or address"]

/-- The errors of an amount, and of one with too many decimals. -/
def validateAmountParam (amount : Option Value) : List JsString :=
  if amount.isNone then []
  else (validateAmount amount).map (replaceFirst (js "pricing.amount") (js "amount")) ++
    match amount with
    | some (.text value) =>
        if STELLAR_DECIMALS < ((value.chars.splitOn '.').tail.headD []).length then
          [js "amount \"" ++ value ++ js "\" has more than 7 decimal places"]
        else []
    | _ => []

def validateMemoParam (memo memoType : Option Value) : List JsString :=
  if memo.isNone ≠ memoType.isNone then [js "memo and memo_type must be given together"]
  else match memo, memoType with
    | some memo, some type => validateMemo type.toJsString memo.toJsString
    | _, _ => []

/-- The error of a value that is present and does not pass its check. -/
def checkValue (value : Option Value) (valid : JsString → Bool) (error : JsString) :
    List JsString :=
  match value with
  | some value => if valid value.toJsString then [] else [error]
  | none => []

def isValidCallback (platform : Platform) (callback : JsString) : Bool :=
  js "url:" <+: callback &&
    match platform.protocolOf (callback.drop 4) with
    | some protocol => protocol = js "http:" || protocol = js "https:"
    | none => false

/-- The errors of the parameters, in the order in which they are looked for. -/
def validateParams (platform : Platform) (p : Values) : List JsString :=
  validateDestination platform (p .destination) ++
  validateAmountParam (p .amount) ++
  (if (p .assetCode).isNone ≠ (p .assetIssuer).isNone then
    [js "asset_code and asset_issuer must be given together (omit both for XLM)"] else []) ++
  checkValue (p .assetCode) (fun code => isAssetCode code.chars)
    (js "asset_code must be 1-12 alphanumeric characters") ++
  checkValue (p .assetIssuer) platform.isValidEd25519PublicKey
    (js "asset_issuer must be a valid account ID") ++
  validateMemoParam (p .memo) (p .memoType) ++
  checkValue (p .callback) (isValidCallback platform)
    (js "callback must be \"url:\" followed by an absolute http(s) URL") ++
  checkValue (p .msg) (fun msg => msg.length ≤ MAX_MSG_LENGTH)
    (js "msg must not exceed 300 characters") ++
  checkValue (p .networkPassphrase) (fun passphrase => Text.trim passphrase.chars ≠ [])
    (js "network_passphrase must not be empty") ++
  checkValue (p .originDomain) (fun domain => isFQDN domain.chars)
    (js "origin_domain must be a fully qualified domain name") ++
  (if (p .signature).isSome && (p .originDomain).isNone then
    [js "signature requires origin_domain"] else []) ++
  checkValue (p .signature) (fun signature => isBase64Bytes signature 64)
    (js "signature must be base64 of 64 bytes")

structure Reading where
  errors : List JsString
  params : Field → Option JsString

def Reading.fail (reading : Reading) (error : JsString) : Reading :=
  { reading with errors := reading.errors ++ [error] }

def Reading.set (reading : Reading) (field : Field) (value : JsString) : Reading :=
  { reading with params := Function.update reading.params field (some value) }

def quoted (before text after : JsString) : JsString :=
  before ++ js " \"" ++ text ++ js "\"" ++ after

def readValue (reading : Reading) (field : Field) (rawValue : JsString) : Reading :=
  if (reading.params field).isSome then
    reading.fail (quoted (js "duplicate parameter") field.key [])
  else if rawValue = [] then
    reading.fail (quoted (js "parameter") field.key (js " has an empty value"))
  else if unitOf '+' ∈ rawValue then
    reading.fail (quoted (js "parameter") field.key
      (js " contains an unencoded \"+\" (use %20 or %2B)"))
  else match decodeURIComponent rawValue with
    | some value => reading.set field value
    | none => reading.fail (quoted (js "parameter") field.key
        (js " has malformed percent-encoding"))

/-- One turn of the loop over the pairs of the query. -/
def readPair (reading : Reading) (pair : JsString) : Reading :=
  let key := pair.takeWhile (· ≠ unitOf '=')
  let rawValue := (pair.dropWhile (· ≠ unitOf '=')).tail
  if unitOf '=' ∉ pair ∨ key = [] then
    reading.fail (quoted (js "malformed query parameter") pair [])
  else match fields.find? fun field => field.key = key with
    | none => reading.fail (quoted (js "unknown parameter") key [])
    | some field => readValue reading field rawValue

/-- `toLowerCase`, as far as the comparison with the scheme can tell. -/
def lowerUnit (unit : UInt16) : UInt16 := if 65 ≤ unit ∧ unit ≤ 90 then unit + 32 else unit

def readQuery (query : JsString) : Reading :=
  (query.splitOn (unitOf '&')).foldl readPair ⟨[], fun _ => none⟩

/-- The parameters that were read, where neither the loop nor the validator found an error. -/
def accept (platform : Platform) (reading : Reading) :
    Except (List JsString) (Field → Option JsString) :=
  let errors := reading.errors ++
    validateParams platform fun field => (reading.params field).map .text
  if errors = [] then .ok reading.params else .error errors

/-- The parameters of a URI, as strings, or the errors of the `Sep7Error` that is thrown. -/
def parsePayUri (platform : Platform) (uri : JsString) :
    Except (List JsString) (Field → Option JsString) :=
  if uri = [] then .error [js "URI must be a non-empty string"]
  else if MAX_URI_LENGTH < uri.length then .error [js "URI exceeds 8192 characters"]
  else if (uri.take SEP7_SCHEME.length).map lowerUnit ≠ SEP7_SCHEME then
    .error [js "URI must start with \"web+stellar:\""]
  else
    let rest := uri.drop SEP7_SCHEME.length
    let operation := rest.takeWhile (· ≠ unitOf '?')
    let query := (rest.dropWhile (· ≠ unitOf '?')).tail
    if operation ≠ js "pay" then
      .error [
        if operation = [] ∨ operation.head? = some (unitOf '/') then
          js "URI must be web+stellar:<operation>?... with no \"//\""
        else quoted (js "unsupported operation") operation (js " (only \"pay\" is supported)")]
    else if query = [] then .error [js "pay URI has no query parameters"]
    else if unitOf '#' ∈ uri then .error [js "URI must not contain a fragment"]
    else accept platform (readQuery query)

/-- What the builder throws: its own error, or that of the encoding. -/
inductive BuildError where
  | sep7Error (errors : List JsString)
  | uriError
  deriving DecidableEq

/-- Parameters as a caller gives them: the names of the object's own properties, and what its
properties are; an amount can be a `BigInt`, and a memo a number. -/
structure Params where
  keys : List JsString
  values : Values
  typed : ∀ field value, values field = some value →
    (∃ text, value = .text text) ∨ (field = .amount ∧ ∃ n, value = .bigint n) ∨ field = .memo

def queryPart (entry : Field × JsString) : JsString := entry.1.key ++ unitOf '=' :: entry.2

def payUri (parts : List JsString) : JsString :=
  SEP7_SCHEME ++ js "pay?" ++ [unitOf '&'].intercalate parts

def buildErrors (platform : Platform) (params : Params) : List JsString :=
  let unknown := params.keys.filter fun key => fields.all fun field => field.property ≠ key
  unknown.map (fun key => quoted (js "unknown parameter") key []) ++
    validateParams platform params.values

def buildPayUri (platform : Platform) (params : Params) : Except BuildError JsString :=
  let errors := buildErrors platform params
  if errors ≠ [] then .error (.sep7Error errors)
  else
    let defined := fields.filter fun field => (params.values field).isSome
    let query := defined.mapM fun field =>
      (encodeURIComponent (((params.values field).map Value.toJsString).getD [])).map
        fun value => queryPart (field, value)
    match query with
    | some parts => .ok (payUri parts)
    | none => .error .uriError

end Sep7

end X402Facilitator.Sdk
