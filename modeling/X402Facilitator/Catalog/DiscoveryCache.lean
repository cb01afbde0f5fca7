import X402Facilitator.Catalog.Search

/-!
# Validators and listings of the discovery route

The weak tag of a response is made of the version of the catalog and a hash of the
parameters.  Both can be read back from it, the parameters up to their hash.
`GET /discovery/resources` answers a page of the public listings that match its
query.
-/

namespace X402Facilitator.Catalog

/-- A value of a query, or a number that a route has made of one. -/
inductive ParamValue where
  | text (value : String)
  | number (value : ℕ)
  | list (values : List String)

/-- The order of `sort`: by UTF-16 code units. -/
def inCodeUnitOrder (a b : String) : Bool :=
  a.toList.flatMap codeUnits ≤ b.toList.flatMap codeUnits

def canonicalValue : ParamValue → Json
  | .text value => .str value
  | .number value => .str (toString value)
  | .list values => .arr ((values.mergeSort inCodeUnitOrder).map .str)

/-- `canonicalizeDiscoveryParams` of the parameters that are set. -/
def canonicalizeDiscoveryParams (params : List (String × ParamValue)) : String :=
  let sorted := params.mergeSort fun a b => inCodeUnitOrder a.1 b.1
  (Json.obj (sorted.map fun param => (param.1, canonicalValue param.2))).stringify

/-- `replace(/=+$/, '')` -/
def stripPadding (digest : String) : String :=
  String.ofList (digest.toList.reverse.dropWhile (· = '=')).reverse

/-- The hash in a tag.  `sha1` prints the digest in base64url. -/
def paramsHash (sha1 : String → String) (params : List (String × ParamValue)) : String :=
  stripPadding (sha1 (canonicalizeDiscoveryParams params))

def discoveryETag (sha1 : String → String) (catalogVersion : ℕ)
    (params : List (String × ParamValue)) : String :=
  "W/\"" ++ toString catalogVersion ++ "-" ++ paramsHash sha1 params ++ "\""

structure DiscoveryCache where
  etag : String
  notModified : Bool

/-- The tags of an `If-None-Match` header. -/
def headerTags (header : String) : List String :=
  (header.toList.splitOn ',').map fun tag => String.ofList (Text.trim tag)

/-- `applyDiscoveryCache`: an empty header is none. -/
def applyDiscoveryCache (sha1 : String → String) (catalogVersion : ℕ)
    (params : List (String × ParamValue)) (ifNoneMatch : Option String) : DiscoveryCache :=
  let etag := discoveryETag sha1 catalogVersion params
  let inm := ifNoneMatch.getD ""
  ⟨etag, inm ≠ "" && decide (etag ∈ headerTags inm)⟩

theorem toList_discoveryETag (sha1 : String → String) (version : ℕ)
    (params : List (String × ParamValue)) :
    (discoveryETag sha1 version params).toList =
      "W/\"".toList ++ (Nat.toDigits 10 version ++
        '-' :: ((paramsHash sha1 params).toList ++ ['"'])) := by
  have hdash : "-".toList = ['-'] := rfl
  have hquote : "\"".toList = ['"'] := rfl
  rw [discoveryETag, String.toList_append, String.toList_append, String.toList_append,
    String.toList_append, Text.toList_toString, hdash, hquote]
  simp only [List.append_assoc, List.cons_append, List.nil_append]

/-- A tag tells the version and the hash. -/
theorem discoveryETag_injective {sha1 : String → String} {version version' : ℕ}
    {params params' : List (String × ParamValue)}
    (heq : discoveryETag sha1 version params = discoveryETag sha1 version' params') :
    version = version' ∧ paramsHash sha1 params = paramsHash sha1 params' := by
  have hchars := congrArg String.toList heq
  rw [toList_discoveryETag, toList_discoveryETag] at hchars
  obtain ⟨hversion, hrest⟩ := Text.toDigits_append_injective (by decide)
    (List.append_cancel_left hchars)
  exact ⟨hversion, String.toList_inj.mp (List.append_cancel_right hrest)⟩

/-- A match tells that the tag of the version is among those of the header. -/
theorem etag_mem_of_notModified {sha1 : String → String} {version : ℕ}
    {params : List (String × ParamValue)} {ifNoneMatch : Option String}
    (hmatch : (applyDiscoveryCache sha1 version params ifNoneMatch).notModified = true) :
    ∃ header ∈ ifNoneMatch, discoveryETag sha1 version params ∈ headerTags header := by
  cases ifNoneMatch with
  | none => cases hmatch
  | some header =>
      simp only [applyDiscoveryCache, Option.getD_some, Bool.and_eq_true,
        decide_eq_true_eq] at hmatch
      exact ⟨header, rfl, hmatch.2⟩

structure Printing (Vector : Type) where
  isoString : ℕ → String
  vector : Vector → Json

section Printing

variable {Vector : Type} (printing : Printing Vector)

/-- A member that is absent where its value is undefined. -/
def optional (name : String) (value : Option Json) : List (String × Json) :=
  (value.map (name, ·)).toList

def optionalText (name : String) (value : Option String) : List (String × Json) :=
  optional name (value.map .str)

/-- A listing as `JSON.stringify` prints it. -/
def Item.json (item : Item Vector) : Json :=
  let resource := item.entry.resource
  .obj ([("type", .str resource.type), ("url", .str resource.url)] ++
    optionalText "toolName" resource.toolName ++
    optionalText "serviceName" resource.serviceName ++
    optionalText "description" resource.description ++
    optional "tags" (resource.tags.map fun tags => .arr (tags.map .str)) ++
    optionalText "iconUrl" resource.iconUrl ++ optionalText "scheme" resource.scheme ++
    optionalText "network" resource.network ++ optional "extensions" resource.extensions ++
    [("payTo", .str resource.payTo)] ++ optional "pactwright" resource.pactwright ++
    [("source", .str item.entry.source), ("provisional", .bool item.entry.provisional),
      ("expires_at", (item.entry.expiresAt.map Json.ofNat).getD .null),
      ("last_seen_at", .str (printing.isoString item.entry.lastSeenAt)),
      ("first_seen_at", .str (printing.isoString item.entry.firstSeenAt))] ++
    optional "embedding" (item.embedding.embedding.map printing.vector) ++
    optionalText "embedding_source" item.embedding.embeddingSource)

end Printing

/-- The parameters of a query string, each name once but for `extensions`. -/
abbrev Query := List (String × String)

/-- `parseInt(value, 10)`, none for `NaN`. -/
def parseInt10 (value : Option String) : Option ℤ :=
  value.bind fun text =>
    let (negative, rest) := cutSign (Text.trimStart text.toList)
    let digits := rest.takeWhile (isDigitIn 10)
    if digits.isEmpty then none
    else some (if negative then -numeralValue 10 digits else numeralValue 10 digits)

def clampedLimit (query : Query) : ℕ :=
  (min (max 1 ((parseInt10 (query.lookup "limit")).getD 20)) 100).toNat

def clampedOffset (query : Query) : ℕ := (max 0 ((parseInt10 (query.lookup "offset")).getD 0)).toNat

/-- `req.query.extensions`, given more than once or as a list with commas. -/
def queryExtensions (query : Query) : Option (List String) :=
  match (query.filter fun param => param.1 = "extensions").map Prod.snd with
  | [] | [""] => none
  | [text] => some ((text.toList.splitOn ',').map String.ofList)
  | texts => some texts

def listParams (query : Query) : Params where
  query := none
  type := query.lookup "type"
  payTo := query.lookup "payTo"
  scheme := query.lookup "scheme"
  network := query.lookup "network"
  extensions := queryExtensions query
  limit := some (clampedLimit query)
  offset := some (clampedOffset query)
  cursor := none

structure Reply where
  status : ℕ
  body : Json

section Route

variable {Vector Score : Type} [Field Score] [LinearOrder Score]
variable (printing : Printing Vector) (runtime : Runtime Score) (store : Store Vector) (now : ℕ)

/-- The body of `GET /discovery/resources`. -/
def discoveryPage (query : Query) : Json :=
  let result := store.listResources runtime now (listParams query)
  .obj [("x402Version", .ofNat 2), ("items", .arr (result.items.map (Item.json printing))),
    ("pagination", .obj [("limit", .ofNat (clampedLimit query)),
      ("offset", .ofNat (clampedOffset query)), ("total", .ofNat result.total)])]

/-- `GET /discovery/resources` for a request without an entity tag that its limiter lets
through. -/
def discoveryResources (query : Query) : Reply :=
  ⟨200, discoveryPage printing runtime store now query⟩

end Route

end X402Facilitator.Catalog
