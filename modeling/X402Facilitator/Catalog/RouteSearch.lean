import X402Facilitator.Catalog.SearchCache

/-!
# The search route

A query parameter that is repeated reaches the store as an array of its texts.  A filter of
that kind keeps nothing, a query of that kind has no `trim`, and a cursor of that kind is
taken for bytes.
-/

namespace X402Facilitator.Catalog

inductive QueryParam where
  | text (value : String)
  | repeated (values : List String)
  deriving DecidableEq

/-- An array is truthy, and any text but the empty one. -/
def QueryParam.truthy : QueryParam → Bool
  | .text value => value ≠ ""
  | .repeated _ => true

/-- `String(value)` -/
def QueryParam.toText : QueryParam → String
  | .text value => value
  | .repeated values => ",".intercalate values

/-- `req.query` -/
structure SearchQuery where
  query : Option QueryParam
  type : Option QueryParam
  payTo : Option QueryParam
  scheme : Option QueryParam
  network : Option QueryParam
  extensions : Option QueryParam
  limit : Option QueryParam
  cursor : Option QueryParam

/-- The params of a search, with a limit that has been clamped. -/
structure RouteParams where
  query : QueryParam
  type : Option QueryParam
  payTo : Option QueryParam
  scheme : Option QueryParam
  network : Option QueryParam
  extensions : Option (List String)
  limit : ℕ
  cursor : Option QueryParam
  clamped : 1 ≤ limit ∧ limit ≤ 100

/-- The names that a search asks for: a text is split at its commas. -/
def QueryParam.extensionNames : QueryParam → List String
  | .text value => (value.toList.splitOn ',').map String.ofList
  | .repeated values => values

/-- `Math.min(Math.max(1, parsedLimit), 100)` -/
def clampLimit (limit : Option QueryParam) : ℕ :=
  let parsedLimit := (limit.bind fun value => parseInt value.toText.toList).getD 20
  (min (max 1 parsedLimit) 100).toNat

theorem clamped_clampLimit (limit : Option QueryParam) :
    1 ≤ clampLimit limit ∧ clampLimit limit ≤ 100 := by
  rw [clampLimit]
  omega

/-- The params that the route builds, none where it answers that a query is required. -/
def searchParams (req : SearchQuery) : Option RouteParams :=
  (req.query.filter QueryParam.truthy).map fun query =>
    { query := query
      type := req.type
      payTo := req.payTo
      scheme := req.scheme
      network := req.network
      extensions := (req.extensions.filter QueryParam.truthy).map QueryParam.extensionNames
      limit := clampLimit req.limit
      cursor := req.cursor
      clamped := clamped_clampLimit req.limit }

def trimmed (text : String) : String := String.ofList (Text.trim text.toList)

/-- A parameter that narrows a search, as it stands in the key. -/
def scopedText : Option QueryParam → String
  | some (.text value) => trimmed value
  | _ => ""

def RouteParams.searchCacheKey (toLowerCase : String → String) (params : RouteParams) : String :=
  let query := match params.query with
    | .text value => toLowerCase (trimmed value)
    | .repeated _ => ""
  let cursor := match params.cursor with
    | some (.text value) => value
    | _ => ""
  let extensions := (params.extensions.getD []).mergeSort inCodeUnitOrder
  let scopedParams := [params.type, params.payTo, params.scheme, params.network].map scopedText
  (Json.arr ([.str query, .ofNat params.limit, .ofNat 0, .str cursor,
    .str (",".intercalate extensions)] ++ scopedParams.map .str)).stringify

/-- What a search uses of its runtime for arrays: `decodeItems` reads the text of a buffer
that is made of the items. -/
structure RouteRuntime (Score : Type) [Field Score] [LinearOrder Score] extends
    ExactRuntime Score where
  decodeItems : List String → String
  sqrt_one : sqrt 1 = 1

/-- The embedding client is handed a repeated query as it is. -/
structure RouteProvider (Score : Type) extends Provider Score where
  embedItems : List String → Option (List Score)

section Search

variable {Vector : Type}

/-- A filter that is set keeps the listings with its value; no value is an array. -/
def keepsParam (filter : Option QueryParam) (field : Option String) : Bool :=
  match filter with
  | none => true
  | some (.text value) => value = "" || field = some value
  | some (.repeated _) => false

def RouteParams.passes (params : RouteParams) (resource : Resource) : Bool :=
  keepsParam params.type (some resource.type) && keepsParam params.payTo (some resource.payTo) &&
    keepsParam params.scheme resource.scheme && keepsParam params.network resource.network &&
    let resourceExts := (objectEntries (resource.extensions.getD .null)).map Prod.fst
    (params.extensions.getD []).all fun ext => ext ∈ resourceExts

/-- `_applyCommonFilters` -/
def applyRouteFilters (items : List (Item Vector)) (params : RouteParams) : List (Item Vector) :=
  items.filter fun item => params.passes item.entry.resource

variable {Score : Type} [Field Score] [LinearOrder Score]

/-- `embed` -/
def RouteProvider.embedParam (provider : RouteProvider Score) : QueryParam → Option (List Score)
  | .text value => provider.embed (some value)
  | .repeated values => provider.embedItems values

def RouteRuntime.cursorText (runtime : RouteRuntime Score) (cursor : Option QueryParam) :
    Option String :=
  (cursor.filter QueryParam.truthy).map fun
    | .text value => runtime.decodeBase64 value
    | .repeated values => runtime.decodeItems values

/-- The offset that a cursor names, none for `NaN`. -/
def offsetOf (cursorText : Option String) : Option ℕ :=
  match cursorText with
  | none => some 0
  | some text =>
      if "offset:".toList <+: text.toList then (parseInt (text.toList.drop 7)).map Int.toNat
      else some 0

/-- The page at an offset, and the cursor of the next one. -/
def RouteRuntime.pageFrom (runtime : RouteRuntime Score) (items : List (Item (List Score)))
    (offset : Option ℕ) (limit : ℕ) : List (Item (List Score)) × Option String :=
  match offset.map fun start => min start items.length with
  | none => ([], none)
  | some start =>
      ((items.drop start).take limit,
        if start + limit < items.length then
          some (runtime.encodeBase64 ("offset:" ++ toString (start + limit)))
        else none)

/-- The search for a text among the listings that pass the filters. -/
def RouteRuntime.searchText (runtime : RouteRuntime Score) (provider : RouteProvider Score)
    (now : ℕ) (params : RouteParams) (query : String) (items : List (Item (List Score)))
    (queryVector : Option (List Score)) : Option (SearchResult Score) :=
  let partialResults :=
    queryVector.isNone || items.any fun item => item.embedding.embedding.isNone
  let lexical := (ranked (runtime.lexicalScores now items (some query))).map Prod.fst
  let dense := (ranked (runtime.denseScores items queryVector)).map Prod.fst
  let (page, cursor) := runtime.pageFrom (runtime.combine items lexical dense)
    (offsetOf (runtime.cursorText params.cursor)) params.limit
  (provider.reranked (some query) page).map fun resources =>
    ⟨resources, partialResults, params.limit, cursor⟩

/-- The search for an array: scoring a listing throws, and without listings the page is empty. -/
def RouteParams.searchItems (params : RouteParams) (items : List (Item (List Score)))
    (queryVector : Option (List Score)) : Option (SearchResult Score) :=
  if items = [] then some ⟨[], queryVector.isNone, params.limit, none⟩ else none

/-- `search`, none for a `TypeError`. -/
def Store.searchRoute (store : Store (List Score)) (config : Config)
    (runtime : RouteRuntime Score) (provider : RouteProvider Score) (now : ℕ)
    (params : RouteParams) : Option (SearchResult Score) :=
  let items := applyRouteFilters (store.publicItems now) params
  let queryVector := if config.embeds then provider.embedParam params.query else none
  match params.query with
  | .text query => runtime.searchText provider now params query items queryVector
  | .repeated _ => params.searchItems items queryVector

end Search

end X402Facilitator.Catalog
