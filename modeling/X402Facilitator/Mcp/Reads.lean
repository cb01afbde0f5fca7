import X402Facilitator.Catalog.DiscoveryCache
import X402Facilitator.Mcp.Sanitize

/-!
# Reads of the catalog over MCP

A resource is named by an address, a tool call by its arguments.  Both are made into a
request to the facilitator's routes.  The reader looks for its listings under `resources`;
the route answers them under `items`.
-/

namespace X402Facilitator.Mcp

open Catalog (Query Reply Item Store Runtime Printing)

/-- What the platform and the facilitator are to the reader: none for a request that is not
answered. -/
structure Platform where
  parseUrl : String → Option Url
  decodeUriComponent : String → Option String
  fetch : String → Query → Except Thrown Reply

/-- `new Error(message)` -/
def plainError (message : String) : Thrown := ⟨false, .absent, message, "Error: " ++ message⟩

/-- The parameters that one argument is made into, none for a `TypeError`. -/
def searchParams (name : String) : Option Json → Option Query
  | none | some .null => some []
  | some (.arr values) => values.mapM fun value => value.toText.map fun text => (name, text)
  | some value => value.toText.map fun text => [(name, text)]

def failureText (reply : Reply) : String :=
  match (reply.body.property "invalidReason").filter Json.truthy with
  | none => "HTTP " ++ toString reply.status
  | some reason => (reason.toText).getD ("HTTP " ++ toString reply.status)

def fetchDiscovery (platform : Platform) (path : String) (params : List (String × Option Json)) :
    Except Thrown Json := do
  match params.mapM fun param => searchParams param.1 param.2 with
  | none => .error (plainError cannotConvert)
  | some queries =>
      let reply ← platform.fetch path queries.flatten
      if 200 ≤ reply.status && reply.status < 300 then .ok reply.body
      else .error (plainError ("Facilitator request failed: " ++ failureText reply))

def resourceScheme : String := "x402:"

def allResourceUris : List String :=
  [resourceScheme ++ "//catalog/resources", resourceScheme ++ "//catalog/search?q={query}",
    resourceScheme ++ "//catalog/resource?url={url}",
    resourceScheme ++ "//catalog/network/{network}"]

structure ResourceUri where
  path : String
  params : List (String × String)

def parseResourceUri (platform : Platform) (uri : Option Json) : Except Thrown ResourceUri := do
  let raw ← assertSafeText uri { field := "uri", required := true, maxLength := 2048 }
  match platform.parseUrl raw with
  | none =>
      .error (mcpInputError "Resource uri must be a valid x402:// URI" [("field", .str "uri")])
  | some parsed =>
      if parsed.protocol ≠ resourceScheme then
        .error (mcpInputError ("Resource uri must use the " ++ resourceScheme ++ " scheme")
          [("field", .str "uri")])
      else .ok ⟨parsed.hostname ++ parsed.pathname, parsed.searchParams⟩

def ResourceUri.get (parsed : ResourceUri) (name : String) : Option Json :=
  (parsed.params.lookup name).map .str

def notFound : Json :=
  .obj [("error", .str "not_found"), ("message", .str "No catalog resource matches that url.")]

/-- `data.resources` where it is an array. -/
def listedResources (data : Json) : List Json :=
  match data.property "resources" with
  | some (.arr items) => items
  | _ => []

def summaryItem (item : Json) : Json :=
  .obj (["url", "serviceName", "type", "payTo"].filterMap fun name =>
    (item.property name).map (name, ·))

def networkSummary (network : String) (items : List Json) : Json :=
  .obj [("network", .str network), ("count", .ofNat items.length),
    ("resources", .arr (items.map summaryItem))]

def isSmallNumber (text : String) : Bool :=
  1 ≤ text.length && text.length ≤ 3 && text.toList.all Char.isDigit

/-- `catalog/search` -/
def readSearch (platform : Platform) (parsed : ResourceUri) : Except Thrown Json := do
  let query ← assertSafeText (parsed.get "q") { field := "q", required := true, maxLength := 256 }
  let limit ← assertSafeText (parsed.get "limit")
    { field := "limit", maxLength := 4, pattern := some isSmallNumber
      patternHint := "expected a number between 1 and 100" }
  fetchDiscovery platform "/discovery/search" [("query", some (.str query)),
    ("limit", if limit = "" then none else some (.ofNat (numeralValue 10 limit.toList)))]

/-- `catalog/resource` -/
def readListing (platform : Platform) (parsed : ResourceUri) : Except Thrown Json := do
  let target ← assertHttpUrl platform.parseUrl (parsed.get "url") "url"
  let toolName ← assertSafeText (parsed.get "toolName") { field := "toolName", maxLength := 128 }
  let data ← fetchDiscovery platform "/discovery/resources" [("url", some (.str target.href)),
    ("toolName", if toolName = "" then none else some (.str toolName))]
  match listedResources data with
  | [] => .ok notFound
  | listing :: _ => .ok listing

/-- `catalog/network/` and what follows it. -/
def readNetwork (platform : Platform) (encoded : String) : Except Thrown Json := do
  match platform.decodeUriComponent encoded with
  | none => .error (plainError "URI malformed")
  | some decoded => do
      let network ← assertNetwork decoded
      let data ← fetchDiscovery platform "/discovery/resources" [("network", some (.str network))]
      return networkSummary network (listedResources data)

def networkPrefix : String := "catalog/network/"

/-- What `readResource` serialises. -/
def readData (platform : Platform) (uri : Option Json) : Except Thrown Json := do
  let parsed ← parseResourceUri platform uri
  if parsed.path = "catalog/resources" then fetchDiscovery platform "/discovery/resources" []
  else if parsed.path = "catalog/search" then readSearch platform parsed
  else if parsed.path = "catalog/resource" then readListing platform parsed
  else if networkPrefix.toList.isPrefixOf parsed.path.toList &&
      networkPrefix.length < parsed.path.length then
    readNetwork platform (String.ofList (parsed.path.toList.drop networkPrefix.length))
  else .error (mcpInputError ("Unknown resource uri: " ++ ((uri.bind Json.toText).getD ""))
    [("uri", uri.getD .null), ("knownResources", .arr (allResourceUris.map .str))])

def readResource (platform : Platform) (uri : Option Json) : Except Thrown Json :=
  (readData platform uri).map fun data =>
    .obj [("contents", .arr [.obj [("uri", uri.getD .null), ("mimeType", .str "application/json"),
      ("text", .str (scrub data).pretty)]])]

/-- The handler of `get_resource`. -/
def getResource (platform : Platform) (args : Json) : Except Thrown (Option Json) := do
  let res ← fetchDiscovery platform "/discovery/resources"
    [("url", args.property "url"), ("toolName", args.property "toolName")]
  match res.property "resources" with
  | some (.arr (listing :: _)) => .ok (some listing)
  | _ => .error (plainError "Resource not found in catalog.")

end X402Facilitator.Mcp
