import X402Facilitator.Library.Encodings
import X402Facilitator.Library.InsertionMap
import X402Facilitator.Library.Json
import X402Facilitator.Library.JsText

/-!
# The MCP server

A dispatcher answers one request with at most one frame.  Two transports call it: the
stdio transport with every line, and the HTTP transport with the body of every request
to `/mcp`.  Both run a batch through the dispatcher, member by member.
-/

namespace X402Facilitator

namespace Json

def isFlat : Json → Bool
  | arr _ | obj _ => false
  | _ => true

mutual

/-- What is left of a value once it is printed: an infinite number is printed as null. -/
def printed : Json → Json
  | num value => if (Number.ofText value.chars).isFinite then num value else null
  | arr items => arr (printedItems items)
  | obj members => obj (printedMembers members)
  | null => null
  | bool value => bool value
  | str value => str value

def printedItems : List Json → List Json
  | [] => []
  | item :: items => printed item :: printedItems items

def printedMembers : List (String × Json) → List (String × Json)
  | [] => []
  | (name, value) :: members => (name, printed value) :: printedMembers members

end

mutual

def depth : Json → ℕ
  | arr items => depthItems items + 1
  | obj members => depthMembers members + 1
  | null | bool _ | num _ | str _ => 0

def depthItems : List Json → ℕ
  | [] => 0
  | item :: items => max (depth item) (depthItems items)

def depthMembers : List (String × Json) → ℕ
  | [] => 0
  | (_, value) :: members => max (depth value) (depthMembers members)

end

end Json

namespace Mcp

/-- What there is no stack for: values nested so deep that printing them, or taking their
text, throws a `RangeError`. -/
structure Stack where
  overflowsPrint : Json → Bool
  overflowsText : Json → Bool
  flat : ∀ value, value.isFlat = true →
    overflowsPrint value = false ∧ overflowsText value = false

def Stack.ofLevels (levels : ℕ) : Stack where
  overflowsPrint := fun value => levels < value.depth
  overflowsText := fun value => levels < value.depth
  flat := by
    intro value hflat
    cases value with
    | arr _ | obj _ => cases hflat
    | null | bool _ | num _ | str _ => exact ⟨by simp [Json.depth], by simp [Json.depth]⟩

inductive Body where
  | result (value : Json)
  | error (code : ℤ) (message : String) (data : Option Json)

/-- A response.  Without an id the printed frame has no such member. -/
structure Frame where
  id : Option Json
  body : Body

inductive Message where
  | frame (frame : Frame)
  | batch (frames : List Frame)

def parseError : Frame := ⟨some .null, .error (-32700) "Parse error" none⟩

def invalidRequest (id : Json) : Frame := ⟨some id, .error (-32600) "Invalid Request" none⟩

/-- `_sendResult`: a notification is never answered. -/
def sendResult (id : Option Json) (value : Json) : List Frame :=
  match id with
  | none => []
  | some id => [⟨some id, .result value⟩]

def sendError (id : Option Json) (code : ℤ) (message : String) (data : Option Json) :
    List Frame :=
  match id with
  | none => []
  | some id => [⟨some id, .error code message data⟩]

/-- The details of an error.  Printing them may throw. -/
inductive Payload where
  | absent
  | json (value : Json)
  | unprintable (message : String)

structure Thrown where
  isToolError : Bool
  payload : Payload
  message : String
  /-- `String(err)` -/
  asText : String

/-- `err && err.message ? err.message : String(err)` -/
def Thrown.describe (err : Thrown) : String :=
  if err.message = "" then err.asText else err.message

/-- The text of `err.payload || fallback`, or the message of what printing it throws. -/
def Thrown.print (err : Thrown) (fallback : Json) : Except String String :=
  match err.payload with
  | .absent => .ok fallback.pretty
  | .json value => .ok (value.orFalsy fallback).pretty
  | .unprintable message => .error message

/-- A handler returns a value, or undefined.  A value that cannot be printed counts as
thrown. -/
structure Tool where
  description : Json
  properties : Json
  required : Json
  handler : Json → Except Thrown (Option Json)

/-- The `prompts/*` and `resources/*` methods.  An `McpInputError` is a tool error. -/
structure Semantics where
  listPrompts : Json
  getPrompt : Option Json → Json → Except Thrown Json
  listResources : Json
  listResourceTemplates : Json
  readResource : Option Json → Except Thrown Json

structure McpServer where
  name : String
  version : String
  /-- `logger.warn` is there. -/
  logsWarnings : Bool
  stack : Stack
  tools : InsertionMap String Tool
  promptsEnabled : Bool
  resourcesEnabled : Bool
  maxBatchSize : ℕ
  semantics : Semantics

def supportedProtocolVersions : List String :=
  ["2024-11-05", "2025-03-26", "2025-06-18", "2025-11-25"]

def latestProtocolVersion : String := "2025-11-25"

/-- The revision of the handshake: the requested one, or the newest. -/
def negotiate : Option Json → String
  | some (.str requested) =>
      if requested ∈ supportedProtocolVersions then requested else latestProtocolVersion
  | _ => latestProtocolVersion

def McpServer.capabilities (server : McpServer) : Json :=
  .obj ([("tools", .obj [])] ++
    (if server.promptsEnabled then [("prompts", .obj [])] else []) ++
    (if server.resourcesEnabled then [("resources", .obj [])] else []))

def McpServer.initializeResult (server : McpServer) (params : Option Json) : Json :=
  .obj [("protocolVersion", .str (negotiate (params.bind (Json.property "protocolVersion")))),
    ("serverInfo", .obj [("name", .str server.name), ("version", .str server.version)]),
    ("capabilities", server.capabilities)]

def stackExceeded : String := "Maximum call stack size exceeded"

/-- `initialize`.  A version that is not supported is printed into a warning; those that are
supported are texts, for which there is always stack. -/
def McpServer.onInitialize (server : McpServer) (id params : Option Json) :
    Except String (List Frame) :=
  if server.logsWarnings &&
      (params.bind (Json.property "protocolVersion")).any server.stack.overflowsPrint then
    .error stackExceeded
  else .ok (sendResult id (server.initializeResult params))

def Tool.listing (name : String) (tool : Tool) : Json :=
  .obj [("name", .str name), ("description", tool.description.orFalsy (.str "")),
    ("inputSchema", .obj [("type", .str "object"),
      ("properties", tool.properties.orFalsy (.obj [])),
      ("required", tool.required.orFalsy (.arr []))])]

def McpServer.toolsList (server : McpServer) : Json :=
  .obj [("tools", .arr (server.tools.entries.map fun entry => entry.2.listing entry.1))]

/-- A text result of a tool.  A text that is undefined is not printed. -/
def toolResult (text : Option String) (isError : Bool) : Json :=
  .obj [("content", .arr [.obj (("type", .str "text") ::
      (text.map fun text => ("text", Json.str text)).toList)]),
    ("isError", .bool isError)]

/-- `typeof result === 'string' ? result : JSON.stringify(result, null, 2)` -/
def resultText : Option Json → Option String
  | none => none
  | some (.str text) => some text
  | some value => some value.pretty

def Tool.call (tool : Tool) (id : Option Json) (toolArgs : Json) : Except String (List Frame) :=
  match tool.handler toolArgs with
  | .ok result => .ok (sendResult id (toolResult (resultText result) false))
  | .error err =>
      if err.isToolError then
        (err.print (.str err.message)).map fun text =>
          sendResult id (toolResult (some text) true)
      else .ok (sendError id (-32603) err.describe none)

/-- `this.tools.get(toolName)`: tools are kept under strings. -/
def McpServer.findTool (server : McpServer) : Option Json → Option Tool
  | some (.str name) => server.tools.get name
  | _ => none

def McpServer.validTools (server : McpServer) : Json :=
  .obj [("validTools", .arr (server.tools.keys.map .str))]

def cannotConvert : String := "Cannot convert object to primitive value"

/-- `toolName ?? '(missing name)'` in a template. -/
def McpServer.toolNameText (server : McpServer) : Option Json → Except String String
  | none | some .null => .ok "(missing name)"
  | some name =>
      if server.stack.overflowsText name then .error stackExceeded
      else match name.toText with
        | some text => .ok text
        | none => .error cannotConvert

/-- `req.params?.name` -/
def toolName (params : Option Json) : Option Json := params.bind (Json.property "name")

/-- `req.params?.arguments || {}` -/
def toolArgs (params : Option Json) : Json :=
  ((params.bind (Json.property "arguments")).getD .null).orFalsy (.obj [])

def McpServer.toolsCall (server : McpServer) (id params : Option Json) :
    Except String (List Frame) :=
  match server.findTool (toolName params) with
  | some tool => tool.call id (toolArgs params)
  | none =>
      match server.toolNameText (toolName params) with
      | .error message => .error message
      | .ok text =>
          .ok (sendError id (-32602) ("Unknown tool: " ++ text) (some server.validTools))

def sendSemanticError (id : Option Json) (err : Thrown) : Except String (List Frame) :=
  match id with
  | none => .ok []
  | some _ =>
      if err.isToolError then
        (err.print (.obj [("message", .str err.message)])).map fun text =>
          sendResult id (toolResult (some text) true)
      else .ok (sendError id (-32603) err.describe none)

def answerSemantic (id : Option Json) : Except Thrown Json → Except String (List Frame)
  | .ok result => .ok (sendResult id result)
  | .error err => sendSemanticError id err

/-- What a semantic method comes to; none for a method that is not served. -/
def McpServer.semantic (server : McpServer) (method : String) (params : Option Json) :
    Option (Except Thrown Json) :=
  let args := ((params.bind (Json.property "arguments")).getD .null).orElse (.obj [])
  if "prompts/".isPrefixOf method && !server.promptsEnabled then none
  else if "resources/".isPrefixOf method && !server.resourcesEnabled then none
  else if method = "prompts/list" then some (.ok server.semantics.listPrompts)
  else if method = "prompts/get" then
    some (server.semantics.getPrompt (params.bind (Json.property "name")) args)
  else if method = "resources/list" then some (.ok server.semantics.listResources)
  else if method = "resources/templates/list" then
    some (.ok server.semantics.listResourceTemplates)
  else if method = "resources/read" then
    some (server.semantics.readResource (params.bind (Json.property "uri")))
  else none

/-- `_handleRequest` once the method is known to be a string. -/
def McpServer.dispatch (server : McpServer) (id params : Option Json) (method : String) :
    Except String (List Frame) :=
  if method = "initialize" then server.onInitialize id params
  else if method = "tools/list" then .ok (sendResult id server.toolsList)
  else if method = "tools/call" then server.toolsCall id params
  else if method = "ping" then .ok (sendResult id (.obj []))
  else if method = "notifications/initialized" then .ok []
  else match server.semantic method params with
    | some outcome => answerSemantic id outcome
    | none => .ok (sendError id (-32601) "Method not found" none)

/-- The `TypeError` of `method.startsWith` for a method that is not a string. -/
def startsWithError : Option Json → String
  | none => "Cannot read properties of undefined (reading 'startsWith')"
  | some .null => "Cannot read properties of null (reading 'startsWith')"
  | some _ => "method.startsWith is not a function"

/-- `_handleRequest`: the frames it sends, or the message of what it throws. -/
def McpServer.handleRequest (server : McpServer) (request : Json) : Except String (List Frame) :=
  match request.property "method" with
  | some (.str method) =>
      server.dispatch (request.property "id") (request.property "params") method
  | method => .error (startsWithError method)

/-- An object with a string `method`. -/
def isRequest (request : Json) : Bool :=
  match request.property "method" with
  | some (.str _) => true
  | _ => false

/-- The id of a request that is not valid, or null. -/
def detectedId (request : Json) : Json := (request.property "id").getD .null

def McpServer.batchMember (server : McpServer) (request : Json) : List Frame :=
  if isRequest request then
    match server.handleRequest request with
    | .ok frames => frames
    | .error message =>
        sendError (request.property "id") (-32603) "Internal error" (some (.str message))
  else [invalidRequest (detectedId request)]

/-- What `_processLine` sends for a request alone. -/
def McpServer.sendsAlone (server : McpServer) (request : Json) : List Message :=
  if isRequest request then
    match server.handleRequest request with
    | .ok frames => frames.map .frame
    | .error message => (sendError (request.property "id") (-32603) "Internal error"
        (some (.str message))).map .frame
  else [.frame (invalidRequest (detectedId request))]

/-- `processBatch`: one frame for a batch that is refused, else the answers. -/
def McpServer.processBatch (server : McpServer) (requests : List Json) : Message :=
  if requests.length = 0 then
    .frame ⟨some .null, .error (-32600) "Invalid Request: batch must not be empty" none⟩
  else if server.maxBatchSize < requests.length then
    .frame ⟨some .null, .error (-32600) ("Invalid Request: batch of " ++
      toString requests.length ++ " exceeds the maximum of " ++
      toString server.maxBatchSize ++ " requests") none⟩
  else .batch (requests.flatMap server.batchMember)

/-- `JSON.stringify(frame)`, none when there is no stack for the id. -/
def Frame.print (stack : Stack) (frame : Frame) : Option Frame :=
  if frame.id.any stack.overflowsPrint then none
  else some { frame with id := frame.id.map Json.printed }

def Message.print (stack : Stack) : Message → Option Message
  | .frame answer => (answer.print stack).map .frame
  | .batch answers => (answers.mapM (Frame.print stack)).map .batch

section Transports

variable (parse : Text → Option Json)

/-- What `_processLine` sends, after the check for a blank line. -/
def McpServer.sendsOnLine (server : McpServer) (line : Text) : List Message :=
  if Text.trim line = [] then []
  else match parse line with
    | none => [.frame parseError]
    | some (.arr requests) =>
        match server.processBatch requests with
        | .frame answer => [.frame answer]
        | .batch [] => []
        | .batch frames => [.batch frames]
    | some request => server.sendsAlone request

/-- `_processLine`: what is written to stdout.  What cannot be printed is logged: the frame
that would report it bears the same id. -/
def McpServer.processLine (server : McpServer) (line : Text) : List Message :=
  (server.sendsOnLine parse line).filterMap (Message.print server.stack)

structure Response where
  status : ℕ
  messages : List Message

/-- What the handler of `POST /mcp` sends, or none when it rejects.  It reads `id` of whatever
the body is, and does not check that a request has a method. -/
def McpServer.sendsOnPost (server : McpServer) (body : Text) : Option Response :=
  match parse body with
  | none => some ⟨200, [.frame parseError]⟩
  | some (.arr requests) =>
      match server.processBatch requests with
      | .batch [] => some ⟨204, []⟩
      | answer => some ⟨200, [answer]⟩
  | some .null => none
  | some request =>
      match server.handleRequest request with
      | .ok frames => some ⟨200, frames.map .frame⟩
      | .error message =>
          some ⟨200, [.frame ⟨request.property "id", .error (-32603) message none⟩]⟩

/-- The handler of `POST /mcp`, or none when it rejects.  A body comes in chunks of bytes, each
of which is decoded alone: `body += chunk`. -/
def McpServer.handlePost (server : McpServer) (chunks : List (List ℕ)) : Option Response := do
  let response ← server.sendsOnPost parse (chunks.flatMap Utf8.toText)
  let messages ← response.messages.mapM (Message.print server.stack)
  return { response with messages := messages }

end Transports

end Mcp

end X402Facilitator
