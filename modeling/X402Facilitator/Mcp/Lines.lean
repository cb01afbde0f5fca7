import X402Facilitator.Library.Execution
import X402Facilitator.Mcp.Transports

/-!
# Lines over stdio

Lines are taken one at a time.  The members of a batch are dispatched together and settle in
any order; what a member sends is collected in a sink of its own, and the sinks are printed
together.
-/

namespace X402Facilitator.Mcp

/-- What is called for a request comes to: the handler of the tool, and `getPrompt` or
`readResource`. -/
structure Called where
  handler : Except Thrown (Option Json)
  semantic : Except Thrown Json

/-- The server on a request for which what it calls comes to this. -/
def McpServer.comingTo (server : McpServer) (called : Called) : McpServer :=
  { server with
    tools :=
      { entries := server.tools.entries.map fun entry =>
          (entry.1, { entry.2 with handler := fun _ => called.handler })
        keysNodup := by
          rw [List.map_map]
          exact server.tools.keysNodup }
    semantics := { server.semantics with
      getPrompt := fun _ _ => called.semantic
      readResource := fun _ => called.semantic } }

/-- What is written for a request that is sent alone. -/
def McpServer.alone (server : McpServer) (request : Json) (called : Called) : List Message :=
  ((server.comingTo called).sendsAlone request).filterMap (Message.print server.stack)

/-- A member of a batch, and what it has called once that has come to an end. -/
structure Member where
  request : Json
  called : Option Called

/-- What the sink of a member holds: `r.status === 'fulfilled' ? r.value : []`. -/
def McpServer.sink (server : McpServer) (member : Member) : List Frame :=
  match member.called with
  | none => []
  | some called => (server.comingTo called).batchMember member.request

inductive Line where
  | refused (answer : Frame)
  | request (request : Json)
  | batch (requests : List Json)

/-- The checks of `_processLine` and `processBatch`. -/
def McpServer.lineOf (server : McpServer) (parse : Text → Option Json) (text : Text) : Line :=
  match parse text with
  | none => .refused parseError
  | some (.arr requests) =>
      match server.processBatch requests with
      | .frame answer => .refused answer
      | .batch _ => .batch requests
  | some request =>
      if isRequest request then .request request
      else .refused (invalidRequest (detectedId request))

inductive Work where
  | request (text : Text) (request : Json)
  | batch (text : Text) (members : List Member)

def Work.text : Work → Text
  | .request text _ | .batch text _ => text

/-- A line that has been handled: what was called for it, whether stdout was open, and what
has been written. -/
structure Handled where
  text : Text
  called : List Called
  isOpen : Bool
  written : List Message

/-- `lines` is all that has come in. -/
structure Stdio where
  isOpen : Bool
  lines : List Text
  waiting : List Text
  inHand : Option Work
  handled : List Handled
  stdout : List Message

/-- `settle` is the end of what a request or a member of a batch calls; `close` the end of
the input, or of the client. -/
inductive Action where
  | line (text : Text)
  | take
  | settle (index : ℕ) (called : Called)
  | reply
  | close

namespace Stdio

def init : Stdio := ⟨true, [], [], none, [], []⟩

def unhandled (s : Stdio) : List Text := (s.inHand.map Work.text).toList ++ s.waiting

/-- A line has been handled.  `_write` drops what comes when the server is not open. -/
def conclude (s : Stdio) (text : Text) (called : List Called) (messages : List Message) : Stdio :=
  let written := if s.isOpen then messages else []
  { s with
    inHand := none
    handled := s.handled ++ [⟨text, called, s.isOpen, written⟩]
    stdout := s.stdout ++ written }

def step (server : McpServer) (parse : Text → Option Json) (s : Stdio) : Action → Option Stdio
  | .line text =>
      if !s.isOpen then none
      else if Text.trim text = [] then some s
      else some { s with lines := s.lines ++ [text], waiting := s.waiting ++ [text] }
  | .take =>
      match s.inHand, s.waiting with
      | none, text :: waiting =>
          match server.lineOf parse text with
          | .refused answer =>
              some ({ s with waiting := waiting }.conclude text []
                ([Message.frame answer].filterMap (Message.print server.stack)))
          | .request request =>
              some { s with waiting := waiting, inHand := some (.request text request) }
          | .batch requests =>
              some { s with
                waiting := waiting
                inHand := some (.batch text (requests.map fun request => ⟨request, none⟩)) }
      | _, _ => none
  | .settle index called =>
      match s.inHand with
      | some (.request text request) =>
          if index = 0 then some (s.conclude text [called] (server.alone request called)) else none
      | some (.batch text members) =>
          match members[index]? with
          | some ⟨request, none⟩ =>
              some { s with
                inHand := some (.batch text (members.set index ⟨request, some called⟩)) }
          | _ => none
      | none => none
  | .reply =>
      match s.inHand with
      | some (.batch text members) =>
          if members.any fun member => member.called.isNone then none
          else some (s.conclude text (members.filterMap Member.called)
            ((batchMessages (members.flatMap server.sink)).filterMap (Message.print server.stack)))
      | _ => none
  | .close => some { s with isOpen := false }

end Stdio

end X402Facilitator.Mcp
