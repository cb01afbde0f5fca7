import X402Facilitator.Mcp.Server

/-!
# One text over both transports

The two transports agree on a text that is not blank and holds no JSON, a batch, or a
request that the dispatcher does not throw on.
-/

namespace X402Facilitator.Mcp

section Statement

def isNotification (request : Json) : Prop :=
  isRequest request = true ∧ request.property "id" = none

/-- The frames that a request is to be answered with. -/
structure Answers (request : Json) (frames : List Frame) : Prop where
  invalid : isRequest request = false → frames = [invalidRequest (detectedId request).printed]
  notification : isNotification request → frames = []
  ids : ∀ frame ∈ frames, frame.id = some (detectedId request).printed

def batchMessages (frames : List Frame) : List Message :=
  if frames.isEmpty then [] else [.batch frames]

variable (parse : Text → Option Json) (server : McpServer) (text : Text)

/-- The client of `/mcp` gets what is written to stdout for the same line, and the
line is answered as it should be. -/
structure Agrees (chunks : List (List ℕ)) : Prop where
  same : ∃ status, server.handlePost parse chunks =
    some ⟨status, server.processLine parse text⟩
  notJson : parse text = none → server.processLine parse text = [.frame parseError]
  single : ∀ request, parse text = some request → (∀ requests, request ≠ .arr requests) →
    ∃ frames, Answers request frames ∧ server.processLine parse text = frames.map .frame
  refused : ∀ requests, parse text = some (.arr requests) →
    requests.length = 0 ∨ server.maxBatchSize < requests.length →
    ∃ message, server.processLine parse text =
      [.frame ⟨some .null, .error (-32600) message none⟩]
  batch : ∀ requests, parse text = some (.arr requests) → 0 < requests.length →
    requests.length ≤ server.maxBatchSize →
    ∃ answers, List.Forall₂ Answers requests answers ∧
      server.processLine parse text = batchMessages answers.flatten

/-- The details of a failure that cannot be printed. -/
def Unprintable (err : Thrown) : Prop :=
  err.isToolError = true ∧ ∃ message, err.payload = .unprintable message

/-- The version that is asked for cannot be printed into a warning. -/
def WarningThrows (params : Option Json) : Prop :=
  server.logsWarnings = true ∧ ∃ version,
    params.bind (Json.property "protocolVersion") = some version ∧
      server.stack.overflowsPrint version = true

/-- The name of an unknown tool cannot be converted to a text. -/
def NameThrows (name : Option Json) : Prop :=
  ∃ value, name = some value ∧ value ≠ .null ∧
    (server.stack.overflowsText value = true ∨ value.toText = none)

/-- A version that cannot be printed, a call of an unknown tool whose name is no text, or a
failure with details that cannot be printed. -/
def DispatchThrows (id params method : Option Json) : Prop :=
  (method = some (.str "initialize") ∧ WarningThrows server params) ∨
  (method = some (.str "tools/call") ∧
    ((server.findTool (toolName params) = none ∧ NameThrows server (toolName params)) ∨
      ∃ tool err, server.findTool (toolName params) = some tool ∧
        tool.handler (toolArgs params) = .error err ∧ Unprintable err)) ∨
  (id.isSome = true ∧ ∃ name err, method = some (.str name) ∧
    server.semantic name params = some (.error err) ∧ Unprintable err)

def Due (request : Json) : Prop :=
  isRequest request = false ∨ (request.property "id").isSome = true ∧
    request.property "method" ≠ some (.str "notifications/initialized")

/-- The frame that is sent for a request can be printed. -/
def Printable (request : Json) : Prop :=
  Due request → server.stack.overflowsPrint (detectedId request) = false

def Answerable : Prop :=
  Text.trim text ≠ [] ∧ ∀ request, parse text = some request →
    (∃ requests, request = .arr requests ∧
      (0 < requests.length → requests.length ≤ server.maxBatchSize →
        ∀ member ∈ requests, Printable server member)) ∨
      (isRequest request = true ∧ Printable server request ∧
        ¬ DispatchThrows server (request.property "id") (request.property "params")
          (request.property "method"))

def Whole (chunks : List (List ℕ)) : Prop :=
  ∀ chunk ∈ chunks, ∃ piece, chunk = Utf8.encode piece

end Statement

variable {parse : Text → Option Json} {server : McpServer} {text : Text}
  {request : Json} {id params : Option Json}

def SendsOne (id : Option Json) (outcome : Except String (List Frame)) : Prop :=
  ∀ frames, outcome = .ok frames →
    frames = [] ∧ id = none ∨ ∃ body, frames = [⟨id, body⟩] ∧ id.isSome = true

theorem sendsOne_sendResult (value : Json) : SendsOne id (.ok (sendResult id value)) := by
  intro frames hframes
  cases hframes
  cases id with
  | none => exact .inl ⟨rfl, rfl⟩
  | some id => exact .inr ⟨_, rfl, rfl⟩

theorem sendsOne_sendError (code : ℤ) (message : String) (data : Option Json) :
    SendsOne id (.ok (sendError id code message data)) := by
  intro frames hframes
  cases hframes
  cases id with
  | none => exact .inl ⟨rfl, rfl⟩
  | some id => exact .inr ⟨_, rfl, rfl⟩

theorem sendsOne_error (message : String) : SendsOne id (.error message) := by
  intro frames hframes
  cases hframes

theorem sendsOne_map (printed : Except String String) (result : String → Json) :
    SendsOne id (printed.map fun text => sendResult id (result text)) := by
  cases printed with
  | error message => exact sendsOne_error message
  | ok text => exact sendsOne_sendResult _

theorem sendsOne_toolsCall : SendsOne id (server.toolsCall id params) := by
  rw [McpServer.toolsCall]
  cases server.findTool (toolName params) with
  | some tool =>
      simp only [Tool.call]
      split
      · exact sendsOne_sendResult _
      · split
        · exact sendsOne_map _ _
        · exact sendsOne_sendError _ _ _
  | none =>
      simp only
      split
      · exact sendsOne_error _
      · exact sendsOne_sendError _ _ _

theorem sendsOne_answerSemantic (outcome : Except Thrown Json) :
    SendsOne id (answerSemantic id outcome) := by
  cases outcome with
  | ok result => exact sendsOne_sendResult result
  | error err =>
      rw [answerSemantic, sendSemanticError.eq_def]
      split
      · intro frames hframes
        cases hframes
        exact .inl ⟨rfl, rfl⟩
      · split
        · exact sendsOne_map _ _
        · exact sendsOne_sendError _ _ _

variable {method : String} {status : ℕ}

theorem sendsOne_dispatch (hinitialized : method ≠ "notifications/initialized") :
    SendsOne id (server.dispatch id params method) := by
  rw [McpServer.dispatch]
  split_ifs
  · rw [McpServer.onInitialize]
    split_ifs
    · exact sendsOne_error _
    · exact sendsOne_sendResult _
  · exact sendsOne_sendResult _
  · exact sendsOne_toolsCall
  · exact sendsOne_sendResult _
  · split
    · exact sendsOne_answerSemantic _
    · exact sendsOne_sendError _ _ _

theorem exists_method_of_isRequest (hrequest : isRequest request = true) :
    ∃ method, request.property "method" = some (.str method) := by
  rw [isRequest] at hrequest
  split at hrequest
  · next method hmethod => exact ⟨method, hmethod⟩
  · cases hrequest

theorem handleRequest_of_method (hmethod : request.property "method" = some (.str method)) :
    server.handleRequest request =
      server.dispatch (request.property "id") (request.property "params") method := by
  rw [McpServer.handleRequest, hmethod]

theorem handleRequest_of_not_isRequest (hrequest : isRequest request = false) :
    server.handleRequest request = .error (startsWithError (request.property "method")) := by
  rw [McpServer.handleRequest]
  split
  · next method hmethod =>
      rw [isRequest, hmethod] at hrequest
      cases hrequest
  · rfl

/-- A request gets one frame under its id when one is due, and else none, also when the
dispatcher throws on it. -/
theorem batchMember_cases (server : McpServer) (request : Json) :
    Due request ∧ (∃ body, server.batchMember request = [⟨some (detectedId request), body⟩]) ∨
      ¬ Due request ∧ server.batchMember request = [] := by
  rw [McpServer.batchMember]
  cases hrequest : isRequest request with
  | false => exact .inl ⟨.inl hrequest, _, rfl⟩
  | true =>
      simp only [if_true]
      by_cases hinitialized : request.property "method" = some (.str "notifications/initialized")
      · have hsent : server.handleRequest request = .ok [] := by
          rw [handleRequest_of_method hinitialized]
          simp [McpServer.dispatch]
        refine .inr ⟨?_, by rw [hsent]⟩
        rintro (hinvalid | hdue)
        · cases hinvalid.symm.trans hrequest
        · exact hdue.2 hinitialized
      have hsends : SendsOne (request.property "id") (server.handleRequest request) := by
        obtain ⟨method, hmethod⟩ := exists_method_of_isRequest hrequest
        rw [handleRequest_of_method hmethod]
        refine sendsOne_dispatch ?_
        rintro rfl
        exact hinitialized hmethod
      cases hid : request.property "id" with
      | none =>
          refine .inr ⟨?_, ?_⟩
          · rintro (hinvalid | hdue)
            · cases hinvalid.symm.trans hrequest
            · rw [hid] at hdue
              cases hdue.1
          · cases hsent : server.handleRequest request with
            | error message => rfl
            | ok frames =>
                rcases hsends frames hsent with ⟨rfl, -⟩ | ⟨_, -, hsome⟩
                · rfl
                · rw [hid] at hsome
                  cases hsome
      | some id =>
          have hdetected : detectedId request = id := by rw [detectedId, hid]; rfl
          refine .inl ⟨.inr ⟨by rw [hid]; rfl, hinitialized⟩, ?_⟩
          rw [hdetected]
          cases hsent : server.handleRequest request with
          | error message => exact ⟨_, rfl⟩
          | ok frames =>
              rw [hid] at hsends
              rcases hsends frames hsent with ⟨-, hnone⟩ | ⟨body, rfl, -⟩
              · cases hnone
              · exact ⟨body, rfl⟩

theorem not_due (hnotification : isNotification request) : ¬ Due request := by
  rintro (hinvalid | hdue)
  · cases hinvalid.symm.trans hnotification.1
  · rw [hnotification.2] at hdue
    cases hdue.1

def Frame.echo (frame : Frame) : Frame := { frame with id := frame.id.map Json.printed }

theorem print_null (stack : Stack) (body : Body) :
    Frame.print stack ⟨some .null, body⟩ = some ⟨some .null, body⟩ := by
  rw [Frame.print, Option.any_some, (stack.flat .null rfl).1]
  rfl

theorem body_of_print {stack : Stack} {frame printed : Frame}
    (hprinted : frame.print stack = some printed) : printed.body = frame.body := by
  rw [Frame.print] at hprinted
  obtain ⟨-, hsame⟩ := Option.ite_none_left_eq_some.mp hprinted
  cases hsame
  rfl

/-- The frames of a request can be printed when the one that is due can. -/
theorem mapM_print_cases (server : McpServer) (request : Json) :
    (server.batchMember request).mapM (Frame.print server.stack) =
        some ((server.batchMember request).map Frame.echo) ∧ Printable server request ∨
      (server.batchMember request).mapM (Frame.print server.stack) = none ∧
        ¬ Printable server request := by
  rcases batchMember_cases server request with ⟨hdue, body, hsent⟩ | ⟨hdue, hsent⟩
  · rw [hsent]
    cases hstack : server.stack.overflowsPrint (detectedId request) with
    | false =>
        refine .inl ⟨?_, fun _ => hstack⟩
        simp [Frame.print, hstack, Frame.echo]
    | true =>
        refine .inr ⟨?_, fun hprintable => ?_⟩
        · simp [Frame.print, hstack]
        · cases hstack.symm.trans (hprintable hdue)
  · rw [hsent]
    exact .inl ⟨rfl, fun hdue' => absurd hdue' hdue⟩

/-- Every member of a batch is answered as it should be. -/
theorem answers_batchMember (server : McpServer) (request : Json) :
    Answers request ((server.batchMember request).map Frame.echo) where
  invalid := by
    intro hinvalid
    rw [McpServer.batchMember, hinvalid]
    rfl
  notification := by
    intro hnotification
    rcases batchMember_cases server request with ⟨hdue, -⟩ | ⟨-, hsent⟩
    · exact absurd hdue (not_due hnotification)
    · rw [hsent]
      rfl
  ids := by
    intro frame hframe
    obtain ⟨sent, hmem, rfl⟩ := List.mem_map.mp hframe
    rcases batchMember_cases server request with ⟨-, body, hsent⟩ | ⟨-, hsent⟩
    · rw [hsent] at hmem
      obtain rfl := List.mem_singleton.mp hmem
      rfl
    · rw [hsent] at hmem
      cases hmem

theorem print_eq_error_iff {err : Thrown} {fallback : Json} {result : String → Json} :
    (∃ message, (err.print fallback).map (fun text => sendResult id (result text)) =
      .error message) ↔ ∃ message, err.payload = .unprintable message := by
  rw [Thrown.print]
  cases err.payload <;> simp [Except.map]

theorem call_throws_iff (tool : Tool) (args : Json) :
    (∃ message, tool.call id args = .error message) ↔
      ∃ err, tool.handler args = .error err ∧ Unprintable err := by
  rw [Tool.call]
  cases tool.handler args with
  | ok result => simp
  | error err =>
      cases htool : err.isToolError with
      | false => simp [Unprintable, htool]
      | true =>
          simp only [if_true, print_eq_error_iff, Except.error.injEq, exists_eq_left',
            Unprintable, htool, true_and]

theorem toolNameText_throws_iff (name : Option Json) :
    (∃ message, server.toolNameText name = .error message) ↔ NameThrows server name := by
  rw [McpServer.toolNameText.eq_def, NameThrows]
  cases name with
  | none => simp
  | some value =>
      cases value with
      | null => simp
      | bool _ | num _ | str _ | arr _ | obj _ =>
          simp only [Option.some.injEq, exists_eq_left', ne_eq, reduceCtorEq, not_false_eq_true,
            true_and]
          split_ifs with hstack
          · simp [hstack]
          · split <;> simp_all

theorem initialize_throws_iff :
    (∃ message, server.onInitialize id params = .error message) ↔ WarningThrows server params := by
  rw [McpServer.onInitialize, WarningThrows]
  split_ifs with hwarning
  · rw [Bool.and_eq_true, Option.any_eq_true] at hwarning
    exact iff_of_true ⟨_, rfl⟩ hwarning
  · rw [Bool.and_eq_true, Option.any_eq_true] at hwarning
    exact iff_of_false (by simp) hwarning

theorem toolsCall_throws_iff :
    (∃ message, server.toolsCall id params = .error message) ↔
      (server.findTool (toolName params) = none ∧ NameThrows server (toolName params)) ∨
      ∃ tool err, server.findTool (toolName params) = some tool ∧
        tool.handler (toolArgs params) = .error err ∧ Unprintable err := by
  rw [McpServer.toolsCall]
  cases hfind : server.findTool (toolName params) with
  | some tool => simp [call_throws_iff]
  | none =>
      simp only [reduceCtorEq, false_and, exists_false, or_false, true_and]
      rw [← toolNameText_throws_iff]
      cases server.toolNameText (toolName params) <;> simp

theorem answerSemantic_throws_iff (outcome : Except Thrown Json) :
    (∃ message, answerSemantic id outcome = .error message) ↔
      id.isSome = true ∧ ∃ err, outcome = .error err ∧ Unprintable err := by
  cases outcome with
  | ok result => simp [answerSemantic]
  | error err =>
      rw [answerSemantic, sendSemanticError.eq_def]
      cases id with
      | none => simp
      | some id =>
          cases htool : err.isToolError with
          | false => simp [Unprintable, htool]
          | true =>
              simp only [if_true, print_eq_error_iff, Except.error.injEq, exists_eq_left',
                Unprintable, htool, true_and, Option.isSome_some]

/-- The methods that are dispatched before the semantic ones are none of them. -/
theorem semantic_eq_none (hmethod : method ∈
    ["initialize", "tools/list", "tools/call", "ping", "notifications/initialized"]) :
    server.semantic method params = none := by
  simp only [List.mem_cons, List.not_mem_nil, or_false] at hmethod
  rcases hmethod with rfl | rfl | rfl | rfl | rfl <;> simp [McpServer.semantic]

theorem dispatch_throws_iff (method : String) :
    (∃ message, server.dispatch id params method = .error message) ↔
      DispatchThrows server id params (some (.str method)) := by
  have hsemantic : (∃ name err, some (Json.str method) = some (.str name) ∧
      server.semantic name params = some (.error err) ∧ Unprintable err) ↔
      ∃ err, server.semantic method params = some (.error err) ∧ Unprintable err := by
    constructor
    · rintro ⟨name, err, hname, hrest⟩
      cases hname
      exact ⟨err, hrest⟩
    · rintro ⟨err, hrest⟩
      exact ⟨method, err, rfl, hrest⟩
  rw [DispatchThrows, hsemantic, McpServer.dispatch]
  by_cases hinit : method = "initialize"
  · simp [hinit, semantic_eq_none, initialize_throws_iff]
  by_cases hlist : method = "tools/list"
  · simp [hlist, semantic_eq_none]
  by_cases hcall : method = "tools/call"
  · simp [hcall, semantic_eq_none, toolsCall_throws_iff]
  by_cases hping : method = "ping"
  · simp [hping, semantic_eq_none]
  by_cases hinitialized : method = "notifications/initialized"
  · simp [hinitialized, semantic_eq_none]
  · rw [if_neg hinit, if_neg hlist, if_neg hcall, if_neg hping, if_neg hinitialized]
    cases server.semantic method params with
    | none => simp [hinit, hcall]
    | some outcome => simp [hinit, hcall, answerSemantic_throws_iff]

theorem handleRequest_throws_iff (hrequest : isRequest request = true) :
    (∃ message, server.handleRequest request = .error message) ↔
      DispatchThrows server (request.property "id") (request.property "params")
        (request.property "method") := by
  obtain ⟨method, hmethod⟩ := exists_method_of_isRequest hrequest
  rw [handleRequest_of_method hmethod, hmethod]
  exact dispatch_throws_iff method

theorem processBatch_refused {requests : List Json}
    (hlength : requests.length = 0 ∨ server.maxBatchSize < requests.length) :
    ∃ message, server.processBatch requests =
      .frame ⟨some .null, .error (-32600) message none⟩ := by
  rw [McpServer.processBatch]
  split
  · exact ⟨_, rfl⟩
  · next hpos =>
      rw [if_pos (hlength.resolve_left hpos)]
      exact ⟨_, rfl⟩

theorem processBatch_accepted {requests : List Json} (hpos : 0 < requests.length)
    (hmax : requests.length ≤ server.maxBatchSize) :
    server.processBatch requests = .batch (requests.flatMap server.batchMember) := by
  rw [McpServer.processBatch, if_neg (Nat.pos_iff_ne_zero.mp hpos), if_neg (Nat.not_lt.mpr hmax)]

theorem sendsOnLine_batch {requests : List Json} (hblank : Text.trim text ≠ [])
    (hparse : parse text = some (.arr requests)) :
    server.sendsOnLine parse text = match server.processBatch requests with
      | .frame answer => [.frame answer]
      | .batch frames => batchMessages frames := by
  rw [McpServer.sendsOnLine, if_neg hblank, hparse]
  simp only
  cases server.processBatch requests with
  | frame answer => rfl
  | batch frames => cases frames <;> rfl

/-- Both transports send the same for a batch. -/
theorem sendsOnPost_batch (server : McpServer) {requests : List Json}
    (hblank : Text.trim text ≠ []) (hparse : parse text = some (.arr requests)) :
    ∃ status, server.sendsOnPost parse text =
      some ⟨status, server.sendsOnLine parse text⟩ := by
  rw [sendsOnLine_batch hblank hparse, McpServer.sendsOnPost, hparse]
  simp only
  cases hbatch : server.processBatch requests with
  | frame answer => exact ⟨200, rfl⟩
  | batch frames =>
      cases frames with
      | nil => exact ⟨204, rfl⟩
      | cons frame frames => exact ⟨200, rfl⟩

/-- A request alone is sent what it is sent in a batch. -/
theorem sendsAlone_eq (server : McpServer) (request : Json) :
    server.sendsAlone request = (server.batchMember request).map .frame := by
  rw [McpServer.sendsAlone, McpServer.batchMember]
  split
  · cases server.handleRequest request <;> rfl
  · rfl

theorem sendsOnLine_single (hblank : Text.trim text ≠ []) (hparse : parse text = some request)
    (hsingle : ∀ requests, request ≠ .arr requests) :
    server.sendsOnLine parse text = (server.batchMember request).map .frame := by
  rw [McpServer.sendsOnLine, if_neg hblank, hparse]
  cases request with
  | arr requests => exact absurd rfl (hsingle requests)
  | null | bool _ | num _ | str _ | obj _ => exact sendsAlone_eq _ _

theorem sendsOnPost_single (server : McpServer) (hparse : parse text = some request)
    (hnull : request ≠ .null) (hsingle : ∀ requests, request ≠ .arr requests) :
    server.sendsOnPost parse text =
      match server.handleRequest request with
      | .ok frames => some ⟨200, frames.map .frame⟩
      | .error message =>
          some ⟨200, [.frame ⟨request.property "id", .error (-32603) message none⟩]⟩ := by
  rw [McpServer.sendsOnPost, hparse]
  cases request with
  | null => exact absurd rfl hnull
  | arr requests => exact absurd rfl (hsingle requests)
  | _ => rfl

theorem ne_null_of_isRequest (hrequest : isRequest request = true) : request ≠ .null := by
  rintro rfl
  cases hrequest

section Printing

variable {stack : Stack} {messages printed : List Message}

theorem mapM_cons_eq_some {message : Message} :
    (message :: messages).mapM (Message.print stack) = some printed ↔
      ∃ first rest, message.print stack = some first ∧
        messages.mapM (Message.print stack) = some rest ∧ printed = first :: rest := by
  simp only [List.mapM_cons, Option.bind_eq_bind, Option.bind_eq_some_iff, Option.pure_def,
    Option.some.injEq]
  constructor
  · rintro ⟨first, hfirst, rest, hrest, rfl⟩
    exact ⟨first, rest, hfirst, hrest, rfl⟩
  · rintro ⟨first, rest, hfirst, hrest, rfl⟩
    exact ⟨first, hfirst, rest, hrest, rfl⟩

/-- What is printed in one go is what is printed message by message. -/
theorem filterMap_of_mapM (hprinted : messages.mapM (Message.print stack) = some printed) :
    messages.filterMap (Message.print stack) = printed := by
  induction messages generalizing printed with
  | nil => exact (Option.some.inj hprinted)
  | cons message messages ih =>
      obtain ⟨first, rest, hfirst, hrest, rfl⟩ := mapM_cons_eq_some.mp hprinted
      rw [List.filterMap_cons_some hfirst, ih hrest]

theorem mapM_frames (frames : List Frame) :
    (frames.map Message.frame).mapM (Message.print stack) =
      (frames.mapM (Frame.print stack)).map (List.map Message.frame) := by
  induction frames with
  | nil => rfl
  | cons frame frames ih =>
      simp only [List.map_cons, List.mapM_cons, ih, Message.print]
      cases frame.print stack <;> cases frames.mapM (Frame.print stack) <;> rfl

theorem mapM_batchMessages (frames : List Frame) :
    (batchMessages frames).mapM (Message.print stack) =
      (frames.mapM (Frame.print stack)).map batchMessages := by
  cases frames with
  | nil => rfl
  | cons frame frames =>
      simp only [batchMessages, List.isEmpty_cons, Bool.false_eq_true, if_false, List.mapM_cons,
        List.mapM_nil, Message.print]
      cases frame.print stack <;> cases frames.mapM (Frame.print stack) <;> rfl

theorem mapM_append {frames frames' : List Frame} :
    (frames ++ frames').mapM (Frame.print stack) =
      (frames.mapM (Frame.print stack)).bind fun printed =>
        (frames'.mapM (Frame.print stack)).map (printed ++ ·) := by
  induction frames with
  | nil => simp
  | cons frame frames ih =>
      simp only [List.cons_append, List.mapM_cons, ih]
      cases frame.print stack <;> cases frames.mapM (Frame.print stack) <;>
        cases frames'.mapM (Frame.print stack) <;> rfl

end Printing

/-- The array of a batch can be printed when the frames of all its members can. -/
theorem mapM_batch_cases (server : McpServer) (requests : List Json) :
    (requests.flatMap server.batchMember).mapM (Frame.print server.stack) =
        some (requests.flatMap fun request => (server.batchMember request).map Frame.echo) ∧
        (∀ member ∈ requests, Printable server member) ∨
      (requests.flatMap server.batchMember).mapM (Frame.print server.stack) = none ∧
        ¬ ∀ member ∈ requests, Printable server member := by
  induction requests with
  | nil => exact .inl ⟨rfl, by simp⟩
  | cons request requests ih =>
      rw [List.flatMap_cons, mapM_append, List.forall_mem_cons, List.flatMap_cons]
      rcases mapM_print_cases server request with ⟨hprinted, hprintable⟩ | ⟨hprinted, hprintable⟩
      · rcases ih with ⟨hrest, hrests⟩ | ⟨hrest, hrests⟩
        · exact .inl ⟨by rw [hprinted, hrest]; rfl, hprintable, hrests⟩
        · exact .inr ⟨by rw [hprinted, hrest]; rfl, fun hall => hrests hall.2⟩
      · exact .inr ⟨by rw [hprinted]; rfl, fun hall => hprintable hall.1⟩

/-- Chunks that cut no character make up the text they are the bytes of. -/
theorem flatMap_toText {chunks : List (List ℕ)} (harrives : chunks.flatten = Utf8.encode text)
    (hwhole : Whole chunks) : chunks.flatMap Utf8.toText = text := by
  have hencode : Utf8.encode (chunks.flatMap Utf8.toText) = chunks.flatten := by
    clear harrives
    induction chunks with
    | nil => rfl
    | cons chunk chunks ih =>
        obtain ⟨⟨piece, rfl⟩, hchunks⟩ := List.forall_mem_cons.mp hwhole
        rw [List.flatMap_cons, Utf8.toText_encode, List.flatten_cons, ← ih hchunks]
        exact List.flatMap_append
  have hdecoded := congrArg Utf8.decode (hencode.trans harrives)
  rw [Utf8.decode_encode, Utf8.decode_encode] at hdecoded
  exact Option.some.inj hdecoded

theorem handlePost_of_sent {chunks : List (List ℕ)} {messages : List Message}
    (hbody : chunks.flatMap Utf8.toText = text)
    (hsent : server.sendsOnPost parse text = some ⟨status, messages⟩) :
    server.handlePost parse chunks =
      (messages.mapM (Message.print server.stack)).map fun printed => ⟨status, printed⟩ := by
  rw [McpServer.handlePost, hbody, hsent]
  simp only [Option.bind_eq_bind, Option.bind_some]
  cases messages.mapM (Message.print server.stack) <;> rfl

/-- The transports write the same where they send the same and it can be printed. -/
theorem same_of_sent {chunks : List (List ℕ)} {printed : List Message}
    (hbody : chunks.flatMap Utf8.toText = text)
    (hsent : server.sendsOnPost parse text = some ⟨status, server.sendsOnLine parse text⟩)
    (hprinted : (server.sendsOnLine parse text).mapM (Message.print server.stack) =
      some printed) :
    server.handlePost parse chunks = some ⟨status, server.processLine parse text⟩ ∧
      server.processLine parse text = printed := by
  have hline : server.processLine parse text = printed := filterMap_of_mapM hprinted
  rw [handlePost_of_sent hbody hsent, hprinted, hline]
  exact ⟨rfl, rfl⟩

section Chunks

variable {chunks : List (List ℕ)} {requests : List Json}

def Same (parse : Text → Option Json) (server : McpServer) (text : Text)
    (chunks : List (List ℕ)) : Prop :=
  ∃ status, server.handlePost parse chunks = some ⟨status, server.processLine parse text⟩

theorem same_notJson (hbody : chunks.flatMap Utf8.toText = text) (hblank : Text.trim text ≠ [])
    (hparse : parse text = none) :
    Same parse server text chunks ∧ server.processLine parse text = [.frame parseError] := by
  have hline : server.sendsOnLine parse text = [.frame parseError] := by
    rw [McpServer.sendsOnLine, if_neg hblank, hparse]
  have hpost : server.sendsOnPost parse text = some ⟨200, server.sendsOnLine parse text⟩ := by
    rw [hline, McpServer.sendsOnPost, hparse]
  have hprinted : (server.sendsOnLine parse text).mapM (Message.print server.stack) =
      some [.frame parseError] := by
    rw [hline]
    simp [Message.print, parseError, print_null]
  have hsame := same_of_sent hbody hpost hprinted
  exact ⟨⟨200, hsame.1⟩, hsame.2⟩

theorem same_refused (hbody : chunks.flatMap Utf8.toText = text) (hblank : Text.trim text ≠ [])
    (hparse : parse text = some (.arr requests))
    (hlength : requests.length = 0 ∨ server.maxBatchSize < requests.length) :
    Same parse server text chunks ∧ ∃ message, server.processLine parse text =
      [.frame ⟨some .null, .error (-32600) message none⟩] := by
  obtain ⟨message, hrefused⟩ := processBatch_refused hlength
  obtain ⟨status, hpost⟩ := sendsOnPost_batch server hblank hparse
  have hprinted : (server.sendsOnLine parse text).mapM (Message.print server.stack) =
      some [.frame ⟨some .null, .error (-32600) message none⟩] := by
    rw [sendsOnLine_batch hblank hparse, hrefused]
    simp [Message.print, print_null]
  have hsame := same_of_sent hbody hpost hprinted
  exact ⟨⟨status, hsame.1⟩, message, hsame.2⟩

theorem sendsOnLine_accepted (hblank : Text.trim text ≠ [])
    (hparse : parse text = some (.arr requests)) (hpos : 0 < requests.length)
    (hmax : requests.length ≤ server.maxBatchSize) :
    server.sendsOnLine parse text = batchMessages (requests.flatMap server.batchMember) := by
  rw [sendsOnLine_batch hblank hparse, processBatch_accepted hpos hmax]

/-- A batch that is accepted gets the same over both when its array can be printed. -/
theorem same_accepted_iff (hbody : chunks.flatMap Utf8.toText = text)
    (hblank : Text.trim text ≠ []) (hparse : parse text = some (.arr requests))
    (hpos : 0 < requests.length) (hmax : requests.length ≤ server.maxBatchSize) :
    Same parse server text chunks ∧ server.processLine parse text = batchMessages
        (requests.flatMap fun request => (server.batchMember request).map Frame.echo) ∧
        (∀ member ∈ requests, Printable server member) ∨
      ¬ Same parse server text chunks ∧ ¬ ∀ member ∈ requests, Printable server member := by
  obtain ⟨status, hpost⟩ := sendsOnPost_batch server hblank hparse
  have hline := sendsOnLine_accepted hblank hparse hpos hmax
  rcases mapM_batch_cases server requests with ⟨hprinted, hprintable⟩ | ⟨hprinted, hprintable⟩
  · have hmessages : (server.sendsOnLine parse text).mapM (Message.print server.stack) =
        ((requests.flatMap server.batchMember).mapM (Frame.print server.stack)).map
          batchMessages := by
      rw [hline, mapM_batchMessages]
    rw [hprinted, Option.map_some] at hmessages
    have hsame := same_of_sent hbody hpost hmessages
    exact .inl ⟨⟨status, hsame.1⟩, hsame.2, hprintable⟩
  · refine .inr ⟨?_, hprintable⟩
    rintro ⟨status', hsame⟩
    rw [handlePost_of_sent hbody hpost, hline, mapM_batchMessages, hprinted] at hsame
    cases hsame

variable {frames : List Frame} {message : String}

theorem batchMember_of_ok (hrequest : isRequest request = true)
    (hframes : server.handleRequest request = .ok frames) :
    server.batchMember request = frames := by
  rw [McpServer.batchMember, if_pos hrequest, hframes]

theorem same_single (hbody : chunks.flatMap Utf8.toText = text) (hblank : Text.trim text ≠ [])
    (hparse : parse text = some request) (hsingle : ∀ requests, request ≠ .arr requests)
    (hrequest : isRequest request = true) (hprintable : Printable server request)
    (hframes : server.handleRequest request = .ok frames) :
    Same parse server text chunks ∧ server.processLine parse text =
      ((server.batchMember request).map Frame.echo).map .frame := by
  have hline : server.sendsOnLine parse text = (server.batchMember request).map .frame :=
    sendsOnLine_single hblank hparse hsingle
  have hpost : server.sendsOnPost parse text = some ⟨200, server.sendsOnLine parse text⟩ := by
    rw [sendsOnPost_single server hparse (ne_null_of_isRequest hrequest) hsingle, hframes, hline,
      batchMember_of_ok hrequest hframes]
  have hprinted : (server.sendsOnLine parse text).mapM (Message.print server.stack) =
      some (((server.batchMember request).map Frame.echo).map .frame) := by
    rcases mapM_print_cases server request with ⟨hprinted, -⟩ | ⟨-, hunprintable⟩
    · rw [hline, mapM_frames, hprinted, Option.map_some]
    · exact absurd hprintable hunprintable
  have hsame := same_of_sent hbody hpost hprinted
  exact ⟨⟨200, hsame.1⟩, hsame.2⟩

theorem handleRequest_of_not_throws (hrequest : isRequest request = true)
    (hreturns : ¬ DispatchThrows server (request.property "id") (request.property "params")
      (request.property "method")) :
    ∃ frames, server.handleRequest request = .ok frames := by
  cases hhandle : server.handleRequest request with
  | ok frames => exact ⟨frames, rfl⟩
  | error message =>
      exact absurd ((handleRequest_throws_iff hrequest).mp ⟨message, hhandle⟩) hreturns

theorem agrees_of_answerable (hbody : chunks.flatMap Utf8.toText = text)
    (hanswerable : Answerable parse server text) : Agrees parse server text chunks := by
  obtain ⟨hblank, hrequests⟩ := hanswerable
  have hsingle : ∀ request, parse text = some request → (∀ requests, request ≠ .arr requests) →
      Same parse server text chunks ∧ server.processLine parse text =
        ((server.batchMember request).map Frame.echo).map .frame := by
    intro request hparse hsingle
    rcases hrequests request hparse with ⟨requests, hbatch, -⟩ | ⟨hrequest, hprintable, hreturns⟩
    · exact absurd hbatch (hsingle requests)
    · obtain ⟨frames, hframes⟩ := handleRequest_of_not_throws hrequest hreturns
      exact same_single hbody hblank hparse hsingle hrequest hprintable hframes
  have haccepted : ∀ requests, parse text = some (.arr requests) → 0 < requests.length →
      requests.length ≤ server.maxBatchSize →
      Same parse server text chunks ∧ server.processLine parse text = batchMessages
        (requests.flatMap fun request => (server.batchMember request).map Frame.echo) := by
    intro requests hparse hpos hmax
    rcases same_accepted_iff hbody hblank hparse hpos hmax with ⟨hsame, hline, -⟩ | ⟨-, hnot⟩
    · exact ⟨hsame, hline⟩
    · rcases hrequests _ hparse with ⟨requests', hbatch, hprintable⟩ | ⟨hrequest, -⟩
      · cases hbatch
        exact absurd (hprintable hpos hmax) hnot
      · cases hrequest
  constructor
  · change Same parse server text chunks
    cases hparse : parse text with
    | none => exact (same_notJson hbody hblank hparse).1
    | some request =>
        by_cases hbatch : ∃ requests, request = .arr requests
        · obtain ⟨requests, rfl⟩ := hbatch
          by_cases hlength : requests.length = 0 ∨ server.maxBatchSize < requests.length
          · exact (same_refused hbody hblank hparse hlength).1
          · rw [not_or, Nat.not_lt] at hlength
            exact (haccepted requests hparse (Nat.pos_of_ne_zero hlength.1) hlength.2).1
        · exact (hsingle request hparse (not_exists.mp hbatch)).1
  · exact fun hparse => (same_notJson hbody hblank hparse).2
  · intro request hparse hnot
    exact ⟨_, answers_batchMember server request, (hsingle request hparse hnot).2⟩
  · intro requests hparse hlength
    exact (same_refused hbody hblank hparse hlength).2
  · intro requests hparse hpos hmax
    refine ⟨requests.map fun request => (server.batchMember request).map Frame.echo, ?_, ?_⟩
    · rw [List.forall₂_map_right_iff]
      exact List.forall₂_same.mpr fun request _ => answers_batchMember server request
    · rw [(haccepted requests hparse hpos hmax).2, List.flatMap]

/-- The frame that the HTTP transport makes of what the dispatcher throws is none that
the stdio transport writes. -/
theorem not_mem_of_throws {id : Option Json}
    (hthrows : server.handleRequest request = .error message) (hblank : Text.trim text ≠ [])
    (hparse : parse text = some request) (hsingle : ∀ requests, request ≠ .arr requests) :
    .frame ⟨id, .error (-32603) message none⟩ ∉ server.processLine parse text := by
  intro hmem
  rw [McpServer.processLine, sendsOnLine_single hblank hparse hsingle] at hmem
  obtain ⟨sent, hsent, hprinted⟩ := List.mem_filterMap.mp hmem
  obtain ⟨frame, hframe, rfl⟩ := List.mem_map.mp hsent
  obtain ⟨printed, hprint, hsame⟩ := Option.map_eq_some_iff.mp hprinted
  cases hsame
  have hbody := body_of_print hprint
  rw [McpServer.batchMember, hthrows] at hframe
  split at hframe
  · cases hid : request.property "id" with
    | none =>
        rw [hid] at hframe
        cases hframe
    | some id =>
        rw [hid] at hframe
        obtain rfl := List.mem_singleton.mp hframe
        cases hbody
  · obtain rfl := List.mem_singleton.mp hframe
    cases hbody

/-- A request on which the dispatcher throws gets other frames over the two. -/
theorem not_same_of_throws (hbody : chunks.flatMap Utf8.toText = text)
    (hthrows : server.handleRequest request = .error message) (hblank : Text.trim text ≠ [])
    (hparse : parse text = some request) (hnull : request ≠ .null)
    (hsingle : ∀ requests, request ≠ .arr requests) : ¬ Same parse server text chunks := by
  rintro ⟨status, hsame⟩
  have hpost := sendsOnPost_single server hparse hnull hsingle
  rw [hthrows] at hpost
  rw [handlePost_of_sent hbody hpost] at hsame
  obtain ⟨printed, hprinted, hresponse⟩ := Option.map_eq_some_iff.mp hsame
  obtain ⟨first, rest, hfirst, hrest, rfl⟩ := mapM_cons_eq_some.mp hprinted
  obtain ⟨frame, hframe, rfl⟩ := Option.map_eq_some_iff.mp hfirst
  have hmessages : .frame frame :: rest = server.processLine parse text :=
    congrArg Response.messages hresponse
  have hmem : .frame frame ∈ server.processLine parse text := by
    rw [← hmessages]
    exact List.mem_cons_self
  obtain ⟨id, body⟩ := frame
  obtain rfl : body = _ := body_of_print hframe
  exact not_mem_of_throws hthrows hblank hparse hsingle hmem

theorem printable_of_same (hbody : chunks.flatMap Utf8.toText = text)
    (hrequest : isRequest request = true) (hparse : parse text = some request)
    (hsingle : ∀ requests, request ≠ .arr requests)
    (hframes : server.handleRequest request = .ok frames) (hsame : Same parse server text chunks) :
    Printable server request := by
  rcases mapM_print_cases server request with ⟨-, hprintable⟩ | ⟨hprinted, -⟩
  · exact hprintable
  · obtain ⟨status, hsame⟩ := hsame
    have hpost := sendsOnPost_single server hparse
      (ne_null_of_isRequest hrequest) hsingle
    rw [hframes] at hpost
    rw [batchMember_of_ok hrequest hframes] at hprinted
    rw [handlePost_of_sent hbody hpost, mapM_frames, hprinted] at hsame
    cases hsame

theorem answerable_of_agrees (hbody : chunks.flatMap Utf8.toText = text)
    (hblank : ∀ text, Text.trim text = [] → parse text = none)
    (hagrees : Agrees parse server text chunks) : Answerable parse server text := by
  have hsame : Same parse server text chunks := hagrees.same
  have hnotBlank : Text.trim text ≠ [] := by
    intro htrim
    obtain ⟨status, hsame⟩ := hsame
    have hpost : server.sendsOnPost parse text = some ⟨200, [.frame parseError]⟩ := by
      rw [McpServer.sendsOnPost, hblank text htrim]
    have hline : server.processLine parse text = [] := by
      rw [McpServer.processLine, McpServer.sendsOnLine, if_pos htrim]
      rfl
    rw [handlePost_of_sent hbody hpost, hline] at hsame
    simp [Message.print, parseError, print_null] at hsame
  refine ⟨hnotBlank, fun request hparse => ?_⟩
  by_cases hbatch : ∃ requests, request = .arr requests
  · obtain ⟨requests, rfl⟩ := hbatch
    refine .inl ⟨requests, rfl, fun hpos hmax => ?_⟩
    rcases same_accepted_iff hbody hnotBlank hparse hpos hmax with ⟨-, -, hall⟩ | ⟨hnot, -⟩
    · exact hall
    · exact absurd hsame hnot
  have hsingle : ∀ requests, request ≠ .arr requests := not_exists.mp hbatch
  have hnull : request ≠ .null := by
    rintro rfl
    obtain ⟨status, hsame⟩ := hsame
    have hpost : server.sendsOnPost parse text = none := by
      rw [McpServer.sendsOnPost, hparse]
    rw [McpServer.handlePost, hbody, hpost] at hsame
    cases hsame
  refine .inr ?_
  have hreturns : ¬ ∃ message, server.handleRequest request = .error message := by
    rintro ⟨message, hthrows⟩
    exact not_same_of_throws hbody hthrows hnotBlank hparse hnull hsingle hsame
  cases hrequest : isRequest request with
  | false => exact absurd ⟨_, handleRequest_of_not_isRequest hrequest⟩ hreturns
  | true =>
      have hthrows : ¬ DispatchThrows server _ _ _ :=
        fun hthrows => hreturns ((handleRequest_throws_iff hrequest).mpr hthrows)
      obtain ⟨frames, hframes⟩ := handleRequest_of_not_throws hrequest hthrows
      exact ⟨rfl, printable_of_same hbody hrequest hparse hsingle hframes hsame, hthrows⟩

/-- The transports agree on a text that comes in whole characters exactly when it is not blank
and is no JSON, a batch whose array can be printed, or a request that the dispatcher does not
throw on and whose frame can be printed. -/
theorem agrees_iff_answerable (parse : Text → Option Json) (server : McpServer) (text : Text)
    (chunks : List (List ℕ)) (hblank : ∀ text, Text.trim text = [] → parse text = none)
    (harrives : chunks.flatten = Utf8.encode text) :
    (Whole chunks ∧ Answerable parse server text → Agrees parse server text chunks) ∧
      (Agrees parse server text chunks → Answerable parse server text ∨ ¬ Whole chunks) := by
  constructor
  · rintro ⟨hwhole, hanswerable⟩
    exact agrees_of_answerable (flatMap_toText harrives hwhole) hanswerable
  · intro hagrees
    by_cases hwhole : Whole chunks
    · exact .inl (answerable_of_agrees (flatMap_toText harrives hwhole) hblank hagrees)
    · exact .inr hwhole

end Chunks

def pingText : Text := "\x7b\"id\":\"1\",\"method\":\"ping\"\x7d".toList

def nullText : Text := "null".toList

def parseSample (text : Text) : Option Json :=
  if text = nullText then some .null
  else if text = pingText then some (.obj [("id", .str "1"), ("method", .str "ping")])
  else none

def bareServer : McpServer where
  name := "x402"
  version := "1.0.0"
  logsWarnings := true
  stack := .ofLevels 1000
  tools := .empty
  promptsEnabled := false
  resourcesEnabled := false
  maxBatchSize := 25
  semantics := ⟨.null, fun _ _ => .ok .null, .null, .null, fun _ => .ok .null⟩

theorem parseSample_blank (text : Text) (htrim : Text.trim text = []) :
    parseSample text = none := by
  rw [parseSample]
  split
  · next hnull =>
      rw [hnull] at htrim
      revert htrim
      decide
  · split
    · next hping =>
        rw [hping] at htrim
        revert htrim
        decide
    · rfl

theorem ping_agrees :
    Agrees parseSample bareServer pingText [Utf8.encode pingText.dropLast, Utf8.encode ['\x7d']] := by
  have harrives : [Utf8.encode pingText.dropLast, Utf8.encode ['\x7d']].flatten =
      Utf8.encode pingText := by
    decide
  refine (agrees_iff_answerable parseSample bareServer pingText _ parseSample_blank harrives).1
    ⟨?_, by decide, fun request hparse => .inr ?_⟩
  · intro chunk hchunk
    rcases List.mem_pair.mp hchunk with rfl | rfl <;> exact ⟨_, rfl⟩
  have hping : parseSample pingText =
      some (.obj [("id", .str "1"), ("method", .str "ping")]) := by
    rw [parseSample, if_neg (by decide), if_pos rfl]
  obtain rfl := Option.some.inj (hping.symm.trans hparse)
  have hrequest : isRequest (.obj [("id", .str "1"), ("method", .str "ping")]) = true := rfl
  refine ⟨hrequest, fun _ => (bareServer.stack.flat _ rfl).1, fun hthrows => ?_⟩
  obtain ⟨message, hmessage⟩ := (handleRequest_throws_iff hrequest).mpr hthrows
  cases hmessage

/-- The handler rejects: it reads the id of null. -/
theorem not_agrees_null :
    ¬ Agrees parseSample bareServer nullText [Utf8.encode nullText] := by
  intro hagrees
  obtain ⟨status, hsame⟩ := hagrees.same
  have hbody : [Utf8.encode nullText].flatMap Utf8.toText = nullText := by
    simp [List.flatMap]
  have hpost : bareServer.sendsOnPost parseSample nullText = none := rfl
  rw [McpServer.handlePost, hbody, hpost] at hsame
  cases hsame

end X402Facilitator.Mcp
