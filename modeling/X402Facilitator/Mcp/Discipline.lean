import X402Facilitator.Mcp.LineOrder

/-!
# Every line is answered as it should be

A request that is owed an answer gets one, alone or in a batch, when its id is echoed by what
is printed.  A batch with an id that cannot be printed gets nothing.
-/

namespace X402Facilitator.Mcp

open Execution

section Statement

variable (server : McpServer) (parse : Text → Option Json)

def Accepted (requests : List Json) : Prop :=
  0 < requests.length ∧ requests.length ≤ server.maxBatchSize

/-- The frames that are due to a request. -/
structure Answered (request : Json) (frames : List Frame) : Prop where
  invalid : isRequest request = false → frames = [invalidRequest (detectedId request)]
  notification : isNotification request → frames = []
  request : ∀ id, isRequest request = true → request.property "id" = some id →
    ∃ body, frames = [⟨some id, body⟩]

def MemberAnswered (member : Json × Called) (frames : List Frame) : Prop :=
  Answered member.1 frames ∧ frames.map .frame = server.alone member.1 member.2

/-- What is written for a line is what is due to it. -/
def Disciplined (line : Handled) : Option Json → Prop
  | none => line.written = [.frame parseError]
  | some (.arr requests) =>
      (¬ Accepted server requests →
        ∃ message, line.written = [.frame ⟨some .null, .error (-32600) message none⟩]) ∧
      (Accepted server requests → line.called.length = requests.length ∧
        ∃ answers, List.Forall₂ (MemberAnswered server) (requests.zip line.called) answers ∧
          line.written = batchMessages answers.flatten)
  | some request => ∃ frames, Answered request frames ∧ line.written = frames.map .frame

/-- The lines are handled in their turn, all of them whatever the handlers come to, and
answered as they should be. -/
structure Discipline (s : Stdio) : Prop where
  order : s.handled.map Handled.text ++ s.unhandled = s.lines
  ends : ∀ called, ∃ s', Reaches (Stdio.step server parse) (Works called) s s' ∧
    s'.unhandled = []
  stdout : s.stdout = s.handled.flatMap Handled.written
  disciplined : ∀ line ∈ s.handled, Disciplined server line (parse line.text)

/-- The id is echoed: it is printed, and no number in it is infinite. -/
def Stack.Echoes (stack : Stack) (id : Json) : Prop :=
  stack.overflowsPrint id = false ∧ id.printed = id

/-- The initialized notification is never answered, also with an id. -/
structure Served (request : Json) : Prop where
  echoes : ¬ isNotification request → server.stack.Echoes (detectedId request)
  method : (request.property "id").isSome = true →
    request.property "method" ≠ some (.str "notifications/initialized")

/-- A line that was handled while stdout was open, or has nothing to write, and whose requests
are served. -/
def Regular (line : Handled) : Option Json → Prop
  | none => line.isOpen = true
  | some (.arr requests) =>
      (line.isOpen = true ∨
        Accepted server requests ∧ ∀ request ∈ requests, isNotification request) ∧
      (Accepted server requests → ∀ request ∈ requests, Served server request)
  | some request => (line.isOpen = true ∨ isNotification request) ∧ Served server request

end Statement

variable {server : McpServer} {parse : Text → Option Json} {request : Json}
  {requests : List Json} {called : Called} {line : Handled}

theorem due_of_served (hserved : Served server request) (hnot : ¬ isNotification request) :
    Due request := by
  cases hrequest : isRequest request with
  | false => exact .inl hrequest
  | true =>
      have hid : (request.property "id").isSome = true := by
        rw [Option.isSome_iff_ne_none]
        exact fun hnone => hnot ⟨hrequest, hnone⟩
      exact .inr ⟨hid, hserved.method hid⟩

theorem batchMember_of_notification (hnotification : isNotification request) :
    server.batchMember request = [] := by
  rcases batchMember_cases server request with ⟨hdue, -⟩ | ⟨-, hsent⟩
  · exact absurd hdue (not_due hnotification)
  · exact hsent

theorem answered_notification (hnotification : isNotification request) : Answered request [] where
  invalid := fun hinvalid => by cases hinvalid.symm.trans hnotification.1
  notification := fun _ => rfl
  request := fun id _ hid => by cases hnotification.2.symm.trans hid

/-- What is sent for a request that is served is due to it, and printed as it is. -/
theorem answered_batchMember (hserved : Served server request) :
    Answered request (server.batchMember request) ∧
      (server.batchMember request).mapM (Frame.print server.stack) =
        some (server.batchMember request) := by
  by_cases hnotification : isNotification request
  · rw [batchMember_of_notification hnotification]
    exact ⟨answered_notification hnotification, rfl⟩
  obtain ⟨hstack, hprinted⟩ := hserved.echoes hnotification
  rcases batchMember_cases server request with ⟨hdue, body, hsent⟩ | ⟨hdue, -⟩
  · constructor
    · refine ⟨fun hinvalid => ?_, fun h => absurd h hnotification, fun id _ hid => ⟨body, ?_⟩⟩
      · rw [McpServer.batchMember, hinvalid]
        rfl
      · rw [hsent, detectedId, hid]
        rfl
    · rw [hsent]
      simp [Frame.print, hstack, hprinted]
  · exact absurd (due_of_served hserved hnotification) hdue

/-- What is called changes neither the stack nor which requests are served. -/
theorem served_comingTo (hserved : Served server request) (called : Called) :
    Served (server.comingTo called) request := ⟨hserved.echoes, hserved.method⟩

theorem alone_eq (hserved : Served server request) (called : Called) :
    server.alone request called = ((server.comingTo called).batchMember request).map .frame := by
  obtain ⟨-, hprinted⟩ := answered_batchMember (served_comingTo hserved called)
  refine filterMap_of_mapM ?_
  rw [sendsAlone_eq, mapM_frames]
  exact congrArg (Option.map _) hprinted

/-- The members of a batch that are served are answered, and printed together. -/
theorem answered_members {members : List (Json × Called)}
    (hserved : ∀ member ∈ members, Served server member.1) :
    ∃ answers, List.Forall₂ (MemberAnswered server) members answers ∧
      (members.flatMap fun member => (server.comingTo member.2).batchMember member.1).mapM
        (Frame.print server.stack) = some answers.flatten := by
  induction members with
  | nil => exact ⟨[], .nil, rfl⟩
  | cons member members ih =>
      obtain ⟨hmember, hmembers⟩ := List.forall_mem_cons.mp hserved
      obtain ⟨answers, hanswers, hrest⟩ := ih hmembers
      obtain ⟨hanswered, hprinted⟩ := answered_batchMember (served_comingTo hmember member.2)
      refine ⟨_ :: answers, .cons ⟨hanswered, (alone_eq hmember member.2).symm⟩ hanswers, ?_⟩
      have hsink : ((server.comingTo member.2).batchMember member.1).mapM
          (Frame.print server.stack) =
            some ((server.comingTo member.2).batchMember member.1) := hprinted
      rw [List.flatMap_cons, mapM_append, hrest, hsink]
      rfl

theorem writtenFor_of_served {members : List (Json × Called)}
    (hserved : ∀ member ∈ members, Served server member.1) :
    ∃ answers, List.Forall₂ (MemberAnswered server) members answers ∧
      server.writtenFor members = batchMessages answers.flatten := by
  obtain ⟨answers, hanswers, hprinted⟩ := answered_members hserved
  refine ⟨answers, hanswers, filterMap_of_mapM ?_⟩
  rw [mapM_batchMessages, hprinted]
  rfl

/-- Notifications are not answered. -/
theorem written_of_notifications (members : List (Json × Called))
    (hsilent : ∀ member ∈ members, isNotification member.1) : server.writtenFor members = [] := by
  have hnone : (members.flatMap fun member =>
      (server.comingTo member.2).batchMember member.1) = [] :=
    List.flatMap_eq_nil_iff.mpr fun member hmember =>
      batchMember_of_notification (hsilent member hmember)
  rw [McpServer.writtenFor, hnone]
  rfl

theorem disciplined_notJson (hfollows : Follows server parse line) (hparse : parse line.text = none)
    (hisOpen : line.isOpen = true) : line.written = [.frame parseError] := by
  have hline : server.lineOf parse line.text = .refused parseError := by
    rw [McpServer.lineOf, hparse]
  have hwritten := hfollows.written
  rw [if_pos hisOpen, writes, hline] at hwritten
  rw [hwritten]
  simp [Message.print, parseError, print_null]

theorem disciplined_refused (hfollows : Follows server parse line)
    (hparse : parse line.text = some (.arr requests)) (hrefused : ¬ Accepted server requests)
    (hisOpen : line.isOpen = true) :
    ∃ message, line.written = [.frame ⟨some .null, .error (-32600) message none⟩] := by
  have hlength : requests.length = 0 ∨ server.maxBatchSize < requests.length := by
    by_contra hlength
    rw [not_or, Nat.not_lt] at hlength
    exact hrefused ⟨Nat.pos_of_ne_zero hlength.1, hlength.2⟩
  obtain ⟨message, hframe⟩ := processBatch_refused hlength
  have hline : server.lineOf parse line.text =
      .refused ⟨some .null, .error (-32600) message none⟩ := by
    rw [McpServer.lineOf, hparse]
    simp only [hframe]
  have hwritten := hfollows.written
  rw [if_pos hisOpen, writes, hline] at hwritten
  refine ⟨message, ?_⟩
  rw [hwritten]
  simp [Message.print, print_null]

theorem disciplined_batch (hfollows : Follows server parse line)
    (hparse : parse line.text = some (.arr requests)) (haccepted : Accepted server requests)
    (hisOpen : line.isOpen = true ∨ ∀ request ∈ requests, isNotification request)
    (hserved : ∀ request ∈ requests, Served server request) :
    line.called.length = requests.length ∧
      ∃ answers, List.Forall₂ (MemberAnswered server) (requests.zip line.called) answers ∧
        line.written = batchMessages answers.flatten := by
  have hline : server.lineOf parse line.text = .batch requests := by
    rw [McpServer.lineOf, hparse]
    simp only [processBatch_accepted haccepted.1 haccepted.2]
  have hlength := hfollows.called
  have hwritten := hfollows.written
  rw [calls, hline] at hlength
  rw [show writes server parse line.text line.called =
    server.writtenFor (requests.zip line.called) by rw [writes, hline]] at hwritten
  obtain ⟨answers, hanswers, hprinted⟩ := writtenFor_of_served fun member hmember =>
    hserved member.1 (List.of_mem_zip (b := member.2) hmember).1
  refine ⟨hlength, answers, hanswers, ?_⟩
  rw [← hprinted]
  rcases hisOpen with hisOpen | hsilent
  · rwa [if_pos hisOpen] at hwritten
  · rw [written_of_notifications _ fun member hmember =>
      hsilent member.1 (List.of_mem_zip hmember).1] at hwritten ⊢
    rwa [ite_self] at hwritten

/-- What a line with a single request writes while stdout is open. -/
theorem writes_single (hline : server.lineOf parse line.text =
      if isRequest request then .request request else .refused (invalidRequest (detectedId request)))
    (hserved : Served server request) (hcalled : line.called.length = calls server parse line.text) :
    ∃ frames, Answered request frames ∧
      writes server parse line.text line.called = frames.map .frame := by
  cases hrequest : isRequest request with
  | false =>
      rw [hrequest] at hline
      obtain ⟨hanswered, hprinted⟩ := answered_batchMember hserved
      rw [McpServer.batchMember, hrequest] at hanswered hprinted
      refine ⟨_, hanswered, ?_⟩
      rw [writes, hline]
      refine filterMap_of_mapM ?_
      exact (mapM_frames _).trans (congrArg (Option.map _) hprinted)
  | true =>
      rw [hrequest, if_pos rfl] at hline
      rw [calls, hline] at hcalled
      obtain ⟨called, hcalled⟩ := List.length_eq_one_iff.mp hcalled
      obtain ⟨hanswered, -⟩ := answered_batchMember (served_comingTo hserved called)
      refine ⟨_, hanswered, ?_⟩
      rw [writes, hline, hcalled, ← alone_eq hserved called]
      exact List.append_nil _

theorem disciplined_single (hfollows : Follows server parse line)
    (hline : server.lineOf parse line.text =
      if isRequest request then .request request else .refused (invalidRequest (detectedId request)))
    (hisOpen : line.isOpen = true ∨ isNotification request) (hserved : Served server request) :
    ∃ frames, Answered request frames ∧ line.written = frames.map .frame := by
  obtain ⟨frames, hanswered, hwrites⟩ := writes_single hline hserved hfollows.called
  refine ⟨frames, hanswered, ?_⟩
  have hwritten := hfollows.written
  rw [hwrites] at hwritten
  rcases hisOpen with hisOpen | hsilent
  · rwa [if_pos hisOpen] at hwritten
  · rw [hanswered.notification hsilent] at hwritten ⊢
    rwa [List.map_nil, ite_self] at hwritten

theorem disciplined_of_regular (hfollows : Follows server parse line)
    (hregular : Regular server line (parse line.text)) :
    Disciplined server line (parse line.text) := by
  cases hparse : parse line.text with
  | none =>
      rw [hparse] at hregular
      exact disciplined_notJson hfollows hparse hregular
  | some request =>
      rw [hparse] at hregular
      cases request with
      | arr requests =>
          refine ⟨fun hrefused => ?_, fun haccepted => ?_⟩
          · have hisOpen := hregular.1.resolve_right fun hsilent => hrefused hsilent.1
            exact disciplined_refused hfollows hparse hrefused hisOpen
          · exact disciplined_batch hfollows hparse haccepted (hregular.1.imp_right And.right)
              (hregular.2 haccepted)
      | null | bool _ | num _ | str _ | obj _ =>
          refine disciplined_single hfollows ?_ hregular.1 hregular.2
          rw [McpServer.lineOf, hparse]

/-- In every run the lines are handled in their order, and answered as they should be while
stdout is open, the ids are echoed and no initialized notification has one. -/
theorem discipline_regular {s : Stdio} (hreach : Reaches (Stdio.step server parse) anyStep .init s)
    (hregular : ∀ line ∈ s.handled, Regular server line (parse line.text)) :
    Discipline server parse s := by
  have hs : Orderly server parse s :=
    hreach.preserves (fun _ _ _ hs _ hstep => orderly_step hs hstep) orderly_init
  refine ⟨hs.order, fun called => exists_handled called s, hs.stdout, fun line hline => ?_⟩
  exact disciplined_of_regular (hs.follows line hline) (hregular line hline)

def nothingCalled : Called := ⟨.ok none, .ok .null⟩

def pingRun : List Action := [.line pingText, .take, .settle 0 nothingCalled]

theorem discipline_ping :
    ∃ s, Reaches (Stdio.step bareServer parseSample) anyStep .init s ∧ s.handled.length = 1 ∧
      Discipline bareServer parseSample s := by
  have hrun : (run (Stdio.step bareServer parseSample) .init pingRun).map
      (fun s => s.handled.map fun line => (line.text, line.isOpen)) = some [(pingText, true)] := by
    decide +kernel
  obtain ⟨s, hreach, hobserved⟩ := exists_reaches_of_run hrun
  refine ⟨s, hreach, ?_, discipline_regular hreach fun line hline => ?_⟩
  · simpa using congrArg List.length hobserved
  have hmem := List.mem_map_of_mem (f := fun line : Handled => (line.text, line.isOpen)) hline
  rw [hobserved] at hmem
  obtain ⟨htext, hisOpen⟩ := Prod.mk.inj (List.mem_singleton.mp hmem)
  have hparse : parseSample line.text =
      some (.obj [("id", .str "1"), ("method", .str "ping")]) := by
    rw [htext, parseSample, if_neg (by decide), if_pos rfl]
  rw [hparse]
  exact ⟨.inl hisOpen, fun _ => ⟨(bareServer.stack.flat _ rfl).1, rfl⟩,
    fun _ (hmethod : some (Json.str "ping") = _) => by simp at hmethod⟩

def pingRequest (id : Json) : Json := .obj [("id", id), ("method", .str "ping")]

def nested : ℕ → Json
  | 0 => .null
  | levels + 1 => .arr [nested levels]

/-- The second ping has an id for which there is no stack. -/
def parseDeep (_ : Text) : Option Json :=
  some (.arr [pingRequest (.str "1"), pingRequest (nested 1001)])

def deepRun : List Action :=
  [.line pingText, .take, .settle 1 nothingCalled, .settle 0 nothingCalled, .reply]

theorem not_discipline_deep :
    ¬ ∀ (server : McpServer) (parse : Text → Option Json) (s : Stdio),
      Reaches (Stdio.step server parse) anyStep .init s → Discipline server parse s := by
  intro hdiscipline
  have hrun : (run (Stdio.step bareServer parseDeep) .init deepRun).map
      (fun s => s.handled.map fun line => (line.called.length, line.written.length)) =
        some [(2, 0)] := by
    decide +kernel
  obtain ⟨s, hreach, hobserved⟩ := exists_reaches_of_run hrun
  obtain ⟨line, hhandled, hlengths⟩ := List.map_eq_singleton_iff.mp hobserved
  obtain ⟨hcalled, hwritten⟩ := Prod.mk.inj hlengths
  have hline : line ∈ s.handled := by rw [hhandled]; exact List.mem_cons_self
  have haccepted : Accepted bareServer [pingRequest (.str "1"), pingRequest (nested 1001)] :=
    ⟨by decide, (by decide : 2 ≤ 25)⟩
  obtain ⟨-, answers, hanswers, hbatch⟩ :=
    ((hdiscipline _ _ s hreach).disciplined line hline).2 haccepted
  obtain ⟨called, rest, hcons⟩ := List.exists_cons_of_length_pos (by omega : 0 < line.called.length)
  rw [hcons] at hanswers
  -- the first ping is owed an answer
  cases hanswers with
  | cons hanswer _ =>
      obtain ⟨body, rfl⟩ := hanswer.1.request (.str "1") rfl rfl
      rw [hbatch] at hwritten
      cases hwritten

end X402Facilitator.Mcp
