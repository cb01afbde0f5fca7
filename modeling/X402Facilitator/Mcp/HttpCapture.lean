import X402Facilitator.Library.Execution
import X402Facilitator.Library.Table

/-!
# The server's stdout during HTTP requests

The HTTP transport answers a request by putting a capture in the place of the server's
stdout while the dispatcher runs, and puts back what it found.  All writes, those of the
stdio transport too, go through one queue, and find the stdout that is there when their
turn comes.
-/

namespace X402Facilitator.Mcp

namespace HttpCapture

open Execution

/-- What `_stdout` refers to. -/
inductive Sink where
  | nothing
  | peer
  | capture (id : ℕ)
  deriving DecidableEq, Repr

/-- A request is handled between the exchange of the stdout and its return; `saved` is
the stdout it found. -/
inductive Stage where
  | handling (saved : Sink)
  | finished (body : List String)
  deriving DecidableEq, Repr

/-- A request to `/mcp`, with the frames that its handling has produced.  A batch, or a
body that is no JSON, is answered without a capture. -/
structure Request where
  captures : Bool
  produced : List String
  captured : List String
  stage : Stage
  deriving DecidableEq, Repr

/-- Who wrote a chunk: the handling of a line, or that of a request. -/
inductive Owner where
  | line
  | request (id : ℕ)
  deriving DecidableEq, Repr

/-- A chunk in the queue.  The turn of a `prompt` one has been scheduled, and comes
before its writer returns. -/
structure Chunk where
  text : String
  owner : Owner
  prompt : Bool
  deriving DecidableEq, Repr

/-- `_drain`: null, resolved, or still pending. -/
inductive Drain where
  | unused
  | resolved
  | pending
  deriving DecidableEq, Repr

structure System where
  started : Bool
  stdout : Sink
  opened : Bool
  drain : Drain
  waiting : List Chunk
  requests : List Request
  /-- What the stdio peer has read. -/
  peer : List String
  /-- What the handling of lines has written. -/
  lines : List String
  deriving DecidableEq, Repr

/-- The server when `startSSE` is called, before or after `start`. -/
def System.init (started : Bool) : System :=
  ⟨started, if started then .peer else .nothing, started, .unused, [], [], [], []⟩

def System.capture (s : System) (id : ℕ) (text : String) : System :=
  { s with requests := s.requests.modify id fun request =>
      { request with captured := request.captured ++ [text] } }

/-- The `attempt` of `_write`. -/
def System.attempt (s : System) (text : String) : System :=
  if s.opened then
    match s.stdout with
    | .nothing => s
    | .peer => { s with peer := s.peer ++ [text] }
    | .capture id => s.capture id text
  else s

/-- `_write`: the first chunk is attempted at once, any other one in its turn. -/
def System.write (s : System) (owner : Owner) (text : String) : System :=
  match s.drain with
  | .unused => { s.attempt text with drain := .pending }
  | .resolved => { s with waiting := s.waiting ++ [⟨text, owner, s.waiting.isEmpty⟩] }
  | .pending => { s with waiting := s.waiting ++ [⟨text, owner, false⟩] }

/-- The `finally` of the handler, with the body that has been sent. -/
def System.finish (s : System) (id : ℕ) (saved : Sink) (produced body : List String) : System :=
  { s with
    stdout := saved
    opened := false
    requests := s.requests.modify id fun request =>
      { request with produced := produced, stage := .finished body } }

/-- `answered` is a request that is answered without a capture; `settles` is the promise
of the last attempt, which may wait for the stream to drain. -/
inductive Action where
  | start
  | enters
  | answered (frames : List String)
  | sends (id : ℕ) (frame : String)
  | throws (id : ℕ) (frame : String)
  | returns (id : ℕ)
  | lineSends (frame : String)
  | attempts
  | settles
  deriving DecidableEq, Repr

/-- The chunk of a request whose turn comes before the request returns. -/
def Chunk.precedes (id : ℕ) (chunk : Chunk) : Prop :=
  chunk.owner = .request id ∧ chunk.prompt = true

instance (id : ℕ) : DecidablePred (Chunk.precedes id) :=
  fun _ => inferInstanceAs (Decidable (_ ∧ _))

def step (s : System) : Action → Option System
  | .start =>
      if s.started then none
      else some { s with started := true, stdout := .peer, opened := true }
  | .enters =>
      some { s with
        stdout := .capture s.requests.length
        opened := true
        requests := s.requests ++ [⟨true, [], [], .handling s.stdout⟩] }
  | .answered frames =>
      some { s with requests := s.requests ++ [⟨false, frames, [], .finished frames⟩] }
  -- The dispatcher sends at most one frame, and throws only before it has sent one.
  | .sends id frame =>
      match s.requests[id]? with
      | some ⟨_, [], _, .handling _⟩ =>
          some (System.write { s with requests := s.requests.modify id fun request =>
            { request with produced := [frame] } } (.request id) frame)
      | _ => none
  | .throws id frame =>
      match s.requests[id]? with
      | some ⟨_, [], _, .handling saved⟩ => some (s.finish id saved [frame] [frame])
      | _ => none
  | .returns id =>
      match s.requests[id]? with
      | some ⟨_, produced, captured, .handling saved⟩ =>
          if ∃ chunk ∈ s.waiting, chunk.precedes id then none
          else some (s.finish id saved produced captured)
      | _ => none
  | .lineSends frame =>
      if s.started then some (System.write { s with lines := s.lines ++ [frame] } .line frame)
      else none
  | .attempts =>
      match s.drain, s.waiting with
      | .resolved, chunk :: waiting =>
          some { System.attempt { s with waiting := waiting } chunk.text with drain := .pending }
      | _, _ => none
  | .settles =>
      match s.drain with
      | .pending => some { s with drain := .resolved }
      | _ => none

section Statement

def Stage.isHandling : Stage → Bool
  | .handling _ => true
  | .finished _ => false

def System.Idle (s : System) : Prop :=
  ∀ request ∈ s.requests, request.stage.isHandling = false

def Chunk.isLine (chunk : Chunk) : Bool := chunk.owner = .line

/-- Every client gets what was produced for it, and the peer of the stdio transport what
was written for it; and the stdout is put back. -/
structure Isolated (s : System) : Prop where
  bodies : ∀ (id : ℕ) (request : Request) (body : List String), s.requests[id]? = some request →
    request.stage = .finished body → body = request.produced
  peer : s.peer ++ (s.waiting.filter Chunk.isLine).map Chunk.text = s.lines
  restored : s.Idle → s.stdout = (if s.started then .peer else .nothing) ∧ s.opened = s.started

def AlwaysIsolated (started : Bool) (meets : System → Action → Prop) : Prop :=
  ∀ s, Reaches step meets (.init started) s → Isolated s

/-- A request is captured only while `start` has not run and all writes are done; it
writes before another one is captured, and ends before those it found. -/
def Nested (s : System) : Action → Prop
  | .start => s.Idle
  | .enters => s.started = false ∧ s.waiting = [] ∧ s.drain ≠ .pending
  | .sends id _ => ∀ (later : ℕ) (request : Request), id < later →
      s.requests[later]? = some request → request.captures = false
  | .throws id _ | .returns id => ∀ (later : ℕ) (request : Request), id < later →
      s.requests[later]? = some request → request.stage.isHandling = false
  | _ => True

end Statement

variable {s s' : System} {action : Action} {requests : List Request} {request : Request}
  {id : ℕ} {stack rest : List ℕ} {frame : String} {saved : Sink}

def sinkOf : List ℕ → Sink
  | [] => .nothing
  | id :: _ => .capture id

def Linked (requests : List Request) : List ℕ → Prop
  | [] => True
  | id :: rest =>
      (∃ request, requests[id]? = some request ∧ request.captures = true ∧
        request.stage = .handling (sinkOf rest)) ∧
      (∀ other ∈ rest, other < id) ∧ Linked requests rest

def Handled (requests : List Request) (stack : List ℕ) : Prop :=
  ∀ (id : ℕ) (request : Request), requests[id]? = some request →
    request.stage.isHandling = true → id ∈ stack

def Newest (requests : List Request) (id : ℕ) : Prop :=
  ∀ (later : ℕ) (request : Request), id < later → requests[later]? = some request →
    request.captures = false

theorem Linked.congr {requests' : List Request} (hlinked : Linked requests stack)
    (hsame : ∀ id ∈ stack, ∀ request, requests[id]? = some request →
      ∃ request', requests'[id]? = some request' ∧ request'.captures = request.captures ∧
        request'.stage = request.stage) : Linked requests' stack := by
  induction stack with
  | nil => trivial
  | cons id rest ih =>
      obtain ⟨⟨request, hrequest, hcaptures, hstage⟩, hsorted, hrest⟩ := hlinked
      obtain ⟨request', hrequest', hcaptures', hstage'⟩ :=
        hsame id List.mem_cons_self request hrequest
      exact ⟨⟨request', hrequest', hcaptures'.trans hcaptures, hstage'.trans hstage⟩, hsorted,
        ih hrest fun other hother => hsame other (List.mem_cons_of_mem id hother)⟩

theorem Linked.concat (hlinked : Linked requests stack) (last : Request) :
    Linked (requests ++ [last]) stack :=
  hlinked.congr fun _ _ request hrequest =>
    ⟨request, Table.getElem?_concat_of_some last hrequest, rfl, rfl⟩

/-- A change of one request that leaves those of the stack being handled as they are. -/
theorem Linked.modify (hlinked : Linked requests stack) {change : Request → Request}
    (hsame : id ∈ stack → ∀ request, (change request).captures = request.captures ∧
      (change request).stage = request.stage) : Linked (requests.modify id change) stack := by
  refine hlinked.congr fun other hother request hrequest => ?_
  by_cases hid : id = other
  · subst hid
    refine ⟨change request, ?_, hsame hother request⟩
    rw [Table.getElem?_modify_self, hrequest]
    rfl
  · exact ⟨request, (Table.getElem?_modify_of_ne hid).trans hrequest, rfl, rfl⟩

theorem Linked.mem_lt_length (hlinked : Linked requests stack) (hmem : id ∈ stack) :
    id < requests.length := by
  induction stack with
  | nil => cases hmem
  | cons head rest ih =>
      obtain ⟨⟨request, hrequest, -, -⟩, -, hrest⟩ := hlinked
      rcases List.mem_cons.mp hmem with rfl | hmem
      · exact (List.getElem?_eq_some_iff.mp hrequest).1
      · exact ih hrest hmem

/-- The request that has ended all later ones, or was captured last, is on top. -/
theorem Linked.top (hlinked : Linked requests stack) (hmem : id ∈ stack)
    (hlater : ∀ (later : ℕ) (request : Request), id < later → requests[later]? = some request →
      request.captures = true → request.stage.isHandling = true → False) :
    ∃ rest, stack = id :: rest := by
  cases stack with
  | nil => cases hmem
  | cons head rest =>
      obtain ⟨⟨request, hrequest, hcaptures, hstage⟩, hsorted, -⟩ := hlinked
      rcases List.mem_cons.mp hmem with rfl | hrest
      · exact ⟨rest, rfl⟩
      · refine (hlater head request (hsorted id hrest) hrequest hcaptures ?_).elim
        rw [hstage]
        rfl

variable {last : Request} {other : ℕ} {captured : List String} {captures : Bool} {chunk : Chunk}
  {waiting : List Chunk}

theorem Handled.concat (hhandled : Handled requests stack) (hlast : last.stage.isHandling = false) :
    Handled (requests ++ [last]) stack := by
  intro id request hrequest hhandling
  rcases Table.getElem?_concat_cases hrequest with hold | ⟨-, rfl⟩
  · exact hhandled id request hold hhandling
  · cases hlast.symm.trans hhandling

theorem Newest.of_concat (hnewest : Newest (requests ++ [last]) id) : Newest requests id :=
  fun later request hlater hrequest =>
    hnewest later request hlater (Table.getElem?_concat_of_some last hrequest)

theorem newest_modify {change : Request → Request}
    (hsame : ∀ request, (change request).captures = request.captures)
    (hnewest : Newest (requests.modify id change) other) : Newest requests other := by
  intro later request hlater hrequest
  by_cases hid : id = later
  · subst hid
    have hchanged : (requests.modify id change)[id]? = some (change request) := by
      rw [Table.getElem?_modify_self, hrequest]
      rfl
    rw [← hsame request]
    exact hnewest id (change request) hlater hchanged
  · exact hnewest later request hlater ((Table.getElem?_modify_of_ne hid).trans hrequest)

def Delivered (requests : List Request) (id : ℕ) : Prop :=
  ∀ request, requests[id]? = some request → request.stage.isHandling = true →
    request.captured = request.produced

inductive Queue (s : System) : List ℕ → Prop where
  | empty {stack : List ℕ} (hwaiting : s.waiting = []) (hall : ∀ id, Delivered s.requests id) :
      Queue s stack
  | next {id : ℕ} {rest : List ℕ} {frame : String} (hopened : s.opened = true)
      (hwaiting : s.waiting = [⟨frame, .request id, true⟩])
      (hrequest : s.requests[id]? = some ⟨true, [frame], [], .handling (sinkOf rest)⟩)
      (hothers : ∀ other, other ≠ id → Delivered s.requests other) : Queue s (id :: rest)

def Bodies (requests : List Request) : Prop :=
  ∀ (id : ℕ) (request : Request) (body : List String), requests[id]? = some request →
    request.stage = .finished body → body = request.produced

structure Capturing (s : System) (stack : List ℕ) : Prop where
  notStarted : s.started = false
  linked : Linked s.requests stack
  handled : Handled s.requests stack
  stdout : s.stdout = sinkOf stack
  closed : stack = [] → s.opened = false
  opened : ∀ id rest, stack = id :: rest → Newest s.requests id → s.opened = true
  ready : ∀ id rest, stack = id :: rest → Newest s.requests id →
    ∀ request, s.requests[id]? = some request → request.produced = [] → s.drain ≠ .pending
  peer : s.peer = []
  lines : s.lines = []
  queue : Queue s stack
  bodies : Bodies s.requests

structure Serving (s : System) : Prop where
  started : s.started = true
  idle : s.Idle
  stdout : s.stdout = .peer
  opened : s.opened = true
  fresh : s.drain = .unused → s.waiting = []
  owned : ∀ chunk ∈ s.waiting, chunk.isLine = true
  peer : s.peer ++ s.waiting.map Chunk.text = s.lines
  bodies : Bodies s.requests

inductive Phase (s : System) : Prop where
  | capturing {stack : List ℕ} (hs : Capturing s stack)
  | serving (hs : Serving s)

theorem Delivered.of_modify {change : Request → Request} (hother : other ≠ id)
    (hdelivered : Delivered requests other) : Delivered (requests.modify id change) other := by
  intro request hrequest
  rw [Table.getElem?_modify_of_ne hother.symm] at hrequest
  exact hdelivered request hrequest

theorem Delivered.concat (hdelivered : Delivered requests other)
    (hlast : last.stage.isHandling = true → last.captured = last.produced) :
    Delivered (requests ++ [last]) other := by
  intro request hrequest hhandling
  rcases Table.getElem?_concat_cases hrequest with hold | ⟨-, rfl⟩
  · exact hdelivered request hold hhandling
  · exact hlast hhandling

theorem Bodies.concat (hbodies : Bodies requests)
    (hlast : ∀ body, last.stage = .finished body → body = last.produced) :
    Bodies (requests ++ [last]) := by
  intro id request body hrequest hfinished
  rcases Table.getElem?_concat_cases hrequest with hold | ⟨-, rfl⟩
  · exact hbodies id request body hold hfinished
  · exact hlast body hfinished

theorem Bodies.modify (hbodies : Bodies requests) {change : Request → Request}
    (hchange : ∀ request, requests[id]? = some request → ∀ body,
      (change request).stage = .finished body → body = (change request).produced) :
    Bodies (requests.modify id change) := by
  intro other request body hrequest hfinished
  rcases Table.getElem?_modify_cases hrequest with ⟨rfl, before, hbefore, rfl⟩ | ⟨-, hold⟩
  · exact hchange before hbefore body hfinished
  · exact hbodies other request body hold hfinished

theorem Queue.empty_of_waiting (hqueue : Queue s stack) (hwaiting : s.waiting = []) :
    ∀ id, Delivered s.requests id := by
  cases hqueue with
  | empty _ hall => exact hall
  | next _ hnext _ _ => cases hwaiting.symm.trans hnext

/-- Without a request on top nothing is queued. -/
theorem Queue.nil (hqueue : Queue s []) : s.waiting = [] ∧ ∀ id, Delivered s.requests id := by
  cases hqueue with
  | empty hwaiting hall => exact ⟨hwaiting, hall⟩

theorem Linked.eq_nil_of_idle (hlinked : Linked s.requests stack) (hidle : s.Idle) :
    stack = [] := by
  cases stack with
  | nil => rfl
  | cons id rest =>
      obtain ⟨⟨request, hrequest, -, hstage⟩, -, -⟩ := hlinked
      have hnot := hidle request (List.mem_of_getElem? hrequest)
      rw [hstage] at hnot
      cases hnot

/-! ## Before the stdio transport runs -/

theorem Capturing.start (hs : Capturing s stack) (hidle : s.Idle) :
    Serving { s with started := true, stdout := .peer, opened := true } := by
  have hqueue := hs.queue
  rw [hs.linked.eq_nil_of_idle hidle] at hqueue
  obtain ⟨hwaiting, -⟩ := hqueue.nil
  constructor
  · rfl
  · exact hidle
  · rfl
  · rfl
  · exact fun _ => hwaiting
  · intro chunk hchunk
    rw [hwaiting] at hchunk
    cases hchunk
  · change s.peer ++ s.waiting.map Chunk.text = s.lines
    rw [hs.peer, hs.lines, hwaiting]
    rfl
  · exact hs.bodies

theorem Capturing.enters (hs : Capturing s stack) (hwaiting : s.waiting = [])
    (hdrain : s.drain ≠ .pending) :
    Capturing { s with
      stdout := .capture s.requests.length
      opened := true
      requests := s.requests ++ [⟨true, [], [], .handling s.stdout⟩] }
      (s.requests.length :: stack) where
  notStarted := hs.notStarted
  linked := by
    refine ⟨⟨_, List.getElem?_concat_length, rfl, ?_⟩, ?_, hs.linked.concat _⟩
    · rw [hs.stdout]
    · exact fun other hother => hs.linked.mem_lt_length hother
  handled := by
    intro id request hrequest hhandling
    rcases Table.getElem?_concat_cases hrequest with hold | ⟨rfl, -⟩
    · exact List.mem_cons_of_mem _ (hs.handled id request hold hhandling)
    · exact List.mem_cons_self
  stdout := rfl
  closed := fun hnone => by cases hnone
  opened := fun _ _ _ _ => rfl
  ready := fun _ _ _ _ _ _ _ => hdrain
  peer := hs.peer
  lines := hs.lines
  queue := .empty hwaiting fun other =>
    (hs.queue.empty_of_waiting hwaiting other).concat fun _ => rfl
  bodies := hs.bodies.concat fun body hfinished => by cases hfinished

theorem Queue.concat (hqueue : Queue s stack) (hlast : last.stage.isHandling = false) :
    Queue { s with requests := s.requests ++ [last] } stack := by
  have hnot : ∀ other, Delivered s.requests other → Delivered (s.requests ++ [last]) other :=
    fun other hdelivered => hdelivered.concat fun hhandling => by
      cases hlast.symm.trans hhandling
  cases hqueue with
  | empty hwaiting hall => exact .empty hwaiting fun other => hnot other (hall other)
  | next hopened hwaiting hrequest hothers =>
      exact .next hopened hwaiting (Table.getElem?_concat_of_some last hrequest)
        fun other hother => hnot other (hothers other hother)

theorem Capturing.answered (hs : Capturing s stack) (frames : List String) :
    Capturing { s with requests := s.requests ++ [⟨false, frames, [], .finished frames⟩] }
      stack where
  notStarted := hs.notStarted
  linked := hs.linked.concat _
  handled := hs.handled.concat rfl
  stdout := hs.stdout
  closed := hs.closed
  opened := fun id rest hstack hnewest => hs.opened id rest hstack hnewest.of_concat
  ready := by
    intro id rest hstack hnewest request hrequest hproduced
    rcases Table.getElem?_concat_cases hrequest with hold | ⟨hid, -⟩
    · exact hs.ready id rest hstack hnewest.of_concat request hold hproduced
    · have hlt := hs.linked.mem_lt_length (hstack ▸ List.mem_cons_self)
      exact absurd hid (Nat.ne_of_lt hlt)
  peer := hs.peer
  lines := hs.lines
  queue := hs.queue.concat rfl
  bodies := hs.bodies.concat fun body hfinished => by
    cases hfinished
    rfl

theorem attempt_capture (hopened : s.opened = true) (hstdout : s.stdout = .capture id)
    (text : String) : s.attempt text = s.capture id text := by
  rw [System.attempt, if_pos hopened, hstdout]

theorem drain_cases (s : System) :
    s.drain = .unused ∨ s.drain = .resolved ∨ s.drain = .pending := by
  cases s.drain <;> simp

theorem write_unused (hdrain : s.drain = .unused) (owner : Owner) (text : String) :
    s.write owner text = { s.attempt text with drain := .pending } := by
  rw [System.write, hdrain]

theorem write_resolved (hdrain : s.drain = .resolved) (owner : Owner) (text : String) :
    s.write owner text =
      { s with waiting := s.waiting ++ [⟨text, owner, s.waiting.isEmpty⟩] } := by
  rw [System.write, hdrain]

theorem write_pending (hdrain : s.drain = .pending) (owner : Owner) (text : String) :
    s.write owner text = { s with waiting := s.waiting ++ [⟨text, owner, false⟩] } := by
  rw [System.write, hdrain]

/-- A frame of the request on top moves on. -/
theorem Capturing.change (hs : Capturing s (id :: rest)) {change : Request → Request}
    {drain : Drain} {waiting : List Chunk}
    (hsame : ∀ request, (change request).captures = request.captures ∧
      (change request).stage = request.stage)
    (hproduced : ∀ request, s.requests[id]? = some request → (change request).produced ≠ [])
    (hqueue : Queue { s with
      drain := drain, waiting := waiting, requests := s.requests.modify id change } (id :: rest))
    (hbodies : Bodies (s.requests.modify id change)) :
    Capturing { s with
      drain := drain, waiting := waiting, requests := s.requests.modify id change }
      (id :: rest) where
  notStarted := hs.notStarted
  linked := hs.linked.modify fun _ => hsame
  handled := by
    intro other request hrequest hhandling
    rcases Table.getElem?_modify_cases hrequest with ⟨rfl, -⟩ | ⟨-, hold⟩
    · exact List.mem_cons_self
    · exact hs.handled other request hold hhandling
  stdout := hs.stdout
  closed := hs.closed
  opened := fun other below hstack hnewest =>
    hs.opened other below hstack (newest_modify (fun request => (hsame request).1) hnewest)
  ready := by
    intro other below hstack _ request hrequest hnone
    obtain ⟨rfl, -⟩ := List.cons.inj hstack
    rcases Table.getElem?_modify_cases hrequest with ⟨-, before, hbefore, rfl⟩ | ⟨hne, -⟩
    · exact absurd hnone (hproduced before hbefore)
    · exact absurd rfl hne
  peer := hs.peer
  lines := hs.lines
  queue := hqueue
  bodies := hbodies

theorem modify_of_getElem? {change : Request → Request} (hrequest : requests[id]? = some request) :
    (requests.modify id change)[id]? = some (change request) := by
  rw [Table.getElem?_modify_self, hrequest]
  rfl

theorem delivered_of_getElem? (hrequest : requests[id]? = some request)
    (hcaptured : request.captured = request.produced) : Delivered requests id := by
  intro found hfound _
  obtain rfl := Option.some.inj (hrequest.symm.trans hfound)
  exact hcaptured

/-- A changed request is still handled, and has no body. -/
theorem Bodies.modify_handling (hbodies : Bodies requests) {change : Request → Request}
    (hrequest : requests[id]? = some request) (hhandling : request.stage.isHandling = true)
    (hsame : (change request).stage = request.stage) : Bodies (requests.modify id change) := by
  refine hbodies.modify fun before hbefore body hfinished => ?_
  obtain rfl := Option.some.inj (hrequest.symm.trans hbefore)
  rw [← hsame, hfinished] at hhandling
  cases hhandling

/-- The request that was captured last sends its frame: it reaches the capture at once,
or waits there alone. -/
theorem Capturing.sends (hs : Capturing s stack)
    (hrequest : s.requests[id]? = some ⟨captures, [], captured, .handling saved⟩)
    (hnewest : Newest s.requests id) :
    ∃ stack, Capturing (System.write { s with requests := s.requests.modify id fun request =>
      { request with produced := [frame] } } (.request id) frame) stack := by
  obtain ⟨rest, rfl⟩ := hs.linked.top (hs.handled id _ hrequest rfl)
    fun later request hlater hfound hcaptures _ => by
      cases (hnewest later request hlater hfound).symm.trans hcaptures
  have hopened := hs.opened id rest rfl hnewest
  have hdrain := hs.ready id rest rfl hnewest _ hrequest rfl
  obtain ⟨⟨top, htop, hcaptures, hstage⟩, -, -⟩ := hs.linked
  obtain rfl := Option.some.inj (hrequest.symm.trans htop)
  obtain rfl : captures = true := hcaptures
  obtain rfl : saved = sinkOf rest := by cases hstage; rfl
  obtain ⟨hwaiting, hall⟩ : s.waiting = [] ∧ ∀ other, Delivered s.requests other := by
    have hqueue := hs.queue
    cases hqueue with
    | empty hwaiting hall => exact ⟨hwaiting, hall⟩
    | next _ _ hsent _ => cases hsent.symm.trans hrequest
  obtain rfl : captured = [] := hall id _ hrequest rfl
  refine ⟨id :: rest, ?_⟩
  have hstdout : s.stdout = .capture id := hs.stdout
  rcases drain_cases s with hcase | hcase | hcase
  · rw [write_unused (by exact hcase), attempt_capture (by exact hopened) (by exact hstdout),
      System.capture, List.modify_modify_eq]
    refine hs.change (fun _ => ⟨rfl, rfl⟩) (fun _ _ hnone => by cases hnone) ?_
      (hs.bodies.modify_handling hrequest rfl rfl)
    refine .empty hwaiting fun other => ?_
    by_cases hother : other = id
    · subst hother
      exact delivered_of_getElem? (modify_of_getElem? hrequest) rfl
    · exact (hall other).of_modify hother
  · rw [write_resolved (by exact hcase)]
    simp only [hwaiting, List.nil_append, List.isEmpty_nil]
    refine hs.change (fun _ => ⟨rfl, rfl⟩) (fun _ _ hnone => by cases hnone) ?_
      (hs.bodies.modify_handling hrequest rfl rfl)
    exact .next hopened rfl (modify_of_getElem? hrequest)
      fun other hother => (hall other).of_modify hother
  · exact absurd hcase hdrain

/-- The request on top ends, with all that it has produced. -/
theorem Capturing.finish (hs : Capturing s (id :: rest)) {before produced : List String}
    (hrequest : s.requests[id]? = some ⟨captures, before, captured, .handling saved⟩)
    (hwaiting : s.waiting = []) : Capturing (s.finish id saved produced produced) rest := by
  have hall := hs.queue.empty_of_waiting hwaiting
  obtain ⟨⟨top, htop, hcaptures, hstage⟩, hsorted, hrest⟩ := hs.linked
  obtain rfl := Option.some.inj (hrequest.symm.trans htop)
  obtain rfl : captures = true := hcaptures
  obtain rfl : saved = sinkOf rest := by cases hstage; rfl
  have hnot : id ∉ rest := fun hmem => Nat.lt_irrefl id (hsorted id hmem)
  have hcovered : ∀ other below, rest = other :: below → ¬ Newest (s.requests.modify id
      fun request => { request with produced := produced, stage := .finished produced }) other := by
    rintro other below rfl hnewest
    cases hnewest id _ (hsorted other List.mem_cons_self) (modify_of_getElem? hrequest)
  constructor
  · exact hs.notStarted
  · exact hrest.modify fun hmem => absurd hmem hnot
  · intro other request hfound hhandling
    rcases Table.getElem?_modify_cases hfound with ⟨-, before, -, rfl⟩ | ⟨hne, hold⟩
    · cases hhandling
    · exact (List.mem_cons.mp (hs.handled other request hold hhandling)).resolve_left hne
  · rfl
  · exact fun _ => rfl
  · exact fun other below hstack hnewest => absurd hnewest (hcovered other below hstack)
  · exact fun other below hstack hnewest => absurd hnewest (hcovered other below hstack)
  · exact hs.peer
  · exact hs.lines
  · refine .empty hwaiting fun other => ?_
    by_cases hother : other = id
    · subst hother
      intro request hfound hhandling
      obtain rfl := Option.some.inj ((modify_of_getElem? hrequest).symm.trans hfound)
      cases hhandling
    · exact (hall other).of_modify hother
  · refine hs.bodies.modify fun request _ body hfinished => ?_
    cases hfinished
    rfl

theorem Capturing.top_of_last (hs : Capturing s stack) (hrequest : s.requests[id]? = some request)
    (hhandling : request.stage.isHandling = true)
    (hlast : ∀ (later : ℕ) (request : Request), id < later →
      s.requests[later]? = some request → request.stage.isHandling = false) :
    ∃ rest, stack = id :: rest :=
  hs.linked.top (hs.handled id request hrequest hhandling)
    fun later found hlater hfound _ hlive => by
      cases (hlast later found hlater hfound).symm.trans hlive

/-- The frame on turn reaches the capture of its request. -/
theorem Capturing.attempts (hs : Capturing s stack) (hwaiting : s.waiting = chunk :: waiting) :
    Capturing { System.attempt { s with waiting := waiting } chunk.text with drain := .pending }
      stack := by
  have hqueue := hs.queue
  cases hqueue with
  | empty hnone _ => cases hnone.symm.trans hwaiting
  | @next id rest frame hopened hnext hrequest hothers =>
      obtain ⟨rfl, rfl⟩ := List.cons.inj (hnext.symm.trans hwaiting)
      have hattempt : System.attempt { s with waiting := [] } frame =
          System.capture { s with waiting := [] } id frame :=
        attempt_capture (by exact hopened) (by exact hs.stdout) frame
      rw [hattempt]
      refine hs.change (fun _ => ⟨rfl, rfl⟩) ?_ ?_ (hs.bodies.modify_handling hrequest rfl rfl)
      · intro request hfound hnone
        obtain rfl := Option.some.inj (hrequest.symm.trans hfound)
        cases hnone
      · refine .empty rfl fun other => ?_
        by_cases hother : other = id
        · subst hother
          exact delivered_of_getElem? (modify_of_getElem? hrequest) rfl
        · exact (hothers other hother).of_modify hother

theorem Capturing.settles (hs : Capturing s stack) :
    Capturing { s with drain := .resolved } stack where
  notStarted := hs.notStarted
  linked := hs.linked
  handled := hs.handled
  stdout := hs.stdout
  closed := hs.closed
  opened := hs.opened
  ready := fun _ _ _ _ _ _ _ hpending => by cases hpending
  peer := hs.peer
  lines := hs.lines
  queue := by
    have hqueue := hs.queue
    cases hqueue with
    | empty hwaiting hall => exact .empty hwaiting hall
    | next hopened hwaiting hrequest hothers => exact .next hopened hwaiting hrequest hothers
  bodies := hs.bodies

theorem Serving.answered (hs : Serving s) (frames : List String) :
    Serving { s with requests := s.requests ++ [⟨false, frames, [], .finished frames⟩] } where
  started := hs.started
  idle := by
    intro request hrequest
    rcases List.mem_append.mp hrequest with hold | hlast
    · exact hs.idle request hold
    · obtain rfl := List.mem_singleton.mp hlast
      rfl
  stdout := hs.stdout
  opened := hs.opened
  fresh := hs.fresh
  owned := hs.owned
  peer := hs.peer
  bodies := hs.bodies.concat fun body hfinished => by
    cases hfinished
    rfl

theorem attempt_peer (hopened : s.opened = true) (hstdout : s.stdout = .peer) (text : String) :
    s.attempt text = { s with peer := s.peer ++ [text] } := by
  rw [System.attempt, if_pos hopened, hstdout]

theorem Serving.lineSends (hs : Serving s) :
    Serving (System.write { s with lines := s.lines ++ [frame] } .line frame) := by
  have hpeer := hs.peer
  have hqueued : s.drain ≠ .unused → ∀ prompt, Serving { s with
      lines := s.lines ++ [frame]
      waiting := s.waiting ++ [⟨frame, .line, prompt⟩] } := by
    intro hused prompt
    refine ⟨hs.started, hs.idle, hs.stdout, hs.opened,
      fun hdrain => absurd hdrain hused, ?_, ?_, hs.bodies⟩
    · intro chunk hchunk
      rcases List.mem_append.mp hchunk with hold | hlast
      · exact hs.owned chunk hold
      · obtain rfl := List.mem_singleton.mp hlast
        rfl
    · change s.peer ++ (s.waiting ++ [_]).map Chunk.text = s.lines ++ [frame]
      rw [List.map_append, ← List.append_assoc, hpeer]
      rfl
  rcases drain_cases s with hdrain | hdrain | hdrain
  · rw [write_unused (by exact hdrain), attempt_peer (by exact hs.opened) (by exact hs.stdout)]
    have hwaiting := hs.fresh hdrain
    refine ⟨hs.started, hs.idle, hs.stdout, hs.opened, (fun hunused => by cases hunused),
      hs.owned, ?_, hs.bodies⟩
    change s.peer ++ [frame] ++ s.waiting.map Chunk.text = s.lines ++ [frame]
    rw [hwaiting] at hpeer ⊢
    rw [← hpeer, List.map_nil, List.append_nil, List.append_nil]
  · rw [write_resolved (by exact hdrain)]
    exact hqueued (by rw [hdrain]; decide) _
  · rw [write_pending (by exact hdrain)]
    exact hqueued (by rw [hdrain]; decide) _

theorem Serving.attempts (hs : Serving s) (hwaiting : s.waiting = chunk :: waiting) :
    Serving { System.attempt { s with waiting := waiting } chunk.text with drain := .pending } := by
  have hattempt : System.attempt { s with waiting := waiting } chunk.text =
      { s with waiting := waiting, peer := s.peer ++ [chunk.text] } :=
    attempt_peer (by exact hs.opened) (by exact hs.stdout) chunk.text
  rw [hattempt]
  have hpeer := hs.peer
  have howned := hs.owned
  rw [hwaiting] at hpeer howned
  refine ⟨hs.started, hs.idle, hs.stdout, hs.opened, (fun hunused => by cases hunused),
    fun other hother => howned other (List.mem_cons_of_mem chunk hother), ?_, hs.bodies⟩
  change s.peer ++ [chunk.text] ++ waiting.map Chunk.text = s.lines
  rw [← hpeer, List.append_assoc]
  rfl

theorem Serving.settles (hs : Serving s) : Serving { s with drain := .resolved } :=
  ⟨hs.started, hs.idle, hs.stdout, hs.opened, (fun hunused => by cases hunused), hs.owned,
    hs.peer, hs.bodies⟩

/-- No request is handled any more. -/
theorem Serving.not_handling (hs : Serving s) (hrequest : s.requests[id]? = some request)
    (hhandling : request.stage.isHandling = true) : False := by
  cases (hs.idle request (List.mem_of_getElem? hrequest)).symm.trans hhandling

/-! ## Every run -/

theorem phase_step (hs : Phase s) (hmeets : Nested s action) (hstep : step s action = some s') :
    Phase s' := by
  cases action with
  | start =>
      rw [step] at hstep
      split at hstep
      · cases hstep
      · next hnot =>
          cases hstep
          cases hs with
          | capturing hs => exact .serving (hs.start hmeets)
          | serving hs => exact absurd hs.started hnot
  | enters =>
      cases hstep
      obtain ⟨hnot, hwaiting, hdrain⟩ := hmeets
      cases hs with
      | capturing hs => exact .capturing (hs.enters hwaiting hdrain)
      | serving hs => cases hnot.symm.trans hs.started
  | answered frames =>
      cases hstep
      cases hs with
      | capturing hs => exact .capturing (hs.answered frames)
      | serving hs => exact .serving (hs.answered frames)
  | sends id frame =>
      simp only [step] at hstep
      split at hstep
      · next hrequest =>
          cases hstep
          cases hs with
          | capturing hs =>
              obtain ⟨stack, hs⟩ := hs.sends hrequest hmeets
              exact .capturing hs
          | serving hs => exact (hs.not_handling hrequest rfl).elim
      · cases hstep
  | throws id frame =>
      simp only [step] at hstep
      split at hstep
      · next hrequest =>
          cases hstep
          cases hs with
          | capturing hs =>
              obtain ⟨rest, rfl⟩ := hs.top_of_last hrequest rfl hmeets
              have hqueue := hs.queue
              cases hqueue with
              | empty hwaiting hall => exact .capturing (hs.finish hrequest hwaiting)
              | next _ _ hsent _ => cases hsent.symm.trans hrequest
          | serving hs => exact (hs.not_handling hrequest rfl).elim
      · cases hstep
  | returns id =>
      simp only [step] at hstep
      split at hstep
      · next captures produced captured saved hrequest =>
          split at hstep
          · cases hstep
          · next hnone =>
              cases hstep
              cases hs with
              | capturing hs =>
                  obtain ⟨rest, rfl⟩ := hs.top_of_last hrequest rfl hmeets
                  have hqueue := hs.queue
                  cases hqueue with
                  | empty hwaiting hall =>
                      obtain rfl : captured = produced := hall id _ hrequest rfl
                      exact .capturing (hs.finish hrequest hwaiting)
                  | next _ hwaiting _ _ =>
                      rw [hwaiting] at hnone
                      exact absurd ⟨_, List.mem_singleton_self _, rfl, rfl⟩ hnone
              | serving hs => exact (hs.not_handling hrequest rfl).elim
      · cases hstep
  | lineSends frame =>
      rw [step] at hstep
      split at hstep
      · next hstarted =>
          cases hstep
          cases hs with
          | capturing hs => cases hs.notStarted.symm.trans hstarted
          | serving hs => exact .serving hs.lineSends
      · cases hstep
  | attempts =>
      simp only [step] at hstep
      split at hstep
      · next chunk waiting hdrain hwaiting =>
          cases hstep
          cases hs with
          | capturing hs => exact .capturing (hs.attempts hwaiting)
          | serving hs => exact .serving (hs.attempts hwaiting)
      · cases hstep
  | settles =>
      simp only [step] at hstep
      split at hstep
      · cases hstep
        cases hs with
        | capturing hs => exact .capturing hs.settles
        | serving hs => exact .serving hs.settles
      · cases hstep

theorem phase_init (started : Bool) : Phase (.init started) := by
  have hnone : ∀ (id : ℕ) (request : Request), ([] : List Request)[id]? ≠ some request := by
    intro id request hrequest
    cases hrequest
  have hbodies : Bodies [] := fun id request _ hrequest => absurd hrequest (hnone id request)
  cases started with
  | true =>
      refine .serving ⟨rfl, ?_, rfl, rfl, fun _ => rfl, ?_, rfl, hbodies⟩
      · exact fun request hrequest => absurd hrequest List.not_mem_nil
      · exact fun chunk hchunk => absurd hchunk List.not_mem_nil
  | false =>
      suffices hs : Capturing (.init false) [] from .capturing hs
      refine ⟨rfl, trivial, ?_, rfl, fun _ => rfl, ?_, ?_, rfl, rfl, .empty rfl ?_, hbodies⟩
      · exact fun id request hrequest => absurd hrequest (hnone id request)
      · exact fun _ _ hstack => by cases hstack
      · exact fun _ _ hstack => by cases hstack
      · exact fun id request hrequest => absurd hrequest (hnone id request)

theorem isolated_of_phase (hs : Phase s) : Isolated s := by
  cases hs with
  | capturing hs =>
      refine ⟨hs.bodies, ?_, fun hidle => ?_⟩
      · have hfilter : s.waiting.filter Chunk.isLine = [] := by
          have hqueue := hs.queue
          cases hqueue with
          | empty hwaiting hall | next _ hwaiting _ _ =>
              rw [hwaiting]
              rfl
        rw [hfilter, hs.peer, hs.lines]
        rfl
      · have hstack := hs.linked.eq_nil_of_idle hidle
        have hstdout := hs.stdout
        rw [hstack] at hstdout
        rw [hs.notStarted]
        exact ⟨hstdout, hs.closed hstack⟩
  | serving hs =>
      refine ⟨hs.bodies, ?_, fun _ => ?_⟩
      · rw [List.filter_eq_self.mpr hs.owned]
        exact hs.peer
      · rw [hs.started]
        exact ⟨hs.stdout, hs.opened⟩

/-- As long as captures are nested and the stdio transport does not run, clients are
isolated. -/
theorem alwaysIsolated_nested (started : Bool) : AlwaysIsolated started Nested := by
  intro s hreach
  have hphase : Phase s :=
    hreach.preserves (fun _ _ _ hs hmeets hstep => phase_step hs hmeets hstep)
      (phase_init started)
  exact isolated_of_phase hphase

def overlapping : List Action := [.enters, .enters, .sends 0 "first", .returns 0, .returns 1]

/-- The second client gets the answer of the first, which gets nothing. -/
theorem not_alwaysIsolated_anyStep : ¬ ∀ started, AlwaysIsolated started anyStep := by
  intro hisolated
  have hrun : (run step (.init false) overlapping).map (fun s => s.requests[0]?) =
      some (some ⟨true, ["first"], [], .finished []⟩) := by decide
  obtain ⟨s, hreach, hrequest⟩ := exists_reaches_of_run hrun
  cases (hisolated false s hreach).bodies 0 _ [] hrequest rfl

end HttpCapture

end X402Facilitator.Mcp
