import Mathlib.Data.List.Induction
import Mathlib.Data.List.ReduceOption
import X402Facilitator.Library.Execution

/-!
# The single writer

Responses are written to stdout one after another.  A write that the stream buffers parks the
chain of promises until the stream has drained, and the flag that input has ended is looked at
when a link of the chain runs, not when its frame was handed over.
-/

namespace X402Facilitator.Mcp

open Execution

/-- A call of `_write`, by the promise that it returns. -/
inductive Link (Frame : Type) where
  | waiting (frame : Frame)
  | parked
  | resolved
  deriving DecidableEq

/-- A line of input; a request is known by the response that it comes to, and a notification has
none. -/
inductive InputLine (Frame : Type) where
  | blank
  | request (response : Option Frame)
  deriving DecidableEq

/-- The stdio side of a server that has been started. -/
structure StdioServer (Frame : Type) where
  /-- `_open` -/
  isOpen : Bool
  /-- The reader of lines has been closed. -/
  inputClosed : Bool
  /-- The requests behind `tail` that have not been answered, in order. -/
  requests : List (Option Frame)
  /-- The promises behind `_drain`, in order. -/
  drain : List (Link Frame)
  /-- What stdout has been given. -/
  written : List Frame
  deriving DecidableEq

inductive StdioEvent (Frame : Type) where
  | line (line : InputLine Frame)
  /-- The handler of the first request settles. -/
  | answer (ok : Bool)
  /-- A frame is handed to `_write` by others. -/
  | give (frame : Frame) (ok : Bool)
  /-- A link of the chain runs; `ok` is what stdout returns. -/
  | proceed (index : ℕ) (ok : Bool)
  | drained
  | endInput
  | epipe
  | close

namespace StdioServer

variable {Frame : Type}

def started : StdioServer Frame := ⟨true, false, [], [], []⟩

/-- The body of `attempt`, with what becomes of its promise. -/
def attempt (server : StdioServer Frame) (frame : Frame) (ok : Bool) :
    StdioServer Frame × Link Frame :=
  if server.isOpen then
    ({ server with written := server.written ++ [frame] }, if ok then .resolved else .parked)
  else (server, .resolved)

def write (server : StdioServer Frame) (frame : Frame) (ok : Bool) : StdioServer Frame :=
  match server.drain with
  | [] =>
      let (next, link) := server.attempt frame ok
      { next with drain := [link] }
  | links => { server with drain := links ++ [.waiting frame] }

def released : Link Frame → Link Frame
  | .parked => .resolved
  | link => link

def releaseAll (server : StdioServer Frame) : StdioServer Frame :=
  { server with drain := server.drain.map released }

/-- What an EPIPE and `close` do. -/
def stop (server : StdioServer Frame) : StdioServer Frame :=
  { server.releaseAll with isOpen := false, inputClosed := true }

/-- A link runs once the one before it has resolved. -/
def proceed (server : StdioServer Frame) (index : ℕ) (ok : Bool) : Option (StdioServer Frame) :=
  match server.drain[index]? with
  | some (.waiting frame) =>
      if index = 0 ∨ server.drain[index - 1]?.map (· matches .resolved) = some true then
        let (next, link) := server.attempt frame ok
        some { next with drain := next.drain.set index link }
      else none
  | _ => none

def step (server : StdioServer Frame) : StdioEvent Frame → Option (StdioServer Frame)
  | .line .blank => some server
  | .line (.request response) => some { server with requests := server.requests ++ [response] }
  | .answer ok =>
      match server.requests with
      | [] => none
      | none :: requests => some { server with requests }
      | some frame :: requests => some ({ server with requests }.write frame ok)
  | .give frame ok => some (server.write frame ok)
  | .proceed index ok => server.proceed index ok
  | .drained => some server.releaseAll
  | .endInput =>
      if server.inputClosed then none
      else some { server with isOpen := false, inputClosed := true }
  | .epipe => some server.stop
  | .close => some server.stop

end StdioServer

section Promises

variable {Frame : Type}

/-- What is to be written of what came before the end of input. -/
structure Ledger (Frame : Type) where
  ended : Bool
  /-- The responses of requests that were read in time and are not answered yet. -/
  owed : List (Option Frame)
  /-- The frames that have been accepted. -/
  due : List Frame

def Ledger.enter (ledger : Ledger Frame) : StdioEvent Frame → Ledger Frame
  | .line (.request response) =>
      if ledger.ended then ledger else { ledger with owed := ledger.owed ++ [response] }
  | .answer _ =>
      match ledger.owed with
      | [] => ledger
      | response :: owed => { ledger with owed, due := ledger.due ++ response.toList }
  | .give frame _ => if ledger.ended then ledger else { ledger with due := ledger.due ++ [frame] }
  | .endInput => { ledger with ended := true }
  | _ => ledger

def ledgerOf (events : List (StdioEvent Frame)) : Ledger Frame :=
  events.foldl Ledger.enter ⟨false, [], []⟩

def Ledger.promised (ledger : Ledger Frame) : List Frame :=
  ledger.due ++ ledger.owed.reduceOption

/-- What the server does by itself, with a stream that drains. -/
def StdioEvent.IsInternal : StdioEvent Frame → Prop
  | .answer _ | .proceed _ _ | .drained => True
  | _ => False

def StdioEvent.IsProceed : StdioEvent Frame → Prop
  | .proceed _ _ => True
  | _ => False

def StdioEvent.IsFailure : StdioEvent Frame → Prop
  | .epipe | .close => True
  | _ => False

def Unfailing (events : List (StdioEvent Frame)) : Prop := ∀ event ∈ events, ¬ event.IsFailure

namespace StdioServer

def Flushed (server : StdioServer Frame) : Prop := ∀ link ∈ server.drain, link = .resolved

def AtRest (server : StdioServer Frame) : Prop := server.Flushed ∧ server.requests = []

end StdioServer

/-- The writer after some events: one write at a time is outstanding, what is written is the
beginning of what is promised, it is all of it once the server has come to rest, which it does,
and an EPIPE or `close` releases every promise. -/
structure Serves (events : List (StdioEvent Frame)) (server : StdioServer Frame) : Prop where
  single : server.drain.countP (· matches .parked) ≤ 1
  ordered : Unfailing events → server.written <+: (ledgerOf events).promised
  delivered : Unfailing events → ∀ later finished, (∀ event ∈ later, event.IsInternal) →
    run StdioServer.step server later = some finished → finished.AtRest →
      finished.written = (ledgerOf events).promised
  rests : ∃ later finished, (∀ event ∈ later, event.IsInternal) ∧
    run StdioServer.step server later = some finished ∧ finished.AtRest
  released : ¬ Unfailing events → server.drain.countP (· matches .parked) = 0 ∧
    ∃ later finished, (∀ event ∈ later, event.IsProceed) ∧
      run StdioServer.step server later = some finished ∧ finished.Flushed

/-- Where input ends, no frame waits in the chain and no request with a response is open. -/
def EndsIdle (events : List (StdioEvent Frame)) : Prop :=
  ∀ before after server, events = before ++ .endInput :: after →
    run StdioServer.step .started before = some server →
      (∀ link ∈ server.drain, ∀ frame, link ≠ .waiting frame) ∧
        ∀ response ∈ server.requests, response = none

end Promises

section Chains

variable {Frame : Type} {server next : StdioServer Frame} {event : StdioEvent Frame}

structure Queue (Frame : Type) where
  finished : ℕ
  parked : Bool
  frames : List Frame

def Queue.links (queue : Queue Frame) : List (Link Frame) :=
  List.replicate queue.finished .resolved ++
    ((if queue.parked then [.parked] else []) ++ queue.frames.map .waiting)

variable {queue : Queue Frame} {frame : Frame} {index finished : ℕ} {frames : List Frame}
  {ok : Bool} {ledger : Ledger Frame}

theorem links_eq_nil (hnil : queue.links = []) : queue = ⟨0, false, []⟩ := by
  obtain ⟨finished, parked, frames⟩ := queue
  obtain ⟨hfinished, hrest⟩ := List.append_eq_nil_iff.mp hnil
  obtain ⟨hparked, hframes⟩ := List.append_eq_nil_iff.mp hrest
  have hzero : finished = 0 := by simpa using hfinished
  have hfalse : parked = false := by simpa using hparked
  have hempty : frames = [] := by simpa using hframes
  rw [hzero, hfalse, hempty]

theorem countP_links (queue : Queue Frame) :
    queue.links.countP (· matches .parked) = if queue.parked then 1 else 0 := by
  have hresolved : (List.replicate queue.finished (Link.resolved : Link Frame)).countP
      (· matches .parked) = 0 := by
    rw [List.countP_eq_zero]
    intro link hlink
    rw [List.eq_of_mem_replicate hlink]
    exact Bool.false_ne_true
  have hwaiting : (queue.frames.map Link.waiting).countP (· matches .parked) = 0 := by
    rw [List.countP_eq_zero]
    intro link hlink
    obtain ⟨frame, -, rfl⟩ := List.mem_map.mp hlink
    simp
  rw [Queue.links, List.countP_append, List.countP_append, hresolved, hwaiting]
  cases queue.parked <;> simp

theorem getElem?_links_add (queue : Queue Frame) (later : ℕ) :
    queue.links[queue.finished + later]? =
      ((if queue.parked then [.parked] else []) ++ queue.frames.map .waiting)[later]? := by
  rw [Queue.links, List.getElem?_append_right (by simp), List.length_replicate,
    Nat.add_sub_cancel_left]

theorem getElem?_links_ne_resolved (queue : Queue Frame) (later : ℕ) :
    queue.links[queue.finished + later]?.map (· matches .resolved) ≠ some true := by
  intro hresolved
  obtain ⟨link, hlink, hmatches⟩ := Option.map_eq_some_iff.mp hresolved
  rw [getElem?_links_add] at hlink
  rcases List.mem_append.mp (List.mem_of_getElem? hlink) with hparked | hwaiting
  · split at hparked
    · rw [List.mem_singleton.mp hparked] at hmatches
      cases hmatches
    · cases hparked
  · obtain ⟨frame, -, rfl⟩ := List.mem_map.mp hwaiting
    cases hmatches

/-- A link that runs is the first that waits, with no other one parked. -/
theorem of_getElem?_links (hlink : queue.links[index]? = some (.waiting frame))
    (hbefore : index = 0 ∨ queue.links[index - 1]?.map (· matches .resolved) = some true) :
    index = queue.finished ∧ queue.parked = false ∧ ∃ frames, queue.frames = frame :: frames := by
  rcases Nat.lt_trichotomy index queue.finished with hearly | rfl | hlate
  · rw [Queue.links, List.getElem?_append_left (by simpa using hearly),
      List.getElem?_replicate_of_lt hearly] at hlink
    cases hlink
  · have hfirst := getElem?_links_add queue 0
    rw [Nat.add_zero, hlink] at hfirst
    cases hparked : queue.parked with
    | true =>
        rw [hparked] at hfirst
        cases hfirst
    | false =>
        rw [hparked] at hfirst
        cases hframes : queue.frames with
        | nil =>
            rw [hframes] at hfirst
            cases hfirst
        | cons first frames =>
            rw [hframes] at hfirst
            cases hfirst
            exact ⟨rfl, rfl, frames, rfl⟩
  · obtain ⟨later, hlater⟩ := Nat.exists_eq_add_of_lt hlate
    rcases hbefore with hzero | hresolved
    · omega
    · have hindex : index - 1 = queue.finished + later := by omega
      rw [hindex] at hresolved
      exact absurd hresolved (getElem?_links_ne_resolved queue later)

theorem set_links (link : Link Frame) :
    (Queue.links ⟨finished, false, frame :: frames⟩).set finished link =
      List.replicate finished .resolved ++ link :: frames.map .waiting := by
  rw [Queue.links]
  simp

theorem map_released (queue : Queue Frame) :
    queue.links.map StdioServer.released =
      Queue.links ⟨queue.finished + if queue.parked then 1 else 0, false, queue.frames⟩ := by
  have hwaiting : (queue.frames.map Link.waiting).map StdioServer.released =
      queue.frames.map .waiting := by
    rw [List.map_map]
    rfl
  rw [Queue.links, Queue.links, List.map_append, List.map_append, List.map_replicate, hwaiting]
  cases queue.parked with
  | false => rfl
  | true =>
      rw [if_pos rfl, if_pos rfl, List.replicate_add, List.append_assoc]
      rfl

/-- What a move of the chain does: with input open, frames are written in the order in which
they were given, and afterwards nothing is. -/
structure Moves (server next : StdioServer Frame) (queue later : Queue Frame)
    (given : List Frame) : Prop where
  drain : next.drain = later.links
  isOpen : next.isOpen = server.isOpen
  inputClosed : next.inputClosed = server.inputClosed
  requests : next.requests = server.requests
  writing : server.isOpen = true → next.written ++ later.frames =
    server.written ++ queue.frames ++ given
  closed : server.isOpen = false → next.written = server.written
  parked : server.isOpen = false → queue.parked = false → later.parked = false

theorem Moves.write (hqueue : server.drain = queue.links) (frame : Frame) (ok : Bool) :
    ∃ later, Moves server (server.write frame ok) queue later [frame] := by
  cases hdrain : server.drain with
  | nil =>
      have hempty := links_eq_nil (hqueue.symm.trans hdrain)
      cases hopen : server.isOpen with
      | false =>
          refine ⟨⟨1, false, []⟩, ?_⟩
          constructor <;> simp [StdioServer.write, StdioServer.attempt, hdrain, hopen, Queue.links]
      | true =>
          refine ⟨⟨if ok then 1 else 0, !ok, []⟩, ?_⟩
          constructor <;> cases ok <;>
            simp [StdioServer.write, StdioServer.attempt, hdrain, hopen, hempty, Queue.links]
  | cons first links =>
      refine ⟨{ queue with frames := queue.frames ++ [frame] }, ?_⟩
      have hwrite : server.write frame ok =
          { server with drain := server.drain ++ [.waiting frame] } := by
        rw [StdioServer.write, hdrain]
      rw [hwrite]
      constructor <;> simp [hqueue, Queue.links]

@[simp]
theorem attempt_drain (server : StdioServer Frame) (frame : Frame) (ok : Bool) :
    (server.attempt frame ok).1.drain = server.drain := by
  rw [StdioServer.attempt]
  split <;> rfl

/-- The first frame that waits is attempted. -/
theorem proceed_eq (hqueue : server.drain = Queue.links ⟨finished, false, frame :: frames⟩)
    (ok : Bool) : server.proceed finished ok = some { (server.attempt frame ok).1 with
      drain := List.replicate finished .resolved ++
        (server.attempt frame ok).2 :: frames.map .waiting } := by
  have hlink : server.drain[finished]? = some (.waiting frame) := by
    rw [hqueue]
    exact getElem?_links_add ⟨finished, false, frame :: frames⟩ 0
  have hbefore : finished = 0 ∨
      server.drain[finished - 1]?.map (· matches .resolved) = some true := by
    cases finished with
    | zero => exact .inl rfl
    | succ before =>
        right
        rw [hqueue, Nat.add_sub_cancel, Queue.links, List.getElem?_append_left (by simp),
          List.getElem?_replicate_of_lt (Nat.lt_succ_self before)]
        rfl
  rw [StdioServer.proceed, hlink]
  simp only [if_pos hbefore, attempt_drain]
  rw [hqueue, set_links]

/-- Only the first frame that waits is attempted, and with no write outstanding. -/
theorem of_proceed (hqueue : server.drain = queue.links)
    (hnext : server.proceed index ok = some next) : index = queue.finished ∧ queue.parked = false ∧
      ∃ frame frames, queue.frames = frame :: frames := by
  rw [StdioServer.proceed] at hnext
  split at hnext
  · next frame hlink =>
      split at hnext
      · next hbefore =>
          rw [hqueue] at hlink hbefore
          obtain ⟨hindex, hparked, hframes⟩ := of_getElem?_links hlink hbefore
          exact ⟨hindex, hparked, frame, hframes⟩
      · cases hnext
  · cases hnext

theorem Moves.proceed (hqueue : server.drain = queue.links)
    (hnext : server.proceed index ok = some next) : ∃ later, Moves server next queue later [] := by
  obtain ⟨rfl, hparked, frame, frames, hframes⟩ := of_proceed hqueue hnext
  obtain ⟨finished, parked, waiting⟩ := queue
  obtain rfl : parked = false := hparked
  obtain rfl : waiting = frame :: frames := hframes
  rw [proceed_eq hqueue] at hnext
  obtain rfl := Option.some.inj hnext
  cases hopen : server.isOpen with
  | false =>
      refine ⟨⟨finished + 1, false, frames⟩, ?_⟩
      constructor <;> simp [StdioServer.attempt, hopen, Queue.links, List.replicate_add]
  | true =>
      refine ⟨⟨finished + if ok then 1 else 0, !ok, frames⟩, ?_⟩
      constructor <;> cases ok <;>
        simp [StdioServer.attempt, hopen, Queue.links, List.replicate_add]

theorem Moves.releaseAll (hqueue : server.drain = queue.links) :
    Moves server server.releaseAll queue
      ⟨queue.finished + if queue.parked then 1 else 0, false, queue.frames⟩ [] := by
  constructor <;> simp [StdioServer.releaseAll, hqueue, map_released]

def StdioEvent.given (server : StdioServer Frame) : StdioEvent Frame → List Frame
  | .answer _ => server.requests.head?.join.toList
  | .give frame _ => [frame]
  | _ => []

def StdioEvent.left (server : StdioServer Frame) : StdioEvent Frame → List (Option Frame)
  | .line (.request response) => server.requests ++ [response]
  | .answer _ => server.requests.tail
  | _ => server.requests

theorem Moves.refl (hqueue : server.drain = queue.links) : Moves server server queue queue [] := by
  constructor <;> simp [hqueue]

/-- An event that does not close the input is a move of the chain. -/
theorem Moves.step (hqueue : server.drain = queue.links) (hfailure : ¬ event.IsFailure)
    (hend : event ≠ .endInput) (hstep : server.step event = some next) : ∃ later,
      Moves { server with requests := event.left server } next queue later
        (event.given server) := by
  cases event with
  | line line =>
      cases line with
      | blank | request response =>
          cases hstep
          exact ⟨queue, Moves.refl hqueue⟩
  | answer ok =>
      rw [StdioServer.step] at hstep
      rw [StdioEvent.left, StdioEvent.given]
      cases hrequests : server.requests with
      | nil => simp [hrequests] at hstep
      | cons response requests =>
          rw [hrequests] at hstep
          cases response with
          | none =>
              cases hstep
              exact ⟨queue, Moves.refl hqueue⟩
          | some frame =>
              cases hstep
              have hsame : ({ server with requests } : StdioServer Frame).drain = queue.links :=
                hqueue
              exact Moves.write hsame frame ok
  | give frame ok =>
      cases hstep
      exact Moves.write hqueue frame ok
  | proceed index ok => exact Moves.proceed hqueue hstep
  | drained =>
      cases hstep
      exact ⟨_, Moves.releaseAll hqueue⟩
  | endInput => exact absurd rfl hend
  | epipe => exact absurd trivial hfailure
  | close => exact absurd trivial hfailure

theorem ledgerOf_append (events : List (StdioEvent Frame)) (event : StdioEvent Frame) :
    ledgerOf (events ++ [event]) = (ledgerOf events).enter event := List.foldl_concat ..

/-- After the end of input nothing more is promised. -/
theorem enter_of_ended (hended : ledger.ended = true) (event : StdioEvent Frame) :
    (ledger.enter event).ended = true ∧ (ledger.enter event).promised = ledger.promised := by
  obtain ⟨ended, owed, due⟩ := ledger
  obtain rfl : ended = true := hended
  cases event with
  | line line => cases line <;> exact ⟨rfl, rfl⟩
  | answer ok =>
      cases owed with
      | nil => exact ⟨rfl, rfl⟩
      | cons response owed =>
          refine ⟨rfl, ?_⟩
          cases response with
          | none | some frame => simp [Ledger.enter, Ledger.promised]
  | give frame ok | proceed index ok | drained | endInput | epipe | close => exact ⟨rfl, rfl⟩

/-- Before the end of input all that is handed over is promised. -/
theorem enter_of_open (hopen : ledger.ended = false) (howed : server.requests = ledger.owed)
    (hend : event ≠ .endInput) :
    ledger.enter event = ⟨false, event.left server, ledger.due ++ event.given server⟩ := by
  obtain ⟨ended, owed, due⟩ := ledger
  obtain rfl : ended = false := hopen
  obtain rfl : server.requests = owed := howed
  cases event with
  | line line => cases line <;> simp [Ledger.enter, StdioEvent.left, StdioEvent.given]
  | answer ok =>
      cases hrequests : server.requests <;>
        simp [Ledger.enter, StdioEvent.left, StdioEvent.given, hrequests]
  | give frame ok => rfl
  | proceed index ok | drained => simp [Ledger.enter, StdioEvent.left, StdioEvent.given]
  | endInput => exact absurd rfl hend
  | epipe | close => simp [Ledger.enter, StdioEvent.left, StdioEvent.given]

theorem unfailing_append {events : List (StdioEvent Frame)} :
    Unfailing (events ++ [event]) ↔ Unfailing events ∧ ¬ event.IsFailure := by
  rw [Unfailing, List.forall_mem_append, List.forall_mem_singleton, Unfailing]

end Chains

end X402Facilitator.Mcp
