import X402Facilitator.Mcp.Writer

/-!
# Runs of the writer

While no write fails, what has been written is a prefix of what was promised, and a server that
is left alone comes to rest.  Frames are lost exactly where input ends with something under way.
-/

namespace X402Facilitator.Mcp

open Execution

section Chains

variable {Frame : Type} {server next : StdioServer Frame} {event : StdioEvent Frame}

structure Kept (events : List (StdioEvent Frame)) (server : StdioServer Frame)
    (queue : Queue Frame) : Prop where
  drain : server.drain = queue.links
  stopped : ¬ Unfailing events → server.isOpen = false ∧ queue.parked = false
  flags : Unfailing events → server.isOpen = !(ledgerOf events).ended ∧
    server.inputClosed = (ledgerOf events).ended
  opened : Unfailing events → (ledgerOf events).ended = false →
    server.written ++ queue.frames = (ledgerOf events).due ∧
      server.requests = (ledgerOf events).owed
  ordered : Unfailing events → server.written <+: (ledgerOf events).promised

theorem Kept.start : Kept [] (.started : StdioServer Frame) ⟨0, false, []⟩ where
  drain := rfl
  stopped := fun hfailing => absurd (fun _ hevent => absurd hevent List.not_mem_nil) hfailing
  flags := fun _ => ⟨rfl, rfl⟩
  opened := fun _ _ => ⟨rfl, rfl⟩
  ordered := fun _ => List.nil_prefix

variable {queue : Queue Frame}

theorem Kept.failure {events : List (StdioEvent Frame)} (hkept : Kept events server queue)
    (hfailure : event.IsFailure) : ∃ later, Kept (events ++ [event]) server.stop later := by
  refine ⟨⟨queue.finished + if queue.parked then 1 else 0, false, queue.frames⟩,
    (Moves.releaseAll hkept.drain).drain, fun _ => ⟨rfl, rfl⟩, ?_, ?_, ?_⟩
  all_goals
    intro hunfailing
    exact absurd hfailure (unfailing_append.mp hunfailing).2

theorem Kept.endInput {events : List (StdioEvent Frame)} (hkept : Kept events server queue) :
    Kept (events ++ [.endInput]) { server with isOpen := false, inputClosed := true } queue where
  drain := hkept.drain
  stopped := fun hfailing => ⟨rfl, (hkept.stopped fun hunfailing =>
    hfailing (unfailing_append.mpr ⟨hunfailing, not_false⟩)).2⟩
  flags := fun _ => by
    rw [ledgerOf_append]
    exact ⟨rfl, rfl⟩
  opened := fun _ hopen => by
    rw [ledgerOf_append] at hopen
    cases hopen
  ordered := fun hunfailing => by
    rw [ledgerOf_append]
    exact hkept.ordered (unfailing_append.mp hunfailing).1

theorem Kept.move {events : List (StdioEvent Frame)} {queue later : Queue Frame}
    (hkept : Kept events server queue) (hfailure : ¬ event.IsFailure) (hend : event ≠ .endInput)
    (hmoves : Moves { server with requests := event.left server } next queue later
      (event.given server)) : Kept (events ++ [event]) next later := by
  have hopenEnds : Unfailing events → (ledgerOf events).ended = false →
      ledgerOf (events ++ [event]) =
        ⟨false, event.left server, (ledgerOf events).due ++ event.given server⟩ := by
    intro hunfailing hopen
    rw [ledgerOf_append]
    exact enter_of_open hopen (hkept.opened hunfailing hopen).2 hend
  have hended : (ledgerOf events).ended = true → (ledgerOf (events ++ [event])).ended = true ∧
      (ledgerOf (events ++ [event])).promised = (ledgerOf events).promised := by
    intro hended
    rw [ledgerOf_append]
    exact enter_of_ended hended event
  have hwriting : Unfailing events → (ledgerOf events).ended = false →
      next.written ++ later.frames = (ledgerOf events).due ++ event.given server := by
    intro hunfailing hopen
    have hisOpen : server.isOpen = true := by rw [(hkept.flags hunfailing).1, hopen, Bool.not_false]
    rw [hmoves.writing hisOpen, (hkept.opened hunfailing hopen).1]
  constructor
  · exact hmoves.drain
  · intro hfailing
    obtain ⟨hclosed, hparked⟩ := hkept.stopped fun hunfailing =>
      hfailing (unfailing_append.mpr ⟨hunfailing, hfailure⟩)
    exact ⟨hmoves.isOpen.trans hclosed, hmoves.parked hclosed hparked⟩
  · intro hunfailing
    have hbefore := (unfailing_append.mp hunfailing).1
    have hflags := hkept.flags hbefore
    have hsame : (ledgerOf (events ++ [event])).ended = (ledgerOf events).ended := by
      cases hledger : (ledgerOf events).ended with
      | false => rw [hopenEnds hbefore hledger]
      | true => exact (hended hledger).1
    rw [hsame]
    exact ⟨hmoves.isOpen.trans hflags.1, hmoves.inputClosed.trans hflags.2⟩
  · intro hunfailing hopen
    have hbefore := (unfailing_append.mp hunfailing).1
    have hledger : (ledgerOf events).ended = false := by
      by_contra hcontra
      rw [(hended (Bool.of_not_eq_false hcontra)).1] at hopen
      cases hopen
    rw [hopenEnds hbefore hledger]
    exact ⟨hwriting hbefore hledger, hmoves.requests⟩
  · intro hunfailing
    have hbefore := (unfailing_append.mp hunfailing).1
    cases hledger : (ledgerOf events).ended with
    | false =>
        rw [hopenEnds hbefore hledger, Ledger.promised]
        have hprefix : next.written <+: (ledgerOf events).due ++ event.given server :=
          ⟨later.frames, hwriting hbefore hledger⟩
        exact hprefix.trans (List.prefix_append _ _)
    | true =>
        have hclosed : server.isOpen = false := by
          rw [(hkept.flags hbefore).1, hledger, Bool.not_true]
        rw [(hended hledger).2, hmoves.closed hclosed]
        exact hkept.ordered hbefore

theorem run_concat {events : List (StdioEvent Frame)}
    (hrun : run StdioServer.step .started (events ++ [event]) = some next) :
    ∃ before, run StdioServer.step .started events = some before ∧
      before.step event = some next := by
  rw [run_append] at hrun
  obtain ⟨before, hbefore, hstep⟩ := Option.bind_eq_some_iff.mp hrun
  rw [run, Option.bind_eq_some_iff] at hstep
  obtain ⟨after, hafter, hsame⟩ := hstep
  obtain rfl := Option.some.inj hsame
  exact ⟨before, hbefore, hafter⟩

/-- Every run keeps the chain and the ledger in step. -/
theorem kept_of_run {events : List (StdioEvent Frame)}
    (hrun : run StdioServer.step .started events = some server) :
    ∃ queue, Kept events server queue := by
  induction events using List.reverseRecOn generalizing server with
  | nil =>
      cases hrun
      exact ⟨_, Kept.start⟩
  | append_singleton events event ih =>
      obtain ⟨before, hbefore, hstep⟩ := run_concat hrun
      obtain ⟨queue, hkept⟩ := ih hbefore
      by_cases hend : event = .endInput
      · subst hend
        rw [StdioServer.step] at hstep
        split at hstep
        · cases hstep
        · cases hstep
          exact ⟨queue, hkept.endInput⟩
      · by_cases hfailure : event.IsFailure
        · obtain ⟨later, hlater⟩ := hkept.failure hfailure
          have hstop : server = before.stop := by
            cases event <;> first | exact hfailure.elim | exact (Option.some.inj hstep).symm
          rw [hstop]
          exact ⟨later, hlater⟩
        · obtain ⟨later, hmoves⟩ := Moves.step hkept.drain hfailure hend hstep
          exact ⟨later, hkept.move hfailure hend hmoves⟩

theorem frames_of_flushed (hqueue : server.drain = queue.links) (hflushed : server.Flushed) :
    queue.frames = [] := by
  rw [List.eq_nil_iff_forall_not_mem]
  intro frame hframe
  have hmem : Link.waiting frame ∈ server.drain := by
    rw [hqueue, Queue.links]
    exact List.mem_append_right _ (List.mem_append_right _ (List.mem_map_of_mem hframe))
  cases hflushed _ hmem

/-- Without a write that is outstanding the chain runs to its end by itself. -/
theorem exists_flushed (hqueue : server.drain = queue.links) (hparked : queue.parked = false) :
    ∃ later finished, (∀ event ∈ later, event.IsProceed) ∧
      run StdioServer.step server later = some finished ∧ finished.Flushed ∧
        finished.requests = server.requests := by
  obtain ⟨count, parked, frames⟩ := queue
  obtain rfl : parked = false := hparked
  induction frames generalizing server count with
  | nil =>
      refine ⟨[], server, fun _ hevent => absurd hevent List.not_mem_nil, rfl, ?_, rfl⟩
      intro link hlink
      rw [hqueue, Queue.links] at hlink
      exact List.eq_of_mem_replicate (by simpa using hlink)
  | cons frame frames ih =>
      have hproceed := proceed_eq hqueue true
      have hresolved : (server.attempt frame true).2 = .resolved := by
        rw [StdioServer.attempt]
        split <;> rfl
      have hrequests : (server.attempt frame true).1.requests = server.requests := by
        rw [StdioServer.attempt]
        split <;> rfl
      rw [hresolved] at hproceed
      have hdrain : ({ (server.attempt frame true).1 with
          drain := List.replicate count .resolved ++ .resolved :: frames.map .waiting } :
            StdioServer Frame).drain = Queue.links ⟨count + 1, false, frames⟩ := by
        simp [Queue.links, List.replicate_add]
      obtain ⟨later, finished, hlater, hrun, hflushed, hsame⟩ := ih (count + 1) hdrain
      refine ⟨.proceed count true :: later, finished, ?_, ?_, hflushed, hsame.trans hrequests⟩
      · exact List.forall_mem_cons.mpr ⟨trivial, hlater⟩
      · rw [run, StdioServer.step, hproceed]
        exact hrun

theorem isInternal_of_isProceed (hevent : event.IsProceed) : event.IsInternal := by
  cases event with
  | proceed index ok => trivial
  | _ => cases hevent

/-- A server comes to rest by itself where the stream drains. -/
theorem exists_rest (hqueue : server.drain = queue.links) :
    ∃ later finished, (∀ event ∈ later, event.IsInternal) ∧
      run StdioServer.step server later = some finished ∧ finished.AtRest := by
  generalize hrequests : server.requests = requests
  induction requests generalizing server queue with
  | nil =>
      obtain ⟨later, finished, hlater, hrun, hflushed, hsame⟩ :=
        exists_flushed (Moves.releaseAll hqueue).drain rfl
      refine ⟨.drained :: later, finished, ?_, hrun, hflushed, hsame.trans hrequests⟩
      exact List.forall_mem_cons.mpr
        ⟨trivial, fun event hevent => isInternal_of_isProceed (hlater event hevent)⟩
  | cons response requests ih =>
      have hanswer : ∃ next, server.step (.answer true) = some next := by
        rw [StdioServer.step, hrequests]
        cases response with
        | none => exact ⟨_, rfl⟩
        | some frame => exact ⟨_, rfl⟩
      obtain ⟨next, hnext⟩ := hanswer
      obtain ⟨moved, hmoves⟩ := Moves.step hqueue id (fun heq => by cases heq) hnext
      have hleft : next.requests = requests := by
        rw [hmoves.requests, StdioEvent.left, hrequests, List.tail_cons]
      obtain ⟨later, finished, hlater, hrun, hrest⟩ := ih hmoves.drain hleft
      refine ⟨.answer true :: later, finished, List.forall_mem_cons.mpr ⟨trivial, hlater⟩, ?_,
        hrest⟩
      rw [run, hnext]
      exact hrun

theorem promised_of_ended {ledger : Ledger Frame} (hended : ledger.ended = true)
    (events : List (StdioEvent Frame)) :
    (events.foldl Ledger.enter ledger).ended = true ∧
      (events.foldl Ledger.enter ledger).promised = ledger.promised := by
  induction events generalizing ledger with
  | nil => exact ⟨hended, rfl⟩
  | cons event events ih =>
      have henter := enter_of_ended hended event
      have hrest := ih henter.1
      exact ⟨hrest.1, hrest.2.trans henter.2⟩

/-- What the server does by itself promises nothing more. -/
theorem promised_of_internal (ledger : Ledger Frame) {later : List (StdioEvent Frame)}
    (hlater : ∀ event ∈ later, event.IsInternal) :
    (later.foldl Ledger.enter ledger).ended = ledger.ended ∧
      (later.foldl Ledger.enter ledger).promised = ledger.promised := by
  induction later generalizing ledger with
  | nil => exact ⟨rfl, rfl⟩
  | cons event later ih =>
      obtain ⟨hevent, hrest⟩ := List.forall_mem_cons.mp hlater
      obtain ⟨hended, hpromised⟩ := ih (ledger.enter event) hrest
      have henter : (ledger.enter event).ended = ledger.ended ∧
          (ledger.enter event).promised = ledger.promised := by
        obtain ⟨ended, owed, due⟩ := ledger
        cases event with
        | answer ok =>
            cases owed with
            | nil => exact ⟨rfl, rfl⟩
            | cons response owed =>
                cases response <;> simp [Ledger.enter, Ledger.promised]
        | proceed index ok => exact ⟨rfl, rfl⟩
        | drained => exact ⟨rfl, rfl⟩
        | _ => cases hevent
      exact ⟨hended.trans henter.1, hpromised.trans henter.2⟩

theorem step_of_closed (hqueue : server.drain = queue.links) (hclosed : server.isOpen = false)
    (hstep : server.step event = some next) : next.isOpen = false ∧ next.written = server.written ∧
      ∃ later : Queue Frame, next.drain = later.links := by
  by_cases hend : event = .endInput
  · subst hend
    rw [StdioServer.step] at hstep
    split at hstep
    · cases hstep
    · cases hstep
      exact ⟨rfl, rfl, queue, hqueue⟩
  · by_cases hfailure : event.IsFailure
    · have hstop : next = server.stop := by
        cases event <;> first | exact hfailure.elim | exact (Option.some.inj hstep).symm
      subst hstop
      exact ⟨rfl, rfl, _, (Moves.releaseAll hqueue).drain⟩
    · obtain ⟨later, hmoves⟩ := Moves.step hqueue hfailure hend hstep
      exact ⟨hmoves.isOpen.trans hclosed, hmoves.closed hclosed, later, hmoves.drain⟩

/-- Nothing is written after the end of input. -/
theorem written_of_closed {events : List (StdioEvent Frame)} (hqueue : server.drain = queue.links)
    (hclosed : server.isOpen = false) (hrun : run StdioServer.step server events = some next) :
    next.written = server.written := by
  induction events generalizing server queue with
  | nil =>
      cases hrun
      rfl
  | cons event events ih =>
      obtain ⟨middle, hstep, hrest⟩ := Option.bind_eq_some_iff.mp hrun
      obtain ⟨hmiddle, hsame, later, hlater⟩ := step_of_closed hqueue hclosed hstep
      exact (ih hlater hmiddle hrest).trans hsame

/-- What is lost at the end of input: the frames that wait, and the responses of the requests
that are open. -/
theorem exists_lost {before after : List (StdioEvent Frame)}
    (hunfailing : Unfailing (before ++ .endInput :: after))
    (hrun : run StdioServer.step .started (before ++ .endInput :: after) = some server) :
    ∃ middle, ∃ queue : Queue Frame, run StdioServer.step .started before = some middle ∧
      middle.drain = queue.links ∧ server.written = middle.written ∧
        (ledgerOf (before ++ .endInput :: after)).promised =
          middle.written ++ (queue.frames ++ middle.requests.reduceOption) := by
  rw [run_append] at hrun
  obtain ⟨middle, hmiddle, hrest⟩ := Option.bind_eq_some_iff.mp hrun
  obtain ⟨ended, hend, hafter⟩ := Option.bind_eq_some_iff.mp hrest
  obtain ⟨queue, hkept⟩ := kept_of_run hmiddle
  have hbefore : Unfailing before := fun event hevent =>
    hunfailing event (List.mem_append_left _ hevent)
  rw [StdioServer.step] at hend
  split at hend
  · cases hend
  · next hopen =>
      have hended := Option.some.inj hend
      have hledger : (ledgerOf before).ended = false := by
        rw [← (hkept.flags hbefore).2]
        exact Bool.of_not_eq_true hopen
      obtain ⟨hdue, howed⟩ := hkept.opened hbefore hledger
      have hdrain : ended.drain = queue.links := by
        rw [← hended]
        exact hkept.drain
      have hclosed : ended.isOpen = false := by rw [← hended]
      have hwritten : ended.written = middle.written := by rw [← hended]
      refine ⟨middle, queue, hmiddle, hkept.drain,
        (written_of_closed hdrain hclosed hafter).trans hwritten, ?_⟩
      have hentered : ((ledgerOf before).enter .endInput).ended = true := rfl
      have hpromised := (promised_of_ended hentered after).2
      rw [ledgerOf, List.foldl_append, List.foldl_cons, ← ledgerOf, hpromised, ← List.append_assoc,
        hdue, howed]
      rfl

theorem mem_of_ended {events : List (StdioEvent Frame)} (hended : (ledgerOf events).ended = true) :
    .endInput ∈ events := by
  induction events using List.reverseRecOn with
  | nil => cases hended
  | append_singleton events event ih =>
      by_cases hend : event = .endInput
      · exact List.mem_append_right _ (List.mem_singleton.mpr hend.symm)
      · apply List.mem_append_left
        apply ih
        by_contra hopen
        have howed : (⟨true, false, (ledgerOf events).owed, [], []⟩ : StdioServer Frame).requests =
            (ledgerOf events).owed := rfl
        have hledger := enter_of_open (Bool.of_not_eq_true hopen) howed hend
        rw [ledgerOf_append, hledger] at hended
        cases hended

section Whole

variable {events later : List (StdioEvent Frame)} {finished : StdioServer Frame}

theorem unfailing_later (hunfailing : Unfailing events)
    (hlater : ∀ event ∈ later, event.IsInternal) : Unfailing (events ++ later) := by
  intro event hevent hfailure
  rcases List.mem_append.mp hevent with hbefore | hafter
  · exact hunfailing event hbefore hfailure
  · have hinternal := hlater event hafter
    cases event <;> first | exact hinternal | exact hfailure

theorem run_later (hrun : run StdioServer.step .started events = some server)
    (hlater : run StdioServer.step server later = some finished) :
    run StdioServer.step .started (events ++ later) = some finished := by
  rw [run_append, hrun]
  exact hlater

theorem ledger_later (events : List (StdioEvent Frame))
    (hlater : ∀ event ∈ later, event.IsInternal) :
    (ledgerOf (events ++ later)).ended = (ledgerOf events).ended ∧
      (ledgerOf (events ++ later)).promised = (ledgerOf events).promised := by
  rw [ledgerOf, List.foldl_append]
  exact promised_of_internal (ledgerOf events) hlater

/-- What is lost, of a run that has come to rest. -/
theorem exists_lost_at_rest {before after : List (StdioEvent Frame)} (hunfailing : Unfailing events)
    (hsplit : events = before ++ .endInput :: after)
    (hrun : run StdioServer.step .started events = some server)
    (hlater : ∀ event ∈ later, event.IsInternal)
    (hfinished : run StdioServer.step server later = some finished) :
    ∃ middle, ∃ queue : Queue Frame, run StdioServer.step .started before = some middle ∧
      middle.drain = queue.links ∧ (ledgerOf events).promised =
        finished.written ++ (queue.frames ++ middle.requests.reduceOption) := by
  have hwhole := run_later hrun hfinished
  have hunfailingWhole := unfailing_later hunfailing hlater
  have hpromised := (ledger_later events hlater).2
  have hsplitWhole : events ++ later = before ++ .endInput :: (after ++ later) := by
    rw [hsplit, List.append_assoc, List.cons_append]
  rw [hsplitWhole] at hwhole hunfailingWhole hpromised
  obtain ⟨middle, queue, hmiddle, hqueue, hwritten, hlost⟩ := exists_lost hunfailingWhole hwhole
  exact ⟨middle, queue, hmiddle, hqueue, by rw [← hpromised, hlost, hwritten]⟩

/-- A run whose input ends idle delivers all. -/
theorem delivered_of_endsIdle (hunfailing : Unfailing events) (hidle : EndsIdle events)
    (hrun : run StdioServer.step .started events = some server)
    (hlater : ∀ event ∈ later, event.IsInternal)
    (hfinished : run StdioServer.step server later = some finished) (hrest : finished.AtRest) :
    finished.written = (ledgerOf events).promised := by
  cases hended : (ledgerOf events).ended with
  | false =>
      obtain ⟨queue, hkept⟩ := kept_of_run (run_later hrun hfinished)
      have hledger := ledger_later events hlater
      obtain ⟨hwritten, hrequests⟩ := hkept.opened (unfailing_later hunfailing hlater)
        (hledger.1.trans hended)
      rw [frames_of_flushed hkept.drain hrest.1, List.append_nil] at hwritten
      rw [← hledger.2, Ledger.promised, ← hrequests, hrest.2, ← hwritten]
      exact (List.append_nil _).symm
  | true =>
      obtain ⟨before, after, hsplit⟩ := List.append_of_mem (mem_of_ended hended)
      obtain ⟨middle, queue, hmiddle, hqueue, hlost⟩ :=
        exists_lost_at_rest hunfailing hsplit hrun hlater hfinished
      obtain ⟨hlinks, hrequests⟩ := hidle before after middle hsplit hmiddle
      have hframes : queue.frames = [] := by
        rw [List.eq_nil_iff_forall_not_mem]
        intro frame hframe
        refine hlinks (.waiting frame) ?_ frame rfl
        rw [hqueue, Queue.links]
        exact List.mem_append_right _ (List.mem_append_right _ (List.mem_map_of_mem hframe))
      have hresponses : middle.requests.reduceOption = [] :=
        List.filterMap_eq_nil_iff.mpr hrequests
      rw [hlost, hframes, hresponses, List.append_nil, List.append_nil]

/-- A run that delivers all has ended idle. -/
theorem Serves.endsIdle (hserves : Serves events server) (hunfailing : Unfailing events)
    (hrun : run StdioServer.step .started events = some server) : EndsIdle events := by
  intro before after middle hsplit hmiddle
  obtain ⟨later, finished, hlater, hfinished, hrest⟩ := hserves.rests
  have hwritten := hserves.delivered hunfailing later finished hlater hfinished hrest
  obtain ⟨middle', queue, hmiddle', hqueue, hlost⟩ :=
    exists_lost_at_rest hunfailing hsplit hrun hlater hfinished
  obtain rfl : middle' = middle := Option.some.inj (hmiddle'.symm.trans hmiddle)
  rw [← hwritten, List.self_eq_append_right, List.append_eq_nil_iff] at hlost
  constructor
  · intro link hlink frame
    rw [hqueue, Queue.links, hlost.1, List.map_nil, List.append_nil] at hlink
    rcases List.mem_append.mp hlink with hresolved | hparked
    · rw [List.eq_of_mem_replicate hresolved]
      exact fun heq => by cases heq
    · split at hparked
      · rw [List.mem_singleton.mp hparked]
        exact fun heq => by cases heq
      · cases hparked
  · exact List.filterMap_eq_nil_iff.mp hlost.2

end Whole

end Chains

/-- All that is promised is written, once and in order, exactly where input ends with no frame
waiting and no request with a response open. -/
theorem serves_iff {Frame : Type} {events : List (StdioEvent Frame)} {server : StdioServer Frame}
    (hrun : run StdioServer.step .started events = some server) :
    Serves events server ↔ (Unfailing events → EndsIdle events) := by
  obtain ⟨queue, hkept⟩ := kept_of_run hrun
  constructor
  · exact fun hserves hunfailing => hserves.endsIdle hunfailing hrun
  · intro hidle
    constructor
    · rw [hkept.drain, countP_links]
      split <;> decide
    · exact hkept.ordered
    · intro hunfailing later finished hlater
      exact delivered_of_endsIdle hunfailing (hidle hunfailing) hrun hlater
    · exact exists_rest hkept.drain
    · intro hfailing
      have hparked := (hkept.stopped hfailing).2
      obtain ⟨later, finished, hlater, hfinished, hflushed, -⟩ :=
        exists_flushed hkept.drain hparked
      refine ⟨?_, later, finished, hlater, hfinished, hflushed⟩
      rw [hkept.drain, countP_links, hparked]
      rfl

theorem serves_iff_answered :
    Serves [.line (.request (some "pong")), .answer true, .endInput]
        ⟨false, true, [], [.resolved], ["pong"]⟩ ↔
      (Unfailing [.line (.request (some "pong")), .answer true, .endInput] →
        EndsIdle [.line (.request (some "pong")), .answer true, .endInput]) :=
  serves_iff rfl

/-- A request whose handler is still at work when input ends. -/
def openRequest : List (StdioEvent String) := [.line (.request (some "pong")), .endInput]

/-- A frame behind a write that has not drained when input ends. -/
def queuedFrame : List (StdioEvent String) := [.give "first" false, .give "second" true, .endInput]

theorem not_serves :
    (∃ server, run StdioServer.step .started openRequest = some server ∧
      ¬ Serves openRequest server) ∧
    ∃ server, run StdioServer.step .started queuedFrame = some server ∧
      ¬ Serves queuedFrame server := by
  constructor
  · refine ⟨_, rfl, fun hserves => ?_⟩
    have hidle := hserves.endsIdle (by simp [Unfailing, openRequest, StdioEvent.IsFailure]) rfl
    have hrequests := (hidle [.line (.request (some "pong"))] [] _ rfl rfl).2 (some "pong")
      (List.mem_singleton_self _)
    cases hrequests
  · refine ⟨_, rfl, fun hserves => ?_⟩
    have hidle := hserves.endsIdle (by simp [Unfailing, queuedFrame, StdioEvent.IsFailure]) rfl
    exact (hidle [.give "first" false, .give "second" true] [] _ rfl rfl).1 (.waiting "second")
      (List.mem_cons_of_mem _ (List.mem_singleton_self _)) "second" rfl

end X402Facilitator.Mcp
