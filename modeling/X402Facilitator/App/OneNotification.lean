import X402Facilitator.App.KeysAtWork

/-!
# At most one notification for a settlement

`AnnouncedOnce` counts the rows of the outbox and the direct publications of a
key.  It is refuted for arbitrary runs: nothing makes a second sweep's
transaction depend on the record still being unknown.  It holds of the runs in
which no sweep lists, and no handler reports, a key that somebody else is at work
on or that has been announced.
-/

namespace X402Facilitator.Notifications

open X402Facilitator.Execution

/-- The announcements of each key, in the outbox and by direct publication. -/
structure AnnouncedOnce (s : System) : Prop where
  aligned : s.enqueuedFor.length = s.database.outbox.length
  once : ∀ key, s.enqueuedFor.count key + (s.published.map Prod.fst).count key ≤ 1

/-- In every state that a run with steps satisfying `meets` reaches. -/
def NoneTwice (config : ReconcileConfig) (meets : System → Action → Prop) : Prop :=
  ∀ s, Reaches (step config) meets .init s → AnnouncedOnce s

/-- The log of the key on the primary has a settled event. -/
def System.Settled (s : System) (key : String) : Prop :=
  ∃ event ∈ s.database.log key, event.eventType = .settled

/-- A handler of the key has been handed its event back. -/
def System.HandedBack (s : System) (key : String) : Prop :=
  ∃ handler event finished, (s.handlers handler).outcome = some (key, event, none, finished)

/-- The key has not been settled on the primary, and no handler publishes it. -/
def System.Unannounced (s : System) (key : String) : Prop :=
  ¬ s.Settled key ∧ ¬ s.HandedBack key

/-- What a settling transaction of a handler may do: commit with the row of an
unannounced key and be answered, or fail for an unannounced key. -/
def System.HandlerAnnounces (s : System) (key : String) : Outcome → Prop
  | .succeeds => (s.database.projections.get key).isSome = true → s.Unannounced key
  | .fails => s.Unannounced key
  | .answerLost => (s.database.projections.get key).isSome = false ∧ s.Unannounced key

def AnnouncesOnce (s : System) : Action → Prop
  | .enqueueStarts handler _ =>
      match s.handlers handler with
      | .succeeded process key _ _ =>
          (s.processes process).usable = false → s.Unannounced key
      | _ => True
  | .enqueueEnds handler _ outcome _ _ =>
      match s.handlers handler with
      | .settling _ key _ _ => s.HandlerAnnounces key outcome
      | _ => True
  | .applyEnds sweep _ outcome _ _ =>
      match s.sweeps sweep with
      | .applying _ key resolution _ =>
          resolution.state = .settled → outcome ≠ .fails →
            (s.database.projections.get key).isSome = true → s.Unannounced key
      | _ => True
  | _ => True

/-- The key is unannounced, and nobody is at work on it. -/
def System.Free (s : System) (key : String) : Prop :=
  s.Unannounced key ∧ ∀ party, key ∉ s.keysOf party

/-- A sweep lists free keys only, and the settlement a handler reports is of a free
key; a handler loses the answer of no transaction that finds the row of its key. -/
def WorksAlone (s : System) : Action → Prop
  | .listUnknown _ process lag => ∀ records, s.listed process lag = some records →
      ∀ record ∈ records, s.Free record.idempotencyKey
  | .settleSucceeds handler _ _ =>
      match s.handlers handler with
      | .saved _ key => s.Free key
      | _ => True
  | .enqueueEnds handler _ .answerLost _ _ =>
      match s.handlers handler with
      | .settling _ key _ _ => (s.database.projections.get key).isSome = false
      | _ => True
  | _ => True

section Tables

variable {s : System}

/-- What a statement does to the outbox and to the settled keys. -/
theorem written_cases (s : System) (operation : AppendOperation) (databaseNow : ℕ) :
    s.written operation databaseNow = s.database ∨
      operation.inserts (s.database.projections.get operation.key).isSome = true ∧
        (s.written operation databaseNow).outbox =
          s.database.outbox ++ operation.enqueued ∧
        ∀ key, (s.written operation databaseNow).log key =
          if key = operation.key then s.database.log key ++
            [operation.event ((s.database.log operation.key).length + 1) databaseNow]
          else s.database.log key := by
  rw [System.written]
  cases hrow : operation.rowOver (s.database.projections.get operation.key)
      ((s.database.log operation.key).length + 1) databaseNow with
  | none =>
      rw [AppendOperation.writes_of_none hrow]
      exact Or.inl rfl
  | some row =>
      have hinserts := operation.rowOver_isSome (s.database.projections.get operation.key)
        ((s.database.log operation.key).length + 1) databaseNow
      rw [hrow] at hinserts
      rw [AppendOperation.writes_of_some hrow]
      exact Or.inr ⟨hinserts.symm, rfl,
        fun key => AppendOperation.log_append operation s.database _ databaseNow row key⟩

theorem enqueued_of_not_settles {operation : AppendOperation}
    (hsettles : settles operation = false) : operation.enqueued = [] := by
  cases operation with
  | save record => rfl
  | updateState key state details => rfl
  | settleAndEnqueue key details event => cases hsettles

theorem eventType_of_not_settles {operation : AppendOperation}
    (hsettles : settles operation = false) (seq now : ℕ) :
    (operation.event seq now).eventType ≠ .settled := by
  cases operation with
  | save record => simp [AppendOperation.event, MemorySettlementStore.initiatedEvent]
  | updateState key state details =>
      rw [settles, decide_eq_false_iff_not] at hsettles
      cases state with
      | settled => exact absurd rfl hsettles
      | failed => simp [AppendOperation.event, MemorySettlementStore.stateEvent, eventTypeForState]
      | unknown =>
          simp [AppendOperation.event, MemorySettlementStore.stateEvent, eventTypeForState]
  | settleAndEnqueue key details event => cases hsettles

/-- A statement that settles nothing announces nothing. -/
theorem after_of_not_settles {operation : AppendOperation}
    (hsettles : settles operation = false) (outcome : Outcome) (databaseNow : ℕ) :
    (s.after operation outcome databaseNow).database.outbox = s.database.outbox ∧
      (s.after operation outcome databaseNow).enqueuedFor = s.enqueuedFor := by
  have houtbox : (s.written operation databaseNow).outbox = s.database.outbox := by
    rcases written_cases s operation databaseNow with hsame | ⟨-, hwritten, -⟩
    · rw [hsame]
    · rw [hwritten, enqueued_of_not_settles hsettles, List.append_nil]
  constructor
  · change (if outcome = .fails then s.database
      else s.written operation databaseNow).outbox = s.database.outbox
    split
    · rfl
    · exact houtbox
  · change (if outcome = .fails then s.enqueuedFor else s.enqueuedFor ++
      ((s.written operation databaseNow).outbox.drop s.database.outbox.length).map
        fun _ => operation.key) = s.enqueuedFor
    split
    · rfl
    · rw [houtbox, List.drop_length, List.map_nil, List.append_nil]

theorem settled_after_of_not_settles {operation : AppendOperation}
    (hsettles : settles operation = false) (outcome : Outcome) (databaseNow : ℕ)
    (key : String) :
    (s.after operation outcome databaseNow).Settled key ↔ s.Settled key := by
  change (∃ event ∈ (if outcome = .fails then s.database
    else s.written operation databaseNow).log key, event.eventType = .settled) ↔ _
  split
  · exact Iff.rfl
  · rcases written_cases s operation databaseNow with hsame | ⟨-, -, hlog⟩
    · rw [hsame]
      exact Iff.rfl
    · rw [hlog key, System.Settled]
      split
      · have hevent := eventType_of_not_settles hsettles
          ((s.database.log operation.key).length + 1) databaseNow
        simp [hevent, or_and_right, exists_or]
      · exact Iff.rfl

/-- A settling transaction that fails or finds no row changes no table. -/
theorem after_settlement_of_none {key : String} {outcome : Outcome} (id : String)
    (details : StateDetails) (event : SettlementNotification) (databaseNow : ℕ)
    (hnone : outcome = .fails ∨ (s.database.projections.get key).isSome = false) :
    (s.after (settlement key id details event) outcome databaseNow).database = s.database ∧
      (s.after (settlement key id details event) outcome databaseNow).enqueuedFor =
        s.enqueuedFor := by
  have hsame : outcome ≠ .fails →
      s.written (settlement key id details event) databaseNow = s.database := by
    intro houtcome
    rcases written_cases s (settlement key id details event) databaseNow with hsame |
      ⟨hinserts, -, -⟩
    · exact hsame
    · have hpresent : (s.database.projections.get key).isSome = true := hinserts
      rw [hnone.resolve_left houtcome] at hpresent
      cases hpresent
  constructor
  · change (if outcome = .fails then s.database
      else s.written (settlement key id details event) databaseNow) = s.database
    split
    · rfl
    · next houtcome => exact hsame houtcome
  · change (if outcome = .fails then s.enqueuedFor else s.enqueuedFor ++
      ((s.written (settlement key id details event) databaseNow).outbox.drop
        s.database.outbox.length).map fun _ => key) = s.enqueuedFor
    split
    · rfl
    · next houtcome =>
        rw [hsame houtcome, List.drop_length, List.map_nil, List.append_nil]

/-- A settling transaction that commits with the row of its key. -/
theorem after_settlement_of_isSome {key : String} {outcome : Outcome} (id : String)
    (details : StateDetails) (event : SettlementNotification) (databaseNow : ℕ)
    (houtcome : outcome ≠ .fails)
    (hrow : (s.database.projections.get key).isSome = true) :
    (s.after (settlement key id details event) outcome databaseNow).database.outbox =
        s.database.outbox ++ [(id, event)] ∧
      (s.after (settlement key id details event) outcome databaseNow).enqueuedFor =
        s.enqueuedFor ++ [key] ∧
      ∀ other, (s.after (settlement key id details event) outcome
        databaseNow).Settled other ↔ s.Settled other ∨ other = key := by
  obtain ⟨row, hwritten⟩ := written_settlement s id details event databaseNow hrow
  have houtbox : (s.written (settlement key id details event) databaseNow).outbox =
      s.database.outbox ++ [(id, event)] := by
    rw [hwritten]
    rfl
  refine ⟨?_, ?_, ?_⟩
  · change (if outcome = .fails then s.database
      else s.written (settlement key id details event) databaseNow).outbox = _
    rw [if_neg houtcome, houtbox]
  · change (if outcome = .fails then s.enqueuedFor else s.enqueuedFor ++
      ((s.written (settlement key id details event) databaseNow).outbox.drop
        s.database.outbox.length).map fun _ => key) = _
    rw [if_neg houtcome, houtbox, List.drop_left]
    rfl
  · intro other
    change (∃ found ∈ (if outcome = .fails then s.database
      else s.written (settlement key id details event) databaseNow).log other,
        found.eventType = .settled) ↔ _
    rw [if_neg houtcome, hwritten, AppendOperation.log_append, key_settlement,
      System.Settled]
    by_cases hother : other = key
    · rw [if_pos hother]
      have hevent : ((settlement key id details event).event
          ((s.database.log key).length + 1) databaseNow).eventType = .settled := rfl
      simp [hevent, hother]
    · rw [if_neg hother]
      simp [hother]

end Tables

/-! ## The announcements as a ledger -/

/-- Which keys are settled, which are enqueued and published, and what each handler
has been handed back, with whether it has published it. -/
@[ext]
structure Ledger where
  settled : String → Prop
  enqueued : List String
  published : List String
  handedBack : ℕ → Option (String × Bool)

namespace Ledger

/-- Nothing has announced the key, and no handler is about to. -/
def Unannounced (ledger : Ledger) (key : String) : Prop :=
  ¬ ledger.settled key ∧ ∀ handler finished, ledger.handedBack handler ≠ some (key, finished)

/-- One announcement: with the settlement of a key, by handing its event back, or
by publishing what was handed back. -/
inductive Step (ledger : Ledger) : Ledger → Prop
  | settles (key : String) (hunannounced : ledger.Unannounced key) :
      Step ledger { ledger with
        settled := fun other => ledger.settled other ∨ other = key
        enqueued := ledger.enqueued ++ [key] }
  | handsBack (handler : ℕ) (key : String) (hunannounced : ledger.Unannounced key)
      (hfree : ledger.handedBack handler = none) :
      Step ledger { ledger with
        handedBack := Function.update ledger.handedBack handler (some (key, false)) }
  | publishes (handler : ℕ) (key : String)
      (hpending : ledger.handedBack handler = some (key, false)) :
      Step ledger { ledger with
        published := ledger.published ++ [key]
        handedBack := Function.update ledger.handedBack handler (some (key, true)) }

structure Sound (ledger : Ledger) : Prop where
  enqueuedOnce : ledger.enqueued.Nodup
  publishedOnce : ledger.published.Nodup
  settled : ∀ key ∈ ledger.enqueued, ledger.settled key
  publishedBy : ∀ key ∈ ledger.published, ∃ handler,
    ledger.handedBack handler = some (key, true)
  notEnqueued : ∀ handler key finished, ledger.handedBack handler = some (key, finished) →
    key ∉ ledger.enqueued
  unique : ∀ handler other key finished finished',
    ledger.handedBack handler = some (key, finished) →
      ledger.handedBack other = some (key, finished') → handler = other

section Steps

variable {ledger : Ledger} {handler : ℕ} {key : String}

/-- A handler gets a key that no other one has. -/
theorem Sound.unique_update (hsound : ledger.Sound) {finished : Bool}
    (honly : ∀ other finished', ledger.handedBack other = some (key, finished') →
      other = handler)
    (first second : ℕ) (other : String) (firstDone secondDone : Bool)
    (hfirst : Function.update ledger.handedBack handler (some (key, finished)) first =
      some (other, firstDone))
    (hsecond : Function.update ledger.handedBack handler (some (key, finished)) second =
      some (other, secondDone)) : first = second := by
  rcases Execution.update_cases hfirst with ⟨rfl, hself⟩ | ⟨-, hold⟩
  · cases hself
    rcases Execution.update_cases hsecond with ⟨rfl, -⟩ | ⟨-, hother⟩
    · rfl
    · exact (honly second secondDone hother).symm
  · rcases Execution.update_cases hsecond with ⟨rfl, hself⟩ | ⟨-, hother⟩
    · cases hself
      exact honly first firstDone hold
    · exact hsound.unique first second other firstDone secondDone hold hother

/-- What another handler has published stays. -/
theorem Sound.publishedBy_update (hsound : ledger.Sound)
    (hpending : ∀ other, ledger.handedBack handler ≠ some (other, true))
    (value : Option (String × Bool)) {other : String} (hother : other ∈ ledger.published) :
    ∃ publisher, Function.update ledger.handedBack handler value publisher =
      some (other, true) := by
  obtain ⟨publisher, hpublisher⟩ := hsound.publishedBy other hother
  refine ⟨publisher, ?_⟩
  have hne : publisher ≠ handler := by
    rintro rfl
    exact hpending other hpublisher
  exact (Function.update_of_ne hne _ _).trans hpublisher

theorem Sound.settles (hsound : ledger.Sound) (hunannounced : ledger.Unannounced key) :
    Sound { ledger with
      settled := fun other => ledger.settled other ∨ other = key
      enqueued := ledger.enqueued ++ [key] } where
  enqueuedOnce := by
    have hfresh : key ∉ ledger.enqueued := fun hmem =>
      hunannounced.1 (hsound.settled key hmem)
    rw [← List.concat_eq_append]
    exact hsound.enqueuedOnce.concat hfresh
  publishedOnce := hsound.publishedOnce
  settled := by
    intro other hother
    rcases List.mem_append.mp hother with hold | hnew
    · exact Or.inl (hsound.settled other hold)
    · exact Or.inr (List.mem_singleton.mp hnew)
  publishedBy := hsound.publishedBy
  notEnqueued := by
    intro handler other finished hhanded hmem
    rcases List.mem_append.mp hmem with hold | hnew
    · exact hsound.notEnqueued handler other finished hhanded hold
    · obtain rfl := List.mem_singleton.mp hnew
      exact hunannounced.2 handler finished hhanded
  unique := hsound.unique

theorem Sound.handsBack (hsound : ledger.Sound) (hunannounced : ledger.Unannounced key)
    (hfree : ledger.handedBack handler = none) :
    Sound { ledger with
      handedBack := Function.update ledger.handedBack handler (some (key, false)) } where
  enqueuedOnce := hsound.enqueuedOnce
  publishedOnce := hsound.publishedOnce
  settled := hsound.settled
  publishedBy := by
    intro other hother
    apply hsound.publishedBy_update _ _ hother
    intro published hpublished
    cases hfree.symm.trans hpublished
  notEnqueued := by
    intro other key' finished hhanded hmem
    rcases Execution.update_cases hhanded with ⟨-, hself⟩ | ⟨-, hold⟩
    · cases hself
      exact hunannounced.1 (hsound.settled key hmem)
    · exact hsound.notEnqueued other key' finished hold hmem
  unique := by
    apply hsound.unique_update
    intro other finished hother
    exact absurd hother (hunannounced.2 other finished)

theorem Sound.publishes (hsound : ledger.Sound)
    (hpending : ledger.handedBack handler = some (key, false)) :
    Sound { ledger with
      published := ledger.published ++ [key]
      handedBack := Function.update ledger.handedBack handler (some (key, true)) } where
  enqueuedOnce := hsound.enqueuedOnce
  publishedOnce := by
    have hfresh : key ∉ ledger.published := by
      intro hmem
      obtain ⟨publisher, hpublisher⟩ := hsound.publishedBy key hmem
      obtain rfl := hsound.unique publisher handler key true false hpublisher hpending
      rw [hpending] at hpublisher
      cases hpublisher
    rw [← List.concat_eq_append]
    exact hsound.publishedOnce.concat hfresh
  settled := hsound.settled
  publishedBy := by
    intro other hother
    rcases List.mem_append.mp hother with hold | hnew
    · apply hsound.publishedBy_update _ _ hold
      intro published hpublished
      cases hpending.symm.trans hpublished
    · obtain rfl := List.mem_singleton.mp hnew
      exact ⟨handler, Function.update_self ..⟩
  notEnqueued := by
    intro other key' finished hhanded
    rcases Execution.update_cases hhanded with ⟨-, hself⟩ | ⟨-, hold⟩
    · cases hself
      exact hsound.notEnqueued handler key false hpending
    · exact hsound.notEnqueued other key' finished hold
  unique := by
    apply hsound.unique_update
    intro other finished hother
    exact hsound.unique other handler key finished false hother hpending

theorem Sound.step {ledger' : Ledger} (hsound : ledger.Sound) (hstep : Step ledger ledger') :
    ledger'.Sound := by
  cases hstep with
  | settles key hunannounced => exact hsound.settles hunannounced
  | handsBack handler key hunannounced hfree => exact hsound.handsBack hunannounced hfree
  | publishes handler key hpending => exact hsound.publishes hpending

end Steps

/-- A key is enqueued or published, and once. -/
theorem Sound.once {ledger : Ledger} (hsound : ledger.Sound) (key : String) :
    ledger.enqueued.count key + ledger.published.count key ≤ 1 := by
  have henqueued := List.nodup_iff_count_le_one.mp hsound.enqueuedOnce key
  have hpublished := List.nodup_iff_count_le_one.mp hsound.publishedOnce key
  by_cases hmem : key ∈ ledger.published
  · obtain ⟨handler, hhanded⟩ := hsound.publishedBy key hmem
    have hnone := hsound.notEnqueued handler key true hhanded
    rw [List.count_eq_zero_of_not_mem hnone, Nat.zero_add]
    exact hpublished
  · rw [List.count_eq_zero_of_not_mem hmem]
    exact henqueued

end Ledger

/-! ## The system keeps its ledger -/

def handedBackOf :
    Option (String × SettlementNotification × Option Report × Bool) → Option (String × Bool)
  | some (key, _, none, finished) => some (key, finished)
  | _ => none

def System.ledger (s : System) : Ledger where
  settled := s.Settled
  enqueued := s.enqueuedFor
  published := s.published.map Prod.fst
  handedBack := fun handler => handedBackOf (s.handlers handler).outcome

section Simulation

variable {config : ReconcileConfig} {s s' : System}

theorem System.Unannounced.ledger {key : String} (hunannounced : s.Unannounced key) :
    s.ledger.Unannounced key := by
  refine ⟨hunannounced.1, fun handler finished hhanded => hunannounced.2 ?_⟩
  change handedBackOf (s.handlers handler).outcome = some (key, finished) at hhanded
  cases houtcome : (s.handlers handler).outcome with
  | none =>
      rw [houtcome] at hhanded
      cases hhanded
  | some value =>
      obtain ⟨key', event, answer, finished'⟩ := value
      rw [houtcome] at hhanded
      cases answer with
      | none =>
          cases hhanded
          exact ⟨handler, event, finished, houtcome⟩
      | some report => cases hhanded

/-- A handler that has moved to a new phase. -/
theorem handedBack_update (handlers : ℕ → Handler) (index : ℕ) (handler : Handler) :
    (fun other => handedBackOf (Function.update handlers index handler other).outcome) =
      Function.update (fun other => handedBackOf (handlers other).outcome) index
        (handedBackOf handler.outcome) := by
  funext other
  by_cases hother : other = index
  · subst hother
    rw [Function.update_self, Function.update_self]
  · rw [Function.update_of_ne hother, Function.update_of_ne hother]

/-- A settling transaction in the ledger, whoever runs it. -/
theorem settled_or_same {key : String} (id : String) (details : StateDetails)
    (event : SettlementNotification) {outcome : Outcome} (databaseNow : ℕ)
    (hunannounced : outcome ≠ .fails →
      (s.database.projections.get key).isSome = true → s.Unannounced key) :
    ((s.after (settlement key id details event) outcome databaseNow).Settled = s.Settled ∧
      (s.after (settlement key id details event) outcome databaseNow).enqueuedFor =
        s.enqueuedFor) ∨
    (s.Unannounced key ∧
      (s.after (settlement key id details event) outcome databaseNow).Settled =
        (fun other => s.Settled other ∨ other = key) ∧
      (s.after (settlement key id details event) outcome databaseNow).enqueuedFor =
        s.enqueuedFor ++ [key]) := by
  by_cases hnone : outcome = .fails ∨ (s.database.projections.get key).isSome = false
  · obtain ⟨hdatabase, henqueued⟩ :=
      after_settlement_of_none id details event databaseNow hnone
    left
    refine ⟨?_, henqueued⟩
    funext other
    rw [System.Settled, hdatabase, System.Settled]
  · rw [not_or, Bool.not_eq_false] at hnone
    obtain ⟨-, henqueued, hsettled⟩ :=
      after_settlement_of_isSome id details event databaseNow hnone.1 hnone.2
    exact Or.inr ⟨hunannounced hnone.1 hnone.2, funext fun other => propext (hsettled other),
      henqueued⟩

/-- The ledger after a settling transaction that hands nothing back. -/
theorem step_of_settlement {key : String} (id : String) (details : StateDetails)
    (event : SettlementNotification) {outcome : Outcome} (databaseNow : ℕ)
    (hunannounced : outcome ≠ .fails →
      (s.database.projections.get key).isSome = true → s.Unannounced key)
    (hsettled : s'.Settled =
      (s.after (settlement key id details event) outcome databaseNow).Settled)
    (henqueued : s'.enqueuedFor =
      (s.after (settlement key id details event) outcome databaseNow).enqueuedFor)
    (hpublished : s'.published = s.published)
    (hhandedBack : s'.ledger.handedBack = s.ledger.handedBack) :
    s'.ledger = s.ledger ∨ Ledger.Step s.ledger s'.ledger := by
  rcases settled_or_same id details event databaseNow hunannounced with
    ⟨hsame, hnothing⟩ | ⟨hkey, hmore, hnew⟩
  · left
    apply Ledger.ext
    · exact hsettled.trans hsame
    · exact henqueued.trans hnothing
    · exact congrArg (List.map Prod.fst) hpublished
    · exact hhandedBack
  · right
    have hledger : s'.ledger = { s.ledger with
        settled := fun other => s.ledger.settled other ∨ other = key
        enqueued := s.ledger.enqueued ++ [key] } := by
      apply Ledger.ext
      · exact hsettled.trans hmore
      · exact henqueued.trans hnew
      · exact congrArg (List.map Prod.fst) hpublished
      · exact hhandedBack
    rw [hledger]
    exact Ledger.Step.settles key hkey.ledger

/-- The ledger after an event has been handed back. -/
theorem step_of_handedBack {handler : ℕ} {key : String} {event : SettlementNotification}
    (hunannounced : s.Unannounced key) (hfree : (s.handlers handler).outcome = none)
    (hdatabase : s'.database = s.database) (henqueued : s'.enqueuedFor = s.enqueuedFor)
    (hpublished : s'.published = s.published)
    (hhandlers : s'.handlers =
      Function.update s.handlers handler (.answered key event none)) :
    Ledger.Step s.ledger s'.ledger := by
  have hledger : s'.ledger = { s.ledger with
      handedBack := Function.update s.ledger.handedBack handler (some (key, false)) } := by
    apply Ledger.ext
    · funext other
      exact congrArg (fun db : Database =>
        ∃ event ∈ db.log other, event.eventType = .settled) hdatabase
    · exact henqueued
    · exact congrArg (List.map Prod.fst) hpublished
    · change (fun other => handedBackOf (s'.handlers other).outcome) = _
      rw [hhandlers]
      exact handedBack_update s.handlers handler (.answered key event none)
  rw [hledger]
  apply Ledger.Step.handsBack handler key hunannounced.ledger
  exact congrArg handedBackOf hfree

/-- A handler that moves between phases with nothing handed back. -/
theorem handedBack_same {handlers : ℕ → Handler} {index : ℕ} (handler : Handler)
    (hnone : handedBackOf handler.outcome = none)
    (hbefore : handedBackOf (handlers index).outcome = none) :
    (fun other => handedBackOf (Function.update handlers index handler other).outcome) =
      fun other => handedBackOf (handlers other).outcome := by
  rw [handedBack_update, hnone, ← hbefore]
  exact Function.update_eq_self index _

theorem ledger_of_handlerSettles {handler process databaseNow : ℕ} {key id : String}
    {details : StateDetails} {event : SettlementNotification} {outcome : Outcome}
    {processes : ℕ → Process}
    (hphase : s.handlers handler = .settling process key details event)
    (hmeets : s.HandlerAnnounces key outcome)
    (hafter : s' = { s.after (settlement key id details event) outcome databaseNow with
      processes := processes
      reports := (s.reportOf key id details event outcome databaseNow).toList ++ s.reports
      handlers := Function.update s.handlers handler (.answered key event
        (s.reportOf key id details event outcome databaseNow)) }) :
    s'.ledger = s.ledger ∨ Ledger.Step s.ledger s'.ledger := by
  have hfree : (s.handlers handler).outcome = none := by rw [hphase]; rfl
  cases outcome with
  | succeeds =>
      subst hafter
      have hhandedBack := handedBack_same (.answered key event
        (s.reportOf key id details event .succeeds databaseNow)) rfl
        (congrArg handedBackOf hfree)
      exact step_of_settlement id details event databaseNow (fun _ => hmeets) rfl rfl rfl
        hhandedBack
  | fails =>
      subst hafter
      exact Or.inr (step_of_handedBack hmeets hfree rfl rfl rfl rfl)
  | answerLost =>
      have hsame := @after_settlement_of_none s key .answerLost id details event
        databaseNow (Or.inr hmeets.1)
      subst hafter
      exact Or.inr (step_of_handedBack hmeets.2 hfree hsame.1 hsame.2 rfl rfl)

theorem ledger_of_delivers {handler : ℕ} {key : String} {event : SettlementNotification}
    {answer : Option Report} (hphase : s.handlers handler = .answered key event answer)
    (hafter : s' = { s with
      handlers := Function.update s.handlers handler (.finished key event answer)
      published := s.published ++ if answer.isSome then [] else [(key, event)] }) :
    s'.ledger = s.ledger ∨ Ledger.Step s.ledger s'.ledger := by
  subst hafter
  have hbefore : handedBackOf (s.handlers handler).outcome =
      handedBackOf (some (key, event, answer, false)) := by
    rw [hphase]
    rfl
  cases answer with
  | some report =>
      left
      apply Ledger.ext
      · rfl
      · rfl
      · exact congrArg (List.map Prod.fst) (List.append_nil s.published)
      · exact handedBack_same (.finished key event (some report)) rfl hbefore
  | none =>
      right
      have hledger := @Ledger.Step.publishes s.ledger handler key hbefore
      have hpublished : s.ledger.published ++ [key] =
          (s.published ++ [(key, event)]).map Prod.fst := by
        rw [List.map_append]
        rfl
      have hhandedBack := handedBack_update s.handlers handler (.finished key event none)
      rw [hpublished] at hledger
      change Ledger.Step s.ledger ⟨s.ledger.settled, s.ledger.enqueued, _,
        fun other => handedBackOf
          (Function.update s.handlers handler (.finished key event none) other).outcome⟩
      rw [hhandedBack]
      exact hledger

/-- Every step that meets the guard is a step of the ledger or leaves it. -/
theorem ledger_of_effect {action : Action} (heffect : Effect s action s')
    (hmeets : AnnouncesOnce s action) :
    s'.ledger = s.ledger ∨ Ledger.Step s.ledger s'.ledger := by
  cases heffect with
  | quiet processes handlers sweeps writers houtcome =>
      left
      apply Ledger.ext
      · rfl
      · rfl
      · rfl
      · funext handler
        exact congrArg handedBackOf (houtcome handler)
  | statement operation outcome databaseNow processes handlers sweeps writers hsettles
      houtcome =>
      left
      apply Ledger.ext
      · funext key
        exact propext (settled_after_of_not_settles hsettles outcome databaseNow key)
      · exact (after_of_not_settles hsettles outcome databaseNow).2
      · rfl
      · funext handler
        exact congrArg handedBackOf (houtcome handler)
  | sweepSettles sweep process key id resolution event records outcome databaseNow now
      processes hphase hstate =>
      rw [AnnouncesOnce, hphase] at hmeets
      exact step_of_settlement id resolution.details event databaseNow (hmeets hstate) rfl rfl
        rfl rfl
  | handedBack handler process now key details event processes hphase hguard =>
      rw [AnnouncesOnce, hphase] at hmeets
      exact Or.inr (step_of_handedBack (hmeets hguard) (by rw [hphase]; rfl) rfl rfl rfl rfl)
  | handlerSettles handler process key id details event outcome databaseNow now processes
      hphase =>
      rw [AnnouncesOnce, hphase] at hmeets
      exact ledger_of_handlerSettles hphase hmeets rfl
  | delivers handler key event answer hphase => exact ledger_of_delivers hphase rfl

/-- Every row of the outbox has its record. -/
theorem aligned_after (haligned : s.enqueuedFor.length = s.database.outbox.length)
    (operation : AppendOperation) (outcome : Outcome) (databaseNow : ℕ) :
    (s.after operation outcome databaseNow).enqueuedFor.length =
      (s.after operation outcome databaseNow).database.outbox.length := by
  have hkept := (kept_written s operation databaseNow).outbox.length_le
  change (if outcome = .fails then s.enqueuedFor else s.enqueuedFor ++
      ((s.written operation databaseNow).outbox.drop s.database.outbox.length).map
        fun _ => operation.key).length =
    (if outcome = .fails then s.database else s.written operation databaseNow).outbox.length
  split
  · exact haligned
  · rw [List.length_append, List.length_map, List.length_drop, haligned]
    omega

theorem Effect.aligned {action : Action} (heffect : Effect s action s')
    (haligned : s.enqueuedFor.length = s.database.outbox.length) :
    s'.enqueuedFor.length = s'.database.outbox.length := by
  cases heffect with
  | quiet => exact haligned
  | statement operation outcome databaseNow => exact aligned_after haligned operation _ _
  | sweepSettles => exact aligned_after haligned _ _ _
  | handedBack => exact haligned
  | handlerSettles => exact aligned_after haligned _ _ _
  | delivers => exact haligned

/-- A settling transaction settles its own key at most. -/
theorem settled_after_settlement {key id other : String} {details : StateDetails}
    {event : SettlementNotification} {outcome : Outcome} {databaseNow : ℕ}
    (hsettled : (s.after (settlement key id details event) outcome
      databaseNow).Settled other) : s.Settled other ∨ other = key := by
  by_cases hnone : outcome = .fails ∨ (s.database.projections.get key).isSome = false
  · have hsame := (after_settlement_of_none id details event databaseNow hnone).1
    rw [System.Settled, hsame] at hsettled
    exact Or.inl hsettled
  · rw [not_or, Bool.not_eq_false] at hnone
    obtain ⟨-, -, hiff⟩ :=
      after_settlement_of_isSome id details event databaseNow hnone.1 hnone.2
    exact (hiff other).mp hsettled

/-- A handler that is answered hands back its own key at most. -/
theorem handedBack_update_answered {index : ℕ} {key other : String}
    {event : SettlementNotification} {answer : Option Report}
    (hhanded : ∃ handler found finished, (Function.update s.handlers index
      (.answered key event answer) handler).outcome = some (other, found, none, finished)) :
    s.HandedBack other ∨ other = key := by
  obtain ⟨handler, found, finished, houtcome⟩ := hhanded
  rcases outcome_update_cases houtcome with ⟨-, hself⟩ | ⟨-, hold⟩
  · right
    cases hself
    rfl
  · exact Or.inl ⟨handler, found, finished, hold⟩

/-- Only a party at work on a key announces it, and then it is done with it. -/
theorem Effect.letsGo {action : Action} (heffect : Effect s action s') {key : String}
    (hnodup : ∀ party, (s.keysOf party).Nodup) (hbefore : s.Unannounced key)
    (hafter : ¬ s'.Unannounced key) :
    ∃ party, key ∈ s.keysOf party ∧ key ∉ s'.keysOf party := by
  rw [System.Unannounced, ← not_or, not_not] at hafter
  obtain ⟨hsettled, hhanded⟩ := hbefore
  cases heffect with
  | quiet processes handlers sweeps writers houtcome =>
      rcases hafter with hnow | ⟨handler, event, finished, hnow⟩
      · exact absurd hnow hsettled
      · rw [houtcome handler] at hnow
        exact absurd ⟨handler, event, finished, hnow⟩ hhanded
  | statement operation outcome databaseNow processes handlers sweeps writers hsettles
      houtcome =>
      rcases hafter with hnow | ⟨handler, event, finished, hnow⟩
      · exact absurd ((settled_after_of_not_settles hsettles outcome databaseNow key).mp hnow)
          hsettled
      · rw [houtcome handler] at hnow
        exact absurd ⟨handler, event, finished, hnow⟩ hhanded
  | sweepSettles sweep process other id resolution event records outcome databaseNow now
      processes hphase =>
      rcases hafter with hnow | hnow
      · obtain rfl := (settled_after_settlement hnow).resolve_left hsettled
        have hkeys : s.keysOf (.sweep sweep) =
            key :: records.map Settlement.idempotencyKey := by
          rw [System.keysOf, hphase]
          rfl
        refine ⟨.sweep sweep, by rw [hkeys]; exact List.mem_cons_self, ?_⟩
        change key ∉ (Function.update s.sweeps sweep (.polling process records) sweep).keys
        rw [Function.update_self]
        have hdistinct := hnodup (.sweep sweep)
        rw [hkeys] at hdistinct
        exact (List.nodup_cons.mp hdistinct).1
      · exact absurd hnow hhanded
  | handedBack handler process now other details event processes hphase =>
      rcases hafter with hnow | hnow
      · exact absurd hnow hsettled
      · obtain rfl := (handedBack_update_answered hnow).resolve_left hhanded
        refine ⟨.handler handler, ?_, ?_⟩
        · rw [System.keysOf, hphase]
          exact List.mem_singleton_self key
        · change key ∉ (Function.update s.handlers handler (.answered key event none)
            handler).keys
          rw [Function.update_self]
          exact List.not_mem_nil
  | handlerSettles handler process other id details event outcome databaseNow now processes
      hphase =>
      have hkey : key = other := by
        rcases hafter with hnow | hnow
        · exact (settled_after_settlement hnow).resolve_left hsettled
        · exact (handedBack_update_answered hnow).resolve_left hhanded
      subst hkey
      refine ⟨.handler handler, ?_, ?_⟩
      · rw [System.keysOf, hphase]
        exact List.mem_singleton_self key
      · change key ∉ (Function.update s.handlers handler (.answered key event _) handler).keys
        rw [Function.update_self]
        exact List.not_mem_nil
  | delivers handler other event answer hphase =>
      rcases hafter with hnow | ⟨index, found, finished, hnow⟩
      · exact absurd hnow hsettled
      · rcases outcome_update_cases hnow with ⟨rfl, hself⟩ | ⟨-, hold⟩
        · cases hself
          refine absurd ⟨index, event, false, ?_⟩ hhanded
          rw [hphase]
          rfl
        · exact absurd ⟨index, found, finished, hold⟩ hhanded

structure Exclusive (s : System) : Prop where
  unannounced : ∀ party, ∀ key ∈ s.keysOf party, s.Unannounced key
  alone : ∀ party other, ∀ key ∈ s.keysOf party, key ∈ s.keysOf other → party = other
  distinct : ∀ party, (s.keysOf party).Nodup

theorem Exclusive.init : Exclusive .init where
  unannounced := by
    intro party key hmem
    cases party <;> cases hmem
  alone := by
    intro party other key hmem
    cases party <;> cases hmem
  distinct := by
    intro party
    cases party <;> exact List.nodup_nil

section Guarded

variable {action : Action}

/-- Under the guard only free keys are taken up. -/
theorem WorksAlone.free (hmeets : WorksAlone s action) {party : Party} {keys : List String}
    (htakes : TakesUp s action party keys) : ∀ key ∈ keys, s.Free key := by
  intro key hmem
  cases htakes with
  | lists sweep process lag records hlisted =>
      obtain ⟨record, hrecord, rfl⟩ := List.mem_map.mp hmem
      exact hmeets records hlisted record hrecord
  | succeeds handler process key' details event hphase =>
      rw [WorksAlone, hphase] at hmeets
      obtain rfl := List.mem_singleton.mp hmem
      exact hmeets

/-- Whoever is at work on a key after a step was so before, or found it free. -/
theorem Works.held_or_free (hworks : Works s action s') (hmeets : WorksAlone s action)
    {party : Party} {key : String} (hmem : key ∈ s'.keysOf party) :
    key ∈ s.keysOf party ∨ s.Free key :=
  (hworks.keys party).imp (fun hsub => hsub.subset hmem)
    fun htakes => hmeets.free htakes key hmem

/-- No two parties take one key up in the same step. -/
theorem TakesUp.unique {party other : Party} {keys keys' : List String}
    (htakes : TakesUp s action party keys) (hother : TakesUp s action other keys') :
    party = other := by
  cases htakes <;> cases hother <;> rfl

theorem Exclusive.step (hexclusive : Exclusive s) (hlistable : Listable s)
    (hmeets : WorksAlone s action) (hworks : Works s action s')
    (heffect : Effect s action s') : Exclusive s' where
  unannounced := by
    intro party key hmem
    by_contra hannounced
    -- whoever has announced the key is no longer at work on it
    have hfound : ∀ hbefore : s.Unannounced key, ∃ other,
        key ∈ s.keysOf other ∧ key ∉ s'.keysOf other := fun hbefore =>
      heffect.letsGo hexclusive.distinct hbefore hannounced
    rcases hworks.held_or_free hmeets hmem with hheld | hfree
    · obtain ⟨other, hother, hgone⟩ := hfound (hexclusive.unannounced party key hheld)
      obtain rfl := hexclusive.alone party other key hheld hother
      exact hgone hmem
    · obtain ⟨other, hother, -⟩ := hfound hfree.1
      exact hfree.2 other hother
  alone := by
    intro party other key hmem hmem'
    rcases hworks.keys party with hsub | htakes
    · rcases hworks.keys other with hsub' | htakes'
      · exact hexclusive.alone party other key (hsub.subset hmem) (hsub'.subset hmem')
      · exact absurd (hsub.subset hmem) ((hmeets.free htakes' key hmem').2 party)
    · rcases hworks.keys other with hsub' | htakes'
      · exact absurd (hsub'.subset hmem') ((hmeets.free htakes key hmem).2 other)
      · exact htakes.unique htakes'
  distinct := by
    intro party
    rcases hworks.keys party with hsub | htakes
    · exact (hexclusive.distinct party).sublist hsub
    · generalize s'.keysOf party = keys at htakes
      cases htakes with
      | lists sweep process lag records hlisted => exact hlistable.nodup_listed hlisted
      | succeeds handler process key details event hphase => exact List.nodup_singleton key

/-- A party announces the key it is at work on, which is unannounced. -/
theorem Exclusive.announcesOnce (hexclusive : Exclusive s) (hmeets : WorksAlone s action) :
    AnnouncesOnce s action := by
  have hhandler : ∀ handler key, (s.handlers handler).keys = [key] → s.Unannounced key := by
    intro handler key hkeys
    apply hexclusive.unannounced (.handler handler) key
    rw [System.keysOf, hkeys]
    exact List.mem_singleton_self key
  cases action with
  | enqueueStarts handler now =>
      rw [AnnouncesOnce]
      split
      · next process key details event hphase =>
          exact fun _ => hhandler handler key (by rw [hphase]; rfl)
      · trivial
  | enqueueEnds handler id outcome databaseNow now =>
      rw [AnnouncesOnce]
      split
      · next process key details event hphase =>
          have hkey := hhandler handler key (by rw [hphase]; rfl)
          cases outcome with
          | succeeds => exact fun _ => hkey
          | fails => exact hkey
          | answerLost =>
              rw [WorksAlone, hphase] at hmeets
              exact ⟨hmeets, hkey⟩
      · trivial
  | applyEnds sweep id outcome databaseNow now =>
      rw [AnnouncesOnce]
      split
      · next process key resolution records hphase =>
          intro _ _ _
          apply hexclusive.unannounced (.sweep sweep) key
          rw [System.keysOf, hphase]
          exact List.mem_cons_self
      · trivial
  | _ => trivial

end Guarded

structure OnceSoFar (s : System) : Prop where
  listable : Listable s
  exclusive : Exclusive s
  aligned : s.enqueuedFor.length = s.database.outbox.length
  ledger : s.ledger.Sound

theorem OnceSoFar.init : OnceSoFar .init where
  listable :=
    { tables := .empty
      past := by
        intro db hdb
        obtain rfl := List.mem_singleton.mp hdb
        exact .empty
      stores := by
        intro process key record hget
        rw [System.init, MemorySettlementStore.get_empty] at hget
        cases hget }
  exclusive := .init
  aligned := rfl
  ledger :=
    { enqueuedOnce := List.nodup_nil
      publishedOnce := List.nodup_nil
      settled := nofun
      publishedBy := nofun
      notEnqueued := nofun
      unique := nofun }

theorem OnceSoFar.step {action : Action} (honce : OnceSoFar s)
    (hmeets : WorksAlone s action) (hstep : step config s action = some s') :
    OnceSoFar s' := by
  have hdb := honce.listable.tables
  have heffect := effect_of_step hdb hstep
  have hworks := works_of_step hdb hstep
  constructor
  · exact
      { tables := heffect.agrees hdb
        past := heffect.past hdb honce.listable.past
        stores := hworks.stores honce.listable.stores }
  · exact honce.exclusive.step honce.listable hmeets hworks heffect
  · exact heffect.aligned honce.aligned
  · rcases ledger_of_effect heffect (honce.exclusive.announcesOnce hmeets) with hsame | hmoved
    · rw [hsame]
      exact honce.ledger
    · exact honce.ledger.step hmoved

end Simulation

/-- While sweeps list and handlers report only what nobody else is at work on and
nothing has announced, every key is announced once at most. -/
theorem noneTwice_worksAlone (config : ReconcileConfig) : NoneTwice config WorksAlone := by
  intro s hreach
  have honce : OnceSoFar s :=
    hreach.preserves (fun _ _ _ h hmeets hstep => h.step hmeets hstep) OnceSoFar.init
  exact
    { aligned := honce.aligned
      once := honce.ledger.once }

def overlappingSweeps : List Action :=
  [.poolReady 0, .poolReady 1,
    .saveStarts 0 0 { idempotencyKey := "order-1", network := some testnet } 0,
    .saveEnds 0 .succeeds 0 0,
    .writeStarts 0 0 ⟨.updateState "order-1" .unknown { txHash := some "ab12" }, rfl⟩ 0,
    .writeEnds 0 .succeeds 0 0,
    .listUnknown 0 0 0, .listUnknown 1 1 0,
    .poll 0 .success 0, .poll 1 .success 0,
    .applyEnds 0 "e-1" .succeeds 0 0, .applyEnds 1 "e-2" .succeeds 0 0]

/-- Each sweep enqueues its own notification. -/
theorem not_noneTwice_anyStep : ¬ ∀ config, NoneTwice config anyStep := by
  intro hnone
  have hrun : (run (step ⟨fun _ => none⟩) .init overlappingSweeps).map
      System.enqueuedFor = some ["order-1", "order-1"] := by
    decide +kernel
  obtain ⟨s, hreach, henqueued⟩ := exists_reaches_of_run hrun
  have honce := (hnone _ s hreach).once "order-1"
  rw [henqueued] at honce
  have htwice : ["order-1", "order-1"].count "order-1" = 2 := rfl
  omega

end X402Facilitator.Notifications
