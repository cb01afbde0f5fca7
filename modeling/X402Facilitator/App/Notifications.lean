import X402Facilitator.Library.Execution
import X402Facilitator.Store.Appends
import X402Facilitator.Store.Reconciliation

/-!
# Completion notifications across processes

Handlers of `/settle` and reconciliation sweeps run in several processes over
one primary database.  A store creates its pool lazily and degrades to its own
memory on any failure.  A settlement is announced through the outbox, in the
transaction that settles the record, or by a direct publication when the store
hands the event back.
-/

namespace X402Facilitator.Notifications

open X402Facilitator.Execution

/-- How a statement or transaction ends.  A commit whose answer is lost is
reported as a failure. -/
inductive Outcome where
  | succeeds
  | fails
  | answerLost
  deriving DecidableEq, Repr

structure Process where
  pool : Bool
  replicaPool : Bool
  degraded : Bool
  memory : MemorySettlementStore ℕ

/-- The negation of `this.degraded || !this.pool`. -/
def Process.usable (process : Process) : Bool := !process.degraded && process.pool

/-- A transaction that `settleAndEnqueue` reported as atomically enqueued, with
the tables before and after it. -/
structure Report where
  key : String
  id : String
  event : SettlementNotification
  before : Database
  after : Database

/-- How far a `/settle` handler has got.  `saving` and `settling` are past the
guard of their store call.  An answer is the reported transaction, or `none` when
the event was handed back. -/
inductive Handler where
  | notReceived
  | saving (process : ℕ) (record : SettlementInput)
  | saved (process : ℕ) (key : String)
  | succeeded (process : ℕ) (key : String) (details : StateDetails)
      (event : SettlementNotification)
  | settling (process : ℕ) (key : String) (details : StateDetails)
      (event : SettlementNotification)
  | answered (key : String) (event : SettlementNotification) (answer : Option Report)
  | finished (key : String) (event : SettlementNotification) (answer : Option Report)

/-- A reconciliation sweep with the listed records that are left; `applying` is
past the guard of its store call. -/
inductive Sweep where
  | idle
  | polling (process : ℕ) (records : List (Settlement ℕ))
  | applying (process : ℕ) (key : String) (resolution : Resolution)
      (records : List (Settlement ℕ))

def settles : AppendOperation → Bool
  | .save _ => false
  | .updateState _ state _ => decide (state = .settled)
  | .settleAndEnqueue _ _ _ => true

/-- Any other write of a record saves or fails it; none of them settles. -/
structure RecordWrite where
  operation : AppendOperation
  unsettled : settles operation = false

inductive Writer where
  | idle
  | writing (process : ℕ) (write : RecordWrite)

/-- The primary, its earlier states (the newest first) that a replica may still
show, and the parties.  `published` is what was handed to `webhooks.enqueue`,
`reports` the answers with `atomicallyEnqueued`, and `enqueuedFor` names the
record of each row of the outbox. -/
structure System where
  database : Database
  past : List Database
  enqueuedFor : List String
  processes : ℕ → Process
  handlers : ℕ → Handler
  sweeps : ℕ → Sweep
  writers : ℕ → Writer
  published : List (String × SettlementNotification)
  reports : List Report

def System.init : System where
  database := .empty
  past := [.empty]
  enqueuedFor := []
  processes := fun _ => ⟨false, false, false, .empty⟩
  handlers := fun _ => .notReceived
  sweeps := fun _ => .idle
  writers := fun _ => .idle
  published := []
  reports := []

inductive Action where
  | poolReady (process : ℕ)
  | replicaReady (process : ℕ)
  | degrade (process : ℕ)
  | saveStarts (handler process : ℕ) (record : SettlementInput) (now : ℕ)
  | saveEnds (handler : ℕ) (outcome : Outcome) (databaseNow now : ℕ)
  | settleSucceeds (handler : ℕ) (details : StateDetails) (event : SettlementNotification)
  | enqueueStarts (handler now : ℕ)
  | enqueueEnds (handler : ℕ) (id : String) (outcome : Outcome) (databaseNow now : ℕ)
  | deliver (handler : ℕ)
  | listUnknown (sweep process lag : ℕ)
  | poll (sweep : ℕ) (answer : RpcAnswer) (now : ℕ)
  | applyEnds (sweep : ℕ) (id : String) (outcome : Outcome) (databaseNow now : ℕ)
  | sweepEnds (sweep : ℕ)
  | writeStarts (writer process : ℕ) (write : RecordWrite) (now : ℕ)
  | writeEnds (writer : ℕ) (outcome : Outcome) (databaseNow now : ℕ)

namespace System

def setHandler (s : System) (index : ℕ) (handler : Handler) : System :=
  { s with handlers := Function.update s.handlers index handler }

def setSweep (s : System) (index : ℕ) (sweep : Sweep) : System :=
  { s with sweeps := Function.update s.sweeps index sweep }

def setWriter (s : System) (index : ℕ) (writer : Writer) : System :=
  { s with writers := Function.update s.writers index writer }

def setProcess (s : System) (index : ℕ) (process : Process) : System :=
  { s with processes := Function.update s.processes index process }

def inMemory (s : System) (process : ℕ) (operation : AppendOperation) (now : ℕ) : System :=
  s.setProcess process { s.processes process with
    memory := (operation.inMemory (s.processes process).memory now).1 }

/-- `_degrade`, then the operation on the process-local store. -/
def fallBack (s : System) (process : ℕ) (operation : AppendOperation) (now : ℕ) : System :=
  s.setProcess process { s.processes process with
    degraded := true
    memory := (operation.inMemory (s.processes process).memory now).1 }

/-- The copy of a committed write in the process-local store. -/
def mirror (s : System) (process : ℕ) (operation : AppendOperation) (now : ℕ) :
    Option ProjectionRow → System
  | none => s
  | some row => s.setProcess process { s.processes process with
      memory := operation.mirror (s.processes process).memory now row }

def commit (s : System) (operation : AppendOperation) (database : Database) : System :=
  { s with
    database := database
    past := database :: s.past
    enqueuedFor := s.enqueuedFor ++
      (database.outbox.drop s.database.outbox.length).map fun _ => operation.key }

/-- The statement of a store call, and whether the call reports success. -/
def runStatement (s : System) (process : ℕ) (operation : AppendOperation)
    (outcome : Outcome) (databaseNow now : ℕ) : System × Bool :=
  match operation.statementAt s.database (s.database.maxSeq operation.key + 1) databaseNow,
      outcome with
  | some (database, row), .succeeds =>
      ((s.commit operation database).mirror process operation now row, true)
  | some (database, _), .answerLost =>
      ((s.commit operation database).fallBack process operation now, false)
  | _, _ => (s.fallBack process operation now, false)

/-- The transaction of `settleAndEnqueue`, with its report. -/
def settleAndEnqueue (s : System) (process : ℕ) (key id : String) (details : StateDetails)
    (event : SettlementNotification) (outcome : Outcome) (databaseNow now : ℕ) :
    System × Option Report :=
  let (after, reported) := s.runStatement process
    (.settleAndEnqueue key details (some (id, event))) outcome databaseNow now
  let report : Report := ⟨key, id, event, s.database, after.database⟩
  if reported then ({ after with reports := report :: after.reports }, some report)
  else (after, none)

/-- `crypto.randomUUID()` has not been drawn before. -/
def fresh (s : System) (id : String) : Bool :=
  !(s.database.outbox.map Prod.fst).contains id

end System

def unknownRecords (db : Database) : List (Settlement ℕ) :=
  (db.projections.entries.map fun entry => (mapProjectionRow entry.2).columns).filter
    fun record => record.state == .unknown

/-- `listUnknown`: the replica at some lag, the primary, or memory. -/
def System.listed (s : System) (process lag : ℕ) : Option (List (Settlement ℕ)) :=
  let store := s.processes process
  if store.degraded || !(store.replicaPool || store.pool) then
    some store.memory.listUnknown
  else if store.replicaPool then s.past[lag]?.map unknownRecords
  else some (unknownRecords s.database)

/-- The update of a resolution that does not settle. -/
def updateOf (key : String) (resolution : Resolution) : AppendOperation :=
  .updateState key resolution.state resolution.details

def step (config : ReconcileConfig) (s : System) : Action → Option System
  | .poolReady process =>
      some (s.setProcess process { s.processes process with pool := true })
  | .replicaReady process =>
      some (s.setProcess process { s.processes process with replicaPool := true })
  | .degrade process =>
      some (s.setProcess process { s.processes process with degraded := true })
  | .saveStarts handler process record now =>
      match s.handlers handler with
      | .notReceived =>
          if (s.processes process).usable then
            some (s.setHandler handler (.saving process record))
          else some ((s.inMemory process (.save record) now).setHandler handler
            (.saved process record.idempotencyKey))
      | _ => none
  | .saveEnds handler outcome databaseNow now =>
      match s.handlers handler with
      | .saving process record =>
          some ((s.runStatement process (.save record) outcome databaseNow now).1.setHandler
            handler (.saved process record.idempotencyKey))
      | _ => none
  | .settleSucceeds handler details event =>
      match s.handlers handler with
      | .saved process key =>
          some (s.setHandler handler (.succeeded process key details event))
      | _ => none
  | .enqueueStarts handler now =>
      match s.handlers handler with
      | .succeeded process key details event =>
          if (s.processes process).usable then
            some (s.setHandler handler (.settling process key details event))
          else some ((s.inMemory process (.updateState key .settled details) now).setHandler
            handler (.answered key event none))
      | _ => none
  | .enqueueEnds handler id outcome databaseNow now =>
      match s.handlers handler with
      | .settling process key details event =>
          if s.fresh id then
            let (s, answer) :=
              s.settleAndEnqueue process key id details event outcome databaseNow now
            some (s.setHandler handler (.answered key event answer))
          else none
      | _ => none
  | .deliver handler =>
      match s.handlers handler with
      | .answered key event answer =>
          let s := s.setHandler handler (.finished key event answer)
          if answer.isSome then some s
          else some { s with published := s.published ++ [(key, event)] }
      | _ => none
  | .listUnknown sweep process lag =>
      match s.sweeps sweep with
      | .idle => (s.listed process lag).map fun records =>
          s.setSweep sweep (.polling process records)
      | _ => none
  | .poll sweep answer now =>
      match s.sweeps sweep with
      | .polling process (record :: records) =>
          match resolve config (fun _ _ => answer) record with
          | none => some (s.setSweep sweep (.polling process records))
          | some resolution =>
              if (s.processes process).usable then
                some (s.setSweep sweep
                  (.applying process record.idempotencyKey resolution records))
              else some ((s.inMemory process
                (updateOf record.idempotencyKey resolution) now).setSweep
                  sweep (.polling process records))
      | _ => none
  | .applyEnds sweep id outcome databaseNow now =>
      match s.sweeps sweep with
      | .applying process key resolution records =>
          match resolution.state, resolution.notification with
          | .settled, some event =>
              if s.fresh id then
                some ((s.settleAndEnqueue process key id resolution.details event outcome
                  databaseNow now).1.setSweep sweep (.polling process records))
              else none
          -- a settled resolution has its notification
          | .settled, none => none
          | _, _ =>
              some ((s.runStatement process (updateOf key resolution) outcome databaseNow
                now).1.setSweep sweep (.polling process records))
      | _ => none
  | .sweepEnds sweep =>
      match s.sweeps sweep with
      | .polling _ [] => some (s.setSweep sweep .idle)
      | _ => none
  | .writeStarts writer process write now =>
      match s.writers writer with
      | .idle =>
          if (s.processes process).usable then
            some (s.setWriter writer (.writing process write))
          else some (s.inMemory process write.operation now)
      | _ => none
  | .writeEnds writer outcome databaseNow now =>
      match s.writers writer with
      | .writing process write =>
          some ((s.runStatement process write.operation outcome databaseNow now).1.setWriter
            writer .idle)
      | _ => none

/-- What a handler has been answered, and whether it has acted on it. -/
def Handler.outcome :
    Handler → Option (String × SettlementNotification × Option Report × Bool)
  | answered key event answer => some (key, event, answer, false)
  | finished key event answer => some (key, event, answer, true)
  | _ => none

def settlement (key id : String) (details : StateDetails) (event : SettlementNotification) :
    AppendOperation :=
  .settleAndEnqueue key details (some (id, event))

@[simp]
theorem key_settlement (key id : String) (details : StateDetails)
    (event : SettlementNotification) : (settlement key id details event).key = key := rfl

namespace System

def written (s : System) (operation : AppendOperation) (databaseNow : ℕ) : Database :=
  (operation.writes s.database ((s.database.log operation.key).length + 1) databaseNow).1

/-- The system after a statement, up to the stores of the processes. -/
def after (s : System) (operation : AppendOperation) (outcome : Outcome)
    (databaseNow : ℕ) : System :=
  let committed := s.commit operation (s.written operation databaseNow)
  { s with
    database := if outcome = .fails then s.database else committed.database
    past := if outcome = .fails then s.past else committed.past
    enqueuedFor := if outcome = .fails then s.enqueuedFor else committed.enqueuedFor }

def reportOf (s : System) (key id : String) (details : StateDetails)
    (event : SettlementNotification) (outcome : Outcome) (databaseNow : ℕ) :
    Option Report :=
  if outcome = .succeeds then
    some ⟨key, id, event, s.database, s.written (settlement key id details event) databaseNow⟩
  else none

variable {s : System}

theorem runStatement_eq (hdb : s.database.Agrees) (process : ℕ)
    (operation : AppendOperation) (outcome : Outcome) (databaseNow now : ℕ) :
    ∃ processes, s.runStatement process operation outcome databaseNow now =
      ({ s.after operation outcome databaseNow with processes := processes },
        decide (outcome = .succeeds)) := by
  have hstatement := hdb.statementAt operation databaseNow
  have hwritten : operation.writes s.database
      ((s.database.log operation.key).length + 1) databaseNow =
        (s.written operation databaseNow, (operation.writes s.database
          ((s.database.log operation.key).length + 1) databaseNow).2) := rfl
  rw [runStatement.eq_def, hstatement, hwritten]
  cases outcome with
  | succeeds =>
      cases (operation.writes s.database
        ((s.database.log operation.key).length + 1) databaseNow).2 with
      | none => exact ⟨s.processes, rfl⟩
      | some row => exact ⟨_, rfl⟩
  | fails => exact ⟨_, rfl⟩
  | answerLost => exact ⟨_, rfl⟩

theorem settleAndEnqueue_eq (hdb : s.database.Agrees) (process : ℕ) (key id : String)
    (details : StateDetails) (event : SettlementNotification) (outcome : Outcome)
    (databaseNow now : ℕ) :
    ∃ processes,
      s.settleAndEnqueue process key id details event outcome databaseNow now =
        ({ s.after (settlement key id details event) outcome databaseNow with
            processes := processes
            reports := (s.reportOf key id details event outcome databaseNow).toList ++
              s.reports },
          s.reportOf key id details event outcome databaseNow) := by
  obtain ⟨processes, hrun⟩ := runStatement_eq hdb process (settlement key id details event)
    outcome databaseNow now
  refine ⟨processes, ?_⟩
  rw [settleAndEnqueue, ← settlement, hrun, reportOf]
  cases outcome <;> rfl

end System

inductive Effect (s : System) : Action → System → Prop
  | quiet {action : Action} (processes : ℕ → Process) (handlers : ℕ → Handler)
      (sweeps : ℕ → Sweep) (writers : ℕ → Writer)
      (houtcome : ∀ handler, (handlers handler).outcome = (s.handlers handler).outcome) :
      Effect s action { s with
        processes := processes, handlers := handlers, sweeps := sweeps, writers := writers }
  | statement {action : Action} (operation : AppendOperation) (outcome : Outcome)
      (databaseNow : ℕ) (processes : ℕ → Process) (handlers : ℕ → Handler)
      (sweeps : ℕ → Sweep) (writers : ℕ → Writer) (hsettles : settles operation = false)
      (houtcome : ∀ handler, (handlers handler).outcome = (s.handlers handler).outcome) :
      Effect s action { s.after operation outcome databaseNow with
        processes := processes, handlers := handlers, sweeps := sweeps, writers := writers }
  | sweepSettles (sweep process : ℕ) (key id : String) (resolution : Resolution)
      (event : SettlementNotification) (records : List (Settlement ℕ)) (outcome : Outcome)
      (databaseNow now : ℕ) (processes : ℕ → Process)
      (hphase : s.sweeps sweep = .applying process key resolution records)
      (hstate : resolution.state = .settled)
      (hevent : resolution.notification = some event) :
      Effect s (.applyEnds sweep id outcome databaseNow now)
        { s.after (settlement key id resolution.details event) outcome databaseNow with
          processes := processes
          sweeps := Function.update s.sweeps sweep (.polling process records)
          reports := (s.reportOf key id resolution.details event outcome
            databaseNow).toList ++ s.reports }
  | handedBack (handler process now : ℕ) (key : String) (details : StateDetails)
      (event : SettlementNotification) (processes : ℕ → Process)
      (hphase : s.handlers handler = .succeeded process key details event)
      (hguard : (s.processes process).usable = false) :
      Effect s (.enqueueStarts handler now) { s with
        processes := processes
        handlers := Function.update s.handlers handler (.answered key event none) }
  | handlerSettles (handler process : ℕ) (key id : String) (details : StateDetails)
      (event : SettlementNotification) (outcome : Outcome) (databaseNow now : ℕ)
      (processes : ℕ → Process)
      (hphase : s.handlers handler = .settling process key details event) :
      Effect s (.enqueueEnds handler id outcome databaseNow now)
        { s.after (settlement key id details event) outcome databaseNow with
          processes := processes
          reports := (s.reportOf key id details event outcome databaseNow).toList ++
            s.reports
          handlers := Function.update s.handlers handler (.answered key event
            (s.reportOf key id details event outcome databaseNow)) }
  | delivers (handler : ℕ) (key : String) (event : SettlementNotification)
      (answer : Option Report) (hphase : s.handlers handler = .answered key event answer) :
      Effect s (.deliver handler) { s with
        handlers := Function.update s.handlers handler (.finished key event answer)
        published := s.published ++ if answer.isSome then [] else [(key, event)] }

variable {handler : Handler} {handlers : ℕ → Handler} {index : ℕ}

theorem outcome_update (hsame : handler.outcome = (handlers index).outcome) (other : ℕ) :
    (Function.update handlers index handler other).outcome = (handlers other).outcome := by
  by_cases hother : other = index
  · subst hother
    rw [Function.update_self, hsame]
  · rw [Function.update_of_ne hother]

/-- One handler has moved: it has its new outcome, any other one its old one. -/
theorem outcome_update_cases {other : ℕ}
    {value : Option (String × SettlementNotification × Option Report × Bool)}
    (houtcome : (Function.update handlers index handler other).outcome = value) :
    (other = index ∧ handler.outcome = value) ∨
      (other ≠ index ∧ (handlers other).outcome = value) := by
  by_cases hother : other = index
  · subst hother
    rw [Function.update_self] at houtcome
    exact Or.inl ⟨rfl, houtcome⟩
  · rw [Function.update_of_ne hother] at houtcome
    exact Or.inr ⟨hother, houtcome⟩

section Effects

variable {config : ReconcileConfig} {s s' : System}

attribute [local simp] step

variable {action : Action} {handler now process databaseNow sweep writer : ℕ} {outcome : Outcome}
  {id : String}

theorem Effect.same (processes : ℕ → Process) (sweeps : ℕ → Sweep) (writers : ℕ → Writer) :
    Effect s action { s with
      processes := processes, sweeps := sweeps, writers := writers } :=
  Effect.quiet processes s.handlers sweeps writers fun _ => rfl

/-- A handler moves between phases that announce nothing. -/
theorem Effect.moves (processes : ℕ → Process) {index : ℕ} {handler : Handler}
    (hnone : handler.outcome = none) (hbefore : (s.handlers index).outcome = none) :
    Effect s action { s with
      processes := processes, handlers := Function.update s.handlers index handler } :=
  Effect.quiet processes _ s.sweeps s.writers
    (outcome_update (hnone.trans hbefore.symm))

theorem effect_saveStarts {record : SettlementInput}
    (hstep : step config s (.saveStarts handler process record now) = some s') :
    Effect s (.saveStarts handler process record now) s' := by
  rw [step] at hstep
  split at hstep
  · next hphase =>
      have hbefore : (s.handlers handler).outcome = none := by rw [hphase]; rfl
      split at hstep
      · cases hstep
        exact Effect.moves s.processes rfl hbefore
      · cases hstep
        exact Effect.moves _ rfl hbefore
  · cases hstep

theorem effect_saveEnds (hdb : s.database.Agrees)
    (hstep : step config s (.saveEnds handler outcome databaseNow now) = some s') :
    Effect s (.saveEnds handler outcome databaseNow now) s' := by
  rw [step] at hstep
  split at hstep
  · next process record hphase =>
      have hbefore : (s.handlers handler).outcome = none := by rw [hphase]; rfl
      obtain ⟨processes, hrun⟩ :=
        System.runStatement_eq hdb process (.save record) outcome databaseNow now
      rw [hrun] at hstep
      cases hstep
      exact Effect.statement (.save record) outcome databaseNow processes _ s.sweeps
        s.writers rfl (outcome_update hbefore.symm)
  · cases hstep

theorem effect_settleSucceeds {details : StateDetails} {event : SettlementNotification}
    (hstep : step config s (.settleSucceeds handler details event) = some s') :
    Effect s (.settleSucceeds handler details event) s' := by
  rw [step] at hstep
  split at hstep
  · next hphase =>
      cases hstep
      exact Effect.moves s.processes rfl (by rw [hphase]; rfl)
  · cases hstep

theorem effect_enqueueStarts (hstep : step config s (.enqueueStarts handler now) = some s') :
    Effect s (.enqueueStarts handler now) s' := by
  rw [step] at hstep
  split at hstep
  · next process key details event hphase =>
      split at hstep
      · cases hstep
        exact Effect.moves s.processes rfl (by rw [hphase]; rfl)
      · next hguard =>
          cases hstep
          exact Effect.handedBack handler process now key details event _ hphase
            (by simpa using hguard)
  · cases hstep

theorem effect_enqueueEnds (hdb : s.database.Agrees)
    (hstep : step config s (.enqueueEnds handler id outcome databaseNow now) = some s') :
    Effect s (.enqueueEnds handler id outcome databaseNow now) s' := by
  rw [step] at hstep
  split at hstep
  · next process key details event hphase =>
      split at hstep
      · obtain ⟨processes, hsettle⟩ := System.settleAndEnqueue_eq hdb process key id details
          event outcome databaseNow now
        rw [hsettle] at hstep
        cases hstep
        exact Effect.handlerSettles handler process key id details event outcome databaseNow
          now processes hphase
      · cases hstep
  · cases hstep

theorem effect_deliver (hstep : step config s (.deliver handler) = some s') :
    Effect s (.deliver handler) s' := by
  rw [step] at hstep
  split at hstep
  · next key event answer hphase =>
      have heffect := Effect.delivers handler key event answer hphase
      cases answer with
      | none =>
          cases hstep
          exact heffect
      | some report =>
          rw [Option.isSome_some, if_pos rfl, List.append_nil] at heffect
          obtain rfl : s.setHandler handler (.finished key event (some report)) = s' :=
            Option.some.inj hstep
          exact heffect
  · cases hstep

theorem effect_poll {answer : RpcAnswer} (hstep : step config s (.poll sweep answer now) = some s') :
    Effect s (.poll sweep answer now) s' := by
  rw [step] at hstep
  split at hstep
  · split at hstep
    · cases hstep
      exact Effect.same s.processes _ s.writers
    · split at hstep
      · cases hstep
        exact Effect.same s.processes _ s.writers
      · cases hstep
        exact Effect.same _ _ s.writers
  · cases hstep

theorem effect_applyEnds (hdb : s.database.Agrees)
    (hstep : step config s (.applyEnds sweep id outcome databaseNow now) = some s') :
    Effect s (.applyEnds sweep id outcome databaseNow now) s' := by
  rw [step] at hstep
  split at hstep
  · next process key resolution records hphase =>
      split at hstep
      · next event hstate hevent =>
          split at hstep
          · obtain ⟨processes, hsettle⟩ := System.settleAndEnqueue_eq hdb process key id
              resolution.details event outcome databaseNow now
            rw [hsettle] at hstep
            cases hstep
            exact Effect.sweepSettles sweep process key id resolution event records outcome
              databaseNow now processes hphase hstate hevent
          · cases hstep
      · cases hstep
      · next hsome hnone =>
          have hstate : resolution.state ≠ .settled := by
            intro hsettled
            cases hnotification : resolution.notification with
            | none => exact hnone hsettled hnotification
            | some event => exact hsome event hsettled hnotification
          obtain ⟨processes, hrun⟩ := System.runStatement_eq hdb process
            (updateOf key resolution) outcome databaseNow now
          rw [hrun] at hstep
          cases hstep
          exact Effect.statement (updateOf key resolution) outcome databaseNow processes
            s.handlers _ s.writers (decide_eq_false hstate) fun _ => rfl
  · cases hstep

theorem effect_writeStarts {write : RecordWrite}
    (hstep : step config s (.writeStarts writer process write now) = some s') :
    Effect s (.writeStarts writer process write now) s' := by
  rw [step] at hstep
  split at hstep
  · split at hstep
    · cases hstep
      exact Effect.same s.processes s.sweeps _
    · cases hstep
      exact Effect.same _ s.sweeps s.writers
  · cases hstep

theorem effect_writeEnds (hdb : s.database.Agrees)
    (hstep : step config s (.writeEnds writer outcome databaseNow now) = some s') :
    Effect s (.writeEnds writer outcome databaseNow now) s' := by
  rw [step] at hstep
  split at hstep
  · next process write hphase =>
      obtain ⟨processes, hrun⟩ :=
        System.runStatement_eq hdb process write.operation outcome databaseNow now
      rw [hrun] at hstep
      cases hstep
      exact Effect.statement write.operation outcome databaseNow processes s.handlers
        s.sweeps _ write.unsettled fun _ => rfl
  · cases hstep

/-- Every step has one of the effects. -/
theorem effect_of_step (hdb : s.database.Agrees) (hstep : step config s action = some s') :
    Effect s action s' := by
  cases action with
  | poolReady process | replicaReady process | degrade process =>
      cases hstep
      exact Effect.same _ s.sweeps s.writers
  | saveStarts handler process record now => exact effect_saveStarts hstep
  | saveEnds handler outcome databaseNow now => exact effect_saveEnds hdb hstep
  | settleSucceeds handler details event => exact effect_settleSucceeds hstep
  | enqueueStarts handler now => exact effect_enqueueStarts hstep
  | enqueueEnds handler id outcome databaseNow now => exact effect_enqueueEnds hdb hstep
  | deliver handler => exact effect_deliver hstep
  | listUnknown sweep process lag =>
      rw [step] at hstep
      split at hstep
      · obtain ⟨records, -, rfl⟩ := Option.map_eq_some_iff.mp hstep
        exact Effect.same s.processes _ s.writers
      · cases hstep
  | poll sweep answer now => exact effect_poll hstep
  | applyEnds sweep id outcome databaseNow now => exact effect_applyEnds hdb hstep
  | sweepEnds sweep =>
      rw [step] at hstep
      split at hstep
      · cases hstep
        exact Effect.same s.processes _ s.writers
      · cases hstep
  | writeStarts writer process write now => exact effect_writeStarts hstep
  | writeEnds writer outcome databaseNow now => exact effect_writeEnds hdb hstep

theorem agrees_after (hdb : s.database.Agrees) (operation : AppendOperation)
    (outcome : Outcome) (databaseNow : ℕ) :
    (s.after operation outcome databaseNow).database.Agrees := by
  change (if outcome = .fails then s.database
    else s.written operation databaseNow).Agrees
  split
  · exact hdb
  · exact hdb.writes

theorem Effect.agrees (heffect : Effect s action s') (hdb : s.database.Agrees) :
    s'.database.Agrees := by
  cases heffect with
  | quiet => exact hdb
  | statement operation outcome databaseNow => exact agrees_after hdb operation _ _
  | sweepSettles => exact agrees_after hdb _ _ _
  | handedBack => exact hdb
  | handlerSettles => exact agrees_after hdb _ _ _
  | delivers => exact hdb

/-- The tables of `earlier` are still there. -/
structure Kept (earlier later : Database) : Prop where
  events : earlier.events <+: later.events
  outbox : earlier.outbox <+: later.outbox

theorem Kept.refl (db : Database) : Kept db db :=
  ⟨List.prefix_refl _, List.prefix_refl _⟩

theorem Kept.trans {first second third : Database} (hfirst : Kept first second)
    (hsecond : Kept second third) : Kept first third :=
  ⟨hfirst.events.trans hsecond.events, hfirst.outbox.trans hsecond.outbox⟩

/-- A settling transaction that finds the row of its key. -/
theorem written_settlement (s : System) {key : String} (id : String)
    (details : StateDetails) (event : SettlementNotification) (databaseNow : ℕ)
    (hrow : (s.database.projections.get key).isSome = true) :
    ∃ row, s.written (settlement key id details event) databaseNow =
      (settlement key id details event).append s.database
        ((s.database.log key).length + 1) databaseNow row := by
  obtain ⟨old, hold⟩ := Option.isSome_iff_exists.mp hrow
  have hrowOver : (settlement key id details event).rowOver (s.database.projections.get key)
      ((s.database.log key).length + 1) databaseNow =
        some (Database.coalescedRow old .settled details
          ((s.database.log key).length + 1) databaseNow) := by
    rw [hold]
    rfl
  exact ⟨_, congrArg Prod.fst (AppendOperation.writes_of_some hrowOver)⟩

theorem kept_written (s : System) (operation : AppendOperation) (databaseNow : ℕ) :
    Kept s.database (s.written operation databaseNow) := by
  rw [System.written, AppendOperation.writes]
  split
  · exact Kept.refl s.database
  · exact ⟨List.prefix_append _ _, List.prefix_append _ _⟩

theorem kept_after (s : System) (operation : AppendOperation) (outcome : Outcome)
    (databaseNow : ℕ) :
    Kept s.database (s.after operation outcome databaseNow).database := by
  change Kept s.database
    (if outcome = .fails then s.database else s.written operation databaseNow)
  split
  · exact Kept.refl s.database
  · exact kept_written s operation databaseNow

end Effects

end X402Facilitator.Notifications
