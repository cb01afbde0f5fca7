import X402Facilitator.Library.Execution
import X402Facilitator.Cqrs.ReadModel
import X402Facilitator.Store.Appends

/-!
# The projection worker

One worker reads batches of events after its checkpoint, groups them by key,
projects the whole log of each key and moves the checkpoint to the largest
sequence number of the groups it has written.  Sequence numbers count the events
of one key; the checkpoint is a single number.  Other processes append to the
log between any two queries of the worker, and any query may fail.
-/

namespace X402Facilitator.ProjectionWorker

open X402Facilitator.Execution

/-- How a query of the worker ends.  A query may take effect without its answer
arriving. -/
inductive QueryOutcome where
  | succeeds
  | fails
  | answerLost
  deriving DecidableEq, Repr

/-- The events of one key in a batch: the key and their highest number. -/
structure EventGroup where
  key : String
  maxSeq : ℕ
  deriving DecidableEq, Repr

/-- How far `processBatch` has got.  `fetching` is the head of the loop over the
groups that are left; `writing` has fetched the `count` events of a group. -/
inductive Phase where
  | idle
  | fetching (groups : List EventGroup) (lastSeq : ℕ)
  | writing (group : EventGroup) (projection : Option (Settlement ℕ)) (count : ℕ)
      (groups : List EventGroup) (lastSeq : ℕ)

/-- The log, the read model, `settlement_projection_checkpoint` and the worker.
`included` records how many events the row of a key was projected from. -/
structure System where
  database : Database
  readModel : ReadModel ℕ
  included : String → ℕ
  checkpoint : ℕ
  currentOffset : ℕ
  phase : Phase

def System.init : System where
  database := .empty
  readModel := .empty
  included := fun _ => 0
  checkpoint := 0
  currentOffset := 0
  phase := .idle

/-- The events that `WHERE e.seq > offset` selects, as `(key, seq)`. -/
def eventsAfter (db : Database) (offset : ℕ) : List (String × ℕ) :=
  (db.events.map fun row => (row.idempotencyKey, row.event.seq)).filter
    fun position => offset < position.2

/-- An answer of `ORDER BY e.seq ASC`, which leaves the order of ties open. -/
def IsOrdered (db : Database) (offset : ℕ) (order : List (String × ℕ)) : Prop :=
  order.Perm (eventsAfter db offset) ∧ order.Pairwise fun left right => left.2 ≤ right.2

instance (db : Database) (offset : ℕ) (order : List (String × ℕ)) :
    Decidable (IsOrdered db offset order) :=
  inferInstanceAs (Decidable (_ ∧ _))

/-- `eventGroups`, with `Math.max` of each group. -/
def groupEvents (events : List (String × ℕ)) : InsertionMap String ℕ :=
  events.foldl
    (fun groups event => groups.set event.1 (max ((groups.get event.1).getD 0) event.2))
    .empty

def eventGroups (events : List (String × ℕ)) : List EventGroup :=
  (groupEvents events).entries.map fun entry => ⟨entry.1, entry.2⟩

inductive Action where
  | append (operation : AppendOperation) (now : ℕ)
  | read (order : List (String × ℕ))
  | readFails
  | fetch
  | fetchFails
  | write (outcome : QueryOutcome)
  | updateCheckpoint (outcome : QueryOutcome)
  | restart

/-- What `writeProjection` leaves of a group. -/
def System.wrote (s : System) (group : EventGroup) (projection : Option (Settlement ℕ))
    (count : ℕ) (table : ReadModel ℕ) : System :=
  { s with
    readModel := table
    included := if projection.isSome then Function.update s.included group.key count
      else s.included }

/-- `options.batchSize || 100`. -/
def batchLimit (batchSize : ℕ) : ℕ := if batchSize = 0 then 100 else batchSize

/-- One query of the worker, or an append by another process. -/
def step (batchSize : ℕ) (s : System) : Action → Option System
  | .append operation now =>
      (operation.statementAt s.database (s.database.maxSeq operation.key + 1) now).map
        fun written => { s with database := written.1 }
  | .read order =>
      match s.phase with
      | .idle =>
          if IsOrdered s.database s.currentOffset order then
            let events := order.take (batchLimit batchSize)
            if events = [] then some s
            else some { s with phase := .fetching (eventGroups events) s.currentOffset }
          else none
      | _ => none
  | .readFails =>
      match s.phase with
      | .idle => some s
      | _ => none
  | .fetch =>
      match s.phase with
      | .fetching (group :: groups) lastSeq =>
          let allEvents := s.database.selectLog group.key
          some { s with
            phase := .writing group (projectSettlement allEvents) allEvents.length groups
              lastSeq }
      | _ => none
  | .fetchFails =>
      match s.phase with
      | .fetching (_ :: groups) lastSeq => some { s with phase := .fetching groups lastSeq }
      | _ => none
  | .write outcome =>
      match s.phase with
      | .writing group projection count groups lastSeq =>
          match outcome, s.readModel.writeProjection projection group.maxSeq with
          | .succeeds, some table =>
              some { s.wrote group projection count table with
                phase := .fetching groups (max lastSeq group.maxSeq) }
          | .answerLost, some table =>
              some { s.wrote group projection count table with
                phase := .fetching groups lastSeq }
          | _, _ => some { s with phase := .fetching groups lastSeq }
      | _ => none
  | .updateCheckpoint outcome =>
      match s.phase with
      | .fetching [] lastSeq =>
          if s.currentOffset < lastSeq then
            match outcome with
            | .succeeds => some { s with
                checkpoint := lastSeq, currentOffset := lastSeq, phase := .idle }
            | .fails => some { s with phase := .idle }
            | .answerLost => some { s with checkpoint := lastSeq, phase := .idle }
          else some { s with phase := .idle }
      | _ => none
  | .restart => some { s with currentOffset := s.checkpoint, phase := .idle }

namespace Phase

/-- The groups of the batch that are still to be fetched. -/
def groupsLeft : Phase → List EventGroup
  | idle => []
  | fetching groups _ => groups
  | writing _ _ _ groups _ => groups

def isIdle : Phase → Bool
  | idle => true
  | _ => false

theorem eq_idle_of_isIdle {phase : Phase} (hidle : phase.isIdle = true) : phase = idle := by
  cases phase with
  | idle => rfl
  | fetching groups lastSeq => cases hidle
  | writing group projection count groups lastSeq => cases hidle

def keysLeft (phase : Phase) : List String := phase.groupsLeft.map EventGroup.key

/-- The largest number of the groups written in this batch. -/
def lastSeq : Phase → ℕ
  | idle => 0
  | fetching _ lastSeq => lastSeq
  | writing _ _ _ _ lastSeq => lastSeq

end Phase

/-- The row of the key is projected from all its events numbered up to `bound`. -/
def System.Includes (s : System) (key : String) (bound : ℕ) : Prop :=
  ∀ event ∈ s.database.log key, event.seq ≤ bound → event.seq ≤ s.included key

/-- The largest number that the worker has passed or may still write as its
checkpoint without writing another group. -/
def System.passed (s : System) : ℕ := max s.checkpoint (max s.currentOffset s.phase.lastSeq)

section Steps

variable {batchSize : ℕ} {s s' : System}

/-- The two ways a `writeProjection` goes: the table takes the row or not. -/
theorem step_write {group : EventGroup} {projection : Option (Settlement ℕ)}
    {count lastSeq : ℕ} {groups : List EventGroup} {outcome : QueryOutcome}
    (hphase : s.phase = .writing group projection count groups lastSeq)
    (hstep : step batchSize s (.write outcome) = some s') :
    (∃ table, s.readModel.writeProjection projection group.maxSeq = some table ∧
      outcome = .succeeds ∧
      s' = { s.wrote group projection count table with
        phase := .fetching groups (max lastSeq group.maxSeq) }) ∨
    (∃ table, s.readModel.writeProjection projection group.maxSeq = some table ∧
      outcome = .answerLost ∧
      s' = { s.wrote group projection count table with
        phase := .fetching groups lastSeq }) ∨
    ((outcome = .fails ∨ s.readModel.writeProjection projection group.maxSeq = none) ∧
      s' = { s with phase := .fetching groups lastSeq }) := by
  rw [step, hphase] at hstep
  cases hwritten : s.readModel.writeProjection projection group.maxSeq with
  | none =>
      refine Or.inr (Or.inr ⟨Or.inr rfl, ?_⟩)
      cases outcome <;> simpa [hwritten] using hstep.symm
  | some table =>
      cases outcome with
      | succeeds => exact Or.inl ⟨table, rfl, rfl, by simpa [hwritten] using hstep.symm⟩
      | answerLost =>
          exact Or.inr (Or.inl ⟨table, rfl, rfl, by simpa [hwritten] using hstep.symm⟩)
      | fails =>
          exact Or.inr (Or.inr ⟨Or.inl rfl, by simpa [hwritten] using hstep.symm⟩)

/-- The end of a batch moves the checkpoint and the offset to the last number it
wrote, or leaves them. -/
theorem step_updateCheckpoint {outcome : QueryOutcome}
    (hstep : step batchSize s (.updateCheckpoint outcome) = some s') :
    ∃ lastSeq checkpoint currentOffset, s.phase = .fetching [] lastSeq ∧
      (checkpoint = s.checkpoint ∨ checkpoint = lastSeq) ∧
      (currentOffset = s.currentOffset ∨ currentOffset = lastSeq) ∧
      s' = { s with
        checkpoint := checkpoint, currentOffset := currentOffset, phase := .idle } := by
  rw [step] at hstep
  split at hstep
  · next lastSeq hphase =>
      split at hstep
      · cases outcome <;> cases hstep
        · exact ⟨lastSeq, lastSeq, lastSeq, hphase, Or.inr rfl, Or.inr rfl, rfl⟩
        · exact ⟨lastSeq, s.checkpoint, s.currentOffset, hphase, Or.inl rfl, Or.inl rfl, rfl⟩
        · exact ⟨lastSeq, lastSeq, s.currentOffset, hphase, Or.inr rfl, Or.inl rfl, rfl⟩
      · cases hstep
        exact ⟨lastSeq, s.checkpoint, s.currentOffset, hphase, Or.inl rfl, Or.inl rfl, rfl⟩
  · cases hstep

end Steps

end X402Facilitator.ProjectionWorker
