import X402Facilitator.Library.Execution
import X402Facilitator.Store.AppendStatements

/-!
# Concurrent appends

Several stores append through one healthy database.  A statement reads the next
sequence number, and whether the key has a row, from its snapshot; its `INSERT`
waits for an uncommitted row with the same key and number and fails on a
committed one; the commit makes the event and the row visible.  A store takes
the failed `INSERT` for an outage.

`AppendsAreDurable` is refuted for unrestricted runs.  It holds of the runs in
which no other append to the key commits between a snapshot and its `INSERT`.
-/

namespace X402Facilitator.ConcurrentAppends

open X402Facilitator.Execution

/-- How far a call has got.  A statement carries what its snapshot held: the
next sequence number, whether the key has a row, and the transaction time. -/
inductive Call where
  | notMade
  | started (store : ℕ) (operation : AppendOperation)
  | snapshot (store : ℕ) (operation : AppendOperation) (seq : ℕ) (present : Bool)
      (databaseNow : ℕ)
  | inserted (store : ℕ) (operation : AppendOperation) (seq databaseNow : ℕ)
  | returned (operation : AppendOperation) (record : Option (Settlement ℕ))

/-- The committed tables, the uncommitted event rows as `(call, key, seq)`, the
stores and the calls.  `authors` records, for each row of `settlement_events`,
the call that appended it. -/
structure System where
  database : Database
  authors : List ℕ
  uncommitted : List (ℕ × String × ℕ)
  degraded : ℕ → Bool
  memory : ℕ → MemorySettlementStore ℕ
  calls : ℕ → Call

def System.init : System where
  database := .empty
  authors := []
  uncommitted := []
  degraded := fun _ => false
  memory := fun _ => .empty
  calls := fun _ => .notMade

inductive Action where
  | start (call store : ℕ) (operation : AppendOperation) (now : ℕ)
  | snapshot (call databaseNow : ℕ)
  | insert (call now : ℕ)
  | commit (call now : ℕ)

namespace System

def setCall (s : System) (call : ℕ) (state : Call) : System :=
  { s with calls := Function.update s.calls call state }

/-- The operation of the process-local store answers the call. -/
def answerInMemory (s : System) (call store : ℕ) (operation : AppendOperation)
    (now : ℕ) : System :=
  let (memory, record) := operation.inMemory (s.memory store) now
  { s with
    memory := Function.update s.memory store memory
    calls := Function.update s.calls call (.returned operation record) }

def fallBack (s : System) (call store : ℕ) (operation : AppendOperation) (now : ℕ) :
    System :=
  ({ s with degraded := Function.update s.degraded store true }).answerInMemory
    call store operation now

end System

def step (s : System) : Action → Option System
  | .start call store operation now =>
      match s.calls call with
      | .notMade =>
          if s.degraded store then some (s.answerInMemory call store operation now)
          else some (s.setCall call (.started store operation))
      | _ => none
  | .snapshot call databaseNow =>
      match s.calls call with
      | .started store operation =>
          some (s.setCall call (.snapshot store operation
            (s.database.maxSeq operation.key + 1)
            (s.database.projections.get operation.key).isSome databaseNow))
      | _ => none
  | .insert call now =>
      match s.calls call with
      | .snapshot store operation seq present databaseNow =>
          if operation.inserts present then
            -- an uncommitted row with the same key and number is waited for
            if s.uncommitted.any fun row => row.2 == (operation.key, seq) then none
            else if (s.database.log operation.key).any fun event => event.seq == seq then
              some (s.fallBack call store operation now)
            else
              some { s with
                uncommitted := (call, operation.key, seq) :: s.uncommitted
                calls := Function.update s.calls call
                  (.inserted store operation seq databaseNow) }
          else some (s.setCall call (.returned operation none))
      | _ => none
  | .commit call now =>
      match s.calls call with
      | .inserted store operation seq databaseNow =>
          let uncommitted := s.uncommitted.filter fun row => row.1 ≠ call
          match operation.statementAt s.database seq databaseNow with
          | some (database, some row) =>
              some { s with
                database := database
                authors := s.authors ++ [call]
                uncommitted := uncommitted
                memory := Function.update s.memory store
                  (operation.mirror (s.memory store) now row)
                calls := Function.update s.calls call
                  (.returned operation (some (mapProjectionRow row).columns)) }
          | _ =>
              some (({ s with uncommitted := uncommitted }).fallBack call store operation now)
      | _ => none

/-- Every call that returned a record has its event in the log exactly once, and
no store has degraded. -/
structure AppendsAreDurable (s : System) : Prop where
  healthy : ∀ store, s.degraded store = false
  aligned : s.authors.length = s.database.events.length
  once : ∀ call operation record, s.calls call = .returned operation (some record) →
    s.authors.count call = 1
  logged : ∀ call operation record, s.calls call = .returned operation (some record) →
    ∃ seq now, (call, ⟨operation.key, operation.event seq now⟩) ∈
      s.authors.zip s.database.events

/-- In every state that a run with steps satisfying `meets` reaches. -/
def NoLostAppend (meets : System → Action → Prop) : Prop :=
  ∀ s, Reaches step meets .init s → AppendsAreDurable s

/-- At an `INSERT` the number read from the snapshot is still the next one. -/
def SnapshotIsCurrent (s : System) : Action → Prop
  | .insert call _ => ∀ store operation seq present databaseNow,
      s.calls call = .snapshot store operation seq present databaseNow →
        operation.inserts present = true → seq = s.database.maxSeq operation.key + 1
  | _ => True

structure Appended (db db' : Database) (key : String) (event : SettlementEvent ℕ) :
    Prop where
  events : db'.events = db.events ++ [⟨key, event⟩]
  present : ∀ other, (db.projections.get other).isSome = true →
    (db'.projections.get other).isSome = true

variable {key other : String} {db : Database}

theorem isSome_get_set {rows : InsertionMap String ProjectionRow} {row : ProjectionRow}
    (hother : (rows.get other).isSome = true) : ((rows.set key row).get other).isSome = true := by
  rw [InsertionMap.get_set]
  split
  · rfl
  · exact hother

/-- A statement whose number is past the largest one appends its event. -/
theorem statementAt_of_maxSeq_lt {operation : AppendOperation} {seq : ℕ}
    (hseq : db.maxSeq operation.key < seq)
    (hinserts : operation.inserts (db.projections.get operation.key).isSome = true) (now : ℕ) :
    ∃ db' row, operation.statementAt db seq now = some (db', some row) ∧
      Appended db db' operation.key (operation.event seq now) := by
  rw [← AppendOperation.rowOver_isSome operation _ seq now] at hinserts
  obtain ⟨row, hrow⟩ := Option.isSome_iff_exists.mp hinserts
  refine ⟨operation.append db seq now row, row, ?_, ?_⟩
  · rw [AppendOperation.statementAt_eq hseq, AppendOperation.writes_of_some hrow]
  · exact ⟨rfl, fun other hother => isSome_get_set hother⟩

theorem Appended.log {db' : Database} {event : SettlementEvent ℕ}
    (happended : Appended db db' key event) (hother : other ≠ key) :
    db'.log other = db.log other := by
  simp [Database.log, happended.events, Ne.symm hother]

def Call.isReturned : Call → Bool
  | .returned _ _ => true
  | _ => false

structure Durable (s : System) : Prop where
  healthy : ∀ store, s.degraded store = false
  aligned : s.authors.length = s.database.events.length
  fresh : ∀ call, (s.calls call).isReturned = false → call ∉ s.authors
  once : ∀ call operation record, s.calls call = .returned operation (some record) →
    s.authors.count call = 1
  logged : ∀ call operation record, s.calls call = .returned operation (some record) →
    ∃ seq now, (call, ⟨operation.key, operation.event seq now⟩) ∈
      s.authors.zip s.database.events
  present : ∀ call store operation seq now,
    s.calls call = .snapshot store operation seq true now →
      (s.database.projections.get operation.key).isSome = true
  reserved : ∀ call store operation seq now,
    s.calls call = .inserted store operation seq now →
      (call, operation.key, seq) ∈ s.uncommitted ∧
      seq = s.database.maxSeq operation.key + 1 ∧
      operation.inserts (s.database.projections.get operation.key).isSome = true
  exclusive : ∀ call store operation seq now call' store' operation' seq' now',
    s.calls call = .inserted store operation seq now →
    s.calls call' = .inserted store' operation' seq' now' →
      operation.key = operation'.key → call = call'

theorem Durable.init : Durable .init where
  healthy := fun _ => rfl
  aligned := rfl
  fresh := fun _ _ => List.not_mem_nil
  once := fun _ _ _ h => by cases h
  logged := fun _ _ _ h => by cases h
  present := fun _ _ _ _ _ h => by cases h
  reserved := fun _ _ _ _ _ h => by cases h
  exclusive := fun _ _ _ _ _ _ _ _ _ _ h => by cases h

theorem Durable.durable {s : System} (hdurable : Durable s) : AppendsAreDurable s :=
  ⟨hdurable.healthy, hdurable.aligned, hdurable.once, hdurable.logged⟩

section Steps

variable {s : System} {call : ℕ}

variable {operation : AppendOperation} {other databaseNow seq store : ℕ} {state : Call}

/-- No call has returned by a step to another state. -/
theorem returned_of_update {record : Settlement ℕ}
    (hreturned : state ≠ .returned operation (some record))
    (hother : Function.update s.calls call state other = .returned operation (some record)) :
    s.calls other = .returned operation (some record) := by
  rcases update_cases hother with ⟨-, hstate⟩ | ⟨-, hsame⟩
  · exact absurd hstate hreturned
  · exact hsame

theorem isReturned_of_update (hopen : (s.calls call).isReturned = false)
    (hother : (Function.update s.calls call state other).isReturned = false) :
    (s.calls other).isReturned = false := by
  by_cases hcall : other = call
  · subst hcall
    exact hopen
  · rw [Function.update_of_ne hcall] at hother
    exact hother

/-- A call moves without touching the tables: it has not appended before, and
what it holds now is justified. -/
theorem Durable.setCall (hdurable : Durable s) (hopen : (s.calls call).isReturned = false)
    (hreturned : ∀ operation record, state ≠ .returned operation (some record))
    (hpresent : ∀ store operation seq now, state = .snapshot store operation seq true now →
      (s.database.projections.get operation.key).isSome = true)
    (hinserted : ∀ store operation seq now, state ≠ .inserted store operation seq now) :
    Durable (s.setCall call state) where
  healthy := hdurable.healthy
  aligned := hdurable.aligned
  fresh := fun other hother => hdurable.fresh other (isReturned_of_update hopen hother)
  once := by
    intro other operation record hother
    exact hdurable.once other operation record
      (returned_of_update (hreturned operation record) hother)
  logged := by
    intro other operation record hother
    exact hdurable.logged other operation record
      (returned_of_update (hreturned operation record) hother)
  present := by
    intro other store operation seq now hother
    rcases update_cases hother with ⟨-, hstate⟩ | ⟨-, hsame⟩
    · exact hpresent store operation seq now hstate
    · exact hdurable.present other store operation seq now hsame
  reserved := by
    intro other store operation seq now hother
    rcases update_cases hother with ⟨-, hstate⟩ | ⟨-, hsame⟩
    · exact absurd hstate (hinserted store operation seq now)
    · exact hdurable.reserved other store operation seq now hsame
  exclusive := by
    intro first store operation seq now second store' operation' seq' now' hfirst hsecond
    rcases update_cases hfirst with ⟨-, hstate⟩ | ⟨-, hfirst⟩
    · exact absurd hstate (hinserted store operation seq now)
    rcases update_cases hsecond with ⟨-, hstate⟩ | ⟨-, hsecond⟩
    · exact absurd hstate (hinserted store' operation' seq' now')
    exact hdurable.exclusive first store operation seq now second store' operation' seq'
      now' hfirst hsecond

/-- An `INSERT` that neither waits nor fails reserves the next number. -/
theorem Durable.insert (hdurable : Durable s) {present : Bool}
    (hcall : s.calls call = .snapshot store operation seq present databaseNow)
    (hinserts : operation.inserts present = true) (hseq : seq = s.database.maxSeq operation.key + 1)
    (hfree : ∀ row ∈ s.uncommitted, row.2 ≠ (operation.key, seq)) : Durable { s with
      uncommitted := (call, operation.key, seq) :: s.uncommitted
      calls := Function.update s.calls call (.inserted store operation seq databaseNow) } where
  healthy := hdurable.healthy
  aligned := hdurable.aligned
  fresh := by
    intro other hother
    have hopen : (s.calls call).isReturned = false := by rw [hcall]; rfl
    exact hdurable.fresh other (isReturned_of_update hopen hother)
  once := by
    intro other operation' record hother
    exact hdurable.once other operation' record (returned_of_update (by simp) hother)
  logged := by
    intro other operation' record hother
    exact hdurable.logged other operation' record (returned_of_update (by simp) hother)
  present := by
    intro other store' operation' seq' now' hother
    rcases update_cases hother with ⟨-, hstate⟩ | ⟨-, hsame⟩
    · cases hstate
    · exact hdurable.present other store' operation' seq' now' hsame
  reserved := by
    intro other store' operation' seq' now' hother
    rcases update_cases hother with ⟨rfl, hstate⟩ | ⟨-, hsame⟩
    · cases hstate
      refine ⟨List.mem_cons_self, hseq, AppendOperation.inserts_mono hinserts ?_⟩
      rintro rfl
      exact hdurable.present other _ _ _ _ hcall
    · obtain ⟨hmem, hnext, hpresent⟩ :=
        hdurable.reserved other store' operation' seq' now' hsame
      exact ⟨List.mem_cons_of_mem _ hmem, hnext, hpresent⟩
  exclusive := by
    -- a second reservation for the key would hold the same number
    have hnone : ∀ other store' operation' seq' now',
        s.calls other = .inserted store' operation' seq' now' →
          operation'.key ≠ operation.key := by
      intro other store' operation' seq' now' hother hkey
      obtain ⟨hmem, hnext, -⟩ := hdurable.reserved other store' operation' seq' now' hother
      apply hfree _ hmem
      rw [hnext, hkey, hseq]
    intro first store₁ operation₁ seq₁ now₁ second store₂ operation₂ seq₂ now₂ hfirst
      hsecond hkey
    rcases update_cases hfirst with ⟨hfirst, hstate₁⟩ | ⟨-, hfirst⟩
    · rcases update_cases hsecond with ⟨hsecond, -⟩ | ⟨-, hsecond⟩
      · rw [hfirst, hsecond]
      · cases hstate₁
        exact absurd hkey.symm (hnone second _ _ _ _ hsecond)
    · rcases update_cases hsecond with ⟨-, hstate₂⟩ | ⟨-, hsecond⟩
      · cases hstate₂
        exact absurd hkey (hnone first _ _ _ _ hfirst)
      · exact hdurable.exclusive first store₁ operation₁ seq₁ now₁ second store₂
          operation₂ seq₂ now₂ hfirst hsecond hkey

/-- A commit appends the event of its call, and only that. -/
theorem Durable.commit (hdurable : Durable s) {database : Database} {row : ProjectionRow}
    {memory : ℕ → MemorySettlementStore ℕ}
    (hcall : s.calls call = .inserted store operation seq databaseNow)
    (happended : Appended s.database database operation.key
      (operation.event seq databaseNow)) : Durable { s with
      database := database
      authors := s.authors ++ [call]
      uncommitted := s.uncommitted.filter fun row => row.1 ≠ call
      memory := memory
      calls := Function.update s.calls call
        (.returned operation (some (mapProjectionRow row).columns)) } where
  healthy := hdurable.healthy
  aligned := by
    rw [happended.events, List.length_append, List.length_append, hdurable.aligned]
    rfl
  fresh := by
    intro other hother hmem
    by_cases hcaller : other = call
    · subst hcaller
      simp [Call.isReturned] at hother
    · rcases List.mem_append.mp hmem with hold | hnew
      · refine hdurable.fresh other ?_ hold
        simpa [Function.update_of_ne hcaller] using hother
      · exact hcaller (List.mem_singleton.mp hnew)
  once := by
    intro other operation' record hother
    rw [List.count_append]
    rcases update_cases hother with ⟨rfl, -⟩ | ⟨hne, hsame⟩
    · have hfresh : other ∉ s.authors := hdurable.fresh other (by rw [hcall]; rfl)
      rw [List.count_eq_zero.mpr hfresh]
      simp
    · rw [hdurable.once other operation' record hsame, List.count_eq_zero.mpr]
      simp [hne]
  logged := by
    intro other operation' record hother
    have hzip : (s.authors ++ [call]).zip database.events = s.authors.zip s.database.events ++
        [(call, ⟨operation.key, operation.event seq databaseNow⟩)] := by
      rw [happended.events, List.zip_append hdurable.aligned]
      rfl
    rw [hzip]
    rcases update_cases hother with ⟨rfl, hstate⟩ | ⟨-, hsame⟩
    · cases hstate
      exact ⟨seq, databaseNow, List.mem_append_right _ (List.mem_singleton_self _)⟩
    · obtain ⟨seq', now', hmem⟩ := hdurable.logged other operation' record hsame
      exact ⟨seq', now', List.mem_append_left _ hmem⟩
  present := by
    intro other store' operation' seq' now' hother
    rcases update_cases hother with ⟨-, hstate⟩ | ⟨-, hsame⟩
    · cases hstate
    · exact happended.present _ (hdurable.present other store' operation' seq' now' hsame)
  reserved := by
    intro other store' operation' seq' now' hother
    rcases update_cases hother with ⟨-, hstate⟩ | ⟨hne, hsame⟩
    · cases hstate
    · obtain ⟨hmem, hnext, hinserts⟩ :=
        hdurable.reserved other store' operation' seq' now' hsame
      have hkey : operation'.key ≠ operation.key := fun hkey =>
        hne (hdurable.exclusive other _ _ _ _ call _ _ _ _ hsame hcall hkey)
      refine ⟨List.mem_filter.mpr ⟨hmem, by simpa using hne⟩, ?_, ?_⟩
      · rw [Database.maxSeq, happended.log hkey]
        exact hnext
      · exact AppendOperation.inserts_mono hinserts (happended.present _)
  exclusive := by
    intro first store₁ operation₁ seq₁ now₁ second store₂ operation₂ seq₂ now₂ hfirst
      hsecond
    rcases update_cases hfirst with ⟨-, hstate⟩ | ⟨-, hfirst⟩
    · cases hstate
    rcases update_cases hsecond with ⟨-, hstate⟩ | ⟨-, hsecond⟩
    · cases hstate
    exact hdurable.exclusive first store₁ operation₁ seq₁ now₁ second store₂ operation₂
      seq₂ now₂ hfirst hsecond

end Steps

theorem Durable.step {s s' : System} {action : Action} (hdurable : Durable s)
    (hmeets : SnapshotIsCurrent s action) (hstep : step s action = some s') :
    Durable s' := by
  cases action with
  | start call store operation now =>
      simp only [ConcurrentAppends.step] at hstep
      split at hstep
      · next hcall =>
          rw [hdurable.healthy store] at hstep
          cases hstep
          apply hdurable.setCall <;> simp [hcall, Call.isReturned]
      · cases hstep
  | snapshot call databaseNow =>
      simp only [ConcurrentAppends.step] at hstep
      split at hstep
      · next store operation hcall =>
          cases hstep
          apply hdurable.setCall
          · rw [hcall]
            rfl
          · simp
          · intro store' operation' seq' now' hstate
            simp only [Call.snapshot.injEq] at hstate
            obtain ⟨-, rfl, -, hpresent, -⟩ := hstate
            exact hpresent
          · simp
      · cases hstep
  | insert call now =>
      simp only [ConcurrentAppends.step] at hstep
      split at hstep
      · next store operation seq present databaseNow hcall =>
          split at hstep
          · next hinserts =>
              have hseq := hmeets store operation seq present databaseNow hcall hinserts
              split at hstep
              · cases hstep
              · next hwait =>
                  split at hstep
                  · next htaken =>
                      obtain ⟨event, hevent, heq⟩ := List.any_eq_true.mp htaken
                      have hle := Database.seq_le_maxSeq hevent
                      have hsame : event.seq = seq := by simpa using heq
                      omega
                  · cases hstep
                    apply hdurable.insert hcall hinserts hseq
                    intro row hrow hsame
                    exact hwait (List.any_eq_true.mpr ⟨row, hrow, by simpa using hsame⟩)
          · cases hstep
            apply hdurable.setCall <;> simp [hcall, Call.isReturned]
      · cases hstep
  | commit call now =>
      simp only [ConcurrentAppends.step] at hstep
      split at hstep
      · next store operation seq databaseNow hcall =>
          obtain ⟨-, hnext, hinserts⟩ := hdurable.reserved call _ _ _ _ hcall
          have hlt : s.database.maxSeq operation.key < seq := by omega
          obtain ⟨database, row, hstatement, happended⟩ :=
            statementAt_of_maxSeq_lt hlt hinserts databaseNow
          rw [hstatement] at hstep
          cases hstep
          exact hdurable.commit hcall happended
      · cases hstep

/-- While no other append to a key commits between a snapshot and its `INSERT`,
no append is lost and no store leaves the database. -/
theorem appendsAreDurable_snapshotIsCurrent {s : System}
    (hreach : Reaches step SnapshotIsCurrent .init s) : AppendsAreDurable s := by
  have hdurable : Durable s :=
    hreach.preserves (fun _ _ _ h hmeets hstep => h.step hmeets hstep) Durable.init
  exact hdurable.durable

/-- Two stores save the same key; the second begins before the first commits, and takes its
snapshot after that. -/
def followingSaves : List Action :=
  [.start 0 0 (.save { idempotencyKey := "order-1" }) 0, .snapshot 0 0, .insert 0 0,
    .start 1 1 (.save { idempotencyKey := "order-1" }) 0, .commit 0 0, .snapshot 1 0,
    .insert 1 0, .commit 1 0]

theorem appendsAreDurable_save :
    ∃ s, run step System.init followingSaves = some s ∧ AppendsAreDurable s ∧
      s.authors = [0, 1] ∧ ∀ call < 2, (s.calls call).isReturned = true := by
  have hstart : Reaches step SnapshotIsCurrent .init _ :=
    Relation.ReflTransGen.refl.tail ⟨.start 0 0 (.save { idempotencyKey := "order-1" }) 0,
      trivial, rfl⟩
  have hsnapshot : Reaches step SnapshotIsCurrent .init _ :=
    Relation.ReflTransGen.tail hstart ⟨.snapshot 0 0, trivial, rfl⟩
  have hinsert : Reaches step SnapshotIsCurrent .init _ :=
    Relation.ReflTransGen.tail hsnapshot ⟨.insert 0 0, fun _ _ _ _ _ hcall _ => by
      obtain ⟨rfl, rfl, rfl, rfl, rfl⟩ := Call.snapshot.inj hcall
      rfl, rfl⟩
  have hstart' : Reaches step SnapshotIsCurrent .init _ :=
    Relation.ReflTransGen.tail hinsert
      ⟨.start 1 1 (.save { idempotencyKey := "order-1" }) 0, trivial, rfl⟩
  have hcommit : Reaches step SnapshotIsCurrent .init _ :=
    Relation.ReflTransGen.tail hstart' ⟨.commit 0 0, trivial, rfl⟩
  have hsnapshot' : Reaches step SnapshotIsCurrent .init _ :=
    Relation.ReflTransGen.tail hcommit ⟨.snapshot 1 0, trivial, rfl⟩
  have hinsert' : Reaches step SnapshotIsCurrent .init _ :=
    Relation.ReflTransGen.tail hsnapshot' ⟨.insert 1 0, fun _ _ _ _ _ hcall _ => by
      obtain ⟨rfl, rfl, rfl, rfl, rfl⟩ := Call.snapshot.inj hcall
      rfl, rfl⟩
  have hcommit' : Reaches step SnapshotIsCurrent .init _ :=
    Relation.ReflTransGen.tail hinsert' ⟨.commit 1 0, trivial, rfl⟩
  exact ⟨_, rfl, appendsAreDurable_snapshotIsCurrent hcommit', rfl, by decide⟩

def overlappingSaves : List Action :=
  [.start 0 0 (.save { idempotencyKey := "order-1" }) 0,
    .start 1 1 (.save { idempotencyKey := "order-1" }) 0,
    .snapshot 0 0, .snapshot 1 0, .insert 0 0, .commit 0 0, .insert 1 0]

/-- The second save returns a record that only its own process has, and its
store stays degraded. -/
theorem not_noLostAppend_anyStep : ¬ NoLostAppend anyStep := by
  intro hlossless
  have hrun : (run step System.init overlappingSaves).map (fun s => s.degraded 1) =
      some true := by
    decide
  obtain ⟨s, hreach, hdegraded⟩ := exists_reaches_of_run hrun
  have hhealthy := (hlossless s hreach).healthy 1
  rw [hdegraded] at hhealthy
  cases hhealthy

end X402Facilitator.ConcurrentAppends
