import X402Facilitator.App.Notifications

/-!
# The consistent status read

Several processes write records through one primary and read them back with
`getConsistent`: from the process's own memory, from a lagging replica, or from
the primary.  A statement commits on the primary before its answer reaches the
process, which copies the write into its memory only then.
-/

namespace X402Facilitator.ConsistentReads

open X402Facilitator.Execution
open X402Facilitator.Notifications (Process)

/-- How far a store call has got.  An answer is the row that the statement
returned. -/
inductive Call where
  | notMade
  | querying (process : ℕ) (operation : AppendOperation)
  | answered (process : ℕ) (operation : AppendOperation) (row : Option ProjectionRow)
  | finished (process : ℕ) (operation : AppendOperation) (row : Option ProjectionRow)

/-- What a read returns.  A record from memory has the version of the row whose
write the memory copied last, zero when it copied none. -/
structure Read where
  record : Settlement ℕ
  version : ℕ

/-- A read as it starts, with the primary and the writes of its process. -/
structure Start where
  process : ℕ
  key : String
  primary : Database
  healthy : Bool
  wrote : Bool

/-- How far a call of `getConsistent` has got; it waits for the pools to be ready. -/
inductive Reader where
  | idle
  | waiting (start : Start)
  | retrying (start : Start)
  | confirming (start : Start)
  | finished (start : Start) (read : Option Read)
  | fellBack (start : Start) (record : Option (Settlement ℕ))

/-- The primary, its earlier states (the newest first) that a replica may still
show, and the parties.  `lastWriter` is the call that last wrote the row of a key,
`copied` the call whose write a process last copied into its memory, with its
row, and `wrote` says whether a process has written a key. -/
structure System where
  database : Database
  past : List Database
  processes : ℕ → Process
  calls : ℕ → Call
  readers : ℕ → Reader
  lastWriter : String → Option ℕ
  copied : ℕ → String → Option (ℕ × ProjectionRow)
  wrote : ℕ → String → Bool

def System.init : System where
  database := .empty
  past := [.empty]
  processes := fun _ => ⟨false, false, false, .empty⟩
  calls := fun _ => .notMade
  readers := fun _ => .idle
  lastWriter := fun _ => none
  copied := fun _ _ => none
  wrote := fun _ _ => false

inductive Action where
  | poolReady (process : ℕ)
  | replicaReady (process : ℕ)
  | degrade (process : ℕ)
  | callStarts (call process : ℕ) (operation : AppendOperation) (now : ℕ)
  | commits (call databaseNow : ℕ)
  | copies (call now : ℕ)
  | fails (call now : ℕ)
  | readStarts (reader process : ℕ) (key : String)
  | queries (reader : ℕ)
  | replicaAnswers (reader lag : ℕ)
  | replicaGivesUp (reader : ℕ)
  | primaryAnswers (reader : ℕ)
  | primaryFails (reader : ℕ)

/-- `_queryGet` against one database. -/
def queryGet (db : Database) (key : String) : Option Read :=
  (db.projections.get key).map fun row => ⟨(mapProjectionRow row).columns, row.version⟩

def usesReplica (process : Process) : Bool := process.replicaPool && !process.degraded

namespace System

def setProcess (s : System) (index : ℕ) (process : Process) : System :=
  { s with processes := Function.update s.processes index process }

def setCall (s : System) (index : ℕ) (call : Call) : System :=
  { s with calls := Function.update s.calls index call }

def setReader (s : System) (index : ℕ) (reader : Reader) : System :=
  { s with readers := Function.update s.readers index reader }

def markWritten (s : System) (process : ℕ) (key : String) : System :=
  { s with
    wrote := Function.update s.wrote process (Function.update (s.wrote process) key true) }

def inMemory (s : System) (process : ℕ) (operation : AppendOperation) (now : ℕ) : System :=
  let memory := (operation.inMemory (s.processes process).memory now).1
  let s := s.setProcess process { s.processes process with memory := memory }
  if (memory.get operation.key).isSome then s.markWritten process operation.key else s

/-- `_degrade`, then the operation on the process-local store. -/
def fallBack (s : System) (process : ℕ) (operation : AppendOperation) (now : ℕ) : System :=
  s.setProcess process { s.processes process with
    degraded := true
    memory := (operation.inMemory (s.processes process).memory now).1 }

/-- A statement takes effect on the primary; its answer is on the way. -/
def commit (s : System) (call process : ℕ) (operation : AppendOperation)
    (database : Database) : Option ProjectionRow → System
  | none => { s with
      database := database
      past := database :: s.past
      calls := Function.update s.calls call (.answered process operation none) }
  | some row => { s.markWritten process operation.key with
      database := database
      past := database :: s.past
      calls := Function.update s.calls call (.answered process operation (some row))
      lastWriter := Function.update s.lastWriter operation.key (some call) }

/-- The answer arrives and the write is copied into the process-local store. -/
def copy (s : System) (call process : ℕ) (operation : AppendOperation) (now : ℕ) :
    Option ProjectionRow → System
  | none => s.setCall call (.finished process operation none)
  | some row =>
      let memory := operation.mirror (s.processes process).memory now row
      let s := (s.setProcess process { s.processes process with memory := memory }).setCall
        call (.finished process operation (some row))
      if (memory.get operation.key).isSome then
        { s with
          copied := Function.update s.copied process
            (Function.update (s.copied process) operation.key (some (call, row))) }
      else s

def copiedVersion (s : System) (process : ℕ) (key : String) : ℕ :=
  ((s.copied process key).map fun copied => copied.2.version).getD 0

/-- `getConsistent` up to its first query. -/
def startRead (s : System) (process : ℕ) (key : String) : Reader :=
  let store := s.processes process
  let start : Start := ⟨process, key, s.database, !store.degraded, s.wrote process key⟩
  match store.memory.get key with
  | some record => .finished start (some ⟨record, s.copiedVersion process key⟩)
  | none => if store.usable then .waiting start else .finished start none

end System

/-- One step of one party.  `replicaGivesUp` is an outage of the replica or the end of
the lag budget. -/
def step (s : System) : Action → Option System
  | .poolReady process =>
      some (s.setProcess process { s.processes process with pool := true })
  | .replicaReady process =>
      some (s.setProcess process { s.processes process with replicaPool := true })
  | .degrade process =>
      some (s.setProcess process { s.processes process with degraded := true })
  | .callStarts call process operation now =>
      match s.calls call with
      | .notMade =>
          if (s.processes process).usable then
            some (s.setCall call (.querying process operation))
          else some ((s.inMemory process operation now).setCall call
            (.finished process operation none))
      | _ => none
  | .commits call databaseNow =>
      match s.calls call with
      | .querying process operation =>
          (operation.statementAt s.database (s.database.maxSeq operation.key + 1)
            databaseNow).map fun (database, row) => s.commit call process operation database row
      | _ => none
  | .copies call now =>
      match s.calls call with
      | .answered process operation row => some (s.copy call process operation now row)
      | _ => none
  | .fails call now =>
      match s.calls call with
      | .querying process operation =>
          some ((s.fallBack process operation now).setCall call
            (.finished process operation none))
      -- the statement has committed and its answer is lost
      | .answered process operation row =>
          some ((s.fallBack process operation now).setCall call
            (.finished process operation row))
      | _ => none
  | .readStarts reader process key =>
      match s.readers reader with
      | .idle => some (s.setReader reader (s.startRead process key))
      | _ => none
  | .queries reader =>
      match s.readers reader with
      | .waiting start =>
          some (s.setReader reader
            (if usesReplica (s.processes start.process) then .retrying start
              else .confirming start))
      | _ => none
  | .replicaAnswers reader lag =>
      match s.readers reader with
      | .retrying start =>
          s.past[lag]?.map fun db =>
            match queryGet db start.key with
            | some read => s.setReader reader (.finished start (some read))
            | none => s
      | _ => none
  | .replicaGivesUp reader =>
      match s.readers reader with
      | .retrying start => some (s.setReader reader (.confirming start))
      | _ => none
  | .primaryAnswers reader =>
      match s.readers reader with
      | .confirming start =>
          some (s.setReader reader (.finished start (queryGet s.database start.key)))
      | _ => none
  | .primaryFails reader =>
      match s.readers reader with
      | .confirming start =>
          some ((s.setProcess start.process { s.processes start.process with
            degraded := true }).setReader reader
              (.fellBack start ((s.processes start.process).memory.get start.key)))
      | _ => none

/-- A finished read of a healthy process that has written the key is not behind
the row that the primary had when the read started. -/
def NotBehind (s : System) : Prop :=
  ∀ reader start read, s.readers reader = .finished start read → start.healthy = true →
    start.wrote = true → ∀ row, start.primary.projections.get start.key = some row →
      ∃ found, read = some found ∧ row.version ≤ found.version

/-- A read from the process's own copy starts while that copy is of the last write
of the key, and a replica that answers a process with writes of its own has the
events of the key that the primary had when the read started. -/
def ShowsLastWrite (s : System) : Action → Prop
  | .readStarts _ process key =>
      (s.processes process).degraded = false →
        ((s.processes process).memory.get key).isSome = true →
          s.lastWriter key = (s.copied process key).map Prod.fst
  | .replicaAnswers reader lag =>
      match s.readers reader, s.past[lag]? with
      | .retrying start, some db =>
          start.wrote = true → (queryGet db start.key).isSome = true →
            (start.primary.log start.key).length ≤ (db.log start.key).length
      | _, _ => True
  | _ => True

def Call.wrote : Call → Option (String × ProjectionRow)
  | answered _ operation row | finished _ operation row => row.map fun row => (operation.key, row)
  | _ => none

structure Writes (s : System) : Prop where
  tables : s.database.Agrees
  history : ∀ db ∈ s.past, db.Agrees
  numbered : ∀ call key row, (s.calls call).wrote = some (key, row) →
    row.version ≤ (s.database.log key).length ∧
      (row.version = (s.database.log key).length ↔ s.lastWriter key = some call)
  written : ∀ key, (s.database.projections.get key).isSome = true →
    (s.lastWriter key).isSome = true
  copies : ∀ process key call row, s.copied process key = some (call, row) →
    (s.calls call).wrote = some (key, row)

theorem Writes.init : Writes .init where
  tables := .empty
  history := by
    intro db hdb
    obtain rfl := List.mem_singleton.mp hdb
    exact .empty
  numbered := by
    intro call key row hwrote
    cases hwrote
  written := by
    intro key hpresent
    cases hpresent
  copies := by
    intro process key call row hcopy
    cases hcopy

section Writes

variable {s s' : System}

theorem Writes.same (hwrites : Writes s) (hdatabase : s'.database = s.database)
    (hpast : s'.past = s.past) (hlast : s'.lastWriter = s.lastWriter)
    (hcopied : s'.copied = s.copied)
    (hcalls : ∀ call, (s'.calls call).wrote = (s.calls call).wrote) : Writes s' where
  tables := hdatabase ▸ hwrites.tables
  history := hpast ▸ hwrites.history
  numbered := by
    intro call key row hwrote
    rw [hcalls] at hwrote
    rw [hdatabase, hlast]
    exact hwrites.numbered call key row hwrote
  written := by
    rw [hdatabase, hlast]
    exact hwrites.written
  copies := by
    intro process key call row hcopy
    rw [hcopied] at hcopy
    rw [hcalls]
    exact hwrites.copies process key call row hcopy

/-- A call moves on without writing. -/
theorem wrote_update {calls : ℕ → Call} {index : ℕ} (call : Call)
    (hsame : call.wrote = (calls index).wrote) (other : ℕ) :
    (Function.update calls index call other).wrote = (calls other).wrote := by
  by_cases hother : other = index
  · subst hother
    rw [Function.update_self, hsame]
  · rw [Function.update_of_ne hother]

variable {call databaseNow other process : ℕ} {found row : ProjectionRow} {key : String}
  {operation : AppendOperation}

/-- A call writes the next version of its key. -/
theorem numbered_append (hwrites : Writes s)
    (hrow : operation.rowOver (s.database.projections.get operation.key)
      ((s.database.log operation.key).length + 1) databaseNow = some row)
    (hwrote : (Function.update s.calls call (.answered process operation (some row))
      other).wrote = some (key, found)) : found.version ≤ ((operation.append s.database
        ((s.database.log operation.key).length + 1) databaseNow row).log key).length ∧
      (found.version = ((operation.append s.database
          ((s.database.log operation.key).length + 1) databaseNow row).log key).length ↔
        Function.update s.lastWriter operation.key (some call) key = some other) := by
  rw [AppendOperation.log_append]
  by_cases hother : other = call
  · subst hother
    rw [Function.update_self] at hwrote
    obtain ⟨rfl, rfl⟩ : operation.key = key ∧ row = found := by
      simpa [Call.wrote] using hwrote
    rw [if_pos rfl, Function.update_self, AppendOperation.version_rowOver hrow,
      List.length_append, List.length_singleton]
    exact ⟨le_refl _, iff_of_true rfl rfl⟩
  · rw [Function.update_of_ne hother] at hwrote
    obtain ⟨hle, hlast⟩ := hwrites.numbered other key found hwrote
    by_cases hkey : key = operation.key
    · subst hkey
      have hne : ¬ some call = some other := fun hsame =>
        hother (Option.some.inj hsame).symm
      rw [if_pos rfl, Function.update_self, List.length_append, List.length_singleton]
      exact ⟨Nat.le_succ_of_le hle, iff_of_false (Nat.ne_of_lt (Nat.lt_succ_of_le hle)) hne⟩
    · rw [if_neg hkey, Function.update_of_ne hkey]
      exact ⟨hle, hlast⟩

theorem Writes.append (hwrites : Writes s) (hphase : s.calls call = .querying process operation)
    (hrow : operation.rowOver (s.database.projections.get operation.key)
      ((s.database.log operation.key).length + 1) databaseNow = some row) :
    Writes (s.commit call process operation
      (operation.append s.database ((s.database.log operation.key).length + 1) databaseNow
        row) (some row)) where
  tables := hwrites.tables.append hrow
  history := by
    intro db hdb
    rcases List.mem_cons.mp hdb with rfl | hdb
    · exact hwrites.tables.append hrow
    · exact hwrites.history db hdb
  numbered := fun other key found hwrote => numbered_append hwrites hrow hwrote
  written := by
    intro key hpresent
    change (Function.update s.lastWriter operation.key (some call) key).isSome = true
    by_cases hkey : key = operation.key
    · rw [hkey, Function.update_self, Option.isSome_some]
    · have hold := AppendOperation.projections_append operation s.database
        ((s.database.log operation.key).length + 1) databaseNow row key
      rw [if_neg hkey] at hold
      rw [Function.update_of_ne hkey]
      exact hwrites.written key ((congrArg Option.isSome hold).symm.trans hpresent)
  copies := by
    intro owner key other found hcopy
    have hold := hwrites.copies owner key other found hcopy
    have hother : other ≠ call := by
      rintro rfl
      rw [hphase] at hold
      cases hold
    exact (congrArg Call.wrote (Function.update_of_ne hother _ _)).trans hold

theorem Writes.commit (hwrites : Writes s) {database : Database} {row : Option ProjectionRow}
    (hphase : s.calls call = .querying process operation)
    (hstatement : operation.statementAt s.database
      (s.database.maxSeq operation.key + 1) databaseNow = some (database, row)) :
    Writes (s.commit call process operation database row) := by
  rw [hwrites.tables.statementAt] at hstatement
  cases hrow : operation.rowOver (s.database.projections.get operation.key)
      ((s.database.log operation.key).length + 1) databaseNow with
  | none =>
      rw [AppendOperation.writes_of_none hrow] at hstatement
      cases hstatement
      exact
        { tables := hwrites.tables
          history := fun db hdb => (List.mem_cons.mp hdb).elim
            (fun hhead => hhead ▸ hwrites.tables) (hwrites.history db)
          numbered := by
            intro other key found hwrote
            have hcalls := wrote_update (.answered process operation none)
              (show _ = (s.calls call).wrote by rw [hphase]; rfl) other
            exact hwrites.numbered other key found (hcalls.symm.trans hwrote)
          written := hwrites.written
          copies := by
            intro owner key other found hcopy
            have hcalls := wrote_update (.answered process operation none)
              (show _ = (s.calls call).wrote by rw [hphase]; rfl) other
            exact hcalls.trans (hwrites.copies owner key other found hcopy) }
  | some written =>
      rw [AppendOperation.writes_of_some hrow] at hstatement
      cases hstatement
      exact hwrites.append hphase hrow

/-- A process has copied a write of one key: any other copy is as it was. -/
theorem copied_update_cases {copied : ℕ → String → Option (ℕ × ProjectionRow)} {owner : ℕ}
    {key' : String} (hcopy : Function.update copied process (Function.update (copied process) key
      (some (call, row))) owner key' = some (other, found)) :
    (key' = key ∧ other = call ∧ found = row) ∨ copied owner key' = some (other, found) := by
  by_cases howner : owner = process
  · subst howner
    rw [Function.update_self] at hcopy
    rcases Execution.update_cases hcopy with ⟨hkey, hself⟩ | ⟨-, hold⟩
    · cases hself
      exact Or.inl ⟨hkey, rfl, rfl⟩
    · exact Or.inr hold
  · rw [Function.update_of_ne howner] at hcopy
    exact Or.inr hcopy

theorem Writes.copy (hwrites : Writes s) {now : ℕ} {row : Option ProjectionRow}
    (hphase : s.calls call = .answered process operation row) :
    Writes (s.copy call process operation now row) := by
  have hcalls := wrote_update (.finished process operation row)
    (show _ = (s.calls call).wrote by rw [hphase]; rfl)
  cases row with
  | none => exact hwrites.same rfl rfl rfl rfl hcalls
  | some row =>
      rw [System.copy]
      split
      · exact
          { tables := hwrites.tables
            history := hwrites.history
            numbered := fun other key found hwrote =>
              hwrites.numbered other key found ((hcalls other).symm.trans hwrote)
            written := hwrites.written
            copies := by
              intro owner key other found hcopy
              refine (hcalls other).trans ?_
              rcases copied_update_cases hcopy with ⟨rfl, rfl, rfl⟩ | hold
              · rw [hphase]
                rfl
              · exact hwrites.copies owner key other found hold }
      · exact hwrites.same rfl rfl rfl rfl hcalls

end Writes

variable {key : String} {memory : MemorySettlementStore ℕ}

theorem isSome_save (hpresent : (memory.get key).isSome = true) (now : ℕ) (record : SettlementInput) :
    ((memory.save now record).1.get key).isSome = true := by
  rw [MemorySettlementStore.get_save]
  split
  · rfl
  · exact hpresent

theorem isSome_updateState (hpresent : (memory.get key).isSome = true) (now : ℕ) (other : String)
    (state : TargetState) (details : StateDetails) :
    ((memory.updateState now other state details).1.get key).isSome = true := by
  rw [MemorySettlementStore.get_updateState]
  split
  · rfl
  · exact hpresent

/-- A store forgets no record. -/
theorem isSome_inMemory (hpresent : (memory.get key).isSome = true) (operation : AppendOperation)
    (now : ℕ) : ((operation.inMemory memory now).1.get key).isSome = true := by
  cases operation with
  | save record => exact isSome_save hpresent now record
  | updateState other state details => exact isSome_updateState hpresent now other _ _
  | settleAndEnqueue other details event => exact isSome_updateState hpresent now other _ _

theorem isSome_mirror (hpresent : (memory.get key).isSome = true) (operation : AppendOperation)
    (now : ℕ) (row : ProjectionRow) :
    ((operation.mirror memory now row).get key).isSome = true := by
  cases operation with
  | save record => exact isSome_save hpresent now _
  | updateState other state details => exact isSome_updateState hpresent now other _ _
  | settleAndEnqueue other details event => exact isSome_updateState hpresent now other _ _

structure Stored (s : System) : Prop where
  pooled : ∀ call process operation, s.calls call = .querying process operation →
    (s.processes process).pool = true
  kept : ∀ process key, (s.processes process).pool = false → s.wrote process key = true →
    ((s.processes process).memory.get key).isSome = true

theorem Stored.init : Stored .init where
  pooled := by
    intro call process operation hphase
    cases hphase
  kept := by
    intro process key _ hwrote
    cases hwrote

section Stored

variable {s : System}

/-- A process keeps its pool and its records. -/
theorem Stored.setProcess (hstored : Stored s) {index : ℕ} {process : Process}
    (hpool : (s.processes index).pool = true → process.pool = true)
    (hmemory : ∀ key, ((s.processes index).memory.get key).isSome = true →
      (process.memory.get key).isSome = true) : Stored (s.setProcess index process) where
  pooled := by
    intro call owner operation hphase
    have hold := hstored.pooled call owner operation hphase
    change (Function.update s.processes index process owner).pool = true
    by_cases howner : owner = index
    · subst howner
      rw [Function.update_self]
      exact hpool hold
    · rw [Function.update_of_ne howner]
      exact hold
  kept := by
    intro owner key
    change (Function.update s.processes index process owner).pool = false →
      s.wrote owner key = true →
        ((Function.update s.processes index process owner).memory.get key).isSome = true
    by_cases howner : owner = index
    · subst howner
      rw [Function.update_self]
      intro hnopool hwrote
      have hbefore : (s.processes owner).pool = false := by
        rw [← Bool.not_eq_true]
        exact fun hpooled => by simp [hpool hpooled] at hnopool
      exact hmemory key (hstored.kept owner key hbefore hwrote)
    · rw [Function.update_of_ne howner]
      exact hstored.kept owner key

theorem Stored.setCall (hstored : Stored s) (index : ℕ) {call : Call}
    (hpool : ∀ process operation, call = .querying process operation →
      (s.processes process).pool = true) : Stored (s.setCall index call) where
  pooled := by
    intro other process operation hphase
    rcases Execution.update_cases hphase with ⟨-, hself⟩ | ⟨-, hold⟩
    · exact hpool process operation hself
    · exact hstored.pooled other process operation hold
  kept := hstored.kept

/-- A process marks a key that it has in its memory, or has the pool for. -/
theorem Stored.markWritten (hstored : Stored s) (process : ℕ) {key : String}
    (hkept : (s.processes process).pool = false →
      ((s.processes process).memory.get key).isSome = true) :
    Stored (s.markWritten process key) where
  pooled := hstored.pooled
  kept := by
    intro owner other hnopool hwrote
    change Function.update s.wrote process (Function.update (s.wrote process) key true)
      owner other = true at hwrote
    by_cases howner : owner = process
    · subst howner
      rw [Function.update_self] at hwrote
      rcases Execution.update_cases hwrote with ⟨rfl, -⟩ | ⟨-, hold⟩
      · exact hkept hnopool
      · exact hstored.kept owner other hnopool hold
    · rw [Function.update_of_ne howner] at hwrote
      exact hstored.kept owner other hnopool hwrote

theorem Stored.inMemory (hstored : Stored s) (process : ℕ) (operation : AppendOperation)
    (now : ℕ) : Stored (s.inMemory process operation now) := by
  have hset : Stored (s.setProcess process { s.processes process with
      memory := (operation.inMemory (s.processes process).memory now).1 }) :=
    hstored.setProcess (fun h => h) fun key h => isSome_inMemory h operation now
  rw [System.inMemory]
  split
  · next hpresent =>
      apply hset.markWritten process
      intro _
      change ((Function.update s.processes process _ process).memory.get _).isSome = true
      rw [Function.update_self]
      exact hpresent
  · exact hset

theorem Stored.fallBack (hstored : Stored s) (process : ℕ) (operation : AppendOperation)
    (now : ℕ) : Stored (s.fallBack process operation now) :=
  hstored.setProcess (fun h => h) fun _ h => isSome_inMemory h operation now

theorem Stored.commit (hstored : Stored s) {call process : ℕ} {operation : AppendOperation}
    (hphase : s.calls call = .querying process operation) (database : Database)
    (row : Option ProjectionRow) : Stored (s.commit call process operation database row) := by
  have hpool := hstored.pooled call process operation hphase
  have hcall : Stored (s.setCall call (.answered process operation row)) :=
    hstored.setCall call fun _ _ h => by cases h
  cases row with
  | none => exact ⟨hcall.pooled, hcall.kept⟩
  | some row =>
      have hmarked : Stored ((s.setCall call (.answered process operation
          (some row))).markWritten process operation.key) :=
        hcall.markWritten process fun hnopool => by
          change (s.processes process).pool = false at hnopool
          rw [hpool] at hnopool
          cases hnopool
      exact ⟨hmarked.pooled, hmarked.kept⟩

theorem Stored.copy (hstored : Stored s) (call process : ℕ) (operation : AppendOperation)
    (now : ℕ) (row : Option ProjectionRow) :
    Stored (s.copy call process operation now row) := by
  cases row with
  | none => exact hstored.setCall call fun _ _ h => by cases h
  | some row =>
      have hset : Stored (s.setProcess process { s.processes process with
          memory := operation.mirror (s.processes process).memory now row }) :=
        hstored.setProcess (fun h => h) fun key h => isSome_mirror h operation now row
      have hcall : Stored ((s.setProcess process { s.processes process with
          memory := operation.mirror (s.processes process).memory now row }).setCall call
            (.finished process operation (some row))) :=
        hset.setCall call fun _ _ h => by cases h
      rw [System.copy]
      split
      · exact ⟨hcall.pooled, hcall.kept⟩
      · exact hcall

end Stored

end X402Facilitator.ConsistentReads
