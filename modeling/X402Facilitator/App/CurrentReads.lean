import X402Facilitator.App.ConsistentReads

/-!
# Reads that are not behind

A reader knows what the primary had when it started.  From the process's own memory it gets the
last write of the key that was copied, from the replica what has got there, and from the primary
the row itself: each is as new as the row of the start, where the copy is of the last write and
the replica has the events of the key.
-/

namespace X402Facilitator.ConsistentReads

open X402Facilitator.Execution
open X402Facilitator.Notifications (Process)

def Reader.start? : Reader → Option Start
  | idle => none
  | waiting start => some start
  | retrying start => some start
  | confirming start => some start
  | finished start _ => some start
  | fellBack start _ => some start

def Start.Precedes (start : Start) (db : Database) : Prop :=
  start.primary.Agrees ∧ start.primary.events <+: db.events

def Reader.Current (reader : Reader) : Prop :=
  ∀ start read, reader = .finished start read → start.healthy = true →
    start.wrote = true → ∀ row, start.primary.projections.get start.key = some row →
      ∃ found, read = some found ∧ row.version ≤ found.version

variable {earlier later : Database} {key : String}

theorem log_grows (hkept : earlier.events <+: later.events) (key : String) :
    earlier.log key <+: later.log key :=
  (hkept.filter _).map _

/-- Tables with the events of an earlier row show a row that is no older. -/
theorem queryGet_of_log_le (hearlier : earlier.Agrees) (hlater : later.Agrees) {row : ProjectionRow}
    (hrow : earlier.projections.get key = some row)
    (hle : (earlier.log key).length ≤ (later.log key).length) :
    ∃ found, queryGet later key = some found ∧ row.version ≤ found.version := by
  have hevents : earlier.log key ≠ [] :=
    (hearlier.isSome_iff key).mp (Option.isSome_of_eq_some hrow)
  have hlength := List.length_pos_of_ne_nil hevents
  have hpresent : (later.projections.get key).isSome = true :=
    (hlater.isSome_iff key).mpr (List.ne_nil_of_length_pos (by omega))
  obtain ⟨shown, hshown⟩ := Option.isSome_iff_exists.mp hpresent
  refine ⟨⟨(mapProjectionRow shown).columns, shown.version⟩, ?_, ?_⟩
  · rw [queryGet, hshown]
    rfl
  · calc
      row.version = (earlier.log key).length := hearlier.version key row hrow
      _ ≤ (later.log key).length := hle
      _ = shown.version := (hlater.version key shown hshown).symm

section Reads

variable {s : System}

variable {key : String} {process : ℕ} {start : Start}

/-- A copy of the last write of a key has the version of its row. -/
theorem version_of_lastWriter (hwrites : Writes s) {row : ProjectionRow}
    (hrow : s.database.projections.get key = some row)
    (hlast : s.lastWriter key = (s.copied process key).map Prod.fst) :
    row.version = s.copiedVersion process key := by
  obtain ⟨call, hcall⟩ :=
    Option.isSome_iff_exists.mp (hwrites.written key (Option.isSome_of_eq_some hrow))
  rw [hcall] at hlast
  obtain ⟨⟨copier, found⟩, hcopied, hsame⟩ := Option.map_eq_some_iff.mp hlast.symm
  obtain rfl : copier = call := hsame
  have hwrote := hwrites.copies process key copier found hcopied
  calc
    row.version = (s.database.log key).length := hwrites.tables.version key row hrow
    _ = found.version := ((hwrites.numbered copier key found hwrote).2.mpr hcall).symm
    _ = s.copiedVersion process key := by rw [System.copiedVersion, hcopied]; rfl

theorem current_startRead (hwrites : Writes s) (hstored : Stored s) {reader : ℕ}
    (hmeets : ShowsLastWrite s (.readStarts reader process key)) :
    (s.startRead process key).Current := by
  intro start read hfinished hhealthy hwrote row hrow
  rw [System.startRead] at hfinished
  split at hfinished
  · next record hrecord =>
      cases hfinished
      have hdegraded : (s.processes process).degraded = false := by simpa using hhealthy
      have hlast := hmeets hdegraded (Option.isSome_of_eq_some hrecord)
      exact ⟨_, rfl, (version_of_lastWriter hwrites hrow hlast).le⟩
  · next hnone =>
      split at hfinished
      · cases hfinished
      · next husable =>
          cases hfinished
          have hdegraded : (s.processes process).degraded = false := by simpa using hhealthy
          have hnopool : (s.processes process).pool = false := by
            simpa [Process.usable, hdegraded] using husable
          have hkept := hstored.kept process key hnopool hwrote
          rw [hnone] at hkept
          cases hkept

theorem current_of_replica {db : Database} {read : Read} (hstart : start.Precedes s.database)
    (hdb : db.Agrees) (hread : queryGet db start.key = some read) (hmeets : start.wrote = true →
      (start.primary.log start.key).length ≤ (db.log start.key).length) :
    (Reader.finished start (some read)).Current := by
  intro other found hfinished hhealthy hwrote row hrow
  cases hfinished
  rw [← hread]
  exact queryGet_of_log_le hstart.1 hdb hrow (hmeets hwrote)

theorem current_of_primary (hstart : start.Precedes s.database) (hdb : s.database.Agrees) :
    (Reader.finished start (queryGet s.database start.key)).Current := by
  intro other found hfinished hhealthy hwrote row hrow
  cases hfinished
  exact queryGet_of_log_le hstart.1 hdb hrow (log_grows hstart.2 start.key).length_le

end Reads

structure Tracked (s : System) : Prop where
  writes : Writes s
  stored : Stored s
  started : ∀ reader start, (s.readers reader).start? = some start →
    start.Precedes s.database
  current : ∀ reader, (s.readers reader).Current

theorem Tracked.init : Tracked .init where
  writes := .init
  stored := .init
  started := by
    intro reader start hstart
    cases hstart
  current := by
    intro reader start read hfinished
    cases hfinished

theorem start_startRead {s : System} {process : ℕ} {start : Start}
    (hstart : (s.startRead process key).start? = some start) :
    start = ⟨process, key, s.database, !(s.processes process).degraded,
      s.wrote process key⟩ := by
  rw [System.startRead] at hstart
  split at hstart
  · exact (Option.some.inj hstart).symm
  · split at hstart <;> exact (Option.some.inj hstart).symm

section Steps

variable {s s' : System}

variable {phase reader : Reader} {index call process : ℕ} {operation : AppendOperation}
  {row : Option ProjectionRow}

theorem Tracked.start_of (htracked : Tracked s) {reader : ℕ} {start : Start}
    (hphase : s.readers reader = phase) (hstart : phase.start? = some start) :
    start.Precedes s.database :=
  htracked.started reader start (by rw [hphase]; exact hstart)

/-- A step that touches no reader. -/
theorem Tracked.same (htracked : Tracked s) (hwrites : Writes s') (hstored : Stored s')
    (hreaders : s'.readers = s.readers)
    (hkept : s.database.events <+: s'.database.events) : Tracked s' where
  writes := hwrites
  stored := hstored
  started := by
    intro reader start hstart
    rw [hreaders] at hstart
    have hold := htracked.started reader start hstart
    exact ⟨hold.1, hold.2.trans hkept⟩
  current := by
    rw [hreaders]
    exact htracked.current

/-- A step of one reader. -/
theorem Tracked.setReader (htracked : Tracked s) (index : ℕ)
    (hstart : ∀ start, reader.start? = some start → start.Precedes s.database)
    (hcurrent : reader.Current) : Tracked (s.setReader index reader) where
  writes := htracked.writes.same rfl rfl rfl rfl fun _ => rfl
  stored := ⟨htracked.stored.pooled, htracked.stored.kept⟩
  started := by
    intro other start hother
    change (Function.update s.readers index reader other).start? = some start at hother
    by_cases hsame : other = index
    · subst hsame
      rw [Function.update_self] at hother
      exact hstart start hother
    · rw [Function.update_of_ne hsame] at hother
      exact htracked.started other start hother
  current := by
    intro other
    change (Function.update s.readers index reader other).Current
    by_cases hsame : other = index
    · subst hsame
      rw [Function.update_self]
      exact hcurrent
    · rw [Function.update_of_ne hsame]
      exact htracked.current other

/-- A reader goes on with the start that it had. -/
theorem Tracked.advances (htracked : Tracked s) (hphase : s.readers index = phase)
    (hstart : reader.start? = phase.start?) (hcurrent : reader.Current) :
    Tracked (s.setReader index reader) := by
  apply htracked.setReader index _ hcurrent
  intro start hsome
  rw [hstart] at hsome
  exact htracked.start_of hphase hsome

/-- A step of the store of one process. -/
theorem Tracked.setProcess (htracked : Tracked s) {process : Process}
    (hpool : (s.processes index).pool = true → process.pool = true)
    (hmemory : (s.processes index).memory = process.memory) :
    Tracked (s.setProcess index process) :=
  htracked.same (htracked.writes.same rfl rfl rfl rfl fun _ => rfl)
    (htracked.stored.setProcess hpool fun _ hkey => hmemory ▸ hkey) rfl
    (List.prefix_refl _)

/-- A call moves on without writing. -/
theorem Tracked.setCall (htracked : Tracked s) {call : Call}
    (hsame : call.wrote = (s.calls index).wrote)
    (hpool : ∀ process operation, call = .querying process operation →
      (s.processes process).pool = true) : Tracked (s.setCall index call) :=
  htracked.same (htracked.writes.same rfl rfl rfl rfl (wrote_update call hsame))
    (htracked.stored.setCall index hpool) rfl (List.prefix_refl _)

/-- A call ends with what it has written. -/
theorem Tracked.ends (htracked : Tracked s)
    (hsame : (Call.finished process operation row).wrote = (s.calls call).wrote) :
    Tracked (s.setCall call (.finished process operation row)) := by
  apply htracked.setCall hsame
  intro owner other hquerying
  cases hquerying

theorem Tracked.inMemory (htracked : Tracked s) (process : ℕ) (operation : AppendOperation)
    (now : ℕ) : Tracked (s.inMemory process operation now) := by
  have hstored := htracked.stored.inMemory process operation now
  rw [System.inMemory] at hstored ⊢
  split at hstored
  · next hpresent =>
      rw [if_pos hpresent]
      exact htracked.same (htracked.writes.same rfl rfl rfl rfl fun _ => rfl) hstored rfl
        (List.prefix_refl _)
  · next habsent =>
      rw [if_neg habsent]
      exact htracked.same (htracked.writes.same rfl rfl rfl rfl fun _ => rfl) hstored rfl
        (List.prefix_refl _)

theorem Tracked.fallBack (htracked : Tracked s) (process : ℕ) (operation : AppendOperation)
    (now : ℕ) : Tracked (s.fallBack process operation now) :=
  htracked.same (htracked.writes.same rfl rfl rfl rfl fun _ => rfl)
    (htracked.stored.fallBack process operation now) rfl (List.prefix_refl _)

theorem calls_inMemory (process : ℕ) (operation : AppendOperation) (now : ℕ) :
    (s.inMemory process operation now).calls = s.calls := by
  rw [System.inMemory]
  split <;> rfl

theorem Tracked.commit (htracked : Tracked s) {databaseNow : ℕ} {database : Database}
    (hphase : s.calls call = .querying process operation)
    (hstatement : operation.statementAt s.database
      (s.database.maxSeq operation.key + 1) databaseNow = some (database, row)) :
    Tracked (s.commit call process operation database row) := by
  have hwrites := htracked.writes.commit hphase hstatement
  have hstored := htracked.stored.commit hphase database row
  have hkept : s.database.events <+: database.events := by
    rw [htracked.writes.tables.statementAt, Option.some.injEq] at hstatement
    have hdatabase := congrArg Prod.fst hstatement
    rw [AppendOperation.writes] at hdatabase
    split at hdatabase
    · obtain rfl : s.database = database := hdatabase
      exact List.prefix_refl _
    · obtain rfl : operation.append s.database _ databaseNow _ = database := hdatabase
      exact List.prefix_append _ _
  cases row with
  | none | some row => exact htracked.same hwrites hstored rfl hkept

theorem Tracked.copy (htracked : Tracked s) {now : ℕ}
    (hphase : s.calls call = .answered process operation row) :
    Tracked (s.copy call process operation now row) := by
  have hwrites : Writes (s.copy call process operation now row) :=
    htracked.writes.copy hphase
  have hstored := htracked.stored.copy call process operation now row
  cases row with
  | none => exact htracked.same hwrites hstored rfl (List.prefix_refl _)
  | some row =>
      rw [System.copy] at hwrites hstored ⊢
      split at hwrites
      · next hpresent =>
          rw [if_pos hpresent] at hstored ⊢
          exact htracked.same hwrites hstored rfl (List.prefix_refl _)
      · next habsent =>
          rw [if_neg habsent] at hstored ⊢
          exact htracked.same hwrites hstored rfl (List.prefix_refl _)

/-- One step, whatever fails and whatever the replica still shows. -/
theorem Tracked.step {action : Action} (htracked : Tracked s)
    (hmeets : ShowsLastWrite s action) (hstep : step s action = some s') : Tracked s' := by
  cases action with
  | poolReady process =>
      cases hstep
      exact htracked.setProcess (fun _ => rfl) rfl
  | replicaReady process | degrade process =>
      cases hstep
      exact htracked.setProcess (fun h => h) rfl
  | callStarts call process operation now =>
      rw [ConsistentReads.step] at hstep
      split at hstep
      · next hphase =>
          split at hstep
          · next husable =>
              cases hstep
              apply htracked.setCall
              · rw [hphase]
                rfl
              · intro owner other hquerying
                cases hquerying
                exact (Bool.and_eq_true_iff.mp husable).2
          · cases hstep
            apply (htracked.inMemory process operation now).ends
            rw [calls_inMemory, hphase]
            rfl
      · cases hstep
  | commits call databaseNow =>
      rw [ConsistentReads.step] at hstep
      split at hstep
      · next process operation hphase =>
          obtain ⟨⟨database, row⟩, hstatement, rfl⟩ := Option.map_eq_some_iff.mp hstep
          exact htracked.commit hphase hstatement
      · cases hstep
  | copies call now =>
      rw [ConsistentReads.step] at hstep
      split at hstep
      · next process operation row hphase =>
          cases hstep
          exact htracked.copy hphase
      · cases hstep
  | fails call now =>
      rw [ConsistentReads.step] at hstep
      split at hstep
      · next process operation hphase =>
          cases hstep
          apply (htracked.fallBack process operation now).ends
          change _ = (s.calls call).wrote
          rw [hphase]
          rfl
      · next process operation row hphase =>
          cases hstep
          apply (htracked.fallBack process operation now).ends
          change _ = (s.calls call).wrote
          rw [hphase]
          rfl
      · cases hstep
  | readStarts reader process key =>
      rw [ConsistentReads.step] at hstep
      split at hstep
      · cases hstep
        apply htracked.setReader reader
        · intro start hstart
          obtain rfl := start_startRead hstart
          exact ⟨htracked.writes.tables, List.prefix_refl _⟩
        · exact current_startRead htracked.writes htracked.stored hmeets
      · cases hstep
  | queries reader =>
      rw [ConsistentReads.step] at hstep
      split at hstep
      · next start hphase =>
          cases hstep
          apply htracked.advances hphase
          · split <;> rfl
          · intro other read hfinished
            split at hfinished <;> cases hfinished
      · cases hstep
  | replicaAnswers reader lag =>
      rw [ConsistentReads.step] at hstep
      split at hstep
      · next start hphase =>
          obtain ⟨db, hdb, hafter⟩ := Option.map_eq_some_iff.mp hstep
          have hstart := htracked.start_of hphase rfl
          split at hafter
          · next read hread =>
              cases hafter
              rw [ShowsLastWrite, hphase, hdb] at hmeets
              apply htracked.advances hphase
              · rfl
              · apply current_of_replica hstart
                  (htracked.writes.history db (List.mem_of_getElem? hdb)) hread
                exact fun hwrote => hmeets hwrote (Option.isSome_of_eq_some hread)
          · cases hafter
            exact htracked
      · cases hstep
  | replicaGivesUp reader =>
      rw [ConsistentReads.step] at hstep
      split at hstep
      · next start hphase =>
          cases hstep
          apply htracked.advances hphase
          · rfl
          · intro other read hfinished
            cases hfinished
      · cases hstep
  | primaryAnswers reader =>
      rw [ConsistentReads.step] at hstep
      split at hstep
      · next start hphase =>
          have hstart := htracked.start_of hphase rfl
          cases hstep
          apply htracked.advances hphase
          · rfl
          · exact current_of_primary hstart htracked.writes.tables
      · cases hstep
  | primaryFails reader =>
      rw [ConsistentReads.step] at hstep
      split at hstep
      · next start hphase =>
          cases hstep
          have hdegraded : Tracked (s.setProcess start.process
              { s.processes start.process with degraded := true }) :=
            htracked.setProcess (fun h => h) rfl
          apply hdegraded.advances hphase
          · rfl
          · intro other read hfinished
            cases hfinished
      · cases hstep

end Steps

/-- While a process reads its own copy of a key only when that copy is of the last
write of the key, and the replica that answers it has the key's earlier events, no
read is behind the primary. -/
theorem notBehind_showsLastWrite {s : System}
    (hreach : Reaches step ShowsLastWrite .init s) : NotBehind s := by
  have htracked : Tracked s :=
    hreach.preserves (fun _ _ _ h hmeets hstep => h.step hmeets hstep) Tracked.init
  intro reader
  exact htracked.current reader

def savedOnce : List Action :=
  [.poolReady 0,
    .callStarts 0 0 (.save { idempotencyKey := "order-1", network := some testnet }) 0,
    .commits 0 0, .copies 0 0]

/-- A process reads back the record it has saved. -/
theorem notBehind_savedOnce :
    ∃ s, run step .init (savedOnce ++ [.readStarts 0 0 "order-1"]) = some s ∧
      NotBehind s := by
  have hrun : (run step .init savedOnce).map (fun s =>
      (decide (s.lastWriter "order-1" = (s.copied 0 "order-1").map Prod.fst),
        (step s (.readStarts 0 0 "order-1")).isSome)) = some (true, true) := by
    decide
  obtain ⟨s, hs, hobserved⟩ := Option.map_eq_some_iff.mp hrun
  simp only [Prod.mk.injEq, decide_eq_true_eq] at hobserved
  obtain ⟨hlast, hsome⟩ := hobserved
  obtain ⟨s', hstep⟩ := Option.isSome_iff_exists.mp hsome
  have hreach : Reaches step ShowsLastWrite .init s := by
    apply reaches_of_run_of_forall _ hs
    simp [savedOnce, ShowsLastWrite]
  have hmeets : ShowsLastWrite s (.readStarts 0 0 "order-1") := fun _ _ => hlast
  refine ⟨s', ?_, notBehind_showsLastWrite (hreach.tail hmeets hstep)⟩
  rw [run_append, hs, Option.bind_some]
  exact congrArg (Option.bind · some) hstep

def settledElsewhere : List Action :=
  savedOnce ++ [.poolReady 1,
    .callStarts 1 1 (.settleAndEnqueue "order-1" { txHash := some "ab12" } none) 0,
    .commits 1 0, .copies 1 0, .readStarts 0 0 "order-1"]

/-- What a finished read knows of its process, and the versions of the row at its
start and of the record it found. -/
def Reader.observed : Reader → Option ((Bool × Bool) × Option ℕ × Option ℕ)
  | finished start read => some ((start.healthy, start.wrote),
      (start.primary.projections.get start.key).map ProjectionRow.version,
      read.map Read.version)
  | _ => none

/-- The process shows its own copy and hides the settlement. -/
theorem not_notBehind_settledElsewhere :
    ¬ ∀ s, Reaches step anyStep .init s → NotBehind s := by
  intro hnever
  have hrun : (run step .init settledElsewhere).map (fun s => (s.readers 0).observed) =
      some (some ((true, true), some 2, some 1)) := by
    decide
  obtain ⟨s, hreach, hobserved⟩ := exists_reaches_of_run hrun
  cases hreader : s.readers 0 with
  | finished start read =>
      rw [hreader, Reader.observed, Option.some.injEq] at hobserved
      simp only [Prod.mk.injEq] at hobserved
      obtain ⟨⟨hhealthy, hwrote⟩, hversion, hread⟩ := hobserved
      obtain ⟨row, hrow, hrowVersion⟩ := Option.map_eq_some_iff.mp hversion
      obtain ⟨found, rfl, hle⟩ :=
        hnever s hreach 0 start read hreader hhealthy hwrote row hrow
      rw [Option.map_some, Option.some.injEq] at hread
      omega
  | idle => simp [hreader, Reader.observed] at hobserved
  | waiting start => simp [hreader, Reader.observed] at hobserved
  | retrying start => simp [hreader, Reader.observed] at hobserved
  | confirming start => simp [hreader, Reader.observed] at hobserved
  | fellBack start record => simp [hreader, Reader.observed] at hobserved

end X402Facilitator.ConsistentReads
