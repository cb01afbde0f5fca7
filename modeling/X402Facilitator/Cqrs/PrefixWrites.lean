import X402Facilitator.Cqrs.ReadModel

/-!
# Repeated and reordered writes of one key

Restarts and a second worker write projections of several prefixes of one
history, in any order.  `ShowsProjection` of the full history is refuted for
arbitrary orders.  It holds exactly when the full history is the last prefix the
table accepted and the first accepted one had its fixed columns.
-/

namespace X402Facilitator

variable {Time : Type*}

/-- The prefixes that are written, the full history among them. -/
structure PrefixWrites (history : KeyHistory Time) where
  lengths : List ℕ
  bounded : ∀ count ∈ lengths, count ≤ history.events.length
  complete : history.events.length ∈ lengths

/-- The row of `key` is the projection on every column of the table. -/
def ReadModel.ShowsProjection (table : ReadModel Time) (key : String)
    (projection : Option (Settlement Time)) (lastSeq : ℕ) : Prop :=
  (table.get key).map (fun row => (row.columns, row.lastEventSeq)) =
    projection.map fun record => (record.withoutResponse, lastSeq)

namespace KeyHistory

variable (history : KeyHistory Time)

/-- One `writeProjection` call; a rejected row leaves the table as it is. -/
def writePrefix (table : ReadModel Time) (count : ℕ) : ReadModel Time :=
  (table.writeProjection (history.projected count) count).getD table

def writePrefixes (table : ReadModel Time) (lengths : List ℕ) : ReadModel Time :=
  lengths.foldl history.writePrefix table

def excluded (count : ℕ) : Option (ReadModelRow Time) :=
  (history.projected count).bind fun projection => projection.readModelRow count

/-- The prefix projects to a record that names the caller's key. -/
def accepts (count : ℕ) : Bool :=
  (history.projected count).any fun projection => projection.keyId.isSome

theorem isSome_excluded (count : ℕ) :
    (history.excluded count).isSome = history.accepts count := by
  rw [excluded, accepts]
  cases history.projected count with
  | none => rfl
  | some projection =>
      rw [Option.bind_some, Settlement.isSome_readModelRow]
      rfl

theorem key_excluded {count : ℕ} {row : ReadModelRow Time}
    (hrow : history.excluded count = some row) : row.idempotencyKey = history.key := by
  obtain ⟨projection, hprojection, hexcluded⟩ := Option.bind_eq_some_iff.mp hrow
  obtain ⟨keyId, -, rfl⟩ := Option.map_eq_some_iff.mp hexcluded
  exact history.key_projected hprojection

theorem exists_excluded {lengths : List ℕ} {count : ℕ}
    (hcount : count ∈ lengths.filter history.accepts) :
    ∃ row, history.excluded count = some row := by
  rw [← Option.isSome_iff_exists, isSome_excluded]
  exact (List.mem_filter.mp hcount).2

/-- What one call does to the row of the key. -/
theorem get_writePrefix (table : ReadModel Time) (count : ℕ) :
    (history.writePrefix table count).get history.key =
      ((history.excluded count).map (ReadModelRow.upsert (table.get history.key))).or
        (table.get history.key) := by
  rw [writePrefix]
  cases hprojection : history.projected count with
  | none =>
      rw [excluded, hprojection]
      rfl
  | some projection =>
      have hexcluded : history.excluded count = projection.readModelRow count := by
        rw [excluded, hprojection, Option.bind_some]
      rw [ReadModel.writeProjection_some, hexcluded]
      cases hrow : projection.readModelRow count with
      | none => rfl
      | some row =>
          have hkey := history.key_excluded (hexcluded.trans hrow)
          rw [Option.map_some, Option.map_some, Option.getD_some, hkey,
            InsertionMap.get_set_self, Option.some_or]

/-- The rows of the first and of the last accepted call decide the result. -/
theorem get_writePrefixes {table : ReadModel Time}
    (hfresh : table.get history.key = none) (lengths : List ℕ) :
    (history.writePrefixes table lengths).get history.key =
      ((lengths.filter history.accepts).head?.bind history.excluded).bind fun first =>
        ((lengths.filter history.accepts).getLast?.bind history.excluded).map
          first.onConflict := by
  induction lengths using List.reverseRecOn with
  | nil => exact hfresh
  | append_singleton lengths count ih =>
      rw [writePrefixes, List.foldl_append, List.foldl_cons, List.foldl_nil,
        ← writePrefixes, get_writePrefix, ih, List.filter_append]
      have haccepts := history.isSome_excluded count
      cases hrow : history.excluded count with
      | none =>
          rw [hrow] at haccepts
          simp [← haccepts]
      | some row =>
          rw [hrow] at haccepts
          have hsingle : [count].filter history.accepts = [count] := by
            simp [← haccepts]
          rw [hsingle, List.getLast?_concat]
          cases hbefore : lengths.filter history.accepts with
          | nil => simp [hrow, ReadModelRow.upsert, ReadModelRow.onConflict_self]
          | cons first others =>
              have hmem : ∀ other ∈ first :: others,
                  ∃ row, history.excluded other = some row := by
                intro other hother
                rw [← hbefore] at hother
                exact history.exists_excluded hother
              obtain ⟨firstRow, hfirst⟩ := hmem first List.mem_cons_self
              obtain ⟨lastRow, hlast⟩ :=
                hmem _ (List.getLast_mem (List.cons_ne_nil first others))
              rw [List.getLast?_eq_some_getLast (List.cons_ne_nil first others)]
              simp [hfirst, hlast, hrow, ReadModelRow.upsert]

/-- The last prefix that the table accepts is the full history. -/
def FullHistoryIsLast (lengths : List ℕ) : Prop :=
  (lengths.filter history.accepts).getLast? = some history.events.length

/-- The first prefix that the table accepts has the fixed columns of the full
history. -/
def FirstWriteIsFinal (lengths : List ℕ) : Prop :=
  ((lengths.filter history.accepts).head?.bind history.projected).map
    Settlement.fixedColumns =
      (projectSettlement history.events).map Settlement.fixedColumns

theorem writePrefixes_of_none {table : ReadModel Time}
    (hfresh : table.get history.key = none)
    (hnone : projectSettlement history.events = none) (lengths : List ℕ) :
    (history.writePrefixes table lengths).get history.key = none := by
  have hrejected : ∀ count, history.excluded count = none := by
    intro count
    have hprojected : history.projected count = none := by
      rw [← Option.not_isSome_iff_eq_none]
      intro hsome
      have hlast := history.isSome_projected_length hsome
      rw [projected_length, hnone] at hlast
      cases hlast
    rw [excluded, hprojected, Option.bind_none]
  rw [history.get_writePrefixes hfresh]
  cases (lengths.filter history.accepts).head? with
  | none => rfl
  | some first => rw [Option.bind_some, hrejected, Option.bind_none]

/-- The row that a conflict leaves shows the full history exactly when the
conflicting row is the full history's and the fixed columns agree. -/
theorem onConflict_shows_iff {first last : ℕ} {firstRow lastRow : ReadModelRow Time}
    {full : Settlement Time} (hfull : projectSettlement history.events = some full)
    (hfirst : history.excluded first = some firstRow)
    (hlast : history.excluded last = some lastRow) :
    (firstRow.onConflict lastRow).columns = full.withoutResponse ∧
        (firstRow.onConflict lastRow).lastEventSeq = history.events.length ↔
      last = history.events.length ∧
        (history.projected first).map Settlement.fixedColumns =
          some full.fixedColumns := by
  obtain ⟨firstRecord, hfirstRecord, hfirstRow⟩ := Option.bind_eq_some_iff.mp hfirst
  obtain ⟨lastRecord, hlastRecord, hlastRow⟩ := Option.bind_eq_some_iff.mp hlast
  obtain ⟨hfirstColumns, -⟩ := Settlement.columns_readModelRow hfirstRow
  obtain ⟨hlastColumns, hlastSeq⟩ := Settlement.columns_readModelRow hlastRow
  have hseq : (firstRow.onConflict lastRow).lastEventSeq = last := hlastSeq
  have hprojectedFull := history.projected_length.trans hfull
  rw [hseq, hfirstRecord, Option.map_some, Option.some.injEq, and_comm]
  apply and_congr_right
  intro hlength
  have hlastFull : lastRecord = full := by
    rw [hlength, hprojectedFull] at hlastRecord
    exact (Option.some.inj hlastRecord).symm
  have hkeys := (history.key_excluded hfirst).trans (history.key_excluded hlast).symm
  have hcreated : firstRow.createdAt = lastRow.createdAt := by
    calc
      firstRow.createdAt = firstRecord.createdAt :=
        congrArg Settlement.createdAt hfirstColumns
      _ = lastRecord.createdAt := by
        rw [hlastFull]
        exact history.createdAt_projected hfirstRecord hprojectedFull
      _ = lastRow.createdAt := (congrArg Settlement.createdAt hlastColumns).symm
  rw [← hlastFull, ← hlastColumns, ReadModelRow.columns_onConflict_eq_iff,
    hfirstColumns, hlastColumns]
  exact ⟨fun h => h.2.2, fun h => ⟨hkeys, hcreated, h⟩⟩

/-- The upsert leaves the projection of the longest prefix exactly when that
prefix is the last one accepted and the first one had its fixed columns. -/
theorem showsProjection_iff_fullHistoryIsLast (writes : PrefixWrites history)
    {table : ReadModel Time} (hfresh : table.get history.key = none) :
    (history.writePrefixes table writes.lengths).ShowsProjection history.key
        (projectSettlement history.events) history.events.length ↔
      projectSettlement history.events = none ∨
        history.FullHistoryIsLast writes.lengths ∧
          history.FirstWriteIsFinal writes.lengths := by
  rw [ReadModel.ShowsProjection]
  cases hfull : projectSettlement history.events with
  | none =>
      rw [history.writePrefixes_of_none hfresh hfull]
      simp
  | some full =>
      rw [history.get_writePrefixes hfresh, FullHistoryIsLast, FirstWriteIsFinal, hfull]
      cases haccepted : writes.lengths.filter history.accepts with
      | nil => simp
      | cons first others =>
          have hrows : ∀ count ∈ first :: others,
              ∃ row, history.excluded count = some row := by
            intro count hcount
            rw [← haccepted] at hcount
            exact history.exists_excluded hcount
          obtain ⟨firstRow, hfirst⟩ := hrows first List.mem_cons_self
          obtain ⟨lastRow, hlast⟩ :=
            hrows _ (List.getLast_mem (List.cons_ne_nil first others))
          have hshows := history.onConflict_shows_iff hfull hfirst hlast
          rw [List.getLast?_eq_some_getLast (List.cons_ne_nil first others)]
          simpa [hfirst, hlast] using hshows

def initiatedPayload : EventPayload where
  idempotencyKey := "order-1"
  network := some "stellar:testnet"
  scheme := some "exact"
  keyId := some "alice"

def settledHistory : KeyHistory ℕ where
  key := "order-1"
  events :=
    [⟨.initiated, 1, initiatedPayload, 1, 10⟩,
      ⟨.settled, 1, { idempotencyKey := "order-1", txHash := some "ab12" }, 2, 20⟩]
  keyed := by simp [initiatedPayload]

def settledHistory.inOrder : PrefixWrites settledHistory where
  lengths := [1, 2]
  bounded := by simp [settledHistory]
  complete := by simp [settledHistory]

def settledHistory.staleLast : PrefixWrites settledHistory where
  lengths := [2, 1]
  bounded := by simp [settledHistory]
  complete := by simp [settledHistory]

theorem showsProjection_settledHistory :
    (settledHistory.writePrefixes .empty settledHistory.inOrder.lengths).ShowsProjection
      settledHistory.key (projectSettlement settledHistory.events)
      settledHistory.events.length :=
  (showsProjection_iff_fullHistoryIsLast settledHistory settledHistory.inOrder rfl).mpr
    (Or.inr ⟨rfl, rfl⟩)

/-- A worker that fetched the history before it was settled writes last. -/
theorem not_showsProjection_staleLast :
    ¬ ∀ (history : KeyHistory ℕ) (writes : PrefixWrites history) (table : ReadModel ℕ),
      table.get history.key = none →
        (history.writePrefixes table writes.lengths).ShowsProjection history.key
          (projectSettlement history.events) history.events.length := by
  intro hshows
  have hstale := hshows settledHistory settledHistory.staleLast .empty rfl
  have hrow : ((settledHistory.writePrefixes .empty [2, 1]).get "order-1").map
      ReadModelRow.lastEventSeq = some 1 := by decide
  have hseq := congrArg (Option.map Prod.snd) hstale
  rw [Option.map_map] at hseq
  exact absurd (hrow.symm.trans hseq) (by decide)

end KeyHistory

end X402Facilitator
