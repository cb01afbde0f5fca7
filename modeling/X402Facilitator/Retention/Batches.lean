import Mathlib.Data.List.Nodup
import X402Facilitator.Retention.Job

/-!
# The batches of a table

Without concurrent writes a query finds the rows in their physical order, so that the batch that is
deleted is the one that has been selected.  A dry run selects the same batch again.
-/

namespace X402Facilitator.Retention

open Execution Loops

/-- The rows of a table in their physical order, each at a place of its own. -/
structure Content where
  rows : List Row
  ctids : (rows.map Row.ctid).Nodup

namespace Content

def expired (content : Content) (purge : Purge) : List Row := content.rows.filter purge.expired

/-- `SELECT * … LIMIT` -/
def select (content : Content) (purge : Purge) (limit : ℕ) : List Row :=
  (content.expired purge).take limit

/-- A row that the `DELETE` statement takes. -/
def deletes (content : Content) (purge : Purge) (limit : ℕ) (row : Row) : Bool :=
  purge.expired row && row.ctid ∈ (content.select purge limit).map Row.ctid

/-- `DELETE`: its `rowCount` and what is left. -/
def delete (content : Content) (purge : Purge) (limit : ℕ) : ℕ × Content :=
  ((content.rows.filter (content.deletes purge limit)).length,
    ⟨content.rows.filter fun row => ! content.deletes purge limit row,
      content.ctids.sublist (List.filter_sublist.map Row.ctid)⟩)

end Content

/-- What the loop of `runBatchDelete` works on, with the lines that it has archived. -/
structure Batching where
  content : Content
  totalDeleted : ℕ
  totalArchived : ℕ
  archive : List Record

def Batching.start (content : Content) : Batching := ⟨content, 0, 0, []⟩

section Loop

variable (purge : Purge) (batchSize : ℕ)

/-- A batch has been archived and deleted, or only counted. -/
def Batching.take (dryRun : Bool) (s : Batching) : Batching :=
  let rows := s.content.select purge batchSize
  let archived :=
    { s with
      totalArchived := s.totalArchived + rows.length
      archive := s.archive ++ rows.map purge.record }
  if dryRun then { archived with totalDeleted := s.totalDeleted + rows.length }
  else
    { archived with
      content := (s.content.delete purge batchSize).2
      totalDeleted := s.totalDeleted + (s.content.delete purge batchSize).1 }

/-- The body of the loop of `runBatchDelete`. -/
def batch (dryRun : Bool) (s : Batching) : Batching ⊕ Batching :=
  let rows := s.content.select purge batchSize
  if rows.length = 0 then .inr s
  else if rows.length < batchSize then .inr (s.take purge batchSize dryRun)
  else .inl (s.take purge batchSize dryRun)

/-- `runBatchDelete` returns. -/
abbrev RunsBatchDelete (dryRun : Bool) (content : Content) (result : Batching) : Prop :=
  Returns (batch purge batchSize dryRun) (.start content) result

def CountsOnce (dryRun : Bool) (content : Content) : Prop :=
  ∃ result, RunsBatchDelete purge batchSize dryRun content result ∧
    result.totalDeleted = (content.expired purge).length ∧
    result.totalArchived = result.totalDeleted ∧
    result.archive = (content.expired purge).map purge.record ∧
    (dryRun = false → result.content.rows = content.rows.filter fun row => ! purge.expired row) ∧
    (dryRun = true → result.content = content ∧
      ∃ applied, RunsBatchDelete purge batchSize false content applied ∧
        applied.totalDeleted = result.totalDeleted ∧
        applied.totalArchived = result.totalArchived)

end Loop

section Statements

/-- The first items are told from the others by what tells all of them apart. -/
theorem filter_mem_take {Item Place : Type*} [DecidableEq Place] (place : Item → Place)
    {items : List Item} (hnodup : (items.map place).Nodup) (count : ℕ) :
    (items.filter fun item => place item ∈ (items.take count).map place) = items.take count ∧
      (items.filter fun item => place item ∉ (items.take count).map place) =
        items.drop count := by
  have hsplit := List.take_append_drop count items
  have hfront : ∀ item ∈ items.take count, place item ∈ (items.take count).map place :=
    fun item hitem => List.mem_map_of_mem hitem
  have hback : ∀ item ∈ items.drop count, place item ∉ (items.take count).map place := by
    intro item hitem hmem
    rw [← hsplit, List.map_append] at hnodup
    exact List.disjoint_of_nodup_append hnodup hmem (List.mem_map_of_mem hitem)
  constructor
  · refine (congrArg (List.filter _) hsplit.symm).trans ?_
    rw [List.filter_append, List.filter_eq_self.mpr, List.filter_eq_nil_iff.mpr, List.append_nil]
    · intro item hitem
      simpa using hback item hitem
    · intro item hitem
      simpa using hfront item hitem
  · refine (congrArg (List.filter _) hsplit.symm).trans ?_
    rw [List.filter_append, List.filter_eq_nil_iff.mpr, List.filter_eq_self.mpr, List.nil_append]
    · intro item hitem
      simpa using hback item hitem
    · intro item hitem
      simpa using hfront item hitem

variable {content : Content} {purge : Purge} {limit : ℕ}

theorem Content.nodup_expired (content : Content) (purge : Purge) :
    ((content.expired purge).map Row.ctid).Nodup :=
  content.ctids.sublist (List.filter_sublist.map Row.ctid)

/-- The `DELETE` takes the rows that a `SELECT` before it finds. -/
theorem Content.filter_deletes (content : Content) (purge : Purge) (limit : ℕ) :
    content.rows.filter (content.deletes purge limit) = content.select purge limit := by
  have htake := (filter_mem_take Row.ctid (content.nodup_expired purge) limit).1
  rw [select, ← htake, expired, List.filter_filter]
  refine List.filter_congr fun row _ => ?_
  rw [deletes, Bool.and_comm, select, expired]

theorem Content.delete_count (content : Content) (purge : Purge) (limit : ℕ) :
    (content.delete purge limit).1 = (content.select purge limit).length :=
  congrArg List.length (content.filter_deletes purge limit)

/-- The rows that match after a `DELETE`. -/
theorem Content.expired_delete (content : Content) (purge : Purge) (limit : ℕ) :
    (content.delete purge limit).2.expired purge = (content.expired purge).drop limit := by
  rw [← (filter_mem_take Row.ctid (content.nodup_expired purge) limit).2]
  rw [expired, delete, expired, List.filter_filter, List.filter_filter]
  refine List.filter_congr fun row _ => ?_
  rw [deletes]
  cases purge.expired row
  · rw [Bool.false_and, Bool.and_false]
  · simp [select, expired]

/-- The rows that do not match are left alone. -/
theorem Content.kept_delete (content : Content) (purge : Purge) (limit : ℕ) :
    ((content.delete purge limit).2.rows.filter fun row => ! purge.expired row) =
      content.rows.filter fun row => ! purge.expired row := by
  rw [delete, List.filter_filter]
  refine List.filter_congr fun row _ => ?_
  rw [deletes]
  cases purge.expired row
  · rfl
  · rfl

end Statements

section Modes

variable {purge : Purge} {batchSize : ℕ} {s : Batching} {content : Content}

theorem length_select (content : Content) (purge : Purge) (limit : ℕ) :
    (content.select purge limit).length = min limit (content.expired purge).length :=
  List.length_take

/-- What is left of a table when nothing in it matches any more. -/
def Content.kept (content : Content) (purge : Purge) : Content :=
  ⟨content.rows.filter fun row => ! purge.expired row,
    content.ctids.sublist (List.filter_sublist.map Row.ctid)⟩

theorem Content.ext_rows {content other : Content} (hrows : content.rows = other.rows) :
    content = other := by
  cases content
  cases other
  congr

/-- The state of an applied run in which every row that matched is gone. -/
def Batching.finished (s : Batching) (purge : Purge) : Batching where
  content := s.content.kept purge
  totalDeleted := s.totalDeleted + (s.content.expired purge).length
  totalArchived := s.totalArchived + (s.content.expired purge).length
  archive := s.archive ++ (s.content.expired purge).map purge.record

theorem kept_of_none (hnone : content.expired purge = []) : content.kept purge = content := by
  apply Content.ext_rows
  rw [Content.kept, List.filter_eq_self]
  intro row hrow
  have hnot := List.filter_eq_nil_iff.mp hnone row hrow
  simpa using hnot

theorem finished_of_none (hnone : s.content.expired purge = []) : s.finished purge = s := by
  rw [Batching.finished, hnone, kept_of_none hnone, List.length_nil, List.map_nil, List.append_nil]
  rfl

/-- A batch that is applied does not change what a run comes to. -/
theorem finished_take (s : Batching) (purge : Purge) (batchSize : ℕ) :
    (s.take purge batchSize false).finished purge = s.finished purge := by
  have hkept : (s.content.delete purge batchSize).2.kept purge = s.content.kept purge :=
    Content.ext_rows (s.content.kept_delete purge batchSize)
  have hlength : (s.content.select purge batchSize).length +
      ((s.content.expired purge).drop batchSize).length = (s.content.expired purge).length := by
    rw [Content.select, ← List.length_append, List.take_append_drop]
  have hrecords : (s.content.select purge batchSize).map purge.record ++
      ((s.content.expired purge).drop batchSize).map purge.record =
        (s.content.expired purge).map purge.record := by
    rw [Content.select, ← List.map_append, List.take_append_drop]
  rw [Batching.finished, Batching.finished, Batching.take]
  simp only [Bool.false_eq_true, if_false, hkept, Content.expired_delete, Content.delete_count,
    Nat.add_assoc, List.append_assoc, hlength, hrecords]

theorem length_expired_take (s : Batching) (purge : Purge) (batchSize : ℕ) :
    ((s.take purge batchSize false).content.expired purge).length =
      (s.content.expired purge).length - batchSize := by
  rw [← List.length_drop, ← Content.expired_delete]
  rfl

/-- Applied batches end with every row that matched deleted and archived. -/
theorem returns_apply (hbatch : 0 < batchSize) (s : Batching) :
    Returns (batch purge batchSize false) s (s.finished purge) := by
  induction hleft : (s.content.expired purge).length using Nat.strongRecOn generalizing s with
  | ind left ih =>
      have hselect := length_select s.content purge batchSize
      have htake := length_expired_take s purge batchSize
      rw [hleft] at hselect htake
      by_cases hnone : (s.content.select purge batchSize).length = 0
      · have hempty : s.content.expired purge = [] := by
          apply List.length_eq_zero_iff.mp
          omega
        rw [finished_of_none hempty]
        exact .of_inr (by rw [batch, if_pos hnone])
      · by_cases hlast : (s.content.select purge batchSize).length < batchSize
        · have hempty : (s.take purge batchSize false).content.expired purge = [] := by
            apply List.length_eq_zero_iff.mp
            omega
          rw [← finished_take s purge batchSize, finished_of_none hempty]
          exact .of_inr (by rw [batch, if_neg hnone, if_pos hlast])
        · rw [← finished_take s purge batchSize]
          refine .of_inl (by rw [batch, if_neg hnone, if_neg hlast]) (ih _ ?_ _ htake)
          omega

/-- A dry run that finds less than a batch counts it and ends. -/
theorem returns_dryRun (hfew : (content.expired purge).length < batchSize) :
    RunsBatchDelete purge batchSize true content
      { Batching.start content with
        totalDeleted := (content.expired purge).length
        totalArchived := (content.expired purge).length
        archive := (content.expired purge).map purge.record } := by
  have hselect : content.select purge batchSize = content.expired purge :=
    List.take_of_length_le (Nat.le_of_lt hfew)
  refine .of_inr ?_
  rw [batch]
  simp only [Batching.start, Batching.take, hselect, if_pos hfew, if_true, Nat.zero_add,
    List.nil_append]
  split
  · next hnone =>
      rw [hnone, List.length_eq_zero_iff.mp hnone]
      rfl
  · rfl

/-- A dry run that finds a full batch finds it again and again. -/
theorem not_returns_dryRun (hbatch : 0 < batchSize)
    (hfull : batchSize ≤ (content.expired purge).length) (result : Batching) :
    ¬ RunsBatchDelete purge batchSize true content result := by
  refine not_returns (fun s => s.content = content) (fun s hsame => ?_) rfl
  have hlength : (s.content.select purge batchSize).length = batchSize := by
    rw [length_select, hsame, Nat.min_eq_left hfull]
  refine ⟨s.take purge batchSize true, ?_, hsame⟩
  rw [batch, if_neg (by omega), if_neg (by omega)]

/-- A run counts every row once exactly when it is applied or finds less than a batch. -/
theorem countsOnce_iff (hbatch : 0 < batchSize) (dryRun : Bool) :
    CountsOnce purge batchSize dryRun content ↔
      dryRun = false ∨ (content.expired purge).length < batchSize := by
  have happlied : RunsBatchDelete purge batchSize false content
      ((Batching.start content).finished purge) := returns_apply hbatch _
  have hcount : ((Batching.start content).finished purge).totalDeleted =
      (content.expired purge).length := Nat.zero_add _
  have harchived : ((Batching.start content).finished purge).totalArchived =
      (content.expired purge).length := Nat.zero_add _
  constructor
  · rintro ⟨result, hreturns, -⟩
    cases dryRun with
    | false => exact .inl rfl
    | true =>
        refine .inr (Nat.lt_of_not_le fun hfull => ?_)
        exact not_returns_dryRun hbatch hfull result hreturns
  · intro hor
    cases dryRun with
    | false =>
        exact ⟨_, happlied, hcount, harchived.trans hcount.symm, List.nil_append _, fun _ => rfl,
          fun hdry => absurd hdry Bool.false_ne_true⟩
    | true =>
        have hfew := hor.resolve_left fun heq => Bool.false_ne_true heq.symm
        exact ⟨_, returns_dryRun hfew, rfl, rfl, rfl, fun happly => absurd happly.symm
          Bool.false_ne_true, fun _ => ⟨rfl, _, happlied, hcount, harchived⟩⟩

def threeExpired : Content :=
  ⟨[⟨0, [("recorded_at", .time 1)]⟩, ⟨1, [("recorded_at", .time 2)]⟩,
    ⟨2, [("recorded_at", .time 3)]⟩], by decide⟩

theorem countsOnce_iff_three : CountsOnce (purgeSettlementEvents 10) 2 false threeExpired ↔
    false = false ∨ (threeExpired.expired (purgeSettlementEvents 10)).length < 2 :=
  countsOnce_iff Nat.two_pos false

/-- A dry run of them does not end. -/
theorem not_countsOnce_three : ¬ CountsOnce (purgeSettlementEvents 10) 2 true threeExpired := by
  rintro ⟨result, hreturns, -⟩
  have hfull : 2 ≤ (threeExpired.expired (purgeSettlementEvents 10)).length := by decide
  exact not_returns_dryRun Nat.two_pos hfull result hreturns

end Modes

section Job

variable {options : Options} {job : Job} {task : Task} {rest : List Task} {s t : Batching}

def Job.within (job : Job) (options : Options) (task : Task) (rest : List Task) (s : Batching) :
    Job :=
  { job with
    database := Function.update job.database task.purge.table s.content.rows
    archiver := job.archiver.write s.archive
    phase := .selecting ⟨task, rest, s.totalDeleted, s.totalArchived⟩
    deleted := job.deleted ++ if options.dryRun then [] else s.archive }

theorem picks_select (content : Content) (purge : Purge) (limit : ℕ) :
    Picks limit (content.expired purge) (content.select purge limit) := by
  refine ⟨?_, fun row hrow => List.mem_of_mem_take hrow, length_select content purge limit⟩
  exact ((content.nodup_expired purge).of_map).sublist (List.take_sublist _ _)

theorem expired_within (options : Options) (job : Job) (task : Task) (rest : List Task)
    (s : Batching) : (job.within options task rest s).expired task.purge =
    s.content.expired task.purge := by
  rw [Job.expired, Job.within, Content.expired]
  simp only [Function.update_self]

/-- What is left of a table is what the job leaves of it. -/
theorem filter_notMem_select (content : Content) (purge : Purge) (limit : ℕ) :
    (content.rows.filter fun row => row ∉ content.select purge limit) =
      (content.delete purge limit).2.rows := by
  rw [Content.delete]
  refine List.filter_congr fun row hrow => ?_
  rw [← Content.filter_deletes]
  simp [hrow]

/-- The job where the batch has been taken. -/
theorem step_select (hrows : (s.content.select task.purge options.batchSize).length ≠ 0) :
    step options (job.within options task rest s)
        (.select (.ok (s.content.select task.purge options.batchSize))) =
      some ((job.within options task rest s).archive options
        ⟨task, rest, s.totalDeleted, s.totalArchived⟩
        (s.content.select task.purge options.batchSize)) := by
  have hpicks := picks_select s.content task.purge options.batchSize
  rw [← expired_within options job task rest s] at hpicks
  have hne : s.content.select task.purge options.batchSize ≠ [] :=
    fun hnil => hrows (List.length_eq_zero_iff.mpr hnil)
  exact (if_pos hpicks).trans (if_neg hne)

/-- The statement that deletes the batch. -/
theorem step_delete (job : Job) (task : Task) (rest : List Task) (s : Batching)
    (hdry : ¬ options.dryRun = true) :
    step options ((job.within options task rest s).archive options
        ⟨task, rest, s.totalDeleted, s.totalArchived⟩
        (s.content.select task.purge options.batchSize))
      (.delete (s.content.select task.purge options.batchSize) none) =
    some ((job.within options task rest
        (s.take task.purge options.batchSize options.dryRun)).endBatch options
      ⟨task, rest, (s.take task.purge options.batchSize options.dryRun).totalDeleted,
        (s.take task.purge options.batchSize options.dryRun).totalArchived⟩
      (s.content.select task.purge options.batchSize)) := by
  have hpicks := picks_select s.content task.purge options.batchSize
  rw [← expired_within options job task rest s] at hpicks
  have hleft := filter_notMem_select s.content task.purge options.batchSize
  have happlied : options.dryRun = false := by simpa using hdry
  rw [Job.archive, if_neg hdry]
  refine (if_pos hpicks).trans ?_
  simp only [Job.remove, Job.within, Batching.take, Job.endBatch, Job.finish, happlied,
    Bool.false_eq_true, if_false, Archiver.write, List.append_assoc, Function.update_self,
    Function.update_idem, Content.delete_count, hleft]

/-- A batch of the job, up to the decision whether it is the last one. -/
theorem reaches_taken (job : Job) (rest : List Task)
    (hrows : (s.content.select task.purge options.batchSize).length ≠ 0) :
    Reaches (step options) anyStep (job.within options task rest s)
      ((job.within options task rest (s.take task.purge options.batchSize options.dryRun)).endBatch
        options ⟨task, rest, (s.take task.purge options.batchSize options.dryRun).totalDeleted,
          (s.take task.purge options.batchSize options.dryRun).totalArchived⟩
        (s.content.select task.purge options.batchSize)) := by
  have hselect : Reaches (step options) anyStep (job.within options task rest s) _ :=
    (Reaches.refl _).tail trivial (step_select hrows)
  by_cases hdry : options.dryRun = true
  · simpa only [Job.archive, Job.within, Batching.take, Job.endBatch, Job.finish, hdry, if_true,
      Archiver.write, List.append_assoc] using hselect
  · have hdelete := step_delete job task rest s hdry
    exact hselect.tail trivial hdelete

theorem step_wake (s : Job) (progress : Progress) (hphase : s.phase = .sleeping progress) :
    step options s .wake = some { s with phase := .selecting progress } := by
  rw [step, hphase]

/-- A batch that is not the last one is a part of a run of the job. -/
theorem reaches_of_inl (hbatch : batch task.purge options.batchSize options.dryRun s = .inl t) :
    Reaches (step options) anyStep (job.within options task rest s)
      (job.within options task rest t) := by
  rw [batch] at hbatch
  by_cases hnone : (s.content.select task.purge options.batchSize).length = 0
  · rw [if_pos hnone] at hbatch
    cases hbatch
  · rw [if_neg hnone] at hbatch
    by_cases hlast : (s.content.select task.purge options.batchSize).length < options.batchSize
    · rw [if_pos hlast] at hbatch
      cases hbatch
    · rw [if_neg hlast] at hbatch
      obtain rfl := Sum.inl.inj hbatch
      have htaken := reaches_taken job rest hnone
      rw [Job.endBatch, if_neg hlast] at htaken
      exact htaken.tail trivial (step_wake _ _ rfl)

/-- The end of the loop is the end of the table. -/
theorem reaches_of_inr (hbatch : batch task.purge options.batchSize options.dryRun s = .inr t) :
    Reaches (step options) anyStep (job.within options task rest s)
      ((job.within options task rest t).finish ⟨task, rest, t.totalDeleted, t.totalArchived⟩) := by
  rw [batch] at hbatch
  by_cases hnone : (s.content.select task.purge options.batchSize).length = 0
  · rw [if_pos hnone] at hbatch
    obtain rfl := Sum.inr.inj hbatch
    have hpicks := picks_select s.content task.purge options.batchSize
    rw [← expired_within options job task rest s,
      List.length_eq_zero_iff.mp hnone] at hpicks
    have hselect : step options (job.within options task rest s) (.select (.ok [])) =
        some ((job.within options task rest s).finish
          ⟨task, rest, s.totalDeleted, s.totalArchived⟩) :=
      (if_pos hpicks).trans (if_pos rfl)
    exact (Reaches.refl _).tail trivial hselect
  · rw [if_neg hnone] at hbatch
    by_cases hlast : (s.content.select task.purge options.batchSize).length < options.batchSize
    · rw [if_pos hlast] at hbatch
      obtain rfl := Sum.inr.inj hbatch
      have htaken := reaches_taken job rest hnone
      rwa [Job.endBatch, if_pos hlast] at htaken
    · rw [if_neg hlast] at hbatch
      cases hbatch

/-- The loop of a table is a run of the job. -/
theorem reaches_of_returns
    (hreturns : Returns (batch task.purge options.batchSize options.dryRun) s t) :
    Reaches (step options) anyStep (job.within options task rest s)
      ((job.within options task rest t).finish ⟨task, rest, t.totalDeleted, t.totalArchived⟩) := by
  refine hreturns.preserves (fun u => Reaches (step options) anyStep
    (job.within options task rest s) (job.within options task rest u)) (fun u =>
      Reaches (step options) anyStep (job.within options task rest s)
        ((job.within options task rest u).finish ⟨task, rest, u.totalDeleted, u.totalArchived⟩))
    ?_ ?_ (Reaches.refl _)
  · intro before after hbefore hbatch
    exact hbefore.trans (reaches_of_inl hbatch)
  · intro before found hbefore hbatch
    exact hbefore.trans (reaches_of_inr hbatch)

theorem reaches_of_returns_threeExpired :
    let options : Options := ⟨2, false, .file⟩
    let task : Task := ⟨"settlement_events", purgeSettlementEvents 10⟩
    let job : Job := .init 10 fun _ => threeExpired.rows
    let result := (Batching.start threeExpired).finished task.purge
    Reaches (step options) anyStep (job.within options task [] (.start threeExpired))
      ((job.within options task [] result).finish
        ⟨task, [], result.totalDeleted, result.totalArchived⟩) :=
  reaches_of_returns (returns_apply Nat.two_pos _)

end Job

end X402Facilitator.Retention
