import Mathlib.Data.List.Perm.Subperm
import X402Facilitator.Retention.Job

/-!
# An archive copy of every deleted row

The rows of a batch are deleted by a statement that selects them anew, while their lines
may still be on the way to the file.  Where both selections agree and the lines have
arrived, every deleted row has its copy.
-/

namespace X402Facilitator.Retention

open Execution

/-- Every deleted row has a durable record, and no table reports more deleted rows than
archived ones. -/
structure Archived (s : Job) : Prop where
  durable : ∀ record ∈ s.deleted, record ∈ s.archiver.durable
  counted : ∀ entry ∈ s.report, entry.deleted ≤ entry.archived

/-- So it is in every state of a run of the job, its end among them. -/
def Archives (meets : Job → Action → Prop) (options : Options) (now : ℤ)
    (database : String → List Row) : Prop :=
  ∀ s, Reaches (step options) meets (.init now database) s → Archived s

/-- A delete statement deletes rows of its batch, as they were selected, whose lines have
left the buffer. -/
def Ordered (s : Job) : Action → Prop
  | .delete picked _ => ∀ progress rows, s.phase = .deleting progress rows →
      ∀ row ∈ picked, row ∈ rows ∧ progress.task.purge.record row ∉ s.archiver.buffered
  | _ => True

variable {options : Options} {s s' : Job} {action : Action} {progress : Progress}
variable {rows picked : List Row} {task : Task} {rest : List Task} {message : String}

def Phase.Sound (archiver : Archiver) : Phase → Prop
  | .selecting progress | .sleeping progress => progress.deleted ≤ progress.archived
  | .deleting progress rows => progress.deleted + rows.length ≤ progress.archived ∧
      ∀ row ∈ rows, progress.task.purge.record row ∈ archiver.buffered ++ archiver.durable
  | .starting _ | .ended => True

structure Sound (s : Job) : Prop extends Archived s where
  phase : s.phase.Sound s.archiver

theorem sound_init (now : ℤ) (database : String → List Row) : Sound (.init now database) where
  durable := nofun
  counted := nofun
  phase := trivial

/-- The phase matters to no copy. -/
theorem Archived.sound (hs : Archived s) {phase : Phase} (hphase : phase.Sound s.archiver) :
    Sound { s with phase := phase } :=
  ⟨⟨hs.durable, hs.counted⟩, hphase⟩

theorem Archived.fail (hs : Archived s) : Sound (s.fail task rest message) where
  durable := hs.durable
  counted := hs.counted
  phase := trivial

theorem Archived.finish (hs : Archived s) (hcount : progress.deleted ≤ progress.archived) :
    Sound (s.finish progress) where
  durable := hs.durable
  counted := by
    intro entry hentry
    rcases List.mem_append.mp hentry with hold | hnew
    · exact hs.counted entry hold
    · obtain rfl := List.mem_singleton.mp hnew
      exact hcount
  phase := trivial

theorem Archived.endBatch (hs : Archived s) (hcount : progress.deleted ≤ progress.archived) :
    Sound (s.endBatch options progress rows) := by
  rw [Job.endBatch]
  split
  · exact hs.finish hcount
  · exact hs.sound hcount

theorem Archived.write (hs : Archived s) (records : List Record) :
    Archived { s with archiver := s.archiver.write records } :=
  ⟨hs.durable, hs.counted⟩

theorem Archived.archive (hs : Archived s) (hcount : progress.deleted ≤ progress.archived) :
    Sound (s.archive options progress rows) := by
  rw [Job.archive]
  split
  · exact (hs.write _).endBatch (Nat.add_le_add_right hcount _)
  · apply (hs.write _).sound
    refine ⟨Nat.add_le_add_right hcount _, fun row hrow => ?_⟩
    apply List.mem_append_left
    apply List.mem_append_right
    exact List.mem_map_of_mem hrow

theorem mem_durable_flush (archiver : Archiver) (count : ℕ) {record : Record}
    (hrecord : record ∈ archiver.durable) : record ∈ (archiver.flush count).durable :=
  List.mem_append_left _ hrecord

/-- A flush loses no line. -/
theorem mem_flush (archiver : Archiver) (count : ℕ) {record : Record}
    (hrecord : record ∈ archiver.buffered ++ archiver.durable) :
    record ∈ (archiver.flush count).buffered ++ (archiver.flush count).durable := by
  rcases List.mem_append.mp hrecord with hbuffered | hdurable
  · rw [← List.take_append_drop count archiver.buffered] at hbuffered
    rcases List.mem_append.mp hbuffered with htaken | hleft
    · apply List.mem_append_right
      exact List.mem_append_right _ htaken
    · exact List.mem_append_left _ hleft
  · apply List.mem_append_right
    exact mem_durable_flush archiver count hdurable

theorem Phase.Sound.flush {phase : Phase} {archiver : Archiver} (hphase : phase.Sound archiver)
    (count : ℕ) : phase.Sound (archiver.flush count) := by
  cases phase with
  | starting _ => trivial
  | selecting _ => exact hphase
  | sleeping _ => exact hphase
  | ended => trivial
  | deleting progress rows =>
      exact ⟨hphase.1, fun row hrow => mem_flush archiver count (hphase.2 row hrow)⟩

theorem Archived.flush (hs : Archived s) (count : ℕ) :
    Archived { s with archiver := s.archiver.flush count } where
  durable := fun record hrecord => mem_durable_flush s.archiver count (hs.durable record hrecord)
  counted := hs.counted

theorem Archived.close (hs : Archived s) (type : ArchiveType) (error : Option String) :
    Archived { s with archiver := s.archiver.close type error } := by
  cases type with
  | s3 => exact hs
  | file =>
      cases error with
      | some _ => exact hs
      | none => exact hs.flush _

/-- Rows of the batch are deleted once their lines have left the buffer. -/
theorem Sound.remove (hs : Sound s) (hphase : s.phase = .deleting progress rows)
    (hpicked : ∀ row ∈ picked, row ∈ rows)
    (hwritten : ∀ row ∈ picked, progress.task.purge.record row ∉ s.archiver.buffered) :
    Archived (s.remove progress.task.purge picked) where
  durable := by
    have hsound := hs.phase
    rw [hphase] at hsound
    intro record hrecord
    rcases List.mem_append.mp hrecord with hold | hnew
    · exact hs.durable record hold
    · obtain ⟨row, hrow, rfl⟩ := List.mem_map.mp hnew
      have hhanded := hsound.2 row (hpicked row hrow)
      exact (List.mem_append.mp hhanded).resolve_left (hwritten row hrow)
  counted := hs.counted

/-- No more rows are deleted than the batch has. -/
theorem count_delete (hs : Sound s) (hphase : s.phase = .deleting progress rows)
    (hnodup : picked.Nodup) (hpicked : ∀ row ∈ picked, row ∈ rows) :
    progress.deleted + picked.length ≤ progress.archived := by
  have hsound := hs.phase
  rw [hphase] at hsound
  calc
    progress.deleted + picked.length ≤ progress.deleted + rows.length := by
      apply Nat.add_le_add_left
      exact (List.subperm_of_subset hnodup hpicked).length_le
    _ ≤ progress.archived := hsound.1

theorem sound_step (hs : Sound s) (hordered : Ordered s action)
    (hstep : step options s action = some s') : Sound s' := by
  have harchived := hs.toArchived
  have hphase := hs.phase
  cases steps_of_step hstep with
  | change table rows => exact ⟨⟨hs.durable, hs.counted⟩, hs.phase⟩
  | flush count hfile => exact ⟨harchived.flush count, hphase.flush count⟩
  | openFails task rest message => exact harchived.fail
  | start task rest hstarting => exact ⟨⟨hs.durable, hs.counted⟩, Nat.le_refl 0⟩
  | selectFails progress message hselecting => exact harchived.fail
  | none progress hselecting =>
      rw [hselecting] at hphase
      exact harchived.finish hphase
  | select progress rows hselecting =>
      rw [hselecting] at hphase
      exact harchived.archive hphase
  | delete progress rows picked hdeleting hpicks =>
      have hrows := hordered progress rows hdeleting
      have hpicked : ∀ row ∈ picked, row ∈ rows := fun row hrow => (hrows row hrow).1
      have hremoved := hs.remove hdeleting hpicked fun row hrow => (hrows row hrow).2
      exact hremoved.endBatch (count_delete hs hdeleting hpicks.1 hpicked)
  | deleteFails progress rows picked message hdeleting =>
      have hrows := hordered progress rows hdeleting
      have hpicked : ∀ row ∈ picked, row ∈ rows := fun row hrow => (hrows row hrow).1
      exact (hs.remove hdeleting hpicked fun row hrow => (hrows row hrow).2).fail
  | wake progress hsleeping =>
      rw [hsleeping] at hphase
      exact harchived.sound hphase
  | close error hstarting =>
      have hclosed := harchived.close options.archiveType error
      exact ⟨⟨hclosed.durable, hclosed.counted⟩, trivial⟩
  | crash => exact harchived.sound trivial

/-- In the runs in which every delete statement keeps to its batch and follows its lines,
all that is deleted has its copy. -/
theorem archives_ordered (options : Options) (now : ℤ) (database : String → List Row) :
    Archives Ordered options now database := by
  intro s hreach
  have hs : Sound s := hreach.preserves
    (fun _ _ _ hs hordered hstep => sound_step hs hordered hstep) (sound_init now database)
  exact hs.toArchived

theorem durable_endBatch (s : Job) (options : Options) (progress : Progress) (rows : List Row) :
    (s.endBatch options progress rows).archiver.durable = s.archiver.durable := by
  rw [Job.endBatch]
  split <;> rfl

/-- What is handed to an archive on S3 stays in its buffer. -/
theorem durable_s3 (hs3 : options.archiveType = .s3) (hnone : s.archiver.durable = [])
    (hstep : step options s action = some s') : s'.archiver.durable = [] := by
  cases steps_of_step hstep with
  | flush count hfile => cases hfile.symm.trans hs3
  | select progress rows hselecting =>
      rw [Job.archive]
      split
      · rw [durable_endBatch]
        exact hnone
      · exact hnone
  | delete progress rows picked hdeleting =>
      rw [durable_endBatch]
      exact hnone
  | close error hstarting =>
      rw [hs3]
      exact hnone
  | change | openFails | start | selectFails | none | deleteFails | wake | crash => exact hnone

/-- So no row that is deleted has a copy. -/
theorem not_archived_s3 (hs3 : options.archiveType = .s3) {now : ℤ}
    {database : String → List Row}
    (hreach : Reaches (step options) anyStep (.init now database) s) :
    ∀ record ∈ s.deleted, record ∉ s.archiver.durable := by
  have hnone : s.archiver.durable = [] :=
    hreach.preserves (fun _ _ _ hnone _ hstep => durable_s3 hs3 hnone hstep) rfl
  intro record _ hrecord
  rw [hnone] at hrecord
  cases hrecord

def oldEvent (ctid : ℕ) (key : String) : Row :=
  ⟨ctid, [("idempotency_key", .text key), ("recorded_at", .time 0)]⟩

def twoEvents (table : String) : List Row :=
  if table = "settlement_events" then [oldEvent 0 "first", oldEvent 1 "second"] else []

def rowByRow : Options := ⟨1, false, .file⟩

def otherRow : List Action :=
  [.start none, .select (.ok [oldEvent 0 "first"]), .flush 1, .delete [oldEvent 1 "second"] none]

theorem not_archived_s3_oneEvent : ∃ s,
    run (step ⟨2, false, .s3⟩) (.init (settlementRetention + 1) twoEvents)
      [.start none, .select (.ok [oldEvent 0 "first", oldEvent 1 "second"]),
        .delete [oldEvent 0 "first", oldEvent 1 "second"] none] = some s ∧ s.deleted.length = 2 ∧
      ∀ record ∈ s.deleted, record ∉ s.archiver.durable := by
  have hrun : (run (step ⟨2, false, .s3⟩) (.init (settlementRetention + 1) twoEvents)
      [.start none, .select (.ok [oldEvent 0 "first", oldEvent 1 "second"]),
        .delete [oldEvent 0 "first", oldEvent 1 "second"] none]).map
      (fun s => s.deleted.length) = some 2 := by
    decide +kernel
  obtain ⟨s, hs, hdeleted⟩ := Option.map_eq_some_iff.mp hrun
  exact ⟨s, hs, hdeleted, not_archived_s3 rfl (reaches_of_run hs)⟩

theorem not_archives_always :
    ¬ ∀ (options : Options) (now : ℤ) (database : String → List Row),
      Archives anyStep options now database := by
  intro harchives
  have hrun : (run (step rowByRow) (.init (settlementRetention + 1) twoEvents) otherRow).map
      (fun s => (s.deleted, s.archiver.durable)) =
        some ([⟨"settlement_events", (oldEvent 1 "second").columns⟩],
          [⟨"settlement_events", (oldEvent 0 "first").columns⟩]) := by
    decide +kernel
  obtain ⟨s, hreach, hobserved⟩ := exists_reaches_of_run hrun
  obtain ⟨hdeleted, hdurable⟩ := Prod.mk.inj hobserved
  have hcopy := (harchives rowByRow _ twoEvents s hreach).durable
  rw [hdeleted, hdurable] at hcopy
  revert hcopy
  decide

end X402Facilitator.Retention
