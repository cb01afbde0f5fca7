import X402Facilitator.Cqrs.Worker

/-!
# The checkpoint of the projection worker

`CheckpointIsBehind` says that every event that the row of its key does not
include yet is numbered above the persisted checkpoint, so that a restarted
worker reads it again.  It is refuted for arbitrary runs.  It holds of the runs
in which no step leaves behind an event numbered up to what the worker has
passed.
-/

namespace X402Facilitator.ProjectionWorker

open X402Facilitator.Execution

/-- Every event that is not in the row of its key lies after the checkpoint and
is selected again by a worker that restarts there. -/
structure CheckpointIsBehind (s : System) : Prop where
  behind : ∀ key, ∀ event ∈ s.database.log key,
    s.included key < event.seq → s.checkpoint < event.seq
  readAgain : ∀ key, ∀ event ∈ s.database.log key,
    s.included key < event.seq → (key, event.seq) ∈ eventsAfter s.database s.checkpoint

/-- In every state between two batches of a run with steps satisfying `meets`. -/
def CheckpointNeverPasses (batchSize : ℕ) (meets : System → Action → Prop) : Prop :=
  ∀ s, Reaches (step batchSize) meets .init s → s.phase = .idle → CheckpointIsBehind s

/-- What a write that the table took may leave behind: nothing of another key
numbered up to the group's maximum that is not in the rest of the batch. -/
def System.WritesInOrder (s : System) (group : EventGroup) (groups : List EventGroup) : Prop :=
  ∀ key, key ≠ group.key → key ∉ groups.map EventGroup.key → s.Includes key group.maxSeq

/-- A group that is not written has only included events up to what the worker has
passed; one that is written comes after the other keys' events. -/
def System.WriteLeavesNothing (s : System) (group : EventGroup)
    (projection : Option (Settlement ℕ)) (groups : List EventGroup)
    (outcome : QueryOutcome) : Prop :=
  if outcome = .fails ∨ s.readModel.writeProjection projection group.maxSeq = none then
    s.Includes group.key s.passed
  else outcome = .succeeds → s.WritesInOrder group groups

/-- No step leaves behind an event that the worker has passed: an append is
numbered after it or belongs to a key still to be fetched; a group that fails has
only included events up to it; a group is written after the other keys; a restart
drops no such group. -/
def LeavesNothingBehind (s : System) : Action → Prop
  | .append operation _ =>
      operation.inserts (s.database.projections.get operation.key).isSome = true →
        s.passed < s.database.maxSeq operation.key + 1 ∨ operation.key ∈ s.phase.keysLeft
  | .fetchFails =>
      match s.phase with
      | .fetching (group :: _) _ => s.Includes group.key s.passed
      | _ => True
  | .write outcome =>
      match s.phase with
      | .writing group projection _ groups _ =>
          s.WriteLeavesNothing group projection groups outcome
      | _ => True
  | .restart =>
      match s.phase with
      | .writing group _ _ groups _ =>
          ∀ key ∈ group.key :: groups.map EventGroup.key, s.Includes key s.checkpoint
      | phase => ∀ key ∈ phase.keysLeft, s.Includes key s.checkpoint
  | _ => True

theorem mem_groupEvents {events : List (String × ℕ)} {entry : String × ℕ}
    (hentry : entry ∈ (groupEvents events).entries) : entry ∈ events := by
  induction events using List.reverseRecOn generalizing entry with
  | nil => cases hentry
  | append_singleton events event ih =>
      rw [groupEvents, List.foldl_append, List.foldl_cons, List.foldl_nil,
        ← groupEvents] at hentry
      apply List.mem_append.mpr
      rcases InsertionMap.mem_setEntries hentry with rfl | hold
      · cases hbefore : (groupEvents events).get event.1 with
        | none =>
            right
            rw [Option.getD_none, Nat.zero_max]
            exact List.mem_singleton_self event
        | some before =>
            rw [Option.getD_some]
            rcases max_choice before event.2 with hmax | hmax
            · left
              rw [hmax]
              exact ih (InsertionMap.mem_of_lookup hbefore)
            · right
              rw [hmax]
              exact List.mem_singleton_self event
      · exact Or.inl (ih hold)

variable {db : Database} {offset : ℕ}

theorem mem_eventsAfter {key : String} {seq : ℕ} : (key, seq) ∈ eventsAfter db offset ↔
      offset < seq ∧ ∃ event ∈ db.log key, event.seq = seq := by
  constructor
  · intro hmem
    obtain ⟨hposition, hoffset⟩ := List.mem_filter.mp hmem
    obtain ⟨row, hrow, hsame⟩ := List.mem_map.mp hposition
    obtain ⟨rfl, rfl⟩ := Prod.mk.injEq _ _ _ _ ▸ hsame
    refine ⟨of_decide_eq_true hoffset, row.event, ?_, rfl⟩
    exact List.mem_map_of_mem (List.mem_filter.mpr ⟨hrow, by simp⟩)
  · rintro ⟨hoffset, event, hevent, rfl⟩
    obtain ⟨row, hrow, rfl⟩ := List.mem_map.mp hevent
    obtain ⟨hmem, hkey⟩ := List.mem_filter.mp hrow
    obtain rfl : row.idempotencyKey = key := of_decide_eq_true hkey
    exact List.mem_filter.mpr ⟨List.mem_map_of_mem hmem, decide_eq_true hoffset⟩

/-- The maximum of a group is the number of an event of its key. -/
theorem maxSeq_le_length (hdb : db.Agrees) {limit : ℕ} {order : List (String × ℕ)}
    (horder : IsOrdered db offset order) {group : EventGroup}
    (hgroup : group ∈ eventGroups (order.take limit)) :
    group.maxSeq ≤ (db.log group.key).length := by
  obtain ⟨entry, hentry, rfl⟩ := List.mem_map.mp hgroup
  have hmem := horder.1.mem_iff.mp (List.mem_of_mem_take (mem_groupEvents hentry))
  obtain ⟨-, event, hevent, hseq⟩ := mem_eventsAfter.mp hmem
  calc
    entry.2 = event.seq := hseq.symm
    _ ≤ (db.log entry.1).length := hdb.seq_le_length hevent

/-- What the worker has of the log: rows from prefixes, groups of events that
exist, and fetched logs that were complete. -/
structure Sound (s : System) : Prop where
  agrees : s.database.Agrees
  included_le : ∀ key, s.included key ≤ (s.database.log key).length
  groups_le : ∀ group ∈ s.phase.groupsLeft,
    group.maxSeq ≤ (s.database.log group.key).length
  fetched : ∀ group projection count groups lastSeq,
    s.phase = .writing group projection count groups lastSeq →
      group.maxSeq ≤ count ∧ s.included group.key ≤ count ∧
        count ≤ (s.database.log group.key).length ∧ (projection.isSome ∨ count = 0)

def Phase.Fetched : Phase → String → ℕ → Prop
  | writing group _ count _ _, key, seq => key = group.key ∧ seq ≤ count
  | _, _, _ => False

def Covered (s : System) : Prop :=
  ∀ key, ∀ event ∈ s.database.log key, event.seq ≤ s.passed →
    event.seq ≤ s.included key ∨ key ∈ s.phase.keysLeft ∨ s.phase.Fetched key event.seq

theorem Sound.init : Sound .init where
  agrees := Database.Agrees.empty
  included_le := fun key => Nat.zero_le _
  groups_le := fun group hgroup => by cases hgroup
  fetched := fun _ _ _ _ _ hphase => by cases hphase

section Steps

variable {batchSize : ℕ} {s s' : System} {operation : AppendOperation} {now : ℕ}

/-- An append leaves everything else and makes one log longer. -/
theorem step_append (hdb : s.database.Agrees)
    (hstep : step batchSize s (.append operation now) = some s') :
    s' = { s with database :=
      (operation.writes s.database ((s.database.log operation.key).length + 1) now).1 } := by
  rw [step, hdb.statementAt] at hstep
  exact (Option.some.inj hstep).symm

theorem length_le_writes (db : Database) (seq : ℕ) (key : String) :
    (db.log key).length ≤ ((operation.writes db seq now).1.log key).length := by
  rcases Database.log_writes db operation seq now key with hsame | ⟨-, -, hlonger⟩
  · rw [hsame]
  · rw [hlonger, List.length_append]
    exact Nat.le_add_right _ _

theorem Sound.append (hsound : Sound s)
    (hstep : step batchSize s (.append operation now) = some s') :
    Sound s' := by
  obtain rfl := step_append hsound.agrees hstep
  exact
    { agrees := hsound.agrees.writes
      included_le := fun key => (hsound.included_le key).trans (length_le_writes _ _ _)
      groups_le := fun group hgroup =>
        (hsound.groups_le group hgroup).trans (length_le_writes _ _ _)
      fetched := by
        intro group projection count groups lastSeq hphase
        obtain ⟨hmax, hincluded, hcount, hsome⟩ :=
          hsound.fetched group projection count groups lastSeq hphase
        exact ⟨hmax, hincluded, hcount.trans (length_le_writes _ _ _), hsome⟩ }

/-- A group that leaves the phase without being written. -/
theorem Sound.skip (hsound : Sound s) {phase : Phase}
    (hgroups : ∀ group ∈ phase.groupsLeft, group ∈ s.phase.groupsLeft)
    (hphase : ∀ group projection count groups lastSeq,
      phase ≠ .writing group projection count groups lastSeq) :
    Sound { s with phase := phase } where
  agrees := hsound.agrees
  included_le := hsound.included_le
  groups_le := fun group hgroup => hsound.groups_le group (hgroups group hgroup)
  fetched := fun group projection count groups lastSeq hwriting =>
    absurd hwriting (hphase group projection count groups lastSeq)

/-- The worker stands between two batches. -/
theorem Sound.idles (hsound : Sound s) (checkpoint currentOffset : ℕ) :
    Sound { s with
      checkpoint := checkpoint, currentOffset := currentOffset, phase := .idle } where
  agrees := hsound.agrees
  included_le := hsound.included_le
  groups_le := fun group hgroup => by cases hgroup
  fetched := fun _ _ _ _ _ hwriting => by cases hwriting

variable {count lastSeq : ℕ} {group : EventGroup} {groups : List EventGroup}
  {projection : Option (Settlement ℕ)} {action : Action} {outcome : QueryOutcome}

/-- A group that the table took. -/
theorem Sound.wrote (hsound : Sound s) {lastSeq' : ℕ}
    (hphase : s.phase = .writing group projection count groups lastSeq) (table : ReadModel ℕ) :
    Sound { s.wrote group projection count table with
      phase := .fetching groups lastSeq' } where
  agrees := hsound.agrees
  included_le := by
    intro key
    change (if projection.isSome then Function.update s.included group.key count
      else s.included) key ≤ _
    split
    · by_cases hkey : key = group.key
      · subst hkey
        rw [Function.update_self]
        exact (hsound.fetched _ _ _ _ _ hphase).2.2.1
      · rw [Function.update_of_ne hkey]
        exact hsound.included_le key
    · exact hsound.included_le key
  groups_le := by
    intro other hother
    apply hsound.groups_le other
    rw [hphase]
    exact hother
  fetched := fun _ _ _ _ _ hwriting => by cases hwriting

/-- The events of a group, fetched. -/
theorem Sound.fetch (hsound : Sound s) (hphase : s.phase = .fetching (group :: groups) lastSeq) :
    Sound { s with
      phase := .writing group (projectSettlement (s.database.selectLog group.key))
        (s.database.selectLog group.key).length groups lastSeq } where
  agrees := hsound.agrees
  included_le := hsound.included_le
  groups_le := by
    intro other hother
    apply hsound.groups_le other
    rw [hphase]
    exact List.mem_cons_of_mem group hother
  fetched := by
    intro _ _ _ _ _ hwriting
    cases hwriting
    have hlength := hsound.agrees.length_selectLog group.key
    refine ⟨?_, ?_, hlength.le, ?_⟩
    · rw [hlength]
      apply hsound.groups_le group
      rw [hphase]
      exact List.mem_cons_self
    · rw [hlength]
      exact hsound.included_le group.key
    · rw [hsound.agrees.projectSettlement_selectLog, Option.isSome_map, hlength]
      by_cases hnil : s.database.log group.key = []
      · exact Or.inr (by rw [hnil]; rfl)
      · exact Or.inl (projectSettlement_isSome hnil (hsound.agrees.known group.key))

theorem Sound.step (hsound : Sound s) (hstep : step batchSize s action = some s') : Sound s' := by
  cases action with
  | append operation now => exact hsound.append hstep
  | read order =>
      rw [ProjectionWorker.step] at hstep
      split at hstep
      · split at hstep
        · next hread =>
            dsimp only at hstep
            split at hstep
            · cases hstep
              exact hsound
            · cases hstep
              exact
                { agrees := hsound.agrees
                  included_le := hsound.included_le
                  groups_le := fun group hgroup =>
                    maxSeq_le_length hsound.agrees hread hgroup
                  fetched := fun _ _ _ _ _ hwriting => by cases hwriting }
        · cases hstep
      · cases hstep
  | readFails =>
      rw [ProjectionWorker.step] at hstep
      split at hstep
      · cases hstep
        exact hsound
      · cases hstep
  | fetch =>
      rw [ProjectionWorker.step] at hstep
      split at hstep
      · next hphase =>
          cases hstep
          exact hsound.fetch hphase
      · cases hstep
  | fetchFails =>
      rw [ProjectionWorker.step] at hstep
      split at hstep
      · next group groups lastSeq hphase =>
          cases hstep
          apply hsound.skip
          · intro other hother
            rw [hphase]
            exact List.mem_cons_of_mem group hother
          · intro _ _ _ _ _ hwriting
            cases hwriting
      · cases hstep
  | write outcome =>
      cases hphase : s.phase with
      | idle | fetching groups lastSeq => rw [ProjectionWorker.step, hphase] at hstep; cases hstep
      | writing group projection count groups lastSeq =>
          rcases step_write hphase hstep with ⟨table, -, -, rfl⟩ | ⟨table, -, -, rfl⟩ |
            ⟨-, rfl⟩
          · exact hsound.wrote hphase table
          · exact hsound.wrote hphase table
          · apply hsound.skip
            · intro other hother
              rw [hphase]
              exact hother
            · intro _ _ _ _ _ hwriting
              cases hwriting
  | updateCheckpoint outcome =>
      obtain ⟨lastSeq, checkpoint, currentOffset, -, -, -, rfl⟩ := step_updateCheckpoint hstep
      exact hsound.idles checkpoint currentOffset
  | restart =>
      cases hstep
      exact hsound.idles s.checkpoint s.checkpoint

theorem Covered.init : Covered .init := by
  intro key event hevent
  cases hevent

theorem Covered.append (hsound : Sound s) (hcovered : Covered s)
    (hmeets : LeavesNothingBehind s (.append operation now))
    (hstep : step batchSize s (.append operation now) = some s') : Covered s' := by
  obtain rfl := step_append hsound.agrees hstep
  intro key event hevent hpassed
  change event ∈ (operation.writes s.database _ now).1.log key at hevent
  rcases Database.log_writes s.database operation
      ((s.database.log operation.key).length + 1) now key with hsame | ⟨rfl, hinserts, hlonger⟩
  · rw [hsame] at hevent
    exact hcovered key event hevent hpassed
  · rw [hlonger] at hevent
    rcases List.mem_append.mp hevent with hold | hnew
    · exact hcovered operation.key event hold hpassed
    · obtain rfl := List.mem_singleton.mp hnew
      rw [AppendOperation.event_seq] at hpassed
      rcases hmeets hinserts with hafter | hleft
      · rw [(hsound.agrees.numbered operation.key).maxSeq] at hafter
        change _ ≤ s.passed at hpassed
        omega
      · exact Or.inr (Or.inl hleft)

theorem Covered.read (hcovered : Covered s) {order : List (String × ℕ)}
    (hstep : step batchSize s (.read order) = some s') : Covered s' := by
  rw [ProjectionWorker.step] at hstep
  split at hstep
  · next hphase =>
      split at hstep
      · dsimp only at hstep
        split at hstep
        · cases hstep
          exact hcovered
        · cases hstep
          intro key event hevent hpassed
          have hbefore : event.seq ≤ s.passed := by
            rw [System.passed, hphase]
            simpa [System.passed, Phase.lastSeq] using hpassed
          rcases hcovered key event hevent hbefore with hincluded | hleft | hfetched
          · exact Or.inl hincluded
          · rw [hphase] at hleft
            cases hleft
          · rw [hphase] at hfetched
            cases hfetched
      · cases hstep
  · cases hstep

theorem Covered.fetch (hsound : Sound s) (hcovered : Covered s)
    (hstep : step batchSize s .fetch = some s') : Covered s' := by
  rw [ProjectionWorker.step] at hstep
  split at hstep
  · next group groups lastSeq hphase =>
      cases hstep
      intro key event hevent hpassed
      have hbefore : event.seq ≤ s.passed := by
        rw [System.passed, hphase]
        exact hpassed
      rcases hcovered key event hevent hbefore with hincluded | hleft | hfetched
      · exact Or.inl hincluded
      · rw [hphase] at hleft
        rcases List.mem_cons.mp hleft with rfl | hrest
        · right
          right
          refine ⟨rfl, ?_⟩
          rw [hsound.agrees.length_selectLog]
          exact hsound.agrees.seq_le_length hevent
        · exact Or.inr (Or.inl hrest)
      · rw [hphase] at hfetched
        cases hfetched
  · cases hstep

theorem Covered.fetchFails (hcovered : Covered s)
    (hmeets : LeavesNothingBehind s .fetchFails) (hstep : step batchSize s .fetchFails = some s') :
    Covered s' := by
  rw [ProjectionWorker.step] at hstep
  rw [LeavesNothingBehind] at hmeets
  split at hstep
  · next group groups lastSeq hphase =>
      rw [hphase] at hmeets
      cases hstep
      intro key event hevent hpassed
      have hbefore : event.seq ≤ s.passed := by
        rw [System.passed, hphase]
        exact hpassed
      rcases hcovered key event hevent hbefore with hincluded | hleft | hfetched
      · exact Or.inl hincluded
      · rw [hphase] at hleft
        rcases List.mem_cons.mp hleft with rfl | hrest
        · exact Or.inl (hmeets event hevent hbefore)
        · exact Or.inr (Or.inl hrest)
      · rw [hphase] at hfetched
        cases hfetched
  · cases hstep

/-- The row of the written group includes what had been fetched, the other rows
what they did. -/
theorem included_wrote (hsound : Sound s)
    (hphase : s.phase = .writing group projection count groups lastSeq) (table : ReadModel ℕ)
    (key : String) {seq : ℕ} (hseq : seq ≤ s.included key ∨ key = group.key ∧ seq ≤ count) :
    seq ≤ (s.wrote group projection count table).included key := by
  obtain ⟨-, hincluded, -, hsome⟩ := hsound.fetched _ _ _ _ _ hphase
  change seq ≤ (if projection.isSome then Function.update s.included group.key count
    else s.included) key
  by_cases hkey : key = group.key
  · subst hkey
    have hle : seq ≤ count := by
      rcases hseq with hold | ⟨-, hfetched⟩
      · exact hold.trans hincluded
      · exact hfetched
    rcases hsome with hsome | hzero
    · rw [if_pos hsome, Function.update_self]
      exact hle
    · rw [hzero] at hle
      exact hle.trans (Nat.zero_le _)
  · have hold : seq ≤ s.included key := hseq.resolve_right fun h => hkey h.1
    split
    · rw [Function.update_of_ne hkey]
      exact hold
    · exact hold

/-- What was covered while the group was being written. -/
theorem Covered.of_writing (hcovered : Covered s)
    (hphase : s.phase = .writing group projection count groups lastSeq) {key : String}
    {event : SettlementEvent ℕ} (hevent : event ∈ s.database.log key)
    (hpassed : event.seq ≤ s.passed) :
    (event.seq ≤ s.included key ∨ key = group.key ∧ event.seq ≤ count) ∨
      key ∈ groups.map EventGroup.key := by
  rcases hcovered key event hevent hpassed with hincluded | hleft | hfetched
  · exact Or.inl (Or.inl hincluded)
  · rw [hphase] at hleft
    exact Or.inr hleft
  · rw [hphase] at hfetched
    exact Or.inl (Or.inr hfetched)

theorem Covered.write (hsound : Sound s) (hcovered : Covered s)
    (hmeets : LeavesNothingBehind s (.write outcome))
    (hstep : step batchSize s (.write outcome) = some s') : Covered s' := by
  cases hphase : s.phase with
  | idle | fetching groups lastSeq => rw [ProjectionWorker.step, hphase] at hstep; cases hstep
  | writing group projection count groups lastSeq =>
      have hbefore : s.passed = max s.checkpoint (max s.currentOffset lastSeq) := by
        rw [System.passed, hphase]
        rfl
      rw [LeavesNothingBehind, hphase] at hmeets
      change s.WriteLeavesNothing group projection groups outcome at hmeets
      rw [System.WriteLeavesNothing] at hmeets
      rcases step_write hphase hstep with ⟨table, hwritten, rfl, rfl⟩ |
        ⟨table, hwritten, rfl, rfl⟩ | ⟨hfails, rfl⟩
      · -- the mark moves up to the maximum of the group
        rw [if_neg (by simp [hwritten])] at hmeets
        intro key event hevent hpassed
        change event.seq ≤ max s.checkpoint (max s.currentOffset (max lastSeq group.maxSeq))
          at hpassed
        by_cases hold : event.seq ≤ s.passed
        · rcases hcovered.of_writing hphase hevent hold with hrow | hleft
          · exact Or.inl (included_wrote hsound hphase table key hrow)
          · exact Or.inr (Or.inl hleft)
        · have hmax : event.seq ≤ group.maxSeq := by omega
          by_cases hkey : key = group.key
          · have hcount := (hsound.fetched _ _ _ _ _ hphase).1
            exact Or.inl (included_wrote hsound hphase table key
              (Or.inr ⟨hkey, hmax.trans hcount⟩))
          · by_cases hleft : key ∈ groups.map EventGroup.key
            · exact Or.inr (Or.inl hleft)
            · exact Or.inl (included_wrote hsound hphase table key
                (Or.inl (hmeets rfl key hkey hleft event hevent hmax)))
      · intro key event hevent hpassed
        have hold : event.seq ≤ s.passed := by rw [hbefore]; exact hpassed
        rcases hcovered.of_writing hphase hevent hold with hrow | hleft
        · exact Or.inl (included_wrote hsound hphase table key hrow)
        · exact Or.inr (Or.inl hleft)
      · rw [if_pos hfails] at hmeets
        intro key event hevent hpassed
        have hold : event.seq ≤ s.passed := by rw [hbefore]; exact hpassed
        rcases hcovered.of_writing hphase hevent hold with (hrow | ⟨rfl, -⟩) | hleft
        · exact Or.inl hrow
        · exact Or.inl (hmeets event hevent hold)
        · exact Or.inr (Or.inl hleft)

theorem Covered.updateCheckpoint (hcovered : Covered s)
    (hstep : step batchSize s (.updateCheckpoint outcome) = some s') : Covered s' := by
  obtain ⟨lastSeq, checkpoint, currentOffset, hphase, hcheckpoint, hoffset, rfl⟩ :=
    step_updateCheckpoint hstep
  intro key event hevent hpassed
  have hbefore : event.seq ≤ s.passed := by
    rw [System.passed, hphase]
    change event.seq ≤ max checkpoint (max currentOffset 0) at hpassed
    change event.seq ≤ max s.checkpoint (max s.currentOffset lastSeq)
    omega
  rcases hcovered key event hevent hbefore with hincluded | hleft | hfetched
  · exact Or.inl hincluded
  · rw [hphase] at hleft
    cases hleft
  · rw [hphase] at hfetched
    cases hfetched

theorem Covered.restart (hcovered : Covered s) (hmeets : LeavesNothingBehind s .restart)
    (hstep : step batchSize s .restart = some s') : Covered s' := by
  cases hstep
  intro key event hevent hpassed
  have hcheckpoint : event.seq ≤ s.checkpoint := by
    simpa [System.passed, Phase.lastSeq] using hpassed
  have hbefore : event.seq ≤ s.passed := hcheckpoint.trans (le_max_left _ _)
  rw [LeavesNothingBehind] at hmeets
  left
  rcases hcovered key event hevent hbefore with hincluded | hleft | hfetched
  · exact hincluded
  · cases hphase : s.phase with
    | idle =>
        rw [hphase] at hleft
        cases hleft
    | fetching groups lastSeq =>
        rw [hphase] at hmeets hleft
        exact hmeets key hleft event hevent hcheckpoint
    | writing group projection count groups lastSeq =>
        rw [hphase] at hmeets hleft
        exact hmeets key (List.mem_cons_of_mem _ hleft) event hevent hcheckpoint
  · cases hphase : s.phase with
    | idle | fetching groups lastSeq =>
        rw [hphase] at hfetched
        cases hfetched
    | writing group projection count groups lastSeq =>
        rw [hphase] at hmeets hfetched
        obtain ⟨rfl, -⟩ := hfetched
        exact hmeets _ List.mem_cons_self event hevent hcheckpoint

theorem Covered.step (hsound : Sound s) (hcovered : Covered s)
    (hmeets : LeavesNothingBehind s action) (hstep : step batchSize s action = some s') :
    Covered s' := by
  cases action with
  | append operation now => exact hcovered.append hsound hmeets hstep
  | read order => exact hcovered.read hstep
  | readFails =>
      rw [ProjectionWorker.step] at hstep
      split at hstep
      · cases hstep
        exact hcovered
      · cases hstep
  | fetch => exact hcovered.fetch hsound hstep
  | fetchFails => exact hcovered.fetchFails hmeets hstep
  | write outcome => exact hcovered.write hsound hmeets hstep
  | updateCheckpoint outcome => exact hcovered.updateCheckpoint hstep
  | restart => exact hcovered.restart hmeets hstep

end Steps

structure Tracked (s : System) : Prop where
  sound : Sound s
  covered : Covered s

theorem tracked_of_reaches {batchSize : ℕ} {s : System} {meets : System → Action → Prop}
    (hleaves : ∀ state action, meets state action → LeavesNothingBehind state action)
    (hreach : Reaches (step batchSize) meets .init s) : Tracked s := by
  apply hreach.preserves
  · intro before action after htracked hmeets hstep
    exact
      { sound := htracked.sound.step hstep
        covered := htracked.covered.step htracked.sound (hleaves before action hmeets) hstep }
  · exact ⟨Sound.init, Covered.init⟩

/-- Between two batches every event up to the mark is in its row. -/
theorem Covered.includes {s : System} (hcovered : Covered s) (hidle : s.phase = .idle)
    (key : String) : s.Includes key s.passed := by
  intro event hevent hpassed
  rcases hcovered key event hevent hpassed with hincluded | hleft | hfetched
  · exact hincluded
  · rw [hidle] at hleft
    cases hleft
  · rw [hidle] at hfetched
    cases hfetched

/-- While no step leaves an event behind, the checkpoint passes none, with
queries failing anywhere and the worker restarting at any time. -/
theorem checkpointNeverPasses_leavesNothingBehind (batchSize : ℕ) :
    CheckpointNeverPasses batchSize LeavesNothingBehind := by
  intro s hreach hidle
  obtain ⟨-, hcovered⟩ := tracked_of_reaches (fun _ _ hmeets => hmeets) hreach
  have hbehind : ∀ key, ∀ event ∈ s.database.log key,
      s.included key < event.seq → s.checkpoint < event.seq := by
    intro key event hevent hmissing
    by_contra hnot
    have hpassed : event.seq ≤ s.passed := (Nat.le_of_not_lt hnot).trans (le_max_left _ _)
    exact absurd (hcovered.includes hidle key event hevent hpassed) (Nat.not_le.mpr hmissing)
  exact
    { behind := hbehind
      readAgain := fun key event hevent hmissing =>
        mem_eventsAfter.mpr ⟨hbehind key event hevent hmissing, event, hevent, rfl⟩ }

def saveOf (key : String) : AppendOperation :=
  .save { idempotencyKey := key, network := some "stellar:testnet", keyId := some "alice" }

def failedFetch : List Action :=
  [.append (saveOf "order-1") 0, .append (saveOf "order-2") 0,
    .read [("order-1", 1), ("order-2", 1)], .fetchFails, .fetch, .write .succeeds,
    .updateCheckpoint .succeeds]

/-- The checkpoint passes the key whose query failed. -/
theorem not_checkpointNeverPasses_anyStep :
    ¬ ∀ batchSize, CheckpointNeverPasses batchSize anyStep := by
  intro hnever
  have hrun : (run (step 100) .init failedFetch).map
      (fun s => (s.phase.isIdle, s.checkpoint, s.included "order-1",
        (s.database.log "order-1").map SettlementEvent.seq)) =
      some (true, 1, 0, [1]) := by
    decide +kernel
  obtain ⟨s, hreach, hobserved⟩ := exists_reaches_of_run hrun
  simp only [Prod.mk.injEq] at hobserved
  obtain ⟨hidle, hcheckpoint, hincluded, hseqs⟩ := hobserved
  have hmem : 1 ∈ (s.database.log "order-1").map SettlementEvent.seq := by
    rw [hseqs]
    exact List.mem_singleton_self 1
  obtain ⟨event, hevent, hseq⟩ := List.mem_map.mp hmem
  have hbehind := (hnever 100 s hreach (Phase.eq_idle_of_isIdle hidle)).behind "order-1" event
    hevent (by omega)
  omega

end X402Facilitator.ProjectionWorker
