import Mathlib.Data.List.Nodup
import X402Facilitator.Dlq.Redelivery

/-!
# Resolved and discarded rows

As long as a row is resolved or discarded while no other redelivery has it in
hand, it stays so and no publication of it begins any more.  Neither a replay nor a
discard takes a claim, and every mark is an update by id.
-/

namespace X402Facilitator.Dlq

open Execution

variable {Payload : Type*}

section Statement

/-- The rows that the task has fetched and still to mark. -/
def Task.inHand : Task Payload → List ℕ
  | .waiting _ rows => rows.map Fetched.id
  | .publishing _ row rest | .markingResolved _ false row rest
  | .markingFailed _ false _ row rest => (row :: rest).map Fetched.id
  | .markingResolved _ true _ rest | .markingFailed _ true _ _ rest => rest.map Fetched.id
  | _ => []

/-- A row is resolved or discarded while no other task has it in hand; only rows
that are not resolved are discarded; a failure that the manager records is not the
last one unless by its own count; and a resolved row is reported as such. -/
def Exclusive (options : Options) (s : System Payload) : Action Payload → Prop
  | .execute task =>
      match s.tasks task with
      | .markingResolved _ false row _ => ∀ other, other ≠ task → row.id ∉ (s.tasks other).inHand
      | .markingFailed .manager false _ row _ =>
          ∀ found ∈ s.rows[row.id]?, options.retry.maxDlqAttempts ≤ found.dlqAttempts + 1 →
            RetryOptions.default.maxDlqAttempts ≤ found.dlqAttempts + 1
      | .discarding false id => (∀ other, id ∉ (s.tasks other).inHand) ∧
          ∀ found ∈ s.rows[id]?, found.status ≠ .resolved
      | _ => True
  | .reject task _ =>
      match s.tasks task with
      | .markingResolved _ true _ _ => False
      | _ => True
  | _ => True

/-- Between a state and a later one: terminal rows keep their status, no
publication began on one, attempts grow and are the recorded failures, and a row
that has as many as configured is not retried. -/
structure Permanent (options : Options) (s s' : System Payload) : Prop where
  terminal : ∀ (id : ℕ) (row : Row Payload), s.rows[id]? = some row →
    row.status.terminal = true → s'.rows[id]?.map Row.status = some row.status
  begun : ∀ entry ∈ s'.begun, entry.2 = some .pending ∨ entry.2 = some .exhausted
  grows : ∀ (id : ℕ) (row : Row Payload), s.rows[id]? = some row →
    ∃ row' : Row Payload, s'.rows[id]? = some row' ∧ row.dlqAttempts ≤ row'.dlqAttempts
  exhausted : ∀ (id : ℕ) (row : Row Payload), s'.rows[id]? = some row →
    row.dlqAttempts = s'.failures.count id ∧
      (row.dlqAttempts ≠ 0 → options.retry.maxDlqAttempts ≤ row.dlqAttempts →
        row.status ≠ .pending)

end Statement

variable {options : Options} {s s' : System Payload} {id task : ℕ} {action : Action Payload}

def System.Open (s : System Payload) (id : ℕ) : Prop :=
  ∃ row, s.rows[id]? = some row ∧ row.status.terminal = false

structure Sound (options : Options) (s : System Payload) : Prop where
  nodup : ∀ task, (s.tasks task).inHand.Nodup
  inHand : ∀ task, ∀ id ∈ (s.tasks task).inHand, s.Open id
  begun : ∀ entry ∈ s.begun, entry.2 = some .pending ∨ entry.2 = some .exhausted
  counted : ∀ (id : ℕ) (row : Row Payload), s.rows[id]? = some row →
    row.dlqAttempts = s.failures.count id
  bounded : ∀ (id : ℕ) (row : Row Payload), s.rows[id]? = some row → row.status = .pending →
    row.dlqAttempts = 0 ∨ row.dlqAttempts < options.retry.maxDlqAttempts
  present : ∀ id ∈ s.failures, id < s.rows.length

theorem sound_init : Sound options (System.init : System Payload) where
  nodup := fun _ => List.nodup_nil
  inHand := fun _ id hid => by cases hid
  begun := fun entry hentry => by cases hentry
  counted := fun id row hrow => by cases hrow
  bounded := fun id row hrow => by cases hrow
  present := fun id hid => by cases hid

variable {state : Task Payload} {path : Path} {rest : List (Fetched Payload)}
  {row : Fetched Payload} {ids : List ℕ}

/-- One task has changed its state. -/
theorem tasks_cases (holds : Task Payload → Prop) {other : ℕ}
    (htasks : s'.tasks = Function.update s.tasks task state) (hholds : holds (s'.tasks other)) :
    (other = task ∧ holds state) ∨ (other ≠ task ∧ holds (s.tasks other)) := by
  rw [htasks] at hholds
  rcases update_cases (rfl : Function.update s.tasks task state other = _) with
    ⟨hsame, hstate⟩ | ⟨hne, hother⟩
  · exact Or.inl ⟨hsame, hstate ▸ hholds⟩
  · exact Or.inr ⟨hne, hother ▸ hholds⟩

theorem Sound.nodup_update (hs : Sound options s)
    (htasks : s'.tasks = Function.update s.tasks task state) (hstate : state.inHand.Nodup)
    (other : ℕ) : (s'.tasks other).inHand.Nodup := by
  rw [htasks]
  by_cases hother : other = task
  · rw [hother, Function.update_self]
    exact hstate
  · rw [Function.update_of_ne hother]
    exact hs.nodup other

/-- A task that takes up no row, while the rows stay. -/
theorem Sound.moveOn (hs : Sound options s) (hrows : s'.rows = s.rows)
    (hfailures : s'.failures = s.failures)
    (hbegun : ∀ entry ∈ s'.begun, entry.2 = some .pending ∨ entry.2 = some .exhausted)
    (htasks : s'.tasks = Function.update s.tasks task state) (hnodup : state.inHand.Nodup)
    (hopen : ∀ id ∈ state.inHand, s.Open id) : Sound options s' where
  nodup := hs.nodup_update htasks hnodup
  inHand := by
    intro other id hid
    have hbefore : s.Open id := by
      rcases tasks_cases (fun state => id ∈ state.inHand) htasks hid with
        ⟨-, hnew⟩ | ⟨-, hold⟩
      · exact hopen id hnew
      · exact hs.inHand other id hold
    rw [System.Open, hrows]
    exact hbefore
  begun := hbegun
  counted := by
    rw [hrows, hfailures]
    exact hs.counted
  bounded := by
    rw [hrows]
    exact hs.bounded
  present := by
    rw [hrows, hfailures]
    exact hs.present

/-- A task that takes up no row beside those that it has in hand. -/
theorem Sound.keepHand (hs : Sound options s) (hhand : state.inHand.Sublist (s.tasks task).inHand) :
    Sound options (s.setTask task state) :=
  hs.moveOn rfl rfl hs.begun rfl (hhand.nodup (hs.nodup task))
    fun id hid => hs.inHand task id (hhand.subset hid)

/-- One row is marked or discarded by a task that has no more rows in hand than
before. -/
theorem Sound.marked (hs : Sound options s) (change : Row Payload → Row Payload)
    (hrows : s'.rows = s.rows.modify id change) (hbegun : s'.begun = s.begun)
    (htasks : s'.tasks = Function.update s.tasks task state) (hnodup : state.inHand.Nodup)
    (hsub : ∀ other ∈ state.inHand, s.Open other)
    (hopen : ∀ row, s.rows[id]? = some row → (∃ other, id ∈ (s'.tasks other).inHand) →
      (change row).status.terminal = false) (hcounted : ∀ row, s.rows[id]? = some row →
      (change row).dlqAttempts = s'.failures.count id)
    (hothers : ∀ other, other ≠ id → s'.failures.count other = s.failures.count other)
    (hbounded : ∀ row, s.rows[id]? = some row → (change row).status = .pending →
      (change row).dlqAttempts = 0 ∨ (change row).dlqAttempts < options.retry.maxDlqAttempts)
    (hpresent : ∀ other ∈ s'.failures, other < s.rows.length) : Sound options s' where
  nodup := hs.nodup_update htasks hnodup
  inHand := by
    intro other found hfound
    have hbefore : s.Open found := by
      rcases tasks_cases (fun state => found ∈ state.inHand) htasks hfound with
        ⟨-, hnew⟩ | ⟨-, hold⟩
      · exact hsub found hnew
      · exact hs.inHand other found hold
    obtain ⟨row, hrow, hstatus⟩ := hbefore
    by_cases hid : id = found
    · subst hid
      refine ⟨change row, ?_, hopen row hrow ⟨other, hfound⟩⟩
      rw [hrows, Table.getElem?_modify_self, hrow]
      rfl
    · refine ⟨row, ?_, hstatus⟩
      rw [hrows, Table.getElem?_modify_of_ne hid]
      exact hrow
  begun := by
    rw [hbegun]
    exact hs.begun
  counted := by
    intro found row hrow
    rw [hrows] at hrow
    rcases Table.getElem?_modify_cases hrow with ⟨rfl, before, hbefore, rfl⟩ | ⟨hother, hold⟩
    · exact hcounted before hbefore
    · rw [hothers found hother]
      exact hs.counted found row hold
  bounded := by
    intro found row hrow hpending
    rw [hrows] at hrow
    rcases Table.getElem?_modify_cases hrow with ⟨rfl, before, hbefore, rfl⟩ | ⟨-, hold⟩
    · exact hbounded before hbefore hpending
    · exact hs.bounded found row hold hpending
  present := by
    rw [hrows, List.length_modify]
    exact hpresent

theorem Sound.markResolved (hs : Sound options s)
    (htask : s.tasks task = .markingResolved path false row rest)
    (halone : ∀ other, other ≠ task → row.id ∉ (s.tasks other).inHand) :
    Sound options { s.setTask task (.markingResolved path true row rest) with
      rows := markResolved s.rows row.id } := by
  have hnodup := hs.nodup task
  have hhand := hs.inHand task
  rw [htask, Task.inHand, List.map_cons] at hnodup hhand
  rw [List.nodup_cons] at hnodup
  refine hs.marked Row.markResolved rfl rfl rfl hnodup.2
    (fun other hother => hhand other (List.mem_cons_of_mem _ hother)) ?_
    (fun found hfound => hs.counted row.id found hfound) (fun _ _ => rfl) ?_ hs.present
  · rintro found hfound ⟨other, hother⟩
    rcases tasks_cases (fun state => row.id ∈ state.inHand) rfl hother with
      ⟨-, hnew⟩ | ⟨hne, hold⟩
    · exact absurd hnew hnodup.1
    · exact absurd hold (halone other hne)
  · intro found hfound hpending
    cases hpending

theorem status_markRetryFailed (retry : RetryOptions) (error : String) (now : ℕ)
    (row : Row Payload) : (row.markRetryFailed retry error now).status.terminal = false := by
  rw [Row.markRetryFailed]
  split <;> rfl

theorem Sound.markFailed (hs : Sound options s) {error : String}
    (htask : s.tasks task = .markingFailed path false error row rest)
    (hmanager : path = .manager → ∀ found ∈ s.rows[row.id]?,
      options.retry.maxDlqAttempts ≤ found.dlqAttempts + 1 →
        RetryOptions.default.maxDlqAttempts ≤ found.dlqAttempts + 1) :
    Sound options { s.setTask task (.markingFailed path true error row rest) with
      rows := markRetryFailed s.rows row.id error (path.retry options) s.now
      failures := s.failures ++ [row.id] } := by
  have hnodup := hs.nodup task
  have hhand := hs.inHand task
  rw [htask, Task.inHand, List.map_cons] at hnodup hhand
  rw [List.nodup_cons] at hnodup
  obtain ⟨found, hfound, -⟩ := hhand row.id List.mem_cons_self
  refine hs.marked (Row.markRetryFailed (path.retry options) error s.now) rfl rfl rfl
    hnodup.2 (fun other hother => hhand other (List.mem_cons_of_mem _ hother))
    (fun before _ _ => status_markRetryFailed _ _ _ before) ?_ ?_ ?_ ?_
  · intro before hbefore
    rw [List.count_append, List.count_singleton_self]
    exact congrArg (· + 1) (hs.counted row.id before hbefore)
  · intro other hother
    rw [List.count_append, List.count_singleton]
    simp [Ne.symm hother]
  · intro before hbefore hpending
    right
    have hleft : ¬ (path.retry options).maxDlqAttempts ≤ before.dlqAttempts + 1 := by
      intro hmax
      rw [Row.markRetryFailed, if_pos hmax] at hpending
      cases hpending
    change before.dlqAttempts + 1 < options.retry.maxDlqAttempts
    cases path with
    | worker => exact Nat.lt_of_not_le hleft
    | route => exact Nat.lt_of_not_le hleft
    | manager =>
        refine Nat.lt_of_not_le fun hmax => hleft ?_
        exact hmanager rfl before hbefore hmax
  · intro other hother
    rcases List.mem_append.mp hother with hold | hnew
    · exact hs.present other hold
    · rw [List.mem_singleton.mp hnew]
      exact (List.getElem?_eq_some_iff.mp hfound).1

theorem Sound.discard (hs : Sound options s) (hfree : ∀ other, id ∉ (s.tasks other).inHand) :
    Sound options { s.setTask task (.discarding true id) with
      rows := Dlq.discard s.rows id } := by
  refine hs.marked Row.discard rfl rfl rfl List.nodup_nil
    (fun other hother => by cases hother) ?_ (fun found hfound => hs.counted id found hfound)
    (fun _ _ => rfl) ?_ hs.present
  · rintro found hfound ⟨other, hother⟩
    rcases tasks_cases (fun state => id ∈ state.inHand) rfl hother with ⟨-, hnew⟩ | ⟨-, hold⟩
    · cases hnew
    · exact absurd hold (hfree other)
  · intro found hfound hpending
    cases hpending

theorem open_of_due (hbatch : Batch options s.rows s.now ids) (hid : id ∈ ids) : s.Open id := by
  obtain ⟨row, hrow, hpending, -⟩ := hbatch.2.2 id hid
  refine ⟨row, hrow, ?_⟩
  rw [hpending]
  rfl

theorem ids_filterMap_fetch (rows : List (Row Payload)) (ids : List ℕ) :
    ((ids.filterMap (fetch rows)).map Fetched.id).Sublist ids := by
  induction ids with
  | nil => exact List.Sublist.refl _
  | cons id ids ih =>
      cases hrow : rows[id]? with
      | none =>
          rw [List.filterMap_cons_none (by rw [fetch, hrow]; rfl)]
          exact ih.cons id
      | some row =>
          rw [List.filterMap_cons_some (by rw [fetch, hrow]; rfl)]
          exact ih.cons_cons id

theorem Sound.claimed (hs : Sound options s) (hbatch : Batch options s.rows s.now ids)
    (answered : Bool) : Sound options { s.setTask task
        (if answered then .waiting .worker (claimDue s.rows s.now ids).1
          else .finished .polled) with
      rows := (claimDue s.rows s.now ids).2 } := by
  set state : Task Payload := if answered then .waiting .worker (claimDue s.rows s.now ids).1
    else .finished .polled with hstate
  have hhand : state.inHand.Sublist ids := by
    rw [hstate]
    cases answered with
    | true => exact ids_filterMap_fetch s.rows ids
    | false => exact List.nil_sublist ids
  have hrow : ∀ found : ℕ, (claimDue s.rows s.now ids).2[found]? =
      s.rows[found]?.map fun row => if found ∈ ids then row.claim s.now else row := by
    intro found
    rw [claimDue, Table.getElem?_updateWhere]
    split
    · rfl
    · rw [Option.map_id']
  have hkept : ∀ (found : ℕ) (row : Row Payload), (claimDue s.rows s.now ids).2[found]? = some row →
      ∃ before, s.rows[found]? = some before ∧ row.status = before.status ∧
        row.dlqAttempts = before.dlqAttempts := by
    intro found row hfound
    rw [hrow] at hfound
    obtain ⟨before, hbefore, rfl⟩ := Option.map_eq_some_iff.mp hfound
    refine ⟨before, hbefore, ?_⟩
    split <;> exact ⟨rfl, rfl⟩
  constructor
  · exact hs.nodup_update rfl (hhand.nodup hbatch.1)
  · intro other found hfound
    have hbefore : s.Open found := by
      rcases tasks_cases (fun state => found ∈ state.inHand) rfl hfound with ⟨-, hnew⟩ | ⟨-, hold⟩
      · exact open_of_due hbatch (hhand.subset hnew)
      · exact hs.inHand other found hold
    obtain ⟨row, hbefore, hstatus⟩ := hbefore
    refine ⟨if found ∈ ids then row.claim s.now else row, ?_, ?_⟩
    · change (claimDue s.rows s.now ids).2[found]? = _
      rw [hrow, hbefore]
      rfl
    · split <;> exact hstatus
  · exact hs.begun
  · intro found row hfound
    obtain ⟨before, hbefore, -, hattempts⟩ := hkept found row hfound
    rw [hattempts]
    exact hs.counted found before hbefore
  · intro found row hfound hpending
    obtain ⟨before, hbefore, hstatus, hattempts⟩ := hkept found row hfound
    rw [hattempts]
    exact hs.bounded found before hbefore (hstatus ▸ hpending)
  · intro found hfound
    change found < (claimDue s.rows s.now ids).2.length
    rw [claimDue, Table.updateWhere, List.length_mapIdx]
    exact hs.present found hfound

theorem Sound.insert (hs : Sound options s) (row : Row Payload) (hstatus : row.status = .pending)
    (hattempts : row.dlqAttempts = 0) :
    Sound options { s with rows := s.rows ++ [row] } where
  nodup := hs.nodup
  inHand := by
    intro other found hfound
    obtain ⟨before, hbefore, hopen⟩ := hs.inHand other found hfound
    exact ⟨before, Table.getElem?_concat_of_some row hbefore, hopen⟩
  begun := hs.begun
  counted := by
    intro found after hfound
    rcases Table.getElem?_concat_cases hfound with hold | ⟨hid, rfl⟩
    · exact hs.counted found after hold
    · have hnew : found ∉ s.failures := by
        intro hmem
        rw [hid] at hmem
        exact Nat.lt_irrefl _ (hs.present _ hmem)
      rw [hattempts]
      exact (List.count_eq_zero.mpr hnew).symm
  bounded := by
    intro found after hfound hpending
    rcases Table.getElem?_concat_cases hfound with hold | ⟨-, rfl⟩
    · exact hs.bounded found after hold hpending
    · exact Or.inl hattempts
  present := by
    intro found hfound
    rw [List.length_append]
    exact Nat.lt_add_right 1 (hs.present found hfound)

theorem Sound.replay (hs : Sound options s) (path : Path) (id : ℕ) :
    Sound options (s.setTask task (.replay path (fetch s.rows id))) := by
  refine hs.moveOn rfl rfl hs.begun rfl ?_ ?_
  · unfold Task.replay
    split
    · exact List.nodup_nil
    · split
      · exact List.nodup_nil
      · exact List.nodup_singleton _
  · intro found hfound
    unfold Task.replay at hfound
    split at hfound
    · cases hfound
    · next fetched hfetched =>
        split at hfound
        · cases hfound
        · next hstatus =>
            obtain ⟨row, hrow, rfl⟩ := Option.map_eq_some_iff.mp hfetched
            obtain rfl : found = id := List.mem_singleton.mp hfound
            refine ⟨row, hrow, ?_⟩
            change refusal row.status = none at hstatus
            cases hrowStatus : row.status <;> rw [hrowStatus] at hstatus <;>
              first | rfl | cases hstatus

/-- A publication begins on a row in hand, which is open. -/
theorem Sound.begin (hs : Sound options s) (htask : s.tasks task = .waiting path (row :: rest)) :
    Sound options { s.setTask task (.publishing path row rest) with
      begun := s.begun ++ [(row.id, s.rows[row.id]?.map Row.status)] } := by
  have hnodup := hs.nodup task
  have hhand := hs.inHand task
  rw [htask] at hnodup hhand
  refine hs.moveOn rfl rfl ?_ rfl hnodup hhand
  intro entry hentry
  rcases List.mem_append.mp hentry with hold | hnew
  · exact hs.begun entry hold
  · obtain ⟨found, hfound, hstatus⟩ := hhand row.id List.mem_cons_self
    rw [List.mem_singleton.mp hnew, hfound, Option.map_some]
    cases hfoundStatus : found.status <;> rw [hfoundStatus] at hstatus <;>
      first | exact Or.inl rfl | exact Or.inr rfl | cases hstatus

theorem sound_step (hs : Sound options s) (hmeets : Exclusive options s action)
    (hstep : step options s action = some s') : Sound options s' := by
  cases steps_of_step hstep with
  | insert messageId source type payload error deliveryAttempts => exact hs.insert _ rfl rfl
  | wait millis => exact ⟨hs.nodup, hs.inHand, hs.begun, hs.counted, hs.bounded, hs.present⟩
  | poll task ids answered htask hbatch => exact hs.claimed hbatch answered
  | replay task path id => exact hs.replay path id
  | discard task id =>
      apply hs.keepHand
      cases fetch s.rows id <;> exact List.nil_sublist _
  | polled task => exact hs.keepHand (List.nil_sublist _)
  | begin task path row rest htask => exact hs.begin htask
  | publishResolves task path row rest htask | publishRejects task error path row rest htask =>
      apply hs.keepHand
      rw [htask]
      exact List.Sublist.refl _
  | markResolved task path row rest htask =>
      rw [Exclusive, htask] at hmeets
      exact hs.markResolved htask hmeets
  | markFailed task path error row rest htask =>
      rw [Exclusive, htask] at hmeets
      refine hs.markFailed htask ?_
      rintro rfl
      exact hmeets
  | markDiscarded task id htask =>
      rw [Exclusive, htask] at hmeets
      exact hs.discard hmeets.1
  | afterResolved task path row rest htask | afterFailed task path error row rest htask =>
      apply hs.keepHand
      rw [htask]
      cases path with
      | worker => exact List.Sublist.refl _
      | route => exact List.nil_sublist _
      | manager => exact List.nil_sublist _
  | afterDiscarded task => exact hs.keepHand (List.nil_sublist _)
  | rejectResolved task error path executed row rest htask =>
      rw [Exclusive, htask] at hmeets
      cases executed with
      | false =>
          apply hs.keepHand
          rw [htask]
          exact List.Sublist.refl _
      | true => exact hmeets.elim
  | rejectFailed task | rejectDiscarded task | crash task => exact hs.keepHand (List.nil_sublist _)

def Keeps (row row' : Row Payload) : Prop :=
  row.dlqAttempts ≤ row'.dlqAttempts ∧
    (row.status.terminal = true → row'.status = row.status)

theorem Keeps.refl (row : Row Payload) : Keeps row row := ⟨Nat.le_refl _, fun _ => rfl⟩

theorem Keeps.trans {first second third : Row Payload} (hfirst : Keeps first second)
    (hsecond : Keeps second third) : Keeps first third := by
  refine ⟨Nat.le_trans hfirst.1 hsecond.1, fun hterminal => ?_⟩
  have hsame := hfirst.2 hterminal
  rw [← hsame] at hterminal
  exact (hsecond.2 hterminal).trans hsame

/-- A row that is in hand may take any status, since it is open. -/
theorem Sound.keeps_modify (hs : Sound options s) (change : Row Payload → Row Payload) {marked : ℕ}
    (hhand : marked ∈ (s.tasks task).inHand)
    (hgrows : ∀ row : Row Payload, row.dlqAttempts ≤ (change row).dlqAttempts) {row : Row Payload}
    (hrow : s.rows[id]? = some row) :
    ∃ row', (s.rows.modify marked change)[id]? = some row' ∧ Keeps row row' := by
  by_cases hid : marked = id
  · subst hid
    obtain ⟨found, hfound, hopen⟩ := hs.inHand task marked hhand
    cases hrow.symm.trans hfound
    refine ⟨change row, ?_, hgrows row, fun hterminal => ?_⟩
    · rw [Table.getElem?_modify_self, hrow]
      rfl
    · cases hopen.symm.trans hterminal
  · refine ⟨row, ?_, .refl row⟩
    rw [Table.getElem?_modify_of_ne hid]
    exact hrow

/-- A row that is discarded had not been resolved. -/
theorem keeps_discard {discarded : ℕ} {row : Row Payload}
    (hrow : s.rows[id]? = some row)
    (hopen : ∀ found ∈ s.rows[discarded]?, found.status ≠ .resolved) :
    ∃ row', (Dlq.discard s.rows discarded)[id]? = some row' ∧ Keeps row row' := by
  by_cases hid : discarded = id
  · subst hid
    refine ⟨row.discard, ?_, Nat.le_refl _, fun hterminal => ?_⟩
    · change (s.rows.modify discarded Row.discard)[discarded]? = _
      rw [Table.getElem?_modify_self, hrow]
      rfl
    · have hnot := hopen row hrow
      cases hstatus : row.status <;> rw [hstatus] at hterminal hnot
      · cases hterminal
      · cases hterminal
      · exact absurd rfl hnot
      · rfl
  · refine ⟨row, ?_, .refl row⟩
    change (s.rows.modify discarded Row.discard)[id]? = _
    rw [Table.getElem?_modify_of_ne hid]
    exact hrow

/-- Only claims, insertions and executed statements touch the rows. -/
theorem keeps_step (hs : Sound options s) (hmeets : Exclusive options s action)
    (hstep : step options s action = some s') {row : Row Payload}
    (hrow : s.rows[id]? = some row) : ∃ row', s'.rows[id]? = some row' ∧ Keeps row row' := by
  cases steps_of_step hstep with
  | insert messageId source type payload error deliveryAttempts =>
      exact ⟨row, Table.getElem?_concat_of_some _ hrow, .refl row⟩
  | poll task ids answered htask hbatch =>
      change ∃ row', (Table.updateWhere (· ∈ ids) (Row.claim s.now) s.rows)[id]? = some row' ∧ _
      rw [Table.getElem?_updateWhere, hrow]
      split
      · exact ⟨row.claim s.now, rfl, Nat.le_refl _, fun _ => rfl⟩
      · exact ⟨row, rfl, .refl row⟩
  | markResolved task path marked rest htask =>
      have hhand : marked.id ∈ (s.tasks task).inHand := by
        rw [htask]
        exact List.mem_cons_self
      exact hs.keeps_modify Row.markResolved hhand (fun row => Nat.le_refl row.dlqAttempts) hrow
  | markFailed task path error marked rest htask =>
      have hhand : marked.id ∈ (s.tasks task).inHand := by
        rw [htask]
        exact List.mem_cons_self
      exact hs.keeps_modify _ hhand (fun row => Nat.le_succ row.dlqAttempts) hrow
  | markDiscarded task discarded htask =>
      rw [Exclusive, htask] at hmeets
      exact keeps_discard hrow hmeets.2
  | wait | replay | discard | polled | begin | publishResolves | publishRejects | afterResolved
  | afterFailed | afterDiscarded | rejectResolved | rejectFailed | rejectDiscarded | crash =>
      exact ⟨row, hrow, .refl row⟩

theorem sound_reached (hreach : Reaches (step options) (Exclusive options) .init s) :
    Sound options s :=
  hreach.preserves (fun _ _ _ hs hmeets hstep => sound_step hs hmeets hstep) sound_init

theorem keeps_reached (hs : Sound options s)
    (hreach : Reaches (step options) (Exclusive options) s s') :
    Sound options s' ∧ ∀ (id : ℕ) (row : Row Payload), s.rows[id]? = some row →
      ∃ row', s'.rows[id]? = some row' ∧ Keeps row row' := by
  induction hreach with
  | refl => exact ⟨hs, fun _ row hrow => ⟨row, hrow, .refl row⟩⟩
  | tail _ hlast ih =>
      obtain ⟨hsound, hkeeps⟩ := ih
      obtain ⟨action, hmeets, hnext⟩ := hlast
      refine ⟨sound_step hsound hmeets hnext, fun id row hrow => ?_⟩
      obtain ⟨middle, hmiddle, hfirst⟩ := hkeeps id row hrow
      obtain ⟨row', hrow', hsecond⟩ := keeps_step hsound hmeets hnext hmiddle
      exact ⟨row', hrow', hfirst.trans hsecond⟩

/-- Where redeliveries of a row that ends do not overlap, terminal states are
permanent along every run. -/
theorem exclusive_permanent (options : Options) {s s' : System Payload}
    (hfirst : Reaches (step options) (Exclusive options) .init s)
    (hlater : Reaches (step options) (Exclusive options) s s') : Permanent options s s' := by
  obtain ⟨hs', hkeeps⟩ := keeps_reached (sound_reached hfirst) hlater
  constructor
  · intro id row hrow hterminal
    obtain ⟨row', hrow', -, hsame⟩ := hkeeps id row hrow
    rw [hrow', Option.map_some, hsame hterminal]
  · exact hs'.begun
  · intro id row hrow
    obtain ⟨row', hrow', hgrows, -⟩ := hkeeps id row hrow
    exact ⟨row', hrow', hgrows⟩
  · intro id row hrow
    refine ⟨hs'.counted id row hrow, fun hsome hmax hpending => ?_⟩
    rcases hs'.bounded id row hrow hpending with hzero | hlt
    · exact hsome hzero
    · exact Nat.not_lt_of_le hmax hlt

def defaultOptions : Options := ⟨.default, 50, 60000⟩

def discarded : List (Action Unit) :=
  [.insert "message" "outbox" none () none 10, .poll 0 [0] true, .begin 0, .discard 1 0,
    .execute 1, .answer 1]

def redeliveryFails : List (Action Unit) := [.publishRejects 0 "no receiver", .execute 0]

/-- The failure of the redelivery takes the discarded row back. -/
theorem discarded_row_reverts :
    ¬ ∀ (options : Options) (s s' : System Unit), Reaches (step options) anyStep .init s →
      Reaches (step options) anyStep s s' → Permanent options s s' := by
  intro hpermanent
  have hdiscarded : (run (step defaultOptions) .init discarded).map
      (fun s => s.rows[0]?.map Row.status) = some (some .discarded) := by decide
  have hreverted : (run (step defaultOptions) .init (discarded ++ redeliveryFails)).map
      (fun s => s.rows[0]?.map Row.status) = some (some .pending) := by decide
  obtain ⟨s, s', hfirst, hlater, hbefore, hafter⟩ :=
    exists_reaches_of_run_append hdiscarded hreverted
  obtain ⟨row, hrow, hstatus⟩ := Option.map_eq_some_iff.mp hbefore
  have hstays := (hpermanent defaultOptions s s' hfirst hlater).terminal 0 row hrow
    (by rw [hstatus]; rfl)
  rw [hafter, hstatus] at hstays
  cases hstays

def discardIdle : List (Action Unit) :=
  [.insert "message" "outbox" none () none 10, .discard 0 0]

def openRow : Row Unit := ⟨"message", "outbox", none, (), none, 10, 0, .pending, 0, none⟩

def asked : System Unit :=
  ⟨[openRow], Function.update (fun _ => .notStarted) 0 (.discarding false 0), 0, [], []⟩

def gone : System Unit :=
  ⟨[openRow.discard], Function.update asked.tasks 0 (.discarding true 0), 0, [], []⟩

theorem exclusive_asked : Exclusive defaultOptions asked (.execute 0) := by
  have hfree : ∀ other, 0 ∉ (asked.tasks other).inHand := by
    intro other
    by_cases hother : other = 0
    · rw [hother]
      exact List.not_mem_nil
    · have hidle : asked.tasks other = .notStarted := by simp [asked, hother]
      rw [hidle]
      exact List.not_mem_nil
  have hunresolved : ∀ found ∈ asked.rows[0]?, found.status ≠ .resolved := by decide
  exact ⟨hfree, hunresolved⟩

/-- The row is discarded, and a later replay is refused. -/
theorem idle_discard_permanent :
    ∃ s s' : System Unit, Reaches (step defaultOptions) (Exclusive defaultOptions) .init s ∧
      Reaches (step defaultOptions) (Exclusive defaultOptions) s s' ∧
      s.rows.map Row.status = [.discarded] ∧ Permanent defaultOptions s s' := by
  have hrun : run (step defaultOptions) .init discardIdle = some asked := rfl
  have hmeets : ∀ action ∈ discardIdle, ∀ state, Exclusive defaultOptions state action := by
    simp [discardIdle, Exclusive]
  have hasked := reaches_of_run_of_forall hmeets hrun
  have hdiscarded : Reaches (step defaultOptions) (Exclusive defaultOptions) .init gone :=
    hasked.tail exclusive_asked rfl
  obtain ⟨s', hs'⟩ : ∃ s', step defaultOptions gone (.replay 1 .route 0) = some s' := ⟨_, rfl⟩
  have hmeetsReplay : Exclusive defaultOptions gone (.replay 1 .route 0) := trivial
  have hrefused : Reaches (step defaultOptions) (Exclusive defaultOptions) gone s' :=
    (Reaches.refl gone).tail hmeetsReplay hs'
  exact ⟨gone, s', hdiscarded, hrefused, rfl,
    exclusive_permanent defaultOptions hdiscarded hrefused⟩

end X402Facilitator.Dlq
