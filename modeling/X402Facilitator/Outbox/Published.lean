import X402Facilitator.Outbox.RowSteps

/-!
# Published rows stay published

As long as every mark is executed for the worker that claimed the row last, a
row whose `markPublished` was answered stays published, no row is lost, and
attempts are the recorded failures.  A worker whose lease ran out while it
published may take a published row back.
-/

namespace X402Facilitator.Outbox

open Execution

section Statement

def Stage.marks : Stage → Bool
  | .markingPublished _ | .markingFailed _ _ => true
  | _ => false

def Stage.marksPublished : Stage → Bool
  | .markingPublished _ => true
  | _ => false

/-- A mark is executed for the worker that claimed the row last, and no
`markPublished` is reported as failed. -/
def marksWithClaim (s : System) : Action → Bool
  | .execute tick =>
      match s.ticks tick with
      | .working row _ stage _ => !stage.marks || s.holder row.id == some tick
      | _ => true
  | .reject tick _ =>
      match s.ticks tick with
      | .working _ _ stage _ => !stage.marksPublished
      | _ => true
  | _ => true

def MarksWithClaim (s : System) (action : Action) : Prop := marksWithClaim s action = true

/-- Between a state and a later one: published rows stay published, rows stay,
claims run out, and attempts are the recorded failures of publications. -/
structure Durable (options : Options) (s s' : System) : Prop where
  published : ∀ id ∈ s.completed, ∃ row : Row, s'.rows[id]? = some row ∧ row.status = .published
  kept : ∀ (id : ℕ) (row : Row), s.rows[id]? = some row →
    ∃ row' : Row, s'.rows[id]? = some row' ∧
      row'.eventId = row.eventId ∧ row'.type = row.type ∧ row'.payload = row.payload
  claimed : ∀ row ∈ s'.rows, row.status = .claimed → ∃ since ≤ s'.now, ∀ now,
    since + options.leaseMs < now → row.Claimable options.leaseMs now
  attempts : ∀ (id : ℕ) (row : Row), s'.rows[id]? = some row →
    row.attempts = s'.recorded.countP fun entry => entry.2 = id
  recorded : s'.recorded.Nodup ∧ s'.recorded ⊆ s'.failures

end Statement

variable {options : Options} {id tick : ℕ} {v v' : Life} {action : Action}

def Life.Dated (v : Life) : Prop :=
  ∀ row, v.row = some row → row.status = .claimed → ∃ since ≤ v.now, row.claimedAt = some since

theorem dated_moves (hv : v.Dated) (hmoves : v.Moves options id action v') : v'.Dated := by
  cases hmoves with
  | enqueued hrow =>
      intro row hfound hstatus
      cases hfound
      cases hstatus
  | waited =>
      intro row hfound hstatus
      obtain ⟨since, hsince, hclaimed⟩ := hv row hfound hstatus
      exact ⟨since, Nat.le_add_right_of_le hsince, hclaimed⟩
  | claimed hwork hrow hclaimable hmem hnext =>
      intro row hfound hstatus
      cases hfound
      exact ⟨v.now, le_rfl, rfl⟩
  | published hwork =>
      intro row hfound hstatus
      obtain ⟨before, -, rfl⟩ := Option.map_eq_some_iff.mp hfound
      cases hstatus
  | failed hwork =>
      intro row hfound hstatus
      obtain ⟨before, -, rfl⟩ := Option.map_eq_some_iff.mp hfound
      rcases status_markFailed options.maxAttempts _ before with hfailed | hpending
      · cases hfailed.symm.trans hstatus
      · cases hpending.symm.trans hstatus
  | stays | passed hwork | reached hwork | resolved hwork | refused hwork | inserted hwork
  | completed hwork | caught hwork | owing hwork hexhausted hdlq haction
  | retried hwork hleft | left hwork haction | crashed => exact hv

structure Life.MarksWithClaim (v : Life) (action : Action) : Prop where
  holds : ∀ tick attempts stage, action = .execute tick → v.works tick = .working attempts stage →
    stage.marks = true → v.holder = some tick
  reported : ∀ tick error attempts executed, action = .reject tick error →
    v.works tick ≠ .working attempts (.markingPublished executed)

structure Life.Settled (v : Life) : Prop where
  through : ∀ row tick, v.row = some row → row.status = .published → v.holder = some tick →
    ¬ (v.works tick).Unmarked
  marked : ∀ tick attempts, v.works tick = .working attempts (.markingPublished true) →
    ∃ row, v.row = some row ∧ row.status = .published
  completed : v.completed → ∃ row, v.row = some row ∧ row.status = .published

variable {work : Work} {row : Row} {attempts : ℕ} {error : Option String} {entries : List (ℕ × ℕ)}

/-- The tick goes on, and neither marks the row nor takes it up. -/
theorem Life.Settled.moveOn (hv : v.Settled) (hrow : v'.row = v.row)
    (hworks : v'.works = Function.update v.works tick work) (hholder : v'.holder = v.holder)
    (hcompleted : v'.completed → ∃ row, v.row = some row ∧ row.status = .published)
    (hunmarked : work.Unmarked → (v.works tick).Unmarked)
    (hmarked : ∀ attempts, work ≠ .working attempts (.markingPublished true)) : v'.Settled where
  through := by
    intro row other hfound hstatus hholds hother
    rw [hrow] at hfound
    rw [hholder] at hholds
    rw [hworks] at hother
    rcases works_setWork hother with ⟨rfl, hwork⟩ | ⟨-, hwork⟩
    · exact hv.through row other hfound hstatus hholds (hunmarked hwork)
    · exact hv.through row other hfound hstatus hholds hwork
  marked := by
    intro other attempts hother
    rw [hworks] at hother
    rw [hrow]
    rcases update_cases hother with ⟨-, hwork⟩ | ⟨-, hwork⟩
    · exact absurd hwork (hmarked attempts)
    · exact hv.marked other attempts hwork
  completed := by
    rw [hrow]
    exact hcompleted

/-- A row that a worker can claim, or has still to mark, is not published. -/
theorem Life.Settled.of_unpublished (hv : v.Settled) (hrow : v.row = some row)
    (hstatus : row.status ≠ .published) :
    (∀ tick attempts, v.works tick ≠ .working attempts (.markingPublished true)) ∧
      ¬ v.completed := by
  have hnot : ¬ ∃ found, v.row = some found ∧ found.status = .published := by
    rintro ⟨found, hfound, hpublished⟩
    cases hrow.symm.trans hfound
    exact hstatus hpublished
  exact ⟨fun tick attempts hwork => hnot (hv.marked tick attempts hwork),
    fun hcompleted => hnot (hv.completed hcompleted)⟩

theorem Row.Claimable.ne_published {leaseMs now : ℕ} (hclaimable : row.Claimable leaseMs now) :
    row.status ≠ .published := by
  rcases hclaimable with hpending | ⟨hclaimed, -⟩
  · rw [hpending]
    decide
  · rw [hclaimed]
    decide

theorem Life.Settled.claimed (hv : v.Settled) {tick : ℕ} (hrow : v.row = some row)
    (hclaimable : row.Claimable options.leaseMs v.now)
    (hnext : work = .finished ∨ work = .waiting row.attempts ∨
      work = .working row.attempts .publishing) :
    { v.setWork tick work with row := some (row.claim v.now), holder := some tick }.Settled := by
  obtain ⟨hnone, hincomplete⟩ := hv.of_unpublished hrow hclaimable.ne_published
  constructor
  · intro found other hfound hstatus
    cases hfound
    cases hstatus
  · intro other attempts hother
    rcases update_cases hother with ⟨-, rfl⟩ | ⟨-, hwork⟩
    · rcases hnext with hnext | hnext | hnext <;> cases hnext
    · exact absurd hwork (hnone other attempts)
  · intro hcompleted
    exact absurd hcompleted hincomplete

theorem settled_published (hpresent : v.Present) (hmeets : v.MarksWithClaim (.execute tick))
    (hwork : v.works tick = .working attempts (.markingPublished false)) :
    { v.setWork tick (.working attempts (.markingPublished true)) with
      row := v.row.map (Row.markPublished v.now) }.Settled := by
  have hholder : v.holder = some tick := hmeets.holds tick attempts _ rfl hwork rfl
  have hactive : (v.works tick).Active := by
    rw [hwork]
    trivial
  obtain ⟨row, hrow⟩ := Option.isSome_iff_exists.mp (hpresent.active tick hactive)
  have hafter : ∃ found, v.row.map (Row.markPublished v.now) = some found ∧
      found.status = .published := by
    rw [hrow]
    exact ⟨row.markPublished v.now, rfl, rfl⟩
  constructor
  · intro found other hfound hstatus hother hunmarked
    obtain rfl : tick = other := Option.some.inj (hholder.symm.trans hother)
    rcases works_setWork hunmarked with ⟨-, hwork⟩ | ⟨hne, -⟩
    · exact hwork
    · exact hne rfl
  · exact fun _ _ _ => hafter
  · exact fun _ => hafter

theorem Life.Settled.failed (hv : v.Settled) (hpresent : v.Present)
    (hmeets : v.MarksWithClaim (.execute tick))
    (hwork : v.works tick = .working attempts (.markingFailed false error)) :
    { v.setWork tick (.working attempts (.markingFailed true error)) with
      row := v.row.map (Row.markFailed options.maxAttempts error)
      recorded := v.recorded ++ [tick] }.Settled := by
  have hholder : v.holder = some tick := hmeets.holds tick attempts _ rfl hwork rfl
  have hactive : (v.works tick).Active := by
    rw [hwork]
    trivial
  have hunmarked : (v.works tick).Unmarked := by
    rw [hwork]
    trivial
  obtain ⟨row, hrow⟩ := Option.isSome_iff_exists.mp (hpresent.active tick hactive)
  have hstatus : row.status ≠ .published := fun hpublished =>
    hv.through row tick hrow hpublished hholder hunmarked
  obtain ⟨hnone, hincomplete⟩ := hv.of_unpublished hrow hstatus
  constructor
  · intro found other hfound hpublished
    rw [hrow, Option.map_some, Option.some.injEq] at hfound
    rcases status_markFailed options.maxAttempts error row with hafter | hafter <;>
      rw [hfound, hpublished] at hafter <;> cases hafter
  · intro other attempts hother
    rcases update_cases hother with ⟨-, hnext⟩ | ⟨-, hother⟩
    · cases hnext
    · exact absurd hother (hnone other attempts)
  · intro hcompleted
    exact absurd hcompleted hincomplete

theorem settled_moves (hv : v.Settled) (hpresent : v.Present) (hmeets : v.MarksWithClaim action)
    (hmoves : v.Moves options id action v') : v'.Settled := by
  cases hmoves with
  | stays => exact hv
  | enqueued hrow =>
      have hnone : ¬ ∃ row, v.row = some row ∧ row.status = .published := by
        rw [hrow]
        rintro ⟨row, hfound, -⟩
        cases hfound
      refine ⟨?_, fun tick attempts hwork => absurd (hv.marked tick attempts hwork) hnone,
        fun hcompleted => absurd (hv.completed hcompleted) hnone⟩
      intro row tick hfound hstatus
      cases hfound
      cases hstatus
  | waited => exact ⟨hv.through, hv.marked, hv.completed⟩
  | claimed hwork hrow hclaimable hmem hnext => exact hv.claimed hrow hclaimable hnext
  | passed hwork => exact hv.moveOn rfl rfl rfl hv.completed False.elim (by simp)
  | reached hwork | resolved hwork | refused hwork =>
      exact hv.moveOn rfl rfl rfl hv.completed (fun _ => by rw [hwork]; trivial) (by simp)
  | published hwork => exact settled_published hpresent hmeets hwork
  | failed hwork => exact hv.failed hpresent hmeets hwork
  | inserted hwork => exact hv.moveOn rfl rfl rfl hv.completed False.elim (by simp)
  | completed hwork =>
      exact hv.moveOn rfl rfl rfl (fun _ => hv.marked _ _ hwork) False.elim (by simp)
  | caught hwork => exact absurd hwork (hmeets.reported _ _ _ _ rfl)
  | owing hwork hexhausted hdlq haction =>
      exact hv.moveOn rfl rfl rfl hv.completed False.elim (by simp)
  | retried hwork hleft => exact hv.moveOn rfl rfl rfl hv.completed False.elim (by simp)
  | left hwork haction => exact hv.moveOn rfl rfl rfl hv.completed False.elim (by simp)
  | crashed => exact hv.moveOn rfl rfl rfl hv.completed False.elim (by simp)

def Work.Recorded : Work → Prop
  | .working _ (.markingFailed true _) | .working _ (.inserting _ _) | .finished => True
  | _ => False

structure Life.Counted (v : Life) : Prop where
  attempts : ∀ row, v.row = some row → row.attempts = v.recorded.length
  nodup : v.recorded.Nodup
  past : ∀ tick ∈ v.recorded, (v.works tick).Recorded
  failures : v.recorded ⊆ v.failures
  failing : ∀ tick attempts executed error,
    v.works tick = .working attempts (.markingFailed executed error) → tick ∈ v.failures

theorem Life.Counted.moveOn (hv : v.Counted)
    (hrow : v'.row.map Row.attempts = v.row.map Row.attempts)
    (hworks : v'.works = Function.update v.works tick work) (hrecorded : v'.recorded = v.recorded)
    (hfailures : v.failures ⊆ v'.failures) (hpast : (v.works tick).Recorded → work.Recorded)
    (hfailing : ∀ attempts executed error,
      work = .working attempts (.markingFailed executed error) → tick ∈ v'.failures) :
    v'.Counted where
  attempts := by
    intro row hfound
    rw [hfound, Option.map_some] at hrow
    obtain ⟨before, hbefore, hsame⟩ := Option.map_eq_some_iff.mp hrow.symm
    rw [hrecorded, ← hsame]
    exact hv.attempts before hbefore
  nodup := by
    rw [hrecorded]
    exact hv.nodup
  past := by
    intro other hother
    rw [hrecorded] at hother
    have hbefore := hv.past other hother
    rw [hworks]
    by_cases hsame : other = tick
    · rw [hsame] at hbefore ⊢
      rw [Function.update_self]
      exact hpast hbefore
    · rwa [Function.update_of_ne hsame]
  failures := by
    rw [hrecorded]
    exact fun _ hother => hfailures (hv.failures hother)
  failing := by
    intro other attempts executed error hother
    rw [hworks] at hother
    rcases update_cases hother with ⟨rfl, hwork⟩ | ⟨-, hwork⟩
    · exact hfailing attempts executed error hwork
    · exact hfailures (hv.failing other attempts executed error hwork)

theorem Life.Counted.failed (hv : v.Counted)
    (hwork : v.works tick = .working attempts (.markingFailed false error)) :
    { v.setWork tick (.working attempts (.markingFailed true error)) with
      row := v.row.map (Row.markFailed options.maxAttempts error)
      recorded := v.recorded ++ [tick] }.Counted := by
  have hnew : tick ∉ v.recorded := by
    intro hmem
    have hpast := hv.past tick hmem
    rw [hwork] at hpast
    exact hpast
  have hmoved : (v.setWork tick (.working attempts (.markingFailed true error))).Counted :=
    hv.moveOn rfl rfl rfl (List.Subset.refl _) (fun _ => trivial)
      fun _ _ _ _ => hv.failing tick _ _ _ hwork
  constructor
  · intro row hfound
    obtain ⟨before, hbefore, rfl⟩ := Option.map_eq_some_iff.mp hfound
    rw [Row.markFailed, List.length_append, hv.attempts before hbefore]
    rfl
  · exact List.nodup_append.mpr ⟨hv.nodup, List.nodup_singleton tick, by
      intro other hother found hfound
      rw [List.mem_singleton.mp hfound]
      rintro rfl
      exact hnew hother⟩
  · intro other hother
    rcases List.mem_append.mp hother with hold | hlast
    · exact hmoved.past other hold
    · rw [List.mem_singleton.mp hlast]
      simp [Life.setWork, Work.Recorded]
  · intro other hother
    rcases List.mem_append.mp hother with hold | hlast
    · exact hv.failures hold
    · rw [List.mem_singleton.mp hlast]
      exact hv.failing tick _ _ _ hwork
  · exact hmoved.failing

theorem counted_moves (hv : v.Counted) (hpresent : v.Present) (hmeets : v.MarksWithClaim action)
    (hmoves : v.Moves options id action v') : v'.Counted := by
  cases hmoves with
  | stays => exact hv
  | enqueued hrow =>
      have hnone : v.recorded = [] := by
        by_contra hsome
        have := hpresent.recorded hsome
        rw [hrow] at this
        cases this
      refine ⟨?_, hv.nodup, hv.past, hv.failures, hv.failing⟩
      intro row hfound
      cases hfound
      rw [hnone]
      rfl
  | waited => exact ⟨hv.attempts, hv.nodup, hv.past, hv.failures, hv.failing⟩
  | claimed hwork hrow hclaimable hmem hnext =>
      refine hv.moveOn (by rw [hrow]; rfl) rfl rfl (List.Subset.refl _)
        (fun hpast => by rw [hwork] at hpast; exact hpast.elim) ?_
      rintro attempts executed error rfl
      simp at hnext
  | passed hwork => exact hv.moveOn rfl rfl rfl (List.Subset.refl _) (fun _ => trivial) (by simp)
  | reached hwork | resolved hwork =>
      exact hv.moveOn rfl rfl rfl (List.Subset.refl _)
        (fun hpast => by rw [hwork] at hpast; exact hpast) (by simp)
  | refused hwork =>
      exact hv.moveOn rfl rfl rfl (List.subset_append_left _ _)
        (fun hpast => by rw [hwork] at hpast; exact hpast) (by simp)
  | published hwork =>
      refine hv.moveOn (by rw [Option.map_map]; rfl) rfl rfl (List.Subset.refl _)
        (fun hpast => by rw [hwork] at hpast; exact hpast) (by simp)
  | failed hwork => exact hv.failed hwork
  | inserted hwork | completed hwork =>
      exact hv.moveOn rfl rfl rfl (List.Subset.refl _) (fun _ => trivial) (by simp)
  | caught hwork => exact absurd hwork (hmeets.reported _ _ _ _ rfl)
  | owing hwork hexhausted hdlq haction | retried hwork hleft | left hwork haction =>
      exact hv.moveOn rfl rfl rfl (List.Subset.refl _) (fun _ => trivial) (by simp)
  | crashed => exact hv.moveOn rfl rfl rfl (List.Subset.refl _) (fun _ => trivial) (by simp)

variable {s s' : System}

theorem marksWithClaim_life (hmeets : MarksWithClaim s action) (id : ℕ) :
    (s.life id).MarksWithClaim action where
  holds := by
    rintro tick attempts stage rfl hwork hmarks
    obtain ⟨row, record, rest, htick, rfl, -⟩ := working_of_work hwork
    rw [MarksWithClaim, marksWithClaim, htick] at hmeets
    have hholder : s.holder row.id = some tick := by simpa [hmarks] using hmeets
    exact hholder
  reported := by
    rintro tick error attempts executed rfl hwork
    obtain ⟨row, record, rest, htick, rfl, -⟩ := working_of_work hwork
    rw [MarksWithClaim, marksWithClaim, htick] at hmeets
    cases hmeets

def Row.Same (row row' : Row) : Prop :=
  row'.eventId = row.eventId ∧ row'.type = row.type ∧ row'.payload = row.payload

theorem same_moves (hmoves : v.Moves options id action v') (hrow : v.row = some row) :
    ∃ row', v'.row = some row' ∧ row.Same row' := by
  have hsame : row.Same row := ⟨rfl, rfl, rfl⟩
  cases hmoves with
  | enqueued hnone => cases hnone.symm.trans hrow
  | claimed hwork hfound hclaimable hmem hnext =>
      cases hfound.symm.trans hrow
      exact ⟨_, rfl, rfl, rfl, rfl⟩
  | published hwork => exact ⟨row.markPublished v.now, by rw [hrow]; rfl, rfl, rfl, rfl⟩
  | failed hwork =>
      exact ⟨row.markFailed options.maxAttempts _, by rw [hrow]; rfl, rfl, rfl, rfl⟩
  | stays | waited | passed hwork | reached hwork | resolved hwork | refused hwork
  | inserted hwork | completed hwork | caught hwork | owing hwork hexhausted hdlq haction
  | retried hwork hleft | left hwork haction | crashed => exact ⟨row, hrow, hsame⟩

theorem completed_moves (hmoves : v.Moves options id action v') (hcompleted : v.completed) :
    v'.completed := by
  cases hmoves with
  | completed hwork => trivial
  | _ => exact hcompleted

structure Sound (s : System) : Prop where
  consistent : s.Consistent
  present : ∀ id, (s.life id).Present
  dated : ∀ id, (s.life id).Dated
  settled : ∀ id, (s.life id).Settled
  counted : ∀ id, (s.life id).Counted

theorem settled_init (id : ℕ) : (System.init.life id).Settled where
  through := by
    intro row tick hrow
    cases hrow
  marked := by
    intro tick attempts hwork
    cases hwork
  completed := by
    intro hcompleted
    cases hcompleted

theorem counted_init (id : ℕ) : (System.init.life id).Counted where
  attempts := by
    intro row hrow
    cases hrow
  nodup := List.nodup_nil
  past := by
    intro tick hmem
    cases hmem
  failures := List.nil_subset _
  failing := by
    intro tick attempts executed error hwork
    cases hwork

theorem dated_init (id : ℕ) : (System.init.life id).Dated := by
  intro row hrow
  cases hrow

theorem sound_init : Sound .init :=
  ⟨consistent_init, present_init, dated_init, settled_init, counted_init⟩

theorem sound_step (hs : Sound s) (hmeets : MarksWithClaim s action)
    (hstep : step options s action = some s') : Sound s' where
  consistent := consistent_step hs.consistent hstep
  present := fun id => present_moves (hs.present id) (step_moves hs.consistent hstep id)
  dated := fun id => dated_moves (hs.dated id) (step_moves hs.consistent hstep id)
  settled := fun id => settled_moves (hs.settled id) (hs.present id)
    (marksWithClaim_life hmeets id) (step_moves hs.consistent hstep id)
  counted := fun id => counted_moves (hs.counted id) (hs.present id)
    (marksWithClaim_life hmeets id) (step_moves hs.consistent hstep id)

theorem mem_ticksOf : tick ∈ ticksOf id entries ↔ (tick, id) ∈ entries := by
  simp [ticksOf]

theorem nodup_of_ticksOf (hnodup : ∀ id, (ticksOf id entries).Nodup) : entries.Nodup := by
  induction entries with
  | nil => exact List.nodup_nil
  | cons entry entries ih =>
      have hcons : ∀ id, ticksOf id (entry :: entries) =
          if entry.2 = id then entry.1 :: ticksOf id entries else ticksOf id entries := by
        intro id
        by_cases hid : entry.2 = id <;> simp [ticksOf, hid]
      rw [List.nodup_cons]
      constructor
      · intro hmem
        have hself := hnodup entry.2
        rw [hcons, if_pos rfl, List.nodup_cons, mem_ticksOf] at hself
        exact hself.1 hmem
      · refine ih fun id => ?_
        have hother := hnodup id
        rw [hcons] at hother
        split at hother
        · exact (List.nodup_cons.mp hother).2
        · exact hother

structure Continues (s s' : System) : Prop where
  rows : ∀ (id : ℕ) (row : Row), s.rows[id]? = some row →
    ∃ row', s'.rows[id]? = some row' ∧ row.Same row'
  completed : ∀ id ∈ s.completed, id ∈ s'.completed

theorem continues_step {start : System} (hcontinues : Continues start s) (hs : s.Consistent)
    (hstep : step options s action = some s') : Continues start s' where
  rows := by
    intro id row hrow
    obtain ⟨middle, hmiddle, hfirst⟩ := hcontinues.rows id row hrow
    obtain ⟨row', hrow', hlast⟩ := same_moves (step_moves hs hstep id) hmiddle
    exact ⟨row', hrow', hlast.1.trans hfirst.1, hlast.2.1.trans hfirst.2.1,
      hlast.2.2.trans hfirst.2.2⟩
  completed := fun id hid =>
    completed_moves (step_moves hs hstep id) (hcontinues.completed id hid)

theorem sound_reached (hreach : Reaches (step options) MarksWithClaim .init s) : Sound s :=
  hreach.preserves (fun _ _ _ hs hmeets hstep => sound_step hs hmeets hstep) sound_init

theorem continues_reached (hs : Sound s) (hreach : Reaches (step options) MarksWithClaim s s') :
    Sound s' ∧ Continues s s' := by
  have hstep : ∀ before action after, (Sound before ∧ Continues s before) →
      MarksWithClaim before action → step options before action = some after →
      (Sound after ∧ Continues s after) := by
    rintro before action after ⟨hsound, hcontinues⟩ hmeets hstep
    exact ⟨sound_step hsound hmeets hstep,
      continues_step hcontinues hsound.consistent hstep⟩
  refine hreach.preserves hstep ⟨hs, ?_, fun _ hid => hid⟩
  intro id row hrow
  exact ⟨row, hrow, rfl, rfl, rfl⟩

/-- Under the last claim, rows are durable along every run. -/
theorem durable_under_claim (options : Options) {s s' : System}
    (hfirst : Reaches (step options) MarksWithClaim .init s)
    (hlater : Reaches (step options) MarksWithClaim s s') : Durable options s s' := by
  obtain ⟨hs', hcontinues⟩ := continues_reached (sound_reached hfirst) hlater
  constructor
  · intro id hid
    exact (hs'.settled id).completed (hcontinues.completed id hid)
  · exact hcontinues.rows
  · intro row hrow hstatus
    obtain ⟨id, hid⟩ := List.mem_iff_getElem?.mp hrow
    obtain ⟨since, hsince, hclaimed⟩ := hs'.dated id row hid hstatus
    exact ⟨since, hsince, fun now hnow => Or.inr ⟨hstatus, since, hclaimed, hnow⟩⟩
  · intro id row hrow
    rw [(hs'.counted id).attempts row hrow, List.countP_eq_length_filter]
    exact List.length_map _
  · constructor
    · exact nodup_of_ticksOf fun id => (hs'.counted id).nodup
    · rintro ⟨tick, id⟩ hmem
      exact mem_ticksOf.mp ((hs'.counted id).failures (mem_ticksOf.mpr hmem))

def defaultOptions : Options where
  maxAttempts := 10
  batchSize := 50
  leaseMs := 60000
  dlq := true
  now := fun _ => "2026-01-01T00:00:00.000Z"

def secondPublishes : List Action :=
  [.enqueue "event" "settlement.completed" .null, .claim 0 [0] true, .wait 60001,
    .claim 1 [0] true, .publishResolves 1, .execute 1, .answer 1]

def firstFails : List Action := [.publishRejects 0 none, .execute 0]

/-- The late failure of the first worker takes the published row back. -/
theorem published_row_reverts :
    ¬ ∀ options s s', Reaches (step options) anyStep .init s →
      Reaches (step options) anyStep s s' → Durable options s s' := by
  intro hdurable
  have hpublished : (run (step defaultOptions) .init secondPublishes).map
      (fun s => s.completed) = some [0] := by decide
  have hreverted : (run (step defaultOptions) .init (secondPublishes ++ firstFails)).map
      (fun s => (s.rows[0]?).map Row.status) = some (some .pending) := by decide
  obtain ⟨s, s', hfirst, hlater, hcompleted, hstatus⟩ :=
    exists_reaches_of_run_append hpublished hreverted
  obtain ⟨row, hrow, hstays⟩ := (hdurable defaultOptions s s' hfirst hlater).published 0
    (by rw [hcompleted]; exact List.mem_singleton_self 0)
  rw [hrow, Option.map_some, hstays] at hstatus
  cases hstatus

/-- The second worker takes over when the lease of the first has run out. -/
theorem reclaimed_row_durable :
    ∃ s s', Reaches (step defaultOptions) MarksWithClaim .init s ∧
      Reaches (step defaultOptions) MarksWithClaim s s' ∧
      s.completed = [0] ∧ Durable defaultOptions s s' := by
  have hrun : (run (guarded (step defaultOptions) marksWithClaim) .init secondPublishes).map
      (fun s => s.completed) = some [0] := by decide
  obtain ⟨s, hs, hcompleted⟩ := Option.map_eq_some_iff.mp hrun
  have hreach : Reaches (step defaultOptions) MarksWithClaim .init s :=
    reaches_of_run_guarded hs
  exact ⟨s, s, hreach, .refl s, hcompleted, durable_under_claim defaultOptions hreach (.refl s)⟩

end X402Facilitator.Outbox
