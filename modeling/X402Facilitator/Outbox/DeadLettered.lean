import X402Facilitator.Outbox.Published

/-!
# Failed rows and dead letters

`markFailed` decides from the attempts in the table whether a row has failed, and
the worker from those its claim returned whether to record a dead letter.  The
two agree as long as a row has one worker at a time and no statement between the
decisions is lost.
-/

namespace X402Facilitator.Outbox

open Execution

section Statement

/-- The statement that the row awaits may be reported as failed. -/
def Stage.mayFail (exhausted : Bool) : Stage → Bool
  | .publishing => true
  | .markingPublished _ => false
  | .markingFailed executed _ => executed || !exhausted
  | .inserting executed _ => executed

def Stage.mayCrash (exhausted : Bool) : Stage → Bool
  | .publishing => true
  | .markingPublished executed => executed
  | .markingFailed executed _ => !executed || !exhausted
  | .inserting executed _ => executed

instance : (work : Work) → Decidable work.Unmarked
  | .waiting _ | .working _ .publishing | .working _ (.markingPublished false)
  | .working _ (.markingFailed false _) => .isTrue trivial
  | .notStarted | .finished | .working _ (.markingPublished true)
  | .working _ (.markingFailed true _) | .working _ (.inserting _ _) => .isFalse False.elim

/-- A row is claimed once its last worker has marked it or crashed.  No
`markPublished` fails, nor does the worker crash before it is executed; and on the
last attempt neither the mark nor the dead letter is lost. -/
def undisturbed (options : Options) (s : System) : Action → Bool
  | .claim _ ids _ =>
      decide (∀ id ∈ ids, ∀ tick ∈ s.holder id, ¬ ((s.ticks tick).work id).Unmarked)
  | .reject tick _ =>
      match s.ticks tick with
      | .working row _ stage _ => stage.mayFail (row.exhausted options)
      | _ => true
  | .crash tick =>
      match s.ticks tick with
      | .working row _ stage _ => stage.mayCrash (row.exhausted options)
      | _ => true
  | _ => true

def Undisturbed (options : Options) (s : System) (action : Action) : Prop :=
  undisturbed options s action = true

/-- The tick that failed the row for good has its dead letter still to record. -/
def Work.Owes (options : Options) : Work → Prop
  | .working attempts (.markingFailed true _) => options.maxAttempts ≤ attempts + 1
  | .working _ (.inserting false _) => True
  | _ => False

/-- A row has failed if and only if its dead letter is recorded, or about to be;
there is one at most, and none of a row whose publication succeeded. -/
structure DeadLettered (options : Options) (s : System) : Prop where
  failed : ∀ id (row : Row), s.rows[id]? = some row → row.status = .failed →
    (∃ letter ∈ s.letters, letter.messageId = row.eventId) ∨
      ∃ tick, ((s.ticks tick).work id).Owes options
  lettered : ∀ row ∈ s.rows, (∃ letter ∈ s.letters, letter.messageId = row.eventId) →
    row.status = .failed
  once : ∀ row ∈ s.rows, s.letters.countP (fun letter => letter.messageId = row.eventId) ≤ 1
  succeeded : ∀ id ∈ s.succeeded, ∀ row : Row, s.rows[id]? = some row →
    ∀ letter ∈ s.letters, letter.messageId ≠ row.eventId

end Statement

variable {options : Options} {id tick : ℕ} {v v' : Life} {action : Action}

def Work.attempts : Work → ℕ
  | .waiting attempts | .working attempts _ => attempts
  | _ => 0

structure Life.Undisturbed (options : Options) (id : ℕ) (v : Life) (action : Action) : Prop where
  claimed : ∀ tick ids answered, action = .claim tick ids answered → id ∈ ids →
    ∀ other, v.holder = some other → ¬ (v.works other).Unmarked
  reported : ∀ tick error attempts stage, action = .reject tick error →
    v.works tick = .working attempts stage →
    stage.mayFail (options.maxAttempts ≤ attempts + 1) = true
  crashed : ∀ tick attempts stage, action = .crash tick →
    v.works tick = .working attempts stage →
    stage.mayCrash (options.maxAttempts ≤ attempts + 1) = true

/-- The row that a worker has still to mark is claimed, with the attempts that the
worker knows of.  A failed row has its dead letter, or one tick that owes it. -/
structure Life.Tracked (options : Options) (v : Life) : Prop where
  holder : ∀ tick, (v.works tick).Unmarked → v.holder = some tick
  claimed : ∀ tick, (v.works tick).Unmarked → ∃ row, v.row = some row ∧
    row.status = .claimed ∧ row.attempts = (v.works tick).attempts
  owes : ∀ tick, (v.works tick).Owes options → v.letters = 0 ∧
    ∃ row, v.row = some row ∧ row.status = .failed
  unique : ∀ tick tick', (v.works tick).Owes options → (v.works tick').Owes options →
    tick = tick'
  failed : ∀ row, v.row = some row → row.status = .failed →
    v.letters = 1 ∨ ∃ tick, (v.works tick).Owes options
  lettered : v.letters ≠ 0 → v.letters = 1 ∧ ∃ row, v.row = some row ∧ row.status = .failed
  succeeded : v.succeeded → (∃ row, v.row = some row ∧ row.status = .published) ∨
    ∃ tick attempts, v.works tick = .working attempts (.markingPublished false)

variable {work : Work} {row : Row} {attempts : ℕ} {error : Option String}

/-- A tick moves on, and neither takes the row up nor gives up what it owes. -/
theorem Life.Tracked.moveOn (hv : v.Tracked options) (hrow : v'.row = v.row)
    (hworks : v'.works = Function.update v.works tick work) (hholder : v'.holder = v.holder)
    (hletters : v'.letters = v.letters) (hsucceeded : v'.succeeded → v.succeeded ∨ ∃ attempts,
      work = .working attempts (.markingPublished false))
    (hunmarked : work.Unmarked → (v.works tick).Unmarked ∧
      (v.works tick).attempts = work.attempts)
    (howes : work.Owes options ↔ (v.works tick).Owes options)
    (hmarking : ∀ attempts, v.works tick ≠ .working attempts (.markingPublished false)) :
    v'.Tracked options := by
  have hself : v'.works tick = work := by rw [hworks, Function.update_self]
  have hothers : ∀ other, other ≠ tick → v'.works other = v.works other := fun other hne => by
    rw [hworks, Function.update_of_ne hne]
  have hsame : ∀ other, (v'.works other).Owes options ↔ (v.works other).Owes options := by
    intro other
    by_cases hother : other = tick
    · rw [hother, hself]
      exact howes
    · rw [hothers other hother]
  have hbefore : ∀ other, (v'.works other).Unmarked → (v.works other).Unmarked ∧
      (v.works other).attempts = (v'.works other).attempts := by
    intro other hunm
    by_cases hother : other = tick
    · rw [hother, hself] at hunm ⊢
      exact hunmarked hunm
    · rw [hothers other hother] at hunm ⊢
      exact ⟨hunm, rfl⟩
  constructor
  · intro other hunm
    rw [hholder]
    exact hv.holder other (hbefore other hunm).1
  · intro other hunm
    obtain ⟨hunm', hattempts⟩ := hbefore other hunm
    rw [hrow, ← hattempts]
    exact hv.claimed other hunm'
  · intro other hother
    rw [hrow, hletters]
    exact hv.owes other ((hsame other).mp hother)
  · intro first second hfirst hsecond
    exact hv.unique first second ((hsame first).mp hfirst) ((hsame second).mp hsecond)
  · intro row hfound hstatus
    rw [hrow] at hfound
    rw [hletters]
    refine (hv.failed row hfound hstatus).imp_right ?_
    rintro ⟨other, hother⟩
    exact ⟨other, (hsame other).mpr hother⟩
  · rw [hletters, hrow]
    exact hv.lettered
  · intro hsucc
    rw [hrow]
    rcases hsucceeded hsucc with hsucc | ⟨attempts, hwork⟩
    · refine (hv.succeeded hsucc).imp_right ?_
      rintro ⟨other, attempts, hother⟩
      refine ⟨other, attempts, ?_⟩
      rw [hothers other fun heq => hmarking attempts (heq ▸ hother)]
      exact hother
    · exact Or.inr ⟨tick, attempts, hself.trans hwork⟩

/-- A row that has not failed has no dead letter, and none is owed. -/
theorem Life.Tracked.of_not_failed (hv : v.Tracked options)
    (hstatus : ∀ row, v.row = some row → row.status ≠ .failed) :
    v.letters = 0 ∧ ∀ tick, ¬ (v.works tick).Owes options := by
  constructor
  · by_contra hletters
    obtain ⟨-, row, hrow, hfailed⟩ := hv.lettered hletters
    exact hstatus row hrow hfailed
  · intro tick howes
    obtain ⟨-, row, hrow, hfailed⟩ := hv.owes tick howes
    exact hstatus row hrow hfailed

theorem Life.Tracked.not_owes (hv : v.Tracked options) (hunmarked : (v.works tick).Unmarked) :
    v.letters = 0 ∧ ∀ other, ¬ (v.works other).Owes options := by
  obtain ⟨row, hrow, hclaimed, -⟩ := hv.claimed tick hunmarked
  refine hv.of_not_failed fun found hfound hfailed => ?_
  cases hrow.symm.trans hfound
  cases hclaimed.symm.trans hfailed

theorem Life.Tracked.alone (hv : v.Tracked options) {other : ℕ}
    (hunmarked : (v.works tick).Unmarked) (hother : (v.works other).Unmarked) : other = tick :=
  Option.some.inj ((hv.holder other hother).symm.trans (hv.holder tick hunmarked))

theorem Life.Tracked.enqueued (hv : v.Tracked options) (hrow : v.row = none)
    (eventId type : String) (payload : Json) :
    { v with row := some ⟨eventId, type, payload, .pending, 0, none, none, none⟩ }.Tracked
      options := by
  have hnone : ∀ row, v.row ≠ some row := by simp [hrow]
  obtain ⟨hletters, howes⟩ := hv.of_not_failed fun row hfound => absurd hfound (hnone row)
  have hunmarked : ∀ tick, ¬ (v.works tick).Unmarked := by
    intro tick hunm
    obtain ⟨row, hfound, -⟩ := hv.claimed tick hunm
    exact hnone row hfound
  constructor
  · exact fun tick hunm => absurd hunm (hunmarked tick)
  · exact fun tick hunm => absurd hunm (hunmarked tick)
  · exact fun tick hother => absurd hother (howes tick)
  · exact fun tick _ hother => absurd hother (howes tick)
  · intro row hfound hstatus
    cases hfound
    cases hstatus
  · exact fun hsome => absurd hletters hsome
  · intro hsucceeded
    rcases hv.succeeded hsucceeded with ⟨row, hfound, -⟩ | ⟨tick, attempts, hwork⟩
    · exact absurd hfound (hnone row)
    · exact absurd (by rw [hwork]; trivial) (hunmarked tick)

theorem Row.Claimable.cases {leaseMs now : ℕ} (hclaimable : row.Claimable leaseMs now) :
    row.status = .pending ∨ row.status = .claimed := by
  rcases hclaimable with hpending | ⟨hclaimed, -⟩
  · exact Or.inl hpending
  · exact Or.inr hclaimed

theorem Life.Tracked.claim (hv : v.Tracked options) (hrow : v.row = some row)
    (hclaimable : row.Claimable options.leaseMs v.now) (hwork : v.works tick = .notStarted)
    (hmeets : ∀ other, v.holder = some other → ¬ (v.works other).Unmarked)
    (hnext : work = .finished ∨ work = .waiting row.attempts ∨
      work = .working row.attempts .publishing) :
    { v.setWork tick work with row := some (row.claim v.now), holder := some tick }.Tracked
      options := by
  have hunmarked : ∀ other, ¬ (v.works other).Unmarked := fun other hunm =>
    hmeets other (hv.holder other hunm) hunm
  have hstatus : row.status ≠ .failed ∧ row.status ≠ .published := by
    rcases hclaimable.cases with hpending | hclaimed
    · rw [hpending]
      decide
    · rw [hclaimed]
      decide
  obtain ⟨hletters, howes⟩ := hv.of_not_failed fun found hfound hfailed => by
    cases hrow.symm.trans hfound
    exact hstatus.1 hfailed
  have hafter : ∀ other, ¬ ((v.setWork tick work).works other).Owes options := by
    refine not_works_setWork (fun hnew => ?_) fun other _ => howes other
    rcases hnext with rfl | rfl | rfl <;> exact hnew
  constructor
  · intro other hother
    rcases works_setWork hother with ⟨hsame, -⟩ | ⟨-, hold⟩
    · exact congrArg some hsame.symm
    · exact absurd hold (hunmarked other)
  · intro other hother
    rcases works_setWork hother with ⟨rfl, hnew⟩ | ⟨-, hold⟩
    · have hattempts : row.attempts = work.attempts := by
        rcases hnext with rfl | rfl | rfl
        · exact hnew.elim
        · rfl
        · rfl
      exact ⟨row.claim v.now, rfl, rfl,
        hattempts.trans (congrArg Work.attempts (works_setWork_self ..).symm)⟩
    · exact absurd hold (hunmarked other)
  · exact fun other hother => absurd hother (hafter other)
  · exact fun other _ hother => absurd hother (hafter other)
  · intro found hfound hfailed
    cases hfound
    cases hfailed
  · exact fun hsome => absurd hletters hsome
  · intro hsucceeded
    rcases hv.succeeded hsucceeded with ⟨found, hfound, hpublished⟩ | ⟨other, attempts, hold⟩
    · cases hrow.symm.trans hfound
      exact absurd hpublished hstatus.2
    · exact absurd (by rw [hold]; trivial) (hunmarked other)

theorem Life.Tracked.published (hv : v.Tracked options)
    (hwork : v.works tick = .working attempts (.markingPublished false)) :
    { v.setWork tick (.working attempts (.markingPublished true)) with
      row := v.row.map (Row.markPublished v.now) }.Tracked options := by
  have hunmarked : (v.works tick).Unmarked := by
    rw [hwork]
    trivial
  obtain ⟨row, hrow, hclaimed, -⟩ := hv.claimed tick hunmarked
  obtain ⟨hletters, howes⟩ := hv.not_owes hunmarked
  have hnone : ∀ other,
      ¬ ((v.setWork tick (.working attempts (.markingPublished true))).works other).Unmarked :=
    not_works_setWork not_false fun other hne hold => hne (hv.alone hunmarked hold)
  have hafter : ∀ other,
      ¬ ((v.setWork tick (.working attempts (.markingPublished true))).works other).Owes
        options := not_works_setWork not_false fun other _ => howes other
  constructor
  · exact fun other hother => absurd hother (hnone other)
  · exact fun other hother => absurd hother (hnone other)
  · exact fun other hother => absurd hother (hafter other)
  · exact fun other _ hother => absurd hother (hafter other)
  · intro found hfound hfailed
    obtain ⟨before, -, rfl⟩ := Option.map_eq_some_iff.mp hfound
    cases hfailed
  · exact fun hsome => absurd hletters hsome
  · intro hsucceeded
    refine Or.inl ⟨row.markPublished v.now, ?_, rfl⟩
    rw [hrow]
    rfl

theorem Life.Tracked.markFailed (hv : v.Tracked options)
    (hwork : v.works tick = .working attempts (.markingFailed false error)) :
    { v.setWork tick (.working attempts (.markingFailed true error)) with
      row := v.row.map (Row.markFailed options.maxAttempts error)
      recorded := v.recorded ++ [tick] }.Tracked options := by
  have hunmarked : (v.works tick).Unmarked := by
    rw [hwork]
    trivial
  obtain ⟨row, hrow, hclaimed, hattempts⟩ := hv.claimed tick hunmarked
  rw [hwork, Work.attempts] at hattempts
  obtain ⟨hletters, howes⟩ := hv.not_owes hunmarked
  have hstatus : (row.markFailed options.maxAttempts error).status = .failed ↔
      options.maxAttempts ≤ attempts + 1 := by
    rw [Row.markFailed, hattempts]
    by_cases hmax : options.maxAttempts ≤ attempts + 1 <;> simp [hmax]
  have hrow' : v.row.map (Row.markFailed options.maxAttempts error) =
      some (row.markFailed options.maxAttempts error) := by
    rw [hrow]
    rfl
  have hnone : ∀ other, ¬ ((v.setWork tick
      (.working attempts (.markingFailed true error))).works other).Unmarked :=
    not_works_setWork not_false fun other hne hold => hne (hv.alone hunmarked hold)
  have hafter : ∀ other, ((v.setWork tick
      (.working attempts (.markingFailed true error))).works other).Owes options ↔
        other = tick ∧ options.maxAttempts ≤ attempts + 1 := by
    intro other
    constructor
    · intro hother
      rcases works_setWork hother with ⟨hsame, hnew⟩ | ⟨-, hold⟩
      · exact ⟨hsame, hnew⟩
      · exact absurd hold (howes other)
    · rintro ⟨rfl, hmax⟩
      rw [works_setWork_self]
      exact hmax
  constructor
  · exact fun other hother => absurd hother (hnone other)
  · exact fun other hother => absurd hother (hnone other)
  · intro other hother
    exact ⟨hletters, _, hrow', hstatus.mpr ((hafter other).mp hother).2⟩
  · intro first second hfirst hsecond
    exact ((hafter first).mp hfirst).1.trans ((hafter second).mp hsecond).1.symm
  · intro found hfound hfailed
    cases hrow'.symm.trans hfound
    exact Or.inr ⟨tick, (hafter tick).mpr ⟨rfl, hstatus.mp hfailed⟩⟩
  · exact fun hsome => absurd hletters hsome
  · intro hsucceeded
    rcases hv.succeeded hsucceeded with ⟨found, hfound, hpublished⟩ | ⟨other, before, hold⟩
    · cases hrow.symm.trans hfound
      cases hclaimed.symm.trans hpublished
    · obtain rfl := hv.alone hunmarked (by rw [hold]; trivial : (v.works other).Unmarked)
      cases hwork.symm.trans hold

theorem Life.Tracked.inserted (hv : v.Tracked options)
    (hwork : v.works tick = .working attempts (.inserting false error)) :
    { v.setWork tick (.working attempts (.inserting true error)) with
      letters := v.letters + 1 }.Tracked options := by
  have howes : (v.works tick).Owes options := by
    rw [hwork]
    trivial
  obtain ⟨hletters, row, hrow, hfailed⟩ := hv.owes tick howes
  have hunmarked : ∀ other, ¬ (v.works other).Unmarked := by
    intro other hunm
    exact (hv.not_owes hunm).2 tick howes
  have hnone : ∀ other,
      ¬ ((v.setWork tick (.working attempts (.inserting true error))).works other).Unmarked :=
    not_works_setWork not_false fun other _ => hunmarked other
  have hafter : ∀ other,
      ¬ ((v.setWork tick (.working attempts (.inserting true error))).works other).Owes
        options := not_works_setWork not_false fun other hne hold =>
    hne (hv.unique other tick hold howes)
  have hone : v.letters + 1 = 1 := by rw [hletters]
  constructor
  · exact fun other hother => absurd hother (hnone other)
  · exact fun other hother => absurd hother (hnone other)
  · exact fun other hother => absurd hother (hafter other)
  · exact fun other _ hother => absurd hother (hafter other)
  · exact fun _ _ _ => Or.inl hone
  · exact fun _ => ⟨hone, row, hrow, hfailed⟩
  · intro hsucceeded
    rcases hv.succeeded hsucceeded with hpublished | ⟨other, before, hold⟩
    · exact Or.inl hpublished
    · exact absurd (by rw [hold]; trivial) (hunmarked other)

/-- The worker that owes a dead letter may not crash. -/
theorem Work.Owes.mayCrash (howes : work.Owes options) :
    ∃ attempts stage, work = .working attempts stage ∧
      stage.mayCrash (options.maxAttempts ≤ attempts + 1) = false := by
  unfold Work.Owes at howes
  split at howes
  · next attempts error => exact ⟨attempts, _, rfl, by simpa [Stage.mayCrash] using howes⟩
  · next attempts error => exact ⟨attempts, _, rfl, rfl⟩
  · exact howes.elim

theorem tracked_moves (hv : v.Tracked options) (hdlq : options.dlq = true)
    (hmeets : v.Undisturbed options id action) (hmoves : v.Moves options id action v') :
    v'.Tracked options := by
  cases hmoves with
  | stays => exact hv
  | enqueued hrow => exact hv.enqueued hrow _ _ _
  | waited =>
      exact ⟨hv.holder, hv.claimed, hv.owes, hv.unique, hv.failed, hv.lettered, hv.succeeded⟩
  | claimed hwork hrow hclaimable hmem hnext =>
      exact hv.claim hrow hclaimable hwork (hmeets.claimed _ _ _ rfl hmem) hnext
  | published hwork => exact hv.published hwork
  | failed hwork => exact hv.markFailed hwork
  | inserted hwork => exact hv.inserted hwork
  | passed hwork =>
      exact hv.moveOn rfl rfl rfl rfl Or.inl False.elim (by simp [hwork, Work.Owes])
        (by simp [hwork])
  | reached hwork =>
      exact hv.moveOn rfl rfl rfl rfl Or.inl (by simp [hwork, Work.Unmarked, Work.attempts])
        (by simp [hwork, Work.Owes]) (by simp [hwork])
  | resolved hwork =>
      exact hv.moveOn rfl rfl rfl rfl (fun _ => Or.inr ⟨_, rfl⟩)
        (by simp [hwork, Work.Unmarked, Work.attempts]) (by simp [hwork, Work.Owes])
        (by simp [hwork])
  | refused hwork =>
      exact hv.moveOn rfl rfl rfl rfl Or.inl (by simp [hwork, Work.Unmarked, Work.attempts])
        (by simp [hwork, Work.Owes]) (by simp [hwork])
  | completed hwork =>
      exact hv.moveOn rfl rfl rfl rfl Or.inl False.elim (by simp [hwork, Work.Owes])
        (by simp [hwork])
  | caught hwork =>
      have hmay := hmeets.reported _ _ _ _ rfl hwork
      cases hmay
  | @owing tick attempts executed error action hwork hexhausted hdlq haction =>
      cases executed with
      | true =>
          exact hv.moveOn rfl rfl rfl rfl Or.inl False.elim
            (by simpa [hwork, Work.Owes] using hexhausted) (by simp [hwork])
      | false =>
          obtain ⟨cause, rfl⟩ := haction rfl
          have hmay := hmeets.reported _ _ _ _ rfl hwork
          simp [Stage.mayFail, hexhausted] at hmay
  | @retried tick attempts executed error action hwork hleft =>
      have hnot : ¬ options.maxAttempts ≤ attempts + 1 := by
        intro hexhausted
        rw [hleft hexhausted] at hdlq
        cases hdlq
      cases executed with
      | true =>
          exact hv.moveOn rfl rfl rfl rfl Or.inl False.elim
            (by simpa [hwork, Work.Owes] using hnot) (by simp [hwork])
      | false =>
          exact hv.moveOn rfl rfl rfl rfl Or.inl False.elim (by simp [hwork, Work.Owes])
            (by simp [hwork])
  | @left tick attempts executed error action hwork haction =>
      cases executed with
      | true =>
          exact hv.moveOn rfl rfl rfl rfl Or.inl False.elim (by simp [hwork, Work.Owes])
            (by simp [hwork])
      | false =>
          obtain ⟨cause, rfl⟩ := haction rfl
          have hmay := hmeets.reported _ _ _ _ rfl hwork
          cases hmay
  | @crashed tick =>
      have howes : ¬ (v.works tick).Owes options := by
        intro howes
        obtain ⟨attempts, stage, hwork, hstays⟩ := howes.mayCrash
        rw [hmeets.crashed _ _ _ rfl hwork] at hstays
        cases hstays
      have hmarking : ∀ attempts, v.works tick ≠ .working attempts (.markingPublished false) := by
        intro attempts hwork
        have hmay := hmeets.crashed _ _ _ rfl hwork
        cases hmay
      exact hv.moveOn rfl rfl rfl rfl Or.inl False.elim (by simpa [Work.Owes] using howes) hmarking

variable {s s' : System}

theorem undisturbed_life (hmeets : Undisturbed options s action) (id : ℕ) :
    (s.life id).Undisturbed options id action where
  claimed := by
    rintro tick ids answered rfl hmem other hholder
    exact of_decide_eq_true hmeets id hmem other hholder
  reported := by
    rintro tick error attempts stage rfl hwork
    obtain ⟨row, record, rest, htick, -, rfl⟩ := working_of_work hwork
    rw [Undisturbed, undisturbed, htick] at hmeets
    exact hmeets
  crashed := by
    rintro tick attempts stage rfl hwork
    obtain ⟨row, record, rest, htick, -, rfl⟩ := working_of_work hwork
    rw [Undisturbed, undisturbed, htick] at hmeets
    exact hmeets

theorem tracked_init (id : ℕ) : (System.init.life id).Tracked options where
  holder := fun _ hunmarked => hunmarked.elim
  claimed := fun _ hunmarked => hunmarked.elim
  owes := fun _ howes => howes.elim
  unique := fun _ _ howes => howes.elim
  failed := by
    intro row hrow
    cases hrow
  lettered := fun hletters => absurd rfl hletters
  succeeded := by
    intro hsucceeded
    cases hsucceeded

theorem tracked_reached (hdlq : options.dlq = true)
    (hreach : Reaches (step options) (Undisturbed options) .init s) :
    s.Consistent ∧ ∀ id, (s.life id).Tracked options := by
  have hstep : ∀ before action after,
      (before.Consistent ∧ ∀ id, (before.life id).Tracked options) →
      Undisturbed options before action → step options before action = some after →
      (after.Consistent ∧ ∀ id, (after.life id).Tracked options) := by
    rintro before action after ⟨hconsistent, htracked⟩ hmeets hstep
    exact ⟨consistent_step hconsistent hstep, fun id => tracked_moves (htracked id) hdlq
      (undisturbed_life hmeets id) (step_moves hconsistent hstep id)⟩
  exact hreach.preserves hstep ⟨consistent_init, tracked_init⟩

theorem lettersOf_row (hrow : s.rows[id]? = some row) :
    s.lettersOf id = s.letters.countP fun letter => letter.messageId = row.eventId := by
  rw [System.lettersOf, System.names, List.getElem?_map, hrow]
  rfl

theorem lettersOf_ne_zero (hrow : s.rows[id]? = some row) :
    s.lettersOf id ≠ 0 ↔ ∃ letter ∈ s.letters, letter.messageId = row.eventId := by
  rw [lettersOf_row hrow, ← Nat.pos_iff_ne_zero, List.countP_pos_iff]
  simp

/-- Undisturbed, the outbox dead-letters the rows that fail and no others, for any
number of attempts. -/
theorem undisturbed_dead_lettered (options : Options) {s : System} (hdlq : options.dlq = true)
    (hreach : Reaches (step options) (Undisturbed options) .init s) : DeadLettered options s := by
  obtain ⟨-, htracked⟩ := tracked_reached hdlq hreach
  constructor
  · intro id row hrow hfailed
    refine ((htracked id).failed row hrow hfailed).imp_left fun hone => ?_
    have hsome : s.lettersOf id ≠ 0 := ne_of_eq_of_ne hone one_ne_zero
    exact (lettersOf_ne_zero hrow).mp hsome
  · intro row hmem hletter
    obtain ⟨id, hrow⟩ := List.mem_iff_getElem?.mp hmem
    obtain ⟨-, found, hfound, hfailed⟩ :=
      (htracked id).lettered ((lettersOf_ne_zero hrow).mpr hletter)
    cases hrow.symm.trans hfound
    exact hfailed
  · intro row hmem
    obtain ⟨id, hrow⟩ := List.mem_iff_getElem?.mp hmem
    rw [← lettersOf_row hrow]
    by_cases hzero : s.lettersOf id = 0
    · exact hzero.trans_le (Nat.zero_le 1)
    · exact ((htracked id).lettered hzero).1.le
  · intro id hsucceeded row hrow letter hletter hname
    have hsome := (lettersOf_ne_zero hrow).mpr ⟨letter, hletter, hname⟩
    obtain ⟨-, found, hfound, hfailed⟩ := (htracked id).lettered hsome
    cases hrow.symm.trans hfound
    rcases (htracked id).succeeded hsucceeded with ⟨found, hfound, hpublished⟩ |
      ⟨tick, attempts, hwork⟩
    · cases hrow.symm.trans hfound
      cases hfailed.symm.trans hpublished
    · have hunmarked : ((s.life id).works tick).Unmarked := by
        rw [hwork]
        trivial
      exact hsome ((htracked id).not_owes hunmarked).1

def oneAttempt : Options where
  maxAttempts := 1
  batchSize := 50
  leaseMs := 60000
  dlq := true
  now := fun _ => "2026-01-01T00:00:00.000Z"

def markLost : List Action :=
  [.enqueue "event" "settlement.completed" .null, .claim 0 [0] true, .publishResolves 0,
    .reject 0 none, .execute 0, .answer 0, .execute 0]

/-- The `catch` of the worker dead-letters a row that was published. -/
theorem published_row_dead_lettered :
    ¬ ∀ options s, options.dlq = true → Reaches (step options) anyStep .init s →
      DeadLettered options s := by
  intro hall
  have hrun : (run (step oneAttempt) .init markLost).map
      (fun s => (s.succeeded, s.letters.map DeadLetter.messageId,
        (s.rows[0]?).map Row.eventId)) = some ([0], ["event"], some "event") := by decide
  obtain ⟨s, hreach, hobserved⟩ := exists_reaches_of_run hrun
  simp only [Prod.mk.injEq] at hobserved
  obtain ⟨hsucceeded, hletters, hrow⟩ := hobserved
  obtain ⟨row, hfound, hname⟩ := Option.map_eq_some_iff.mp hrow
  obtain ⟨letter, hletter, hmessage⟩ : ∃ letter ∈ s.letters, letter.messageId = "event" := by
    have hmem : "event" ∈ s.letters.map DeadLetter.messageId := by simp [hletters]
    exact List.mem_map.mp hmem
  have hnone := (hall oneAttempt s rfl hreach).succeeded 0
    (by rw [hsucceeded]; exact List.mem_singleton_self 0) row hfound letter hletter
  exact hnone (hmessage.trans hname.symm)

def lastFailure : List Action :=
  [.enqueue "event" "settlement.completed" .null, .claim 0 [0] true,
    .publishRejects 0 (some "no broker"), .execute 0, .answer 0, .execute 0, .answer 0]

theorem lastFailure_dead_lettered :
    ∃ s, Reaches (step oneAttempt) (Undisturbed oneAttempt) .init s ∧
      s.rows.map Row.status = [.failed] ∧ s.letters.map DeadLetter.messageId = ["event"] ∧
      DeadLettered oneAttempt s := by
  have hrun : (run (guarded (step oneAttempt) (undisturbed oneAttempt)) .init lastFailure).map
      (fun s => (s.rows.map Row.status, s.letters.map DeadLetter.messageId)) =
        some ([.failed], ["event"]) := by decide
  obtain ⟨s, hs, hobserved⟩ := Option.map_eq_some_iff.mp hrun
  have hreach : Reaches (step oneAttempt) (Undisturbed oneAttempt) .init s :=
    reaches_of_run_guarded hs
  exact ⟨s, hreach, congrArg Prod.fst hobserved, congrArg Prod.snd hobserved,
    undisturbed_dead_lettered oneAttempt rfl hreach⟩

end X402Facilitator.Outbox
