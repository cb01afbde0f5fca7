import Mathlib.Data.List.Nodup
import X402Facilitator.Outbox.Worker

/-!
# The life of one row

A run of the outbox is followed for one row: how each tick stands to it, who
claimed it last, and what its history says.  `Life.Moves` lists all that a step
can do to one row, and the invariants of the outbox are proved from that list.
-/

namespace X402Facilitator.Outbox

/-- How a tick stands to one row; `attempts` is what its claim returned. -/
inductive Work where
  | notStarted
  | waiting (attempts : ℕ)
  | working (attempts : ℕ) (stage : Stage)
  | finished

def queued (id : ℕ) (rest : List Claimed) : Work :=
  match rest.find? fun row => row.id = id with
  | some row => .waiting row.attempts
  | none => .finished

def Tick.work (id : ℕ) : Tick → Work
  | .notStarted => .notStarted
  | .working row _ stage rest =>
      if row.id = id then .working row.attempts stage else queued id rest
  | .finished | .crashed => .finished

@[ext]
structure Life where
  row : Option Row
  now : ℕ
  works : ℕ → Work
  holder : Option ℕ
  letters : ℕ
  succeeded : Prop
  completed : Prop
  failures : List ℕ
  recorded : List ℕ

def System.names (s : System) : List String := s.rows.map Row.eventId

def System.lettersOf (s : System) (id : ℕ) : ℕ :=
  (s.names[id]?).elim 0 fun name => s.letters.countP fun letter => letter.messageId = name

def ticksOf (id : ℕ) (entries : List (ℕ × ℕ)) : List ℕ :=
  (entries.filter fun entry => entry.2 = id).map Prod.fst

def System.life (s : System) (id : ℕ) : Life where
  row := s.rows[id]?
  now := s.now
  works := Tick.work id ∘ s.ticks
  holder := s.holder id
  letters := s.lettersOf id
  succeeded := id ∈ s.succeeded
  completed := id ∈ s.completed
  failures := ticksOf id s.failures
  recorded := ticksOf id s.recorded

def Life.setWork (v : Life) (tick : ℕ) (work : Work) : Life :=
  { v with works := Function.update v.works tick work }

inductive Life.Moves (options : Options) (id : ℕ) (v : Life) : Action → Life → Prop
  | stays {action : Action} : Moves options id v action v
  | enqueued {eventId type : String} {payload : Json} (hrow : v.row = none) :
      Moves options id v (.enqueue eventId type payload)
        { v with row := some ⟨eventId, type, payload, .pending, 0, none, none, none⟩ }
  | waited {millis : ℕ} : Moves options id v (.wait millis) { v with now := v.now + millis }
  | claimed {tick : ℕ} {ids : List ℕ} {answered : Bool} {row : Row} {work : Work}
      (hwork : v.works tick = .notStarted) (hrow : v.row = some row)
      (hclaimable : row.Claimable options.leaseMs v.now) (hmem : id ∈ ids)
      (hnext : work = .finished ∨ work = .waiting row.attempts ∨
        work = .working row.attempts .publishing) :
      Moves options id v (.claim tick ids answered)
        { v.setWork tick work with row := some (row.claim v.now), holder := some tick }
  | passed {tick : ℕ} {action : Action} (hwork : v.works tick = .notStarted) :
      Moves options id v action (v.setWork tick .finished)
  | reached {tick attempts : ℕ} {action : Action} (hwork : v.works tick = .waiting attempts) :
      Moves options id v action (v.setWork tick (.working attempts .publishing))
  | resolved {tick attempts : ℕ} (hwork : v.works tick = .working attempts .publishing) :
      Moves options id v (.publishResolves tick)
        { v.setWork tick (.working attempts (.markingPublished false)) with succeeded := True }
  | refused {tick attempts : ℕ} {error : Option String}
      (hwork : v.works tick = .working attempts .publishing) :
      Moves options id v (.publishRejects tick error)
        { v.setWork tick (.working attempts (.markingFailed false error)) with
          failures := v.failures ++ [tick] }
  | published {tick attempts : ℕ}
      (hwork : v.works tick = .working attempts (.markingPublished false)) :
      Moves options id v (.execute tick)
        { v.setWork tick (.working attempts (.markingPublished true)) with
          row := v.row.map (Row.markPublished v.now) }
  | failed {tick attempts : ℕ} {error : Option String}
      (hwork : v.works tick = .working attempts (.markingFailed false error)) :
      Moves options id v (.execute tick)
        { v.setWork tick (.working attempts (.markingFailed true error)) with
          row := v.row.map (Row.markFailed options.maxAttempts error)
          recorded := v.recorded ++ [tick] }
  | inserted {tick attempts : ℕ} {error : Option String}
      (hwork : v.works tick = .working attempts (.inserting false error)) :
      Moves options id v (.execute tick)
        { v.setWork tick (.working attempts (.inserting true error)) with
          letters := v.letters + 1 }
  | completed {tick attempts : ℕ}
      (hwork : v.works tick = .working attempts (.markingPublished true)) :
      Moves options id v (.answer tick) { v.setWork tick .finished with completed := True }
  | caught {tick attempts : ℕ} {executed : Bool} {error : Option String}
      (hwork : v.works tick = .working attempts (.markingPublished executed)) :
      Moves options id v (.reject tick error)
        (v.setWork tick (.working attempts (.markingFailed false error)))
  | owing {tick attempts : ℕ} {executed : Bool} {error : Option String} {action : Action}
      (hwork : v.works tick = .working attempts (.markingFailed executed error))
      (hexhausted : options.maxAttempts ≤ attempts + 1) (hdlq : options.dlq = true)
      (haction : executed = false → ∃ cause, action = .reject tick cause) :
      Moves options id v action (v.setWork tick (.working attempts (.inserting false error)))
  | retried {tick attempts : ℕ} {executed : Bool} {error : Option String} {action : Action}
      (hwork : v.works tick = .working attempts (.markingFailed executed error))
      (hleft : options.maxAttempts ≤ attempts + 1 → options.dlq = false) :
      Moves options id v action (v.setWork tick .finished)
  | left {tick attempts : ℕ} {executed : Bool} {error : Option String} {action : Action}
      (hwork : v.works tick = .working attempts (.inserting executed error))
      (haction : executed = false → ∃ cause, action = .reject tick cause) :
      Moves options id v action (v.setWork tick .finished)
  | crashed {tick : ℕ} : Moves options id v (.crash tick) (v.setWork tick .finished)

def Tick.batch : Tick → List Claimed
  | .working row _ _ rest => row :: rest
  | _ => []

structure System.Consistent (s : System) : Prop where
  distinct : s.names.Nodup
  letters : ∀ letter ∈ s.letters, letter.messageId ∈ s.names
  batch : ∀ tick, ((s.ticks tick).batch.map Claimed.id).Nodup
  named : ∀ tick, ∀ row ∈ (s.ticks tick).batch, s.names[row.id]? = some row.eventId

variable {options : Options} {s s' : System}

theorem consistent_init : System.init.Consistent where
  distinct := List.nodup_nil
  letters := by simp [System.init]
  batch := fun _ => List.nodup_nil
  named := by simp [System.init, Tick.batch]

@[simp]
theorem batch_next (publishedAt : String) (rest : List Claimed) :
    (Tick.next publishedAt rest).batch = rest := by
  cases rest <;> rfl

theorem batch_afterMarkFailed (publishedAt : String) (row : Claimed) (record : Record)
    (error : Option String) (rest : List Claimed) :
    (Tick.afterMarkFailed options publishedAt row record error rest).batch.Sublist
      (row :: rest) := by
  rw [Tick.afterMarkFailed]
  split
  · exact List.Sublist.refl _
  · rw [batch_next]
    exact List.sublist_cons_self row rest

variable {state : Tick} {tick now : ℕ} {ids : List ℕ} {rows : List Row}

/-- A tick moves on in its batch, and the names stay. -/
theorem System.Consistent.moveOn (hs : s.Consistent)
    (hticks : s'.ticks = Function.update s.ticks tick state)
    (hbatch : state.batch.Sublist (s.ticks tick).batch) (hnames : s'.names = s.names)
    (hletters : ∀ letter ∈ s'.letters, letter.messageId ∈ s.names) : s'.Consistent := by
  have hsub : ∀ other, (s'.ticks other).batch.Sublist (s.ticks other).batch := by
    intro other
    by_cases hother : other = tick
    · rw [hother, hticks, Function.update_self]
      exact hbatch
    · rw [hticks, Function.update_of_ne hother]
  constructor
  · rw [hnames]
    exact hs.distinct
  · rw [hnames]
    exact hletters
  · intro other
    exact (hs.batch other).sublist ((hsub other).map _)
  · intro other row hrow
    rw [hnames]
    exact hs.named other row ((hsub other).subset hrow)

theorem names_claimBatch (rows : List Row) (now : ℕ) (ids : List ℕ) :
    (claimBatch rows now ids).2.map Row.eventId = rows.map Row.eventId :=
  Table.map_updateWhere (· ∈ ids) rows fun _ => rfl

theorem mem_claimBatch {claimed : Claimed} (hclaimed : claimed ∈ (claimBatch rows now ids).1) :
    claimed.id ∈ ids ∧
      ∃ row, rows[claimed.id]? = some row ∧ claimed = row.returning claimed.id := by
  obtain ⟨id, hid, hreturned⟩ := List.mem_filterMap.mp hclaimed
  obtain ⟨row, hrow, rfl⟩ := Option.map_eq_some_iff.mp hreturned
  exact ⟨hid, row, hrow, rfl⟩

/-- A batch of existing rows returns them all. -/
theorem ids_claimBatch (now : ℕ) (hrows : ∀ id ∈ ids, (rows[id]?).isSome) :
    (claimBatch rows now ids).1.map Claimed.id = ids := by
  induction ids with
  | nil => rfl
  | cons id ids ih =>
      obtain ⟨row, hrow⟩ := Option.isSome_iff_exists.mp (hrows id List.mem_cons_self)
      have hrest := ih fun other hother => hrows other (List.mem_cons_of_mem id hother)
      simp only [claimBatch] at hrest ⊢
      rw [List.filterMap_cons_some (by rw [hrow]; rfl), List.map_cons, hrest]
      rfl

theorem Batch.isSome (hbatch : Batch options rows now ids) : ∀ id ∈ ids, (rows[id]?).isSome := by
  intro id hid
  obtain ⟨row, hrow, -⟩ := hbatch.2.2 id hid
  rw [Option.mem_def.mp hrow]
  rfl

theorem consistent_execute (hs : s.Consistent) (hstep : execute options s tick = some s') :
    s'.Consistent := by
  rw [execute] at hstep
  split at hstep
  · next row record rest htick =>
      cases hstep
      refine hs.moveOn rfl ?_ (Table.map_modify s.rows row.id fun _ => rfl) hs.letters
      rw [htick]
      exact List.Sublist.refl _
  · next row record error rest htick =>
      cases hstep
      refine hs.moveOn rfl ?_ (Table.map_modify s.rows row.id fun _ => rfl) hs.letters
      rw [htick]
      exact List.Sublist.refl _
  · next row record error rest htick =>
      cases hstep
      have hrow : row ∈ (s.ticks tick).batch := by simp [htick, Tick.batch]
      have hname : row.eventId ∈ s.names := List.mem_of_getElem? (hs.named tick row hrow)
      refine hs.moveOn rfl ?_ rfl ?_
      · rw [htick]
        exact List.Sublist.refl _
      · intro letter hletter
        rcases List.mem_append.mp hletter with hold | hnew
        · exact hs.letters letter hold
        · rw [List.mem_singleton.mp hnew]
          exact hname
  · cases hstep

theorem consistent_answer (hs : s.Consistent) (hstep : answer options s tick = some s') :
    s'.Consistent := by
  rw [answer] at hstep
  split at hstep
  · next row record rest htick =>
      cases hstep
      refine hs.moveOn rfl ?_ rfl hs.letters
      rw [htick, batch_next]
      exact List.sublist_cons_self row rest
  · next row record error rest htick =>
      cases hstep
      refine hs.moveOn rfl ?_ rfl hs.letters
      rw [htick]
      exact batch_afterMarkFailed ..
  · next row record error rest htick =>
      cases hstep
      refine hs.moveOn rfl ?_ rfl hs.letters
      rw [htick, batch_next]
      exact List.sublist_cons_self row rest
  · cases hstep

theorem consistent_reject (hs : s.Consistent) {error : Option String}
    (hstep : reject options s tick error = some s') : s'.Consistent := by
  rw [reject] at hstep
  split at hstep
  · next row record executed rest htick =>
      cases hstep
      refine hs.moveOn rfl ?_ rfl hs.letters
      rw [htick]
      exact List.Sublist.refl _
  · next row record executed cause rest htick =>
      cases hstep
      refine hs.moveOn rfl ?_ rfl hs.letters
      rw [htick]
      exact batch_afterMarkFailed ..
  · next row record executed cause rest htick =>
      cases hstep
      refine hs.moveOn rfl ?_ rfl hs.letters
      rw [htick, batch_next]
      exact List.sublist_cons_self row rest
  · cases hstep

theorem consistent_enqueue (hs : s.Consistent) (eventId type : String) (payload : Json) :
    { s with rows := insertEvent s.rows eventId type payload }.Consistent := by
  by_cases hexists : ∃ row ∈ s.rows, row.eventId = eventId
  · rw [insertEvent, if_pos hexists]
    exact hs
  · have hnames : System.names { s with rows := insertEvent s.rows eventId type payload } =
        s.names ++ [eventId] := by
      rw [System.names, insertEvent, if_neg hexists, List.map_append]
      rfl
    have hnew : eventId ∉ s.names := by
      simpa [System.names] using hexists
    constructor
    · rw [hnames, List.nodup_append]
      refine ⟨hs.distinct, List.nodup_singleton _, fun name hname other hother => ?_⟩
      rw [List.mem_singleton.mp hother]
      exact fun hsame => hnew (hsame ▸ hname)
    · intro letter hletter
      rw [hnames]
      exact List.mem_append_left _ (hs.letters letter hletter)
    · exact hs.batch
    · intro tick row hrow
      have hnamed := hs.named tick row hrow
      rw [hnames, List.getElem?_append_left (List.getElem?_eq_some_iff.mp hnamed).1]
      exact hnamed

theorem consistent_claim (hs : s.Consistent) (hbatch : Batch options s.rows s.now ids)
    (hstate : state.batch.Sublist (claimBatch s.rows s.now ids).1)
    (hticks : s'.ticks = Function.update s.ticks tick state)
    (hrows : s'.rows = (claimBatch s.rows s.now ids).2) (hletters : s'.letters = s.letters) :
    s'.Consistent := by
  have hnames : s'.names = s.names := by
    rw [System.names, hrows]
    exact names_claimBatch s.rows s.now ids
  constructor
  · rw [hnames]
    exact hs.distinct
  · rw [hnames, hletters]
    exact hs.letters
  · intro other
    rw [hticks]
    by_cases hother : other = tick
    · rw [hother, Function.update_self]
      refine List.Nodup.sublist (hstate.map _) ?_
      rw [ids_claimBatch s.now hbatch.isSome]
      exact hbatch.1
    · rw [Function.update_of_ne hother]
      exact hs.batch other
  · intro other row hrow
    rw [hnames]
    rw [hticks] at hrow
    by_cases hother : other = tick
    · rw [hother, Function.update_self] at hrow
      obtain ⟨-, found, hfound, hreturned⟩ := mem_claimBatch (hstate.subset hrow)
      rw [System.names, List.getElem?_map, hfound, hreturned]
      rfl
    · rw [Function.update_of_ne hother] at hrow
      exact hs.named other row hrow

theorem consistent_step (hs : s.Consistent) {action : Action}
    (hstep : step options s action = some s') : s'.Consistent := by
  cases action with
  | enqueue eventId type payload =>
      cases hstep
      exact consistent_enqueue hs eventId type payload
  | wait millis =>
      cases hstep
      exact ⟨hs.distinct, hs.letters, hs.batch, hs.named⟩
  | claim tick ids answered =>
      simp only [step] at hstep
      split at hstep
      · split at hstep
        · next hbatch =>
            cases hstep
            refine consistent_claim hs hbatch ?_ rfl rfl rfl
            cases answered with
            | true => rw [if_pos rfl, batch_next]
            | false => exact List.nil_sublist _
        · cases hstep
      · cases hstep
  | claimFails tick =>
      simp only [step] at hstep
      split at hstep
      · cases hstep
        exact hs.moveOn rfl (List.nil_sublist _) rfl hs.letters
      · cases hstep
  | publishResolves tick | publishRejects tick error =>
      simp only [step] at hstep
      split at hstep
      · next row record rest htick =>
          cases hstep
          refine hs.moveOn rfl ?_ rfl hs.letters
          rw [htick]
          exact List.Sublist.refl _
      · cases hstep
  | execute tick => exact consistent_execute hs hstep
  | answer tick => exact consistent_answer hs hstep
  | reject tick error => exact consistent_reject hs hstep
  | crash tick =>
      simp only [step] at hstep
      split at hstep
      · cases hstep
        exact hs.moveOn rfl (List.nil_sublist _) rfl hs.letters
      · cases hstep

end X402Facilitator.Outbox
