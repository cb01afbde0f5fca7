import X402Facilitator.Outbox.Life

/-!
# Every step moves every row

A statement about one row and a turn of the loop leave the other rows as they
are, since the rows of a batch are different and ids of events are unique.
-/

namespace X402Facilitator.Outbox

open Execution

variable {options : Options} {s s' : System} {id tick : ℕ} {action : Action}

variable {work : Work} {record : Record} {rest : List Claimed} {row : Claimed} {stage : Stage}
  {attempts : ℕ} {error : Option String} {holds : Work → Prop}

theorem setWork_self {v : Life} (hwork : v.works tick = work) : v.setWork tick work = v := by
  rw [Life.setWork, ← hwork, Function.update_eq_self]

theorem life_setTick (s : System) (id tick : ℕ) (state : Tick) :
    (s.setTick tick state).life id = (s.life id).setWork tick (state.work id) := by
  have hworks : Tick.work id ∘ Function.update s.ticks tick state =
      Function.update (Tick.work id ∘ s.ticks) tick (state.work id) :=
    Function.comp_update (Tick.work id) s.ticks tick state
  rw [System.life, System.setTick, hworks]
  rfl

theorem works_life (s : System) (id tick : ℕ) :
    (s.life id).works tick = (s.ticks tick).work id := rfl

/-- A tick changes the stage of another row. -/
theorem work_of_ne (hid : row.id ≠ id) :
    (Tick.working row record stage rest).work id = queued id rest :=
  if_neg hid

theorem work_of_eq (hid : row.id = id) :
    (Tick.working row record stage rest).work id = .working row.attempts stage :=
  if_pos hid

/-- How a tick stands to the row at hand, and to any other. -/
theorem works_of_working (htick : s.ticks tick = .working row record stage rest) (id : ℕ) :
    (row.id = id ∧ (s.life id).works tick = .working row.attempts stage) ∨
      (row.id ≠ id ∧ (s.life id).works tick = queued id rest) := by
  rw [works_life, htick]
  by_cases hid : row.id = id
  · exact Or.inl ⟨hid, work_of_eq hid⟩
  · exact Or.inr ⟨hid, work_of_ne hid⟩

/-- The row at hand is the one in `row`. -/
theorem working_of_work (hwork : (s.life id).works tick = .working attempts stage) :
    ∃ row record rest, s.ticks tick = .working row record stage rest ∧ row.id = id ∧
      row.attempts = attempts := by
  rw [works_life] at hwork
  cases htick : s.ticks tick with
  | working row record found rest =>
      rw [htick] at hwork
      by_cases hid : row.id = id
      · rw [work_of_eq hid] at hwork
        cases hwork
        exact ⟨row, record, rest, rfl, hid, rfl⟩
      · rw [work_of_ne hid, queued] at hwork
        split at hwork <;> cases hwork
  | notStarted | finished | crashed => rw [htick] at hwork; cases hwork

theorem queued_of_not_mem (hid : id ∉ rest.map Claimed.id) : queued id rest = .finished := by
  have hnone : rest.find? (fun row => row.id = id) = none := by
    simpa using hid
  rw [queued, hnone]

theorem moves_next (publishedAt : String) {v : Life} (hwork : v.works tick = queued id rest) :
    v.Moves options id action (v.setWork tick ((Tick.next publishedAt rest).work id)) := by
  cases rest with
  | nil =>
      have hsame : v.setWork tick ((Tick.next publishedAt []).work id) = v := setWork_self hwork
      rw [hsame]
      exact .stays
  | cons row rest =>
      by_cases hid : row.id = id
      · have hwaiting : v.works tick = .waiting row.attempts := by
          simp [hwork, queued, hid]
        rw [Tick.next, work_of_eq hid]
        exact .reached hwaiting
      · have hsame : queued id (row :: rest) = queued id rest := by
          simp [queued, hid]
        rw [Tick.next, work_of_ne hid, setWork_self (hwork.trans hsame)]
        exact .stays

theorem ticksOf_append (id : ℕ) (entries : List (ℕ × ℕ)) (tick other : ℕ) :
    ticksOf id (entries ++ [(tick, other)]) =
      if other = id then ticksOf id entries ++ [tick] else ticksOf id entries := by
  by_cases hother : other = id <;> simp [ticksOf, hother]

/-- The row of a batch is not in the rest of it. -/
theorem System.Consistent.queued_rest (hs : s.Consistent)
    (htick : s.ticks tick = .working row record stage rest) : queued row.id rest = .finished := by
  have hnodup := hs.batch tick
  rw [htick, Tick.batch, List.map_cons, List.nodup_cons] at hnodup
  exact queued_of_not_mem hnodup.1

theorem lettersOf_congr (s s' : System) (hnames : s'.names = s.names)
    (hletters : s'.letters = s.letters) (id : ℕ) : s'.lettersOf id = s.lettersOf id := by
  rw [System.lettersOf, System.lettersOf, hnames, hletters]

/-- The rows have been marked. -/
theorem life_marked (s : System) {rows : List Row} (recorded : List (ℕ × ℕ))
    (hnames : rows.map Row.eventId = s.names) (id : ℕ) :
    { s with rows := rows, recorded := recorded }.life id =
      { s.life id with row := rows[id]?, recorded := ticksOf id recorded } := by
  have hletters : { s with rows := rows, recorded := recorded }.lettersOf id = s.lettersOf id :=
    lettersOf_congr s { s with rows := rows, recorded := recorded } hnames rfl id
  rw [System.life, hletters]
  rfl

theorem work_next_of_finished (publishedAt : String) (hdone : queued id rest = .finished) :
    (Tick.next publishedAt rest).work id = .finished := by
  cases rest with
  | nil => rfl
  | cons row rest =>
      by_cases hid : row.id = id
      · simp [queued, hid] at hdone
      · rw [Tick.next, work_of_ne hid, ← hdone]
        simp [queued, hid]

theorem moves_markPublished
    (htick : s.ticks tick = .working row record (.markingPublished false) rest) (id : ℕ) :
    (s.life id).Moves options id (.execute tick)
      ({ s.setTick tick (.working row record (.markingPublished true) rest) with
        rows := markPublished s.rows row.id s.now }.life id) := by
  have hnames : (markPublished s.rows row.id s.now).map Row.eventId = s.names :=
    Table.map_modify s.rows row.id fun _ => rfl
  dsimp only
  rw [life_marked (s.setTick tick _) (s.setTick tick _).recorded hnames, life_setTick,
    markPublished]
  obtain ⟨hid, hwork⟩ | ⟨hid, hwork⟩ := works_of_working htick id
  · rw [work_of_eq hid, hid, Table.getElem?_modify_self]
    exact .published hwork
  · rw [work_of_ne hid, setWork_self hwork, Table.getElem?_modify_of_ne hid]
    exact .stays

theorem moves_markFailed
    (htick : s.ticks tick = .working row record (.markingFailed false error) rest) (id : ℕ) :
    (s.life id).Moves options id (.execute tick)
      ({ s.setTick tick (.working row record (.markingFailed true error) rest) with
        rows := markFailed s.rows row.id error options.maxAttempts
        recorded := s.recorded ++ [(tick, row.id)] }.life id) := by
  have hnames : (markFailed s.rows row.id error options.maxAttempts).map Row.eventId = s.names :=
    Table.map_modify s.rows row.id fun _ => rfl
  dsimp only
  rw [life_marked (s.setTick tick _) _ hnames, life_setTick, markFailed, ticksOf_append]
  obtain ⟨hid, hwork⟩ | ⟨hid, hwork⟩ := works_of_working htick id
  · rw [work_of_eq hid, if_pos hid, hid, Table.getElem?_modify_self]
    exact .failed hwork
  · rw [work_of_ne hid, if_neg hid, setWork_self hwork, Table.getElem?_modify_of_ne hid]
    exact .stays

/-- A dead letter for one row is not one for another. -/
theorem lettersOf_insert (hs : s.Consistent) (state : Tick)
    (htick : s.ticks tick = .working row record stage rest) (id : ℕ) :
    System.lettersOf { s.setTick tick state with
        letters := s.letters ++ [row.deadLetter record error] } id =
      if row.id = id then s.lettersOf id + 1 else s.lettersOf id := by
  have hnamed : s.names[row.id]? = some row.eventId :=
    hs.named tick row (by simp [htick, Tick.batch])
  have hsplit : ∀ name, (s.letters ++ [row.deadLetter record error]).countP
        (fun letter => letter.messageId = name) =
      (s.letters.countP fun letter => letter.messageId = name) +
        if row.eventId = name then 1 else 0 := by
    intro name
    rw [List.countP_append, List.countP_singleton]
    by_cases hname : row.eventId = name <;> simp [Claimed.deadLetter, hname]
  by_cases hid : row.id = id
  · subst hid
    have hsame : System.names { s.setTick tick state with
        letters := s.letters ++ [row.deadLetter record error] } = s.names := rfl
    rw [if_pos rfl, System.lettersOf, System.lettersOf, hsame, hnamed]
    simp [hsplit]
  · have hsame : System.names { s.setTick tick state with
        letters := s.letters ++ [row.deadLetter record error] } = s.names := rfl
    rw [if_neg hid, System.lettersOf, System.lettersOf, hsame]
    cases hname : s.names[id]? with
    | none => rfl
    | some name =>
        have hne : row.eventId ≠ name := by
          intro heq
          rw [heq, ← hname] at hnamed
          have hlength := (List.getElem?_eq_some_iff.mp (hnamed.trans hname)).1
          exact hid ((List.getElem?_inj hlength hs.distinct).mp hnamed)
        simp [hsplit, hne]

theorem moves_insert (hs : s.Consistent)
    (htick : s.ticks tick = .working row record (.inserting false error) rest) (id : ℕ) :
    (s.life id).Moves options id (.execute tick)
      ({ s.setTick tick (.working row record (.inserting true error) rest) with
        letters := s.letters ++ [row.deadLetter record error] }.life id) := by
  have hlife : System.life { s.setTick tick (.working row record (.inserting true error) rest) with
        letters := s.letters ++ [row.deadLetter record error] } id =
      { (s.life id).setWork tick ((Tick.working row record (.inserting true error) rest).work id)
        with letters := if row.id = id then s.lettersOf id + 1 else s.lettersOf id } := by
    rw [← lettersOf_insert hs (.working row record (.inserting true error) rest) htick,
      ← life_setTick]
    rfl
  rw [hlife]
  obtain ⟨hid, hwork⟩ | ⟨hid, hwork⟩ := works_of_working htick id
  · rw [work_of_eq hid, if_pos hid]
    exact .inserted hwork
  · rw [work_of_ne hid, if_neg hid, setWork_self hwork]
    exact .stays

theorem moves_execute (hs : s.Consistent) (hstep : execute options s tick = some s') (id : ℕ) :
    (s.life id).Moves options id (.execute tick) (s'.life id) := by
  rw [execute] at hstep
  split at hstep
  · next row record rest htick =>
      cases hstep
      exact moves_markPublished htick id
  · next row record error rest htick =>
      cases hstep
      exact moves_markFailed htick id
  · next row record error rest htick =>
      cases hstep
      exact moves_insert hs htick id
  · cases hstep

/-- The tick leaves its row for the next one. -/
theorem moves_leave (hs : s.Consistent) (publishedAt : String)
    (htick : s.ticks tick = .working row record stage rest) {id : ℕ}
    (hleave : (s.life id).works tick = .working row.attempts stage →
      (s.life id).Moves options id action ((s.life id).setWork tick .finished)) :
    (s.life id).Moves options id action
      ((s.setTick tick (.next publishedAt rest)).life id) := by
  rw [life_setTick]
  obtain ⟨hid, hwork⟩ | ⟨hid, hwork⟩ := works_of_working htick id
  · have hdone := hs.queued_rest htick
    rw [hid] at hdone
    rw [work_next_of_finished publishedAt hdone]
    exact hleave hwork
  · exact moves_next publishedAt hwork

theorem moves_afterMarkFailed (hs : s.Consistent) {executed : Bool} (publishedAt : String)
    (htick : s.ticks tick = .working row record (.markingFailed executed error) rest)
    (haction : executed = false → ∃ cause, action = .reject tick cause) (id : ℕ) :
    (s.life id).Moves options id action
      ((s.setTick tick (.afterMarkFailed options publishedAt row record error rest)).life id) := by
  rw [Tick.afterMarkFailed]
  split
  · next hexhausted =>
      rw [Bool.and_eq_true, Claimed.exhausted, decide_eq_true_eq] at hexhausted
      rw [life_setTick]
      obtain ⟨hid, hwork⟩ | ⟨hid, hwork⟩ := works_of_working htick id
      · rw [work_of_eq hid]
        exact .owing hwork hexhausted.1 hexhausted.2 haction
      · rw [work_of_ne hid, setWork_self hwork]
        exact .stays
  · next hleft =>
      refine moves_leave hs publishedAt htick fun hwork => .retried hwork fun hmax => ?_
      simpa [Claimed.exhausted, hmax] using hleft

theorem moves_resolve (htick : s.ticks tick = .working row record .publishing rest) (id : ℕ) :
    (s.life id).Moves options id (.publishResolves tick)
      ({ s.setTick tick (.working row record (.markingPublished false) rest) with
        succeeded := s.succeeded ++ [row.id] }.life id) := by
  have hlife : System.life { s.setTick tick (.working row record (.markingPublished false) rest)
        with succeeded := s.succeeded ++ [row.id] } id =
      { (s.life id).setWork tick
          ((Tick.working row record (.markingPublished false) rest).work id) with
        succeeded := id ∈ s.succeeded ++ [row.id] } := by
    rw [← life_setTick]
    rfl
  rw [hlife]
  obtain ⟨hid, hwork⟩ | ⟨hid, hwork⟩ := works_of_working htick id
  · have hmem : (id ∈ s.succeeded ++ [row.id]) = True := by simp [hid]
    rw [work_of_eq hid, hmem]
    exact .resolved hwork
  · have hmem : (id ∈ s.succeeded ++ [row.id]) = (id ∈ s.succeeded) := by
      simp [Ne.symm hid]
    rw [work_of_ne hid, setWork_self hwork, hmem]
    exact .stays

theorem moves_refuse (htick : s.ticks tick = .working row record .publishing rest)
    (error : Option String) (id : ℕ) : (s.life id).Moves options id (.publishRejects tick error)
      ({ s.setTick tick (.working row record (.markingFailed false error) rest) with
        failures := s.failures ++ [(tick, row.id)] }.life id) := by
  have hlife : System.life { s.setTick tick (.working row record (.markingFailed false error) rest)
        with failures := s.failures ++ [(tick, row.id)] } id =
      { (s.life id).setWork tick
          ((Tick.working row record (.markingFailed false error) rest).work id) with
        failures := ticksOf id (s.failures ++ [(tick, row.id)]) } := by
    rw [← life_setTick]
    rfl
  rw [hlife, ticksOf_append]
  obtain ⟨hid, hwork⟩ | ⟨hid, hwork⟩ := works_of_working htick id
  · rw [work_of_eq hid, if_pos hid]
    exact .refused hwork
  · rw [work_of_ne hid, setWork_self hwork, if_neg hid]
    exact .stays

theorem moves_complete (hs : s.Consistent) (publishedAt : String)
    (htick : s.ticks tick = .working row record (.markingPublished true) rest) (id : ℕ) :
    (s.life id).Moves options id (.answer tick)
      ({ s.setTick tick (.next publishedAt rest) with
        completed := s.completed ++ [row.id] }.life id) := by
  have hlife : System.life { s.setTick tick (.next publishedAt rest) with
        completed := s.completed ++ [row.id] } id =
      { (s.life id).setWork tick ((Tick.next publishedAt rest).work id) with
        completed := id ∈ s.completed ++ [row.id] } := by
    rw [← life_setTick]
    rfl
  rw [hlife]
  obtain ⟨hid, hwork⟩ | ⟨hid, hwork⟩ := works_of_working htick id
  · have hdone := hs.queued_rest htick
    rw [hid] at hdone
    have hmem : (id ∈ s.completed ++ [row.id]) = True := by simp [hid]
    rw [work_next_of_finished publishedAt hdone, hmem]
    exact .completed hwork
  · have hmem : (id ∈ s.completed ++ [row.id]) = (id ∈ s.completed) := by
      simp [Ne.symm hid]
    rw [hmem]
    exact moves_next publishedAt hwork

theorem moves_answer (hs : s.Consistent) (hstep : answer options s tick = some s') (id : ℕ) :
    (s.life id).Moves options id (.answer tick) (s'.life id) := by
  rw [answer] at hstep
  split at hstep
  · next row record rest htick =>
      cases hstep
      exact moves_complete hs (options.now s.now) htick id
  · next row record error rest htick =>
      cases hstep
      exact moves_afterMarkFailed hs (options.now s.now) htick (by simp) id
  · next row record error rest htick =>
      cases hstep
      exact moves_leave hs (options.now s.now) htick fun hwork => .left hwork (by simp)
  · cases hstep

theorem moves_reject (hs : s.Consistent) (hstep : reject options s tick error = some s') (id : ℕ) :
    (s.life id).Moves options id (.reject tick error) (s'.life id) := by
  rw [reject] at hstep
  split at hstep
  · next row record executed rest htick =>
      cases hstep
      rw [life_setTick]
      obtain ⟨hid, hwork⟩ | ⟨hid, hwork⟩ := works_of_working htick id
      · rw [work_of_eq hid]
        exact .caught hwork
      · rw [work_of_ne hid, setWork_self hwork]
        exact .stays
  · next row record executed cause rest htick =>
      cases hstep
      exact moves_afterMarkFailed hs (options.now s.now) htick (fun _ => ⟨error, rfl⟩) id
  · next row record executed cause rest htick =>
      cases hstep
      exact moves_leave hs (options.now s.now) htick fun hwork => .left hwork fun _ => ⟨error, rfl⟩
  · cases hstep

theorem moves_enqueue (hs : s.Consistent) (eventId type : String) (payload : Json) (id : ℕ) :
    (s.life id).Moves options id (.enqueue eventId type payload)
      ({ s with rows := insertEvent s.rows eventId type payload }.life id) := by
  by_cases hexists : ∃ row ∈ s.rows, row.eventId = eventId
  · rw [insertEvent, if_pos hexists]
    exact .stays
  · rw [insertEvent, if_neg hexists]
    set row : Row := ⟨eventId, type, payload, .pending, 0, none, none, none⟩ with hrow
    have hlife : { s with rows := s.rows ++ [row] }.life id =
        { s.life id with
          row := (s.rows ++ [row])[id]?
          letters := { s with rows := s.rows ++ [row] }.lettersOf id } := rfl
    have hnames : { s with rows := s.rows ++ [row] }.names = s.names ++ [eventId] := by
      rw [System.names, List.map_append]
      rfl
    rw [hlife, System.lettersOf, hnames]
    by_cases hid : id = s.rows.length
    · have hnone : s.rows[id]? = none := by rw [hid, List.getElem?_length]
      have hname : s.names[id]? = none := by rw [System.names, List.getElem?_map, hnone]; rfl
      have hlength : id = s.names.length := by rw [hid, System.names, List.length_map]
      have hnew : s.letters.countP (fun letter => letter.messageId = eventId) = 0 := by
        rw [List.countP_eq_zero]
        intro letter hletter
        rw [decide_eq_true_eq]
        rintro rfl
        exact hexists (List.mem_map.mp (hs.letters letter hletter))
      have hletters : (s.life id).letters = 0 := by
        rw [System.life, System.lettersOf, hname]
        rfl
      have hcount : (((s.names ++ [eventId])[id]?).elim 0 fun name =>
          s.letters.countP fun letter => letter.messageId = name) = (s.life id).letters := by
        rw [hletters, hlength, List.getElem?_concat_length]
        exact hnew
      rw [hcount, hid, List.getElem?_concat_length]
      exact .enqueued (hid ▸ hnone)
    · rw [Table.getElem?_concat_of_ne _ hid, Table.getElem?_concat_of_ne]
      · exact .stays
      · rwa [System.names, List.length_map]

theorem find?_claimBatch (rows : List Row) (now : ℕ) (ids : List ℕ) (id : ℕ) :
    ((claimBatch rows now ids).1.find? fun row => row.id = id) =
      if id ∈ ids then rows[id]?.map (Row.returning id) else none := by
  induction ids with
  | nil => rfl
  | cons other ids ih =>
      simp only [claimBatch] at ih ⊢
      by_cases hother : other = id
      · subst hother
        rw [if_pos List.mem_cons_self]
        cases hrow : rows[other]? with
        | none =>
            rw [List.filterMap_cons_none (by rw [hrow]; rfl), ih, hrow]
            split <;> rfl
        | some row =>
            rw [List.filterMap_cons_some (by rw [hrow]; rfl)]
            simp [Row.returning]
      · have hmem : id ∈ other :: ids ↔ id ∈ ids := by simp [Ne.symm hother]
        simp only [hmem]
        rw [← ih]
        cases hrow : rows[other]? with
        | none => rw [List.filterMap_cons_none (by rw [hrow]; rfl)]
        | some row =>
            rw [List.filterMap_cons_some (by rw [hrow]; rfl)]
            simp [Row.returning, hother]

theorem work_next_of_waiting (publishedAt : String) (hwaiting : queued id rest = .waiting attempts) :
    (Tick.next publishedAt rest).work id = .waiting attempts ∨
      (Tick.next publishedAt rest).work id = .working attempts .publishing := by
  cases rest with
  | nil => cases hwaiting
  | cons row rest =>
      by_cases hid : row.id = id
      · rw [Tick.next, work_of_eq hid]
        simp only [queued, hid, List.find?_cons_of_pos, decide_true] at hwaiting
        cases hwaiting
        exact Or.inr rfl
      · rw [Tick.next, work_of_ne hid, ← hwaiting]
        refine Or.inl ?_
        simp [queued, hid]

theorem moves_claim {ids : List ℕ} (answered : Bool)
    (htick : s.ticks tick = .notStarted) (hbatch : Batch options s.rows s.now ids) (id : ℕ) :
    (s.life id).Moves options id (.claim tick ids answered)
      ({ s.setTick tick (if answered then .next (options.now s.now)
            (claimBatch s.rows s.now ids).1 else .finished) with
          rows := (claimBatch s.rows s.now ids).2
          holder := fun id => if id ∈ ids then some tick else s.holder id }.life id) := by
  set state : Tick := if answered then .next (options.now s.now)
    (claimBatch s.rows s.now ids).1 else .finished with hstate
  have hwork : (s.life id).works tick = .notStarted := by
    rw [works_life, htick]
    rfl
  have hfind := find?_claimBatch s.rows s.now ids id
  have hlife : System.life { s.setTick tick state with
        rows := (claimBatch s.rows s.now ids).2
        holder := fun id => if id ∈ ids then some tick else s.holder id } id =
      { (s.life id).setWork tick (state.work id) with
        row := (claimBatch s.rows s.now ids).2[id]?
        holder := if id ∈ ids then some tick else s.holder id } := by
    rw [← life_setTick]
    have hnames := names_claimBatch s.rows s.now ids
    have hletters := lettersOf_congr (s.setTick tick state)
      { s.setTick tick state with
        rows := (claimBatch s.rows s.now ids).2
        holder := fun id => if id ∈ ids then some tick else s.holder id } hnames rfl id
    rw [System.life, hletters]
    rfl
  have hrow : (claimBatch s.rows s.now ids).2[id]? =
      if id ∈ ids then s.rows[id]?.map (Row.claim s.now) else s.rows[id]? := by
    rw [claimBatch, Table.getElem?_updateWhere]
  rw [hlife, hrow]
  by_cases hmem : id ∈ ids
  · obtain ⟨row, hfound, hclaimable⟩ := hbatch.2.2 id hmem
    rw [Option.mem_def] at hfound
    have hqueued : queued id (claimBatch s.rows s.now ids).1 = .waiting row.attempts := by
      rw [queued, hfind, if_pos hmem, hfound]
      rfl
    rw [if_pos hmem, if_pos hmem, hfound]
    refine .claimed hwork hfound hclaimable hmem ?_
    rw [hstate]
    cases answered with
    | true => exact Or.inr (work_next_of_waiting _ hqueued)
    | false => exact Or.inl rfl
  · have hqueued : queued id (claimBatch s.rows s.now ids).1 = .finished := by
      rw [queued, hfind, if_neg hmem]
    have hdone : state.work id = .finished := by
      rw [hstate]
      cases answered with
      | true => exact work_next_of_finished _ hqueued
      | false => rfl
    rw [if_neg hmem, if_neg hmem, hdone]
    exact .passed hwork

/-- Every step moves every row. -/
theorem step_moves (hs : s.Consistent) {action : Action} (hstep : step options s action = some s')
    (id : ℕ) : (s.life id).Moves options id action (s'.life id) := by
  cases action with
  | enqueue eventId type payload =>
      cases hstep
      exact moves_enqueue hs eventId type payload id
  | wait millis =>
      cases hstep
      exact .waited
  | claim tick ids answered =>
      simp only [step] at hstep
      split at hstep
      · next htick =>
          split at hstep
          · next hbatch =>
              cases hstep
              exact moves_claim answered htick hbatch id
          · cases hstep
      · cases hstep
  | claimFails tick =>
      simp only [step] at hstep
      split at hstep
      · next htick =>
          cases hstep
          rw [life_setTick]
          exact .passed (by rw [works_life, htick]; rfl)
      · cases hstep
  | publishResolves tick =>
      simp only [step] at hstep
      split at hstep
      · next row record rest htick =>
          cases hstep
          exact moves_resolve htick id
      · cases hstep
  | publishRejects tick error =>
      simp only [step] at hstep
      split at hstep
      · next row record rest htick =>
          cases hstep
          exact moves_refuse htick error id
      · cases hstep
  | execute tick => exact moves_execute hs hstep id
  | answer tick => exact moves_answer hs hstep id
  | reject tick error => exact moves_reject hs hstep id
  | crash tick =>
      simp only [step] at hstep
      split at hstep
      · cases hstep
        rw [life_setTick]
        exact .crashed
      · cases hstep

variable {v v' : Life}

def Work.Active : Work → Prop
  | .waiting _ | .working _ _ => True
  | _ => False

@[simp]
theorem works_setWork_self (v : Life) (tick : ℕ) (work : Work) :
    (v.setWork tick work).works tick = work :=
  Function.update_self ..

theorem Work.active_finished (v : Life) : Work.finished.Active → v.row.isSome := False.elim

/-- A tick that has changed its work, or another one. -/
theorem works_setWork {tick other : ℕ} (hother : holds ((v.setWork tick work).works other)) :
    (other = tick ∧ holds work) ∨ (other ≠ tick ∧ holds (v.works other)) := by
  rcases update_cases (rfl : Function.update v.works tick work other = _) with
    ⟨hsame, hwork⟩ | ⟨hne, hwork⟩
  · exact Or.inl ⟨hsame, hwork ▸ hother⟩
  · exact Or.inr ⟨hne, hwork ▸ hother⟩

/-- What holds neither of the new work nor of the other ticks holds of none. -/
theorem not_works_setWork {v : Life} {tick : ℕ} (hwork : ¬ holds work)
    (hothers : ∀ other, other ≠ tick → ¬ holds (v.works other)) (other : ℕ) :
    ¬ holds ((v.setWork tick work).works other) := by
  intro hother
  rcases works_setWork hother with ⟨-, hnew⟩ | ⟨hne, hold⟩
  · exact hwork hnew
  · exact hothers other hne hold

structure Life.Present (v : Life) : Prop where
  active : ∀ tick, (v.works tick).Active → v.row.isSome
  recorded : v.recorded ≠ [] → v.row.isSome

theorem Life.Present.setWork (hv : v.Present) {tick : ℕ} (hactive : work.Active → v.row.isSome) :
    (v.setWork tick work).Present where
  active := by
    intro other hother
    rcases works_setWork hother with ⟨-, hwork⟩ | ⟨-, hwork⟩
    · exact hactive hwork
    · exact hv.active other hwork
  recorded := hv.recorded

theorem present_moves (hv : v.Present) (hmoves : v.Moves options id action v') : v'.Present := by
  have hactive : ∀ {tick : ℕ} {work : Work}, v.works tick = work → work.Active → v.row.isSome :=
    fun hwork hact => hv.active _ (hwork ▸ hact)
  cases hmoves with
  | stays => exact hv
  | enqueued hrow => exact ⟨fun _ _ => rfl, fun _ => rfl⟩
  | waited => exact ⟨hv.active, hv.recorded⟩
  | claimed hwork hrow hclaimable hmem hnext => exact ⟨fun _ _ => rfl, fun _ => rfl⟩
  | passed hwork => exact hv.setWork (Work.active_finished v)
  | reached hwork => exact hv.setWork fun _ => hactive hwork trivial
  | resolved hwork | refused hwork =>
      obtain ⟨hact, hrec⟩ := hv.setWork fun _ => hactive hwork trivial
      exact ⟨hact, hrec⟩
  | published hwork | failed hwork =>
      have hrow := hactive hwork trivial
      exact ⟨fun _ _ => by simpa using hrow, fun _ => by simpa using hrow⟩
  | inserted hwork =>
      obtain ⟨hact, hrec⟩ := hv.setWork fun _ => hactive hwork trivial
      exact ⟨hact, hrec⟩
  | completed hwork =>
      obtain ⟨hact, hrec⟩ := hv.setWork (Work.active_finished v)
      exact ⟨hact, hrec⟩
  | caught hwork => exact hv.setWork fun _ => hactive hwork trivial
  | owing hwork hexhausted hdlq haction => exact hv.setWork fun _ => hactive hwork trivial
  | retried hwork hleft | left hwork haction | crashed => exact hv.setWork (Work.active_finished v)

theorem present_init (id : ℕ) : (System.init.life id).Present where
  active := fun _ hactive => hactive.elim
  recorded := fun hrecorded => absurd rfl hrecorded

def Work.Unmarked : Work → Prop
  | .waiting _ | .working _ .publishing | .working _ (.markingPublished false)
  | .working _ (.markingFailed false _) => True
  | _ => False

theorem status_markFailed (maxAttempts : ℕ) (error : Option String) (row : Row) :
    (row.markFailed maxAttempts error).status = .failed ∨
      (row.markFailed maxAttempts error).status = .pending := by
  rw [Row.markFailed]
  split
  · exact Or.inl rfl
  · exact Or.inr rfl

end X402Facilitator.Outbox
