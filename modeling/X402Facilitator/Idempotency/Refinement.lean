import X402Facilitator.Idempotency.Stores

/-!
# The Postgres store against the memory store

The abstract system is one memory store together with the answer it gave for
each caller.  A concrete run drives it in lock step: `linearize` names the
operation of the memory store that a statement amounts to.  A call that has not
been made owner may be asked again, which leaves the memory store as it is.

`RefinesMemory` is refuted for unrestricted runs: the first `SELECT` also finds
rows whose claim is still in flight.  It holds of the runs whose steps satisfy
`FindsNoOpenClaim`.
-/

namespace X402Facilitator.PostgresIdempotency

open X402Facilitator.Execution

/-- The memory store and the last answer given for each call. -/
structure Spec where
  store : MemoryIdempotencyStore
  answers : ℕ → Option BeginOutcome

def Spec.init : Spec := ⟨.empty, fun _ => none⟩

inductive SpecAction where
  | ask (call : ℕ) (key : String)
  | complete (key : String) (statusCode : ℕ) (response : Json)
  | fail (key : String)

namespace Spec

/-- `begin` on behalf of a call. -/
def ask (m : Spec) (call : ℕ) (key : String) : Spec :=
  let (outcome, store) := m.store.begin key
  ⟨store, Function.update m.answers call (some outcome)⟩

/-- One operation of the memory store.  An owner is not asked again. -/
def step (m : Spec) : SpecAction → Option Spec
  | .ask call key =>
      match m.answers call with
      | some .owner => none
      | _ => some (m.ask call key)
  | .complete key statusCode response =>
      some { m with store := m.store.complete key statusCode response }
  | .fail key => some { m with store := m.store.fail key }

end Spec

def Recorded (rows : InsertionMap String Row) (key : String) : Prop :=
  ∃ row, rows.get key = some row ∧ row.response.isSome = true

instance (rows : InsertionMap String Row) (key : String) :
    Decidable (Recorded rows key) :=
  decidable_of_iff ((rows.get key).any fun row => row.response.isSome) (by
    simp [Recorded, Option.any_eq_true])

/-- The operations of the memory store that a statement stands for. -/
def linearize (s : System) : Action → List SpecAction
  | .select call =>
      match s.calls call with
      | .started _ key => if (s.rows.get key).isSome then [.ask call key] else []
      | _ => []
  | .insert call =>
      match s.calls call with
      | .selected _ key => [.ask call key]
      | _ => []
  | .poll call =>
      match s.calls call with
      | .polling _ key _ => if Recorded s.rows key then [.ask call key] else []
      | _ => []
  | .complete _ key statusCode response => [.complete key statusCode response]
  | .fail _ key => [.fail key]
  | .beginCall _ _ _ => []
  | .deadline _ => []

def pairStep (jsonParse : String → Option Json) (pair : System × Spec)
    (action : Action) : Option (System × Spec) :=
  (step jsonParse pair.1 action).bind fun s =>
    (run Spec.step pair.2 (linearize pair.1 action)).map fun m => (s, m)

def Row.record (row : Row) : ClaimRecord :=
  match row.response with
  | none => .pending
  | some response => .completed row.statusCode response

/-- What a caller can observe: the claims are those of the memory store, every
`begin` returned what the memory store answered, and a replay has a response. -/
structure Agrees (s : System) (m : Spec) : Prop where
  records : ∀ key, m.store.records.get key = (s.rows.get key).map Row.record
  outcomes : ∀ call key outcome,
    s.calls call = .returned key outcome → m.answers call = some outcome
  replays : ∀ call key statusCode response,
    s.calls call = .returned key (.replayed statusCode response) → response ≠ .null

/-- Every run whose steps satisfy `meets` agrees with the memory store that is
driven in lock step. -/
def RefinesMemory (jsonParse : String → Option Json)
    (meets : System → Action → Prop) : Prop :=
  ∀ s, Reaches (step jsonParse) meets .init s →
    ∃ m, Reaches (pairStep jsonParse) anyStep (.init, .init) (s, m) ∧ Agrees s m

/-- A response that both stores hand back unchanged: the memory store tests it
for truth, the Postgres store parses a string once more. -/
def Recordable (response : Json) : Prop :=
  response.truthy = true ∧ response.asString? = none

/-- The first `SELECT` finds no row or a completed one, and a response is
recorded only for a claimed key. -/
def FindsNoOpenClaim (s : System) : Action → Prop
  | .select call => ∀ store key row, s.calls call = .started store key →
      s.rows.get key = some row → row.response.isSome = true
  | .complete _ key _ response => (s.rows.get key).isSome = true ∧ Recordable response
  | _ => True

def BeginOutcome.Answered : BeginOutcome → Prop
  | .replayed _ response => response.truthy = true
  | _ => True

/-- How far a call has got, against the last answer for it.  A call found to be
a loser at its `INSERT` polls with a conflict in hand, unless the claim was
completed in between; then its first poll finds the response. -/
def CallRelated (rows : InsertionMap String Row) :
    BeginCall → Option BeginOutcome → Prop
  | .notMade, answer => answer = none
  | .started _ _, answer => answer = none
  | .selected _ _, answer => answer = none
  | .polling _ key polled, answer => answer = some .conflict ∨
      (polled = false ∧ Recorded rows key ∧
        ∃ statusCode response, answer = some (.replayed statusCode response))
  | .returned _ outcome, answer => answer = some outcome ∧ BeginOutcome.Answered outcome

structure Related (s : System) (m : Spec) : Prop where
  healthy : ∀ store, s.degraded store = false
  records : ∀ key, m.store.records.get key = (s.rows.get key).map Row.record
  recordable : ∀ key row response, s.rows.get key = some row →
    row.response = some response → Recordable response
  calls : ∀ call, CallRelated s.rows (s.calls call) (m.answers call)

theorem Related.init : Related .init .init where
  healthy := fun _ => rfl
  records := fun _ => rfl
  recordable := fun key row response hrow => by simp [System.init] at hrow
  calls := fun _ => rfl

theorem Related.agrees {s : System} {m : Spec} (hrel : Related s m) : Agrees s m where
  records := hrel.records
  outcomes := by
    intro call key outcome hcall
    have hrelated := hrel.calls call
    rw [hcall] at hrelated
    exact hrelated.1
  replays := by
    intro call key statusCode response hcall hnull
    have hrelated := hrel.calls call
    rw [hcall] at hrelated
    have htruthy : response.truthy = true := hrelated.2
    rw [hnull] at htruthy
    exact absurd htruthy (by decide)

variable {answer : Option BeginOutcome} {rows : InsertionMap String Row} {row : Row}
  {state : BeginCall} {jsonParse : String → Option Json}

/-- A completed row stays completed when another row is set, and when its own
row is completed again. -/
theorem CallRelated.mono {rows' : InsertionMap String Row}
    (hmono : ∀ key, Recorded rows key → Recorded rows' key) {call : BeginCall}
    (hcall : CallRelated rows call answer) : CallRelated rows' call answer := by
  cases call with
  | polling store key polled =>
      apply hcall.imp_right
      intro h
      exact ⟨h.1, hmono key h.2.1, h.2.2⟩
  | notMade => exact hcall
  | started store key => exact hcall
  | selected store key => exact hcall
  | returned key outcome => exact hcall

theorem Recorded.of_ne {key other : String} (hopen : ¬ Recorded rows key)
    (hother : Recorded rows other) : Recorded (rows.set key row) other := by
  obtain ⟨found, hfound, hresponse⟩ := hother
  have hne : other ≠ key := by
    rintro rfl
    exact hopen ⟨found, hfound, hresponse⟩
  exact ⟨found, (InsertionMap.get_set_of_ne rows row hne).trans hfound, hresponse⟩

theorem readResponse_of_recordable (jsonParse : String → Option Json) {response : Json}
    (hresponse : Recordable response) :
    readResponse jsonParse (some response) = some response := by
  have hnotString := hresponse.2
  cases response with
  | str text => simp [Json.asString?] at hnotString
  | _ => rfl

/-- The memory store's answer for a key whose row is known. -/
theorem begin_of_row {s : System} {m : Spec} (hrel : Related s m) (key : String) :
    (m.store.begin key).1 = beginOutcome ((s.rows.get key).map Row.record) := by
  rw [MemoryIdempotencyStore.begin_fst, hrel.records]

/-- An answer that is not ownership leaves the memory store as it is. -/
theorem get_begin_of_not_owner {m : Spec} {key : String}
    (houtcome : (m.store.begin key).1.isOwner = false) (other : String) :
    (m.store.begin key).2.records.get other = m.store.records.get other := by
  rw [MemoryIdempotencyStore.get_begin, houtcome]
  simp

/-- Moving one call, with the answer that goes with it, keeps the relation. -/
theorem Related.setCall {s : System} {m : Spec} (hrel : Related s m) {call : ℕ}
    (hstate : CallRelated s.rows state (m.answers call)) : Related (s.setCall call state) m where
  healthy := hrel.healthy
  records := hrel.records
  recordable := hrel.recordable
  calls := by
    intro other
    by_cases hother : other = call
    · subst hother
      simpa [System.setCall] using hstate
    · simpa [System.setCall, Function.update_of_ne hother] using hrel.calls other

/-- Asking for a key that is taken, and moving the call along with the answer. -/
theorem Related.ask_taken {s : System} {m : Spec} (hrel : Related s m) {call : ℕ} {key : String}
    (houtcome : (m.store.begin key).1.isOwner = false)
    (hstate : CallRelated s.rows state (some (m.store.begin key).1)) :
    Related (s.setCall call state) (m.ask call key) where
  healthy := hrel.healthy
  records := by
    intro other
    exact (get_begin_of_not_owner houtcome other).trans (hrel.records other)
  recordable := hrel.recordable
  calls := by
    intro other
    by_cases hother : other = call
    · subst hother
      simpa [System.setCall, Spec.ask] using hstate
    · simpa [System.setCall, Spec.ask, Function.update_of_ne hother] using
        hrel.calls other

/-- A completed row is replayed by both stores. -/
theorem Related.replay {s : System} {m : Spec} (hrel : Related s m)
    (jsonParse : String → Option Json) {call store : ℕ} {key : String}
    (hrow : s.rows.get key = some row) (hresponse : row.response.isSome = true) :
    Related (replayRow jsonParse s call store key row) (m.ask call key) := by
  obtain ⟨response, hsome⟩ := Option.isSome_iff_exists.mp hresponse
  have hrecordable := hrel.recordable key row response hrow hsome
  have houtcome : (m.store.begin key).1 = .replayed row.statusCode response := by
    rw [begin_of_row hrel, hrow, Option.map_some, Row.record, hsome]
    exact if_pos hrecordable.1
  rw [replayRow, hsome, readResponse_of_recordable jsonParse hrecordable]
  apply hrel.ask_taken
  · rw [houtcome]
    rfl
  · rw [houtcome]
    exact ⟨rfl, hrecordable.1⟩

/-- Asking is enabled for a call that is not an owner. -/
theorem step_ask {m : Spec} {call : ℕ} (key : String)
    (hanswer : m.answers call ≠ some .owner) :
    run Spec.step m [.ask call key] = some (m.ask call key) := by
  simp only [run, Spec.step]
  rfl

section Statements

variable {s : System} {m : Spec} {call store : ℕ} {key : String}

/-- The claiming `INSERT` and the memory store's `begin` claim together. -/
theorem Related.claim (hrel : Related s m) (hrow : s.rows.get key = none) :
    Related
      { s with
        rows := s.rows.set key .claimed
        calls := Function.update s.calls call (.returned key .owner) }
      (m.ask call key) where
  healthy := hrel.healthy
  records := by
    intro other
    have houtcome : (m.store.begin key).1 = .owner := by
      rw [begin_of_row hrel, hrow]
      rfl
    change (m.store.begin key).2.records.get other = _
    rw [MemoryIdempotencyStore.get_begin, houtcome, InsertionMap.get_set]
    by_cases hother : other = key
    · simp [hother, BeginOutcome.isOwner, Row.record, Row.claimed]
    · simpa [hother] using hrel.records other
  recordable := by
    intro other row response hother hresponse
    rw [InsertionMap.get_set] at hother
    split at hother
    · cases hother
      simp [Row.claimed] at hresponse
    · exact hrel.recordable other row response hother hresponse
  calls := by
    intro other
    have houtcome : (m.store.begin key).1 = .owner := by
      rw [begin_of_row hrel, hrow]
      rfl
    by_cases hother : other = call
    · subst hother
      simp [Spec.ask, houtcome, CallRelated, BeginOutcome.Answered]
    · have hmono : ∀ k, Recorded s.rows k → Recorded (s.rows.set key .claimed) k := by
        intro k hk
        apply Recorded.of_ne _ hk
        rintro ⟨row, hget, -⟩
        simp [hrow] at hget
      simpa [Spec.ask, Function.update_of_ne hother] using
        (hrel.calls other).mono hmono

/-- A loser at the `INSERT` holds a conflict, or a replay when the claim was
completed since its `SELECT`. -/
theorem Related.lose (hrel : Related s m) {row : Row}
    (hrow : s.rows.get key = some row) :
    Related (s.setCall call (.polling store key false)) (m.ask call key) := by
  have houtcome : (m.store.begin key).1 = beginOutcome (some row.record) := by
    rw [begin_of_row hrel, hrow]
    rfl
  cases hresponse : row.response with
  | none =>
      have hconflict : (m.store.begin key).1 = .conflict := by
        rw [houtcome, Row.record, hresponse]
        rfl
      apply hrel.ask_taken
      · rw [hconflict]
        rfl
      · exact Or.inl (by rw [hconflict])
  | some response =>
      have hrecordable := hrel.recordable key row response hrow hresponse
      have hreplay : (m.store.begin key).1 = .replayed row.statusCode response := by
        rw [houtcome, Row.record, hresponse]
        exact if_pos hrecordable.1
      apply hrel.ask_taken
      · rw [hreplay]
        rfl
      · refine Or.inr ⟨rfl, ⟨row, hrow, by rw [hresponse]; rfl⟩, ?_⟩
        exact ⟨row.statusCode, response, by rw [hreplay]⟩

/-- A poll that finds no response leaves a call with its conflict. -/
theorem Related.pollAgain (hrel : Related s m) {polled : Bool}
    (hcall : s.calls call = .polling store key polled)
    (hopen : ¬ Recorded s.rows key) :
    Related (s.setCall call (.polling store key true)) m := by
  have hrelated := hrel.calls call
  rw [hcall] at hrelated
  apply hrel.setCall
  rcases hrelated with hconflict | ⟨-, hrecorded, -⟩
  · exact Or.inl hconflict
  · exact absurd hrecorded hopen

theorem Related.deadline (hrel : Related s m)
    (hcall : s.calls call = .polling store key true) :
    Related (s.setCall call (.returned key .conflict)) m := by
  have hrelated := hrel.calls call
  rw [hcall] at hrelated
  apply hrel.setCall
  rcases hrelated with hconflict | ⟨hpolled, -⟩
  · exact ⟨hconflict, trivial⟩
  · exact absurd hpolled (by decide)

/-- Completing a claimed key records the response in both stores. -/
theorem Related.complete (hrel : Related s m) (statusCode : ℕ) {response : Json}
    (hrecordable : Recordable response) :
    Related { s with rows := s.rows.set key ⟨statusCode, some response⟩ }
      { m with store := m.store.complete key statusCode response } where
  healthy := hrel.healthy
  records := by
    intro other
    rw [MemoryIdempotencyStore.get_complete, InsertionMap.get_set]
    split
    · rfl
    · exact hrel.records other
  recordable := by
    intro other row found hother hfound
    rw [InsertionMap.get_set] at hother
    split at hother
    · cases hother
      cases hfound
      exact hrecordable
    · exact hrel.recordable other row found hother hfound
  calls := by
    intro other
    apply (hrel.calls other).mono
    intro k hk
    by_cases hkey : k = key
    · subst hkey
      exact ⟨_, InsertionMap.get_set_self _ _ _, rfl⟩
    · obtain ⟨row, hrow, hresponse⟩ := hk
      exact ⟨row, (InsertionMap.get_set_of_ne _ _ hkey).trans hrow, hresponse⟩

/-- `fail` deletes a row without a response, and nothing else. -/
theorem Related.fail (hrel : Related s m) {statusCode : ℕ}
    (hrow : s.rows.get key = some ⟨statusCode, none⟩) :
    Related { s with rows := s.rows.erase key }
      { m with store := m.store.fail key } where
  healthy := hrel.healthy
  records := by
    intro other
    rw [MemoryIdempotencyStore.get_fail, InsertionMap.get_erase]
    split
    · next hother =>
        rw [hother, hrel.records, hrow]
        rfl
    · exact hrel.records other
  recordable := by
    intro other row response hother
    rw [InsertionMap.get_erase] at hother
    split at hother
    · cases hother
    · exact hrel.recordable other row response hother
  calls := by
    intro other
    apply (hrel.calls other).mono
    rintro k ⟨row, hk, hresponse⟩
    have hkey : k ≠ key := by
      rintro rfl
      rw [hrow] at hk
      cases hk
      cases hresponse
    exact ⟨row, (InsertionMap.get_erase_of_ne _ hkey).trans hk, hresponse⟩

/-- `fail` on a key without an open claim changes neither store. -/
theorem Related.fail_taken (hrel : Related s m)
    (hrow : ∀ row, s.rows.get key = some row → row.response.isSome = true) :
    Related s { m with store := m.store.fail key } where
  healthy := hrel.healthy
  records := by
    intro other
    rw [MemoryIdempotencyStore.get_fail]
    split
    · next hother =>
        rw [hother, hrel.records]
        cases hget : s.rows.get key with
        | none => rfl
        | some row =>
            obtain ⟨response, hresponse⟩ := Option.isSome_iff_exists.mp (hrow row hget)
            simp [Row.record, hresponse, ClaimRecord.isPending]
    · exact hrel.records other
  recordable := hrel.recordable
  calls := hrel.calls

end Statements

theorem not_owner_of_none (hnone : answer = none) : answer ≠ some .owner := by
  rw [hnone]
  simp

/-- A polling call is not an owner, so it may be asked again. -/
theorem CallRelated.polling_not_owner {store : ℕ} {key : String} {polled : Bool}
    (hcall : CallRelated rows (.polling store key polled) answer) : answer ≠ some .owner := by
  rcases hcall with hconflict | ⟨-, -, statusCode, response, hreplay⟩
  · rw [hconflict]
    simp
  · rw [hreplay]
    simp

/-- Every statement is matched by the operations that `linearize` names. -/
theorem Related.step {s s' : System} {m : Spec} {action : Action} (hrel : Related s m)
    (hmeets : FindsNoOpenClaim s action) (hstep : step jsonParse s action = some s') :
    ∃ m', run Spec.step m (linearize s action) = some m' ∧ Related s' m' := by
  cases action with
  | beginCall call store key =>
      simp only [PostgresIdempotency.step] at hstep
      split at hstep
      · next hcall =>
          rw [hrel.healthy store] at hstep
          cases hstep
          have hrelated := hrel.calls call
          rw [hcall] at hrelated
          exact ⟨m, rfl, hrel.setCall hrelated⟩
      · cases hstep
  | select call =>
      simp only [PostgresIdempotency.step] at hstep
      split at hstep
      · next store key hcall =>
          have hanswer := hrel.calls call
          rw [hcall] at hanswer
          cases hrow : s.rows.get key with
          | some row =>
              simp only [hrow] at hstep
              cases hstep
              have hlin : linearize s (.select call) = [.ask call key] := by
                simp [linearize, hcall, hrow]
              rw [hlin]
              exact ⟨_, step_ask key (not_owner_of_none hanswer),
                hrel.replay jsonParse hrow (hmeets store key row hcall hrow)⟩
          | none =>
              simp only [hrow] at hstep
              cases hstep
              have hlin : linearize s (.select call) = [] := by
                simp [linearize, hcall, hrow]
              rw [hlin]
              exact ⟨m, rfl, hrel.setCall hanswer⟩
      · cases hstep
  | insert call =>
      simp only [PostgresIdempotency.step] at hstep
      split at hstep
      · next store key hcall =>
          have hanswer := hrel.calls call
          rw [hcall] at hanswer
          have hlin : linearize s (.insert call) = [.ask call key] := by
            simp [linearize, hcall]
          rw [hlin]
          refine ⟨_, step_ask key (not_owner_of_none hanswer), ?_⟩
          cases hrow : s.rows.get key with
          | none =>
              simp only [hrow] at hstep
              cases hstep
              exact hrel.claim hrow
          | some row =>
              simp only [hrow] at hstep
              cases hstep
              exact hrel.lose hrow
      · cases hstep
  | poll call =>
      simp only [PostgresIdempotency.step] at hstep
      split at hstep
      · next store key polled hcall =>
          have hanswer := hrel.calls call
          rw [hcall] at hanswer
          cases hrow : (s.rows.get key).filter fun row => row.response.isSome with
          | some row =>
              simp only [hrow] at hstep
              cases hstep
              obtain ⟨hget, hresponse⟩ := Option.filter_eq_some_iff.mp hrow
              have hrecorded : Recorded s.rows key := ⟨row, hget, hresponse⟩
              have hlin : linearize s (.poll call) = [.ask call key] := by
                simp [linearize, hcall, hrecorded]
              rw [hlin]
              exact ⟨_, step_ask key hanswer.polling_not_owner,
                hrel.replay jsonParse hget hresponse⟩
          | none =>
              simp only [hrow] at hstep
              cases hstep
              have hopen : ¬ Recorded s.rows key := by
                rintro ⟨row, hget, hresponse⟩
                rw [Option.filter_eq_none_iff] at hrow
                exact hrow row hget hresponse
              have hlin : linearize s (.poll call) = [] := by
                simp [linearize, hcall, hopen]
              rw [hlin]
              exact ⟨m, rfl, hrel.pollAgain hcall hopen⟩
      · cases hstep
  | deadline call =>
      simp only [PostgresIdempotency.step] at hstep
      split at hstep
      · next store key hcall =>
          cases hstep
          exact ⟨m, rfl, hrel.deadline hcall⟩
      · cases hstep
  | complete store key statusCode response =>
      refine ⟨_, rfl, ?_⟩
      obtain ⟨hclaimed, hrecordable⟩ := hmeets
      obtain ⟨row, hrow⟩ := Option.isSome_iff_exists.mp hclaimed
      simp only [PostgresIdempotency.step, hrel.healthy store, hrow] at hstep
      cases hstep
      exact hrel.complete statusCode hrecordable
  | fail store key =>
      refine ⟨_, rfl, ?_⟩
      simp only [PostgresIdempotency.step, hrel.healthy store] at hstep
      rcases hrow : s.rows.get key with _ | ⟨statusCode, _ | response⟩
      · simp only [hrow] at hstep
        cases hstep
        exact hrel.fail_taken fun row h => by rw [hrow] at h; cases h
      · simp only [hrow] at hstep
        cases hstep
        exact hrel.fail hrow
      · simp only [hrow] at hstep
        cases hstep
        exact hrel.fail_taken fun row h => by rw [hrow] at h; cases h; rfl

/-- The lock-step run exists and stays related. -/
theorem Related.reaches {s : System}
    (hreach : Reaches (PostgresIdempotency.step jsonParse) FindsNoOpenClaim .init s) :
    ∃ m, Reaches (pairStep jsonParse) anyStep (.init, .init) (s, m) ∧ Related s m := by
  have hmatched : ∀ before action after (pair : System × Spec),
      pair.1 = before ∧ Related before pair.2 → FindsNoOpenClaim before action →
      PostgresIdempotency.step jsonParse before action = some after →
      ∃ pair', Reaches (pairStep jsonParse) anyStep pair pair' ∧
        (pair'.1 = after ∧ Related after pair'.2) := by
    rintro _ action after ⟨before, m⟩ ⟨rfl, hrel⟩ hmeets hstep
    obtain ⟨m', hrun, hrel'⟩ := hrel.step hmeets hstep
    have hlock : pairStep jsonParse (before, m) action = some (after, m') := by
      simp only [pairStep, hstep, Option.bind_some, hrun, Option.map_some]
    exact ⟨(after, m'), (Reaches.refl _).tail trivial hlock, rfl, hrel'⟩
  have hinit : (System.init, Spec.init).1 = System.init ∧
      Related .init (System.init, Spec.init).2 := ⟨rfl, .init⟩
  obtain ⟨⟨_, m⟩, hpair, rfl, hrel⟩ := hreach.simulates hmatched hinit
  exact ⟨m, hpair, hrel⟩

/-- While no `SELECT` finds an open claim, the Postgres store refines the
memory store: every interleaving of any number of callers gets the answers
that one memory store gives. -/
theorem refinesMemory_findsNoOpenClaim (jsonParse : String → Option Json) :
    RefinesMemory jsonParse FindsNoOpenClaim := by
  intro s hreach
  obtain ⟨m, hpair, hrel⟩ := Related.reaches hreach
  exact ⟨m, hpair, hrel.agrees⟩

def duplicateInFlight : List Action :=
  [.beginCall 0 0 "order-1", .select 0, .insert 0, .beginCall 1 1 "order-1", .select 1]

def BeginCall.isNullReplay : BeginCall → Bool
  | .returned _ (.replayed _ .null) => true
  | _ => false

theorem BeginCall.eq_of_isNullReplay {call : BeginCall} (hnull : call.isNullReplay = true) :
    ∃ key statusCode, call = .returned key (.replayed statusCode .null) := by
  unfold isNullReplay at hnull
  split at hnull
  · exact ⟨_, _, rfl⟩
  · cases hnull

/-- The duplicate is told that it replays a response, which is null. -/
theorem not_refinesMemory_anyStep :
    ¬ RefinesMemory (fun _ => none) anyStep := by
  intro hrefines
  have hrun : (run (step fun _ => none) System.init duplicateInFlight).map
      (fun s => (s.calls 1).isNullReplay) = some true := by
    decide
  obtain ⟨s, hreach, hreplayed⟩ := exists_reaches_of_run hrun
  obtain ⟨m, -, hagrees⟩ := hrefines s hreach
  obtain ⟨key, statusCode, hcall⟩ := BeginCall.eq_of_isNullReplay hreplayed
  exact hagrees.replays 1 key statusCode .null hcall rfl

end X402Facilitator.PostgresIdempotency
