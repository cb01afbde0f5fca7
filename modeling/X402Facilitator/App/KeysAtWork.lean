import X402Facilitator.App.Notifications
import X402Facilitator.Library.Eviction

/-!
# Who is at work on a settlement

A handler is at work on its key from the success of `facilitator.settle` until its
event is enqueued or handed back, a sweep on every key it has listed and not yet
dealt with.  A step gives a key to nobody but a sweep that lists it and a handler
that reports its success, and the keys of a listing are distinct.
-/

namespace X402Facilitator.Notifications

open X402Facilitator.Execution

inductive Party where
  | handler (handler : ℕ)
  | sweep (sweep : ℕ)

/-- The key a handler has yet to announce: `facilitator.settle` has succeeded and
its event is neither enqueued nor handed back. -/
def Handler.keys : Handler → List String
  | succeeded _ key _ _ => [key]
  | settling _ key _ _ => [key]
  | _ => []

/-- The keys a sweep has listed and not yet dealt with. -/
def Sweep.keys : Sweep → List String
  | idle => []
  | polling _ records => records.map Settlement.idempotencyKey
  | applying _ key _ records => key :: records.map Settlement.idempotencyKey

def System.keysOf (s : System) : Party → List String
  | .handler handler => (s.handlers handler).keys
  | .sweep sweep => (s.sweeps sweep).keys

def Keyed (memory : MemorySettlementStore ℕ) : Prop :=
  ∀ key record, memory.get key = some record → record.idempotencyKey = key

section Memories

variable {memory : MemorySettlementStore ℕ}

theorem Keyed.save (hkeyed : Keyed memory) (now : ℕ) (record : SettlementInput) :
    Keyed (memory.save now record).1 := by
  intro key found hget
  rw [MemorySettlementStore.get_save] at hget
  split at hget
  · next hkey =>
      cases hget
      exact hkey.symm
  · exact hkeyed key found hget

theorem Keyed.updateState (hkeyed : Keyed memory) (now : ℕ) (key : String)
    (state : TargetState) (details : StateDetails) :
    Keyed (memory.updateState now key state details).1 := by
  intro other found hget
  rw [MemorySettlementStore.get_updateState] at hget
  split at hget
  · next hother =>
      cases hget
      cases hbefore : memory.get other with
      | none => exact hother.1.symm
      | some record => exact hkeyed other record hbefore
  · exact hkeyed other found hget

theorem Keyed.inMemory (hkeyed : Keyed memory) (now : ℕ) (operation : AppendOperation) :
    Keyed (operation.inMemory memory now).1 := by
  cases operation with
  | save record => exact hkeyed.save now record
  | updateState key state details => exact hkeyed.updateState now key state details
  | settleAndEnqueue key details event => exact hkeyed.updateState now key .settled details

theorem Keyed.mirror (hkeyed : Keyed memory) (now : ℕ) (row : ProjectionRow)
    (operation : AppendOperation) : Keyed (operation.mirror memory now row) := by
  cases operation with
  | save record => exact hkeyed.save now _
  | updateState key state details => exact hkeyed.updateState now key state details
  | settleAndEnqueue key details event => exact hkeyed.updateState now key .settled details

end Memories

section Steps

variable {config : ReconcileConfig} {s s' : System}

def System.StoresKeyed (s : System) : Prop :=
  ∀ process, Keyed (s.processes process).memory

theorem System.StoresKeyed.setProcess (hkeyed : s.StoresKeyed) {index : ℕ}
    {process : Process} (hprocess : Keyed process.memory) :
    (s.setProcess index process).StoresKeyed := by
  intro other
  change Keyed (Function.update s.processes index process other).memory
  by_cases hother : other = index
  · subst hother
    rw [Function.update_self]
    exact hprocess
  · rw [Function.update_of_ne hother]
    exact hkeyed other

theorem System.StoresKeyed.runStatement (hkeyed : s.StoresKeyed) (process : ℕ)
    (operation : AppendOperation) (outcome : Outcome) (databaseNow now : ℕ) :
    (s.runStatement process operation outcome databaseNow now).1.StoresKeyed := by
  rw [System.runStatement.eq_def]
  have hfallBack : ∀ t : System, t.processes = s.processes →
      (t.fallBack process operation now).StoresKeyed := by
    intro t hsame
    have ht : t.StoresKeyed := by
      intro other
      rw [hsame]
      exact hkeyed other
    exact ht.setProcess ((ht process).inMemory now operation)
  split
  · next database row _ =>
      cases row with
      | none => exact hkeyed
      | some row => exact hkeyed.setProcess ((hkeyed process).mirror now row operation)
  · exact hfallBack _ rfl
  · exact hfallBack _ rfl

theorem System.StoresKeyed.settleAndEnqueue (hkeyed : s.StoresKeyed) (process : ℕ)
    (key id : String) (details : StateDetails) (event : SettlementNotification)
    (outcome : Outcome) (databaseNow now : ℕ) :
    (s.settleAndEnqueue process key id details event outcome databaseNow
      now).1.StoresKeyed := by
  have hrun := hkeyed.runStatement process
    (.settleAndEnqueue key details (some (id, event))) outcome databaseNow now
  rw [System.settleAndEnqueue.eq_def]
  split
  next after reported hafter =>
    rw [hafter] at hrun
    split <;> exact hrun

inductive TakesUp (s : System) : Action → Party → List String → Prop
  | lists (sweep process lag : ℕ) (records : List (Settlement ℕ))
      (hlisted : s.listed process lag = some records) :
      TakesUp s (.listUnknown sweep process lag) (.sweep sweep)
        (records.map Settlement.idempotencyKey)
  | succeeds (handler process : ℕ) (key : String) (details : StateDetails)
      (event : SettlementNotification) (hphase : s.handlers handler = .saved process key) :
      TakesUp s (.settleSucceeds handler details event) (.handler handler) [key]

structure Works (s : System) (action : Action) (s' : System) : Prop where
  stores : s.StoresKeyed → s'.StoresKeyed
  keys : ∀ party, (s'.keysOf party).Sublist (s.keysOf party) ∨
    TakesUp s action party (s'.keysOf party)

section Working

variable {action : Action}

/-- Handlers and sweeps stay where they are. -/
theorem Works.same (hstores : s.StoresKeyed → s'.StoresKeyed)
    (hhandlers : s'.handlers = s.handlers) (hsweeps : s'.sweeps = s.sweeps) :
    Works s action s' where
  stores := hstores
  keys := by
    intro party
    left
    cases party with
    | handler handler => rw [System.keysOf, hhandlers, System.keysOf]
    | sweep sweep => rw [System.keysOf, hsweeps, System.keysOf]

variable {index now databaseNow : ℕ} {id : String} {outcome : Outcome}

theorem Works.handler (hstores : s.StoresKeyed → s'.StoresKeyed) {handler : Handler}
    (hhandlers : s'.handlers = Function.update s.handlers index handler)
    (hsweeps : s'.sweeps = s.sweeps) (hkeys : handler.keys.Sublist (s.handlers index).keys ∨
      TakesUp s action (.handler index) handler.keys) : Works s action s' where
  stores := hstores
  keys := by
    intro party
    cases party with
    | handler other =>
        rw [System.keysOf, hhandlers]
        by_cases hother : other = index
        · subst hother
          rw [Function.update_self]
          exact hkeys
        · rw [Function.update_of_ne hother]
          exact Or.inl (List.Sublist.refl _)
    | sweep sweep =>
        rw [System.keysOf, hsweeps]
        exact Or.inl (List.Sublist.refl _)

theorem Works.sweep (hstores : s.StoresKeyed → s'.StoresKeyed) {sweep : Sweep}
    (hhandlers : s'.handlers = s.handlers)
    (hsweeps : s'.sweeps = Function.update s.sweeps index sweep)
    (hkeys : sweep.keys.Sublist (s.sweeps index).keys ∨
      TakesUp s action (.sweep index) sweep.keys) : Works s action s' where
  stores := hstores
  keys := by
    intro party
    cases party with
    | handler handler =>
        rw [System.keysOf, hhandlers]
        exact Or.inl (List.Sublist.refl _)
    | sweep other =>
        rw [System.keysOf, hsweeps]
        by_cases hother : other = index
        · subst hother
          rw [Function.update_self]
          exact hkeys
        · rw [Function.update_of_ne hother]
          exact Or.inl (List.Sublist.refl _)

theorem works_enqueueStarts {handler : ℕ}
    (hstep : step config s (.enqueueStarts handler now) = some s') :
    Works s (.enqueueStarts handler now) s' := by
  rw [step] at hstep
  split at hstep
  · next process key details event hphase =>
      split at hstep
      · cases hstep
        refine Works.handler id rfl rfl ?_
        rw [hphase]
        exact Or.inl (List.Sublist.refl _)
      · cases hstep
        refine Works.handler ?_ rfl rfl (Or.inl (List.nil_sublist _))
        exact fun hkeyed => hkeyed.setProcess ((hkeyed process).inMemory now _)
  · cases hstep

theorem works_enqueueEnds (hdb : s.database.Agrees) {handler : ℕ}
    (hstep : step config s (.enqueueEnds handler id outcome databaseNow now) = some s') :
    Works s (.enqueueEnds handler id outcome databaseNow now) s' := by
  rw [step] at hstep
  split at hstep
  · next process key details event hphase =>
      split at hstep
      · have hstores := fun hkeyed : s.StoresKeyed =>
          hkeyed.settleAndEnqueue process key id details event outcome databaseNow now
        obtain ⟨processes, hsettle⟩ := System.settleAndEnqueue_eq hdb process key id details
          event outcome databaseNow now
        rw [hsettle] at hstep hstores
        cases hstep
        exact Works.handler hstores rfl rfl (Or.inl (List.nil_sublist _))
      · cases hstep
  · cases hstep

theorem works_deliver {handler : ℕ} (hstep : step config s (.deliver handler) = some s') :
    Works s (.deliver handler) s' := by
  rw [step] at hstep
  split at hstep
  · next key event answer hphase =>
      cases answer with
      | none =>
          cases hstep
          exact Works.handler id rfl rfl (Or.inl (List.nil_sublist _))
      | some report =>
          obtain rfl : s.setHandler handler (.finished key event (some report)) = s' :=
            Option.some.inj hstep
          exact Works.handler id rfl rfl (Or.inl (List.nil_sublist _))
  · cases hstep

theorem works_poll {sweep : ℕ} {answer : RpcAnswer}
    (hstep : step config s (.poll sweep answer now) = some s') :
    Works s (.poll sweep answer now) s' := by
  rw [step] at hstep
  split at hstep
  · next process record records hphase =>
      have hrest : (records.map Settlement.idempotencyKey).Sublist (s.sweeps sweep).keys := by
        rw [hphase]
        exact List.sublist_cons_self _ _
      split at hstep
      · cases hstep
        exact Works.sweep id rfl rfl (Or.inl hrest)
      · split at hstep
        · cases hstep
          refine Works.sweep id rfl rfl ?_
          rw [hphase]
          exact Or.inl (List.Sublist.refl _)
        · cases hstep
          refine Works.sweep ?_ rfl rfl (Or.inl hrest)
          exact fun hkeyed => hkeyed.setProcess ((hkeyed process).inMemory now _)
  · cases hstep

theorem works_applyEnds (hdb : s.database.Agrees) {sweep : ℕ}
    (hstep : step config s (.applyEnds sweep id outcome databaseNow now) = some s') :
    Works s (.applyEnds sweep id outcome databaseNow now) s' := by
  rw [step] at hstep
  split at hstep
  · next process key resolution records hphase =>
      have hrest : (records.map Settlement.idempotencyKey).Sublist (s.sweeps sweep).keys := by
        rw [hphase]
        exact List.sublist_cons_self _ _
      split at hstep
      · next event _ _ =>
          split at hstep
          · have hstores := fun hkeyed : s.StoresKeyed => hkeyed.settleAndEnqueue process key id
              resolution.details event outcome databaseNow now
            obtain ⟨processes, hsettle⟩ := System.settleAndEnqueue_eq hdb process key id
              resolution.details event outcome databaseNow now
            rw [hsettle] at hstep hstores
            cases hstep
            exact Works.sweep hstores rfl rfl (Or.inl hrest)
          · cases hstep
      · cases hstep
      · have hstores := fun hkeyed : s.StoresKeyed =>
          hkeyed.runStatement process (updateOf key resolution) outcome databaseNow now
        obtain ⟨processes, hrun⟩ := System.runStatement_eq hdb process
          (updateOf key resolution) outcome databaseNow now
        rw [hrun] at hstep hstores
        cases hstep
        exact Works.sweep hstores rfl rfl (Or.inl hrest)
  · cases hstep

theorem works_of_step (hdb : s.database.Agrees) {action : Action}
    (hstep : step config s action = some s') : Works s action s' := by
  cases action with
  | poolReady process | replicaReady process | degrade process =>
      cases hstep
      exact Works.same (fun hkeyed => hkeyed.setProcess (hkeyed process)) rfl rfl
  | saveStarts handler process record now =>
      rw [step] at hstep
      split at hstep
      · split at hstep
        · cases hstep
          exact Works.handler id rfl rfl (Or.inl (List.nil_sublist _))
        · cases hstep
          refine Works.handler ?_ rfl rfl (Or.inl (List.nil_sublist _))
          exact fun hkeyed => hkeyed.setProcess ((hkeyed process).inMemory now _)
      · cases hstep
  | saveEnds handler outcome databaseNow now =>
      rw [step] at hstep
      split at hstep
      · next process record hphase =>
          have hstores := fun hkeyed : s.StoresKeyed =>
            hkeyed.runStatement process (.save record) outcome databaseNow now
          obtain ⟨processes, hrun⟩ :=
            System.runStatement_eq hdb process (.save record) outcome databaseNow now
          rw [hrun] at hstep hstores
          cases hstep
          exact Works.handler hstores rfl rfl (Or.inl (List.nil_sublist _))
      · cases hstep
  | settleSucceeds handler details event =>
      rw [step] at hstep
      split at hstep
      · next process key hphase =>
          cases hstep
          have htakes := TakesUp.succeeds handler process key details event hphase
          exact Works.handler id rfl rfl (Or.inr htakes)
      · cases hstep
  | enqueueStarts handler now => exact works_enqueueStarts hstep
  | enqueueEnds handler id outcome databaseNow now => exact works_enqueueEnds hdb hstep
  | deliver handler => exact works_deliver hstep
  | listUnknown sweep process lag =>
      rw [step] at hstep
      split at hstep
      · obtain ⟨records, hlisted, rfl⟩ := Option.map_eq_some_iff.mp hstep
        exact Works.sweep id rfl rfl (Or.inr (TakesUp.lists sweep process lag records hlisted))
      · cases hstep
  | poll sweep answer now => exact works_poll hstep
  | applyEnds sweep id outcome databaseNow now => exact works_applyEnds hdb hstep
  | sweepEnds sweep =>
      rw [step] at hstep
      split at hstep
      · cases hstep
        exact Works.sweep id rfl rfl (Or.inl (List.nil_sublist _))
      · cases hstep
  | writeStarts writer process write now =>
      rw [step] at hstep
      split at hstep
      · split at hstep
        · cases hstep
          exact Works.same id rfl rfl
        · cases hstep
          refine Works.same ?_ rfl rfl
          exact fun hkeyed => hkeyed.setProcess ((hkeyed process).inMemory now _)
      · cases hstep
  | writeEnds writer outcome databaseNow now =>
      rw [step] at hstep
      split at hstep
      · next process write hphase =>
          have hstores := fun hkeyed : s.StoresKeyed =>
            hkeyed.runStatement process write.operation outcome databaseNow now
          obtain ⟨processes, hrun⟩ :=
            System.runStatement_eq hdb process write.operation outcome databaseNow now
          rw [hrun] at hstep hstores
          cases hstep
          exact Works.same hstores rfl rfl
      · cases hstep

end Working

/-- The keys of a listing of the table are distinct. -/
theorem nodup_unknownRecords {db : Database} (hdb : db.Agrees) :
    ((unknownRecords db).map Settlement.idempotencyKey).Nodup := by
  have hsame : (db.projections.entries.map fun entry =>
      (mapProjectionRow entry.2).columns.idempotencyKey) =
        db.projections.entries.map Prod.fst := by
    apply List.map_congr_left
    intro entry hentry
    exact hdb.keyed entry.1 entry.2 (db.projections.get_of_mem hentry)
  apply List.Nodup.sublist (List.filter_sublist.map _)
  rw [List.map_map]
  exact hsame ▸ db.projections.keysNodup

structure Listable (s : System) : Prop where
  tables : s.database.Agrees
  past : ∀ db ∈ s.past, db.Agrees
  stores : s.StoresKeyed

theorem Listable.nodup_listed (hlistable : Listable s) {process lag : ℕ}
    {records : List (Settlement ℕ)} (hlisted : s.listed process lag = some records) :
    (records.map Settlement.idempotencyKey).Nodup := by
  rw [System.listed] at hlisted
  split at hlisted
  · cases hlisted
    exact nodup_listUnknown (hlistable.stores process)
  · split at hlisted
    · obtain ⟨db, hdb, rfl⟩ := Option.map_eq_some_iff.mp hlisted
      exact nodup_unknownRecords (hlistable.past db (List.mem_of_getElem? hdb))
    · cases hlisted
      exact nodup_unknownRecords hlistable.tables

theorem past_after (hdb : s.database.Agrees) (hpast : ∀ db ∈ s.past, db.Agrees)
    (operation : AppendOperation) (outcome : Outcome) (databaseNow : ℕ) :
    ∀ db ∈ (s.after operation outcome databaseNow).past, db.Agrees := by
  change ∀ db ∈ (if outcome = .fails then s.past
    else s.written operation databaseNow :: s.past), db.Agrees
  split
  · exact hpast
  · intro db hmem
    rcases List.mem_cons.mp hmem with rfl | hold
    · exact hdb.writes
    · exact hpast db hold

theorem Effect.past {action : Action} (heffect : Effect s action s')
    (hdb : s.database.Agrees) (hpast : ∀ db ∈ s.past, db.Agrees) :
    ∀ db ∈ s'.past, db.Agrees := by
  cases heffect with
  | quiet => exact hpast
  | statement operation outcome databaseNow => exact past_after hdb hpast operation _ _
  | sweepSettles => exact past_after hdb hpast _ _ _
  | handedBack => exact hpast
  | handlerSettles => exact past_after hdb hpast _ _ _
  | delivers => exact hpast

end Steps

end X402Facilitator.Notifications
