import X402Facilitator.App.Notifications

/-!
# No notification is lost

Once `facilitator.settle` has reported success, a handler that has finished has
its notification in the outbox, committed by the transaction that settled the
record, or has handed it to the publisher.  `NoneLost` is refuted for arbitrary
runs: a transaction that updates no row is reported as atomically enqueued.  It
holds of the runs in which every transaction that is answered finds its row.
-/

namespace X402Facilitator.Notifications

open X402Facilitator.Execution

/-- The reported transaction appended a settled event of the key and the
notification, and both are still there. -/
structure Report.Committed (report : Report) (db : Database) : Prop where
  settled : ∃ details seq now, report.after.events = report.before.events ++
    [⟨report.key, MemorySettlementStore.stateEvent report.key .settled details seq now⟩]
  enqueued : report.after.outbox = report.before.outbox ++ [(report.id, report.event)]
  kept : Kept report.after db

/-- What a handler was answered has been acted on. -/
def System.Delivered (s : System) (key : String) (event : SettlementNotification) :
    Option Report → Prop
  | some report => report.key = key ∧ report.event = event ∧ report.Committed s.database
  | none => (key, event) ∈ s.published

/-- Every finished handler has delivered its notification, and every report of
`atomicallyEnqueued` has its rows. -/
structure NotificationsKept (s : System) : Prop where
  delivered : ∀ handler key event answer,
    s.handlers handler = .finished key event answer → s.Delivered key event answer
  reported : ∀ report ∈ s.reports, report.Committed s.database

/-- In every state that a run with steps satisfying `meets` reaches. -/
def NoneLost (config : ReconcileConfig) (meets : System → Action → Prop) : Prop :=
  ∀ s, Reaches (step config) meets .init s → NotificationsKept s

/-- A settling transaction that is answered finds the row of its key. -/
def FindsRow (s : System) : Action → Prop
  | .enqueueEnds handler _ outcome _ _ =>
      match s.handlers handler with
      | .settling _ key _ _ =>
          outcome = .succeeds → (s.database.projections.get key).isSome = true
      | _ => True
  | .applyEnds sweep _ outcome _ _ =>
      match s.sweeps sweep with
      | .applying _ key _ _ =>
          outcome = .succeeds → (s.database.projections.get key).isSome = true
      | _ => True
  | _ => True

structure Accounted (s : System) : Prop where
  agrees : s.database.Agrees
  reported : ∀ report ∈ s.reports, report.Committed s.database
  answered : ∀ handler key event report finished,
    (s.handlers handler).outcome = some (key, event, some report, finished) →
      report ∈ s.reports ∧ report.key = key ∧ report.event = event
  published : ∀ handler key event,
    (s.handlers handler).outcome = some (key, event, none, true) →
      (key, event) ∈ s.published

theorem Accounted.init : Accounted .init where
  agrees := Database.Agrees.empty
  reported := fun report hreport => by cases hreport
  answered := fun _ _ _ _ _ houtcome => by cases houtcome
  published := fun _ _ _ houtcome => by cases houtcome

section Steps

variable {s s' : System}

variable {report : Report} {databaseNow : ℕ} {details : StateDetails}
  {event : SettlementNotification} {id key : String} {outcome : Outcome}

theorem Report.Committed.mono {earlier later : Database} (hcommitted : report.Committed earlier)
    (hkept : Kept earlier later) : report.Committed later :=
  ⟨hcommitted.settled, hcommitted.enqueued, hcommitted.kept.trans hkept⟩

/-- The report of a settling transaction that finds the row of its key. -/
theorem committed_reportOf
    (hrow : outcome = .succeeds → (s.database.projections.get key).isSome = true)
    (hreport : s.reportOf key id details event outcome databaseNow = some report) :
    report.Committed (s.after (settlement key id details event) outcome
        databaseNow).database ∧
      report.key = key ∧ report.event = event := by
  rw [System.reportOf] at hreport
  split at hreport
  · next hsucceeds =>
      cases hreport
      subst hsucceeds
      obtain ⟨row, hwritten⟩ := written_settlement s id details event databaseNow (hrow rfl)
      have hevents := congrArg Database.events hwritten
      have houtbox := congrArg Database.outbox hwritten
      exact ⟨⟨⟨details, _, _, hevents⟩, houtbox, Kept.refl _⟩, rfl, rfl⟩
  · cases hreport

/-- The reports after a settling transaction. -/
theorem Accounted.reported_settlement (haccounted : Accounted s)
    (hrow : outcome = .succeeds → (s.database.projections.get key).isSome = true) :
    ∀ report ∈ (s.reportOf key id details event outcome databaseNow).toList ++ s.reports,
      report.Committed
        (s.after (settlement key id details event) outcome databaseNow).database := by
  intro report hreport
  rcases List.mem_append.mp hreport with hnew | hold
  · exact (committed_reportOf hrow (Option.mem_toList.mp hnew)).1
  · exact (haccounted.reported report hold).mono (kept_after s _ _ _)

/-- A step that moves no handler to another outcome. -/
theorem Accounted.same (haccounted : Accounted s) (hagrees : s'.database.Agrees)
    (hreported : ∀ report ∈ s'.reports, report.Committed s'.database)
    (hreports : ∀ report ∈ s.reports, report ∈ s'.reports)
    (hpublished : s'.published = s.published)
    (houtcome : ∀ handler, (s'.handlers handler).outcome = (s.handlers handler).outcome) :
    Accounted s' where
  agrees := hagrees
  reported := hreported
  answered := by
    intro handler key event report finished hsome
    rw [houtcome] at hsome
    obtain ⟨hmem, hsame⟩ := haccounted.answered handler key event report finished hsome
    exact ⟨hreports report hmem, hsame⟩
  published := by
    intro handler key event hsome
    rw [houtcome] at hsome
    rw [hpublished]
    exact haccounted.published handler key event hsome

/-- A step of one handler, with what its new outcome says. -/
theorem Accounted.moved (haccounted : Accounted s) (hagrees : s'.database.Agrees)
    (hreported : ∀ report ∈ s'.reports, report.Committed s'.database)
    (hreports : ∀ report ∈ s.reports, report ∈ s'.reports)
    (hpublished : ∀ notification ∈ s.published, notification ∈ s'.published)
    {index : ℕ} {handler : Handler}
    (hhandlers : s'.handlers = Function.update s.handlers index handler)
    (hanswer : ∀ key event report finished,
      handler.outcome = some (key, event, some report, finished) →
        report ∈ s'.reports ∧ report.key = key ∧ report.event = event)
    (hpublish : ∀ key event, handler.outcome = some (key, event, none, true) →
      (key, event) ∈ s'.published) : Accounted s' where
  agrees := hagrees
  reported := hreported
  answered := by
    intro other key event report finished hsome
    rw [hhandlers] at hsome
    rcases outcome_update_cases hsome with ⟨-, hself⟩ | ⟨-, hold⟩
    · exact hanswer key event report finished hself
    · obtain ⟨hmem, hsame⟩ := haccounted.answered other key event report finished hold
      exact ⟨hreports report hmem, hsame⟩
  published := by
    intro other key event hsome
    rw [hhandlers] at hsome
    rcases outcome_update_cases hsome with ⟨-, hself⟩ | ⟨-, hold⟩
    · exact hpublish key event hself
    · exact hpublished _ (haccounted.published other key event hold)

theorem Accounted.step {config : ReconcileConfig} {action : Action}
    (haccounted : Accounted s) (hmeets : FindsRow s action)
    (hstep : step config s action = some s') : Accounted s' := by
  have heffect := effect_of_step haccounted.agrees hstep
  have hagrees := heffect.agrees haccounted.agrees
  cases heffect with
  | quiet processes handlers sweeps writers houtcome =>
      exact haccounted.same hagrees haccounted.reported (fun _ hmem => hmem) rfl houtcome
  | statement operation outcome databaseNow processes handlers sweeps writers _ houtcome =>
      apply haccounted.same hagrees
      · intro report hreport
        exact (haccounted.reported report hreport).mono (kept_after s _ _ _)
      · exact fun _ hmem => hmem
      · rfl
      · exact houtcome
  | sweepSettles sweep process key id resolution event records outcome databaseNow now
      processes hphase =>
      rw [FindsRow, hphase] at hmeets
      apply haccounted.same hagrees (haccounted.reported_settlement hmeets)
      · exact fun _ hmem => List.mem_append_right _ hmem
      · rfl
      · exact fun _ => rfl
  | handedBack handler process now key details event processes hphase =>
      apply haccounted.moved hagrees haccounted.reported (fun _ hmem => hmem)
        (fun _ hmem => hmem) rfl
      · intro key' event' report finished hself
        cases hself
      · intro key' event' hself
        cases hself
  | handlerSettles handler process key id details event outcome databaseNow now processes
      hphase =>
      rw [FindsRow, hphase] at hmeets
      apply haccounted.moved hagrees (haccounted.reported_settlement hmeets)
        (fun _ hmem => List.mem_append_right _ hmem) (fun _ hmem => hmem) rfl
      · intro key' event' report finished hself
        simp only [Handler.outcome, Option.some.injEq, Prod.mk.injEq] at hself
        obtain ⟨rfl, rfl, hreport, -⟩ := hself
        obtain ⟨-, hkey, hevent⟩ := committed_reportOf hmeets hreport
        refine ⟨List.mem_append_left _ ?_, hkey, hevent⟩
        exact Option.mem_toList.mpr hreport
      · intro key' event' hself
        simp only [Handler.outcome, Option.some.injEq, Prod.mk.injEq] at hself
        exact absurd hself.2.2.2 (by simp)
  | delivers handler key event answer hphase =>
      apply haccounted.moved hagrees haccounted.reported (fun _ hmem => hmem)
        (fun _ hmem => List.mem_append_left _ hmem) rfl
      · intro key' event' report finished hself
        simp only [Handler.outcome, Option.some.injEq, Prod.mk.injEq] at hself
        obtain ⟨rfl, rfl, rfl, -⟩ := hself
        apply haccounted.answered handler key event report false
        rw [hphase]
        rfl
      · intro key' event' hself
        simp only [Handler.outcome, Option.some.injEq, Prod.mk.injEq] at hself
        obtain ⟨rfl, rfl, rfl, -⟩ := hself
        exact List.mem_append_right _ (List.mem_singleton_self _)

theorem Accounted.kept (haccounted : Accounted s) : NotificationsKept s where
  delivered := by
    intro handler key event answer hfinished
    cases answer with
    | some report =>
        obtain ⟨hmem, hsame⟩ :=
          haccounted.answered handler key event report true (by rw [hfinished]; rfl)
        exact ⟨hsame.1, hsame.2, haccounted.reported report hmem⟩
    | none => exact haccounted.published handler key event (by rw [hfinished]; rfl)
  reported := haccounted.reported

end Steps

/-- While every settling transaction that is answered finds the row of its key, no
notification is lost, whatever fails and whenever the pools are created. -/
theorem noneLost_findsRow (config : ReconcileConfig) : NoneLost config FindsRow := by
  intro s hreach
  have haccounted : Accounted s :=
    hreach.preserves (fun _ _ _ h hmeets hstep => h.step hmeets hstep) Accounted.init
  exact haccounted.kept

def completedEvent : SettlementNotification where
  transaction := some "ab12"
  network := some testnet
  payer := none
  payTo := none
  amount := none
  asset := none

def lazyPool : List Action :=
  [.saveStarts 0 0 { idempotencyKey := "order-1", network := some testnet } 0, .poolReady 0,
    .settleSucceeds 0 { txHash := some "ab12" } completedEvent, .enqueueStarts 0 0,
    .enqueueEnds 0 "e-1" .succeeds 0 0, .deliver 0]

/-- The transaction finds no row and is reported as atomically enqueued. -/
theorem not_noneLost_anyStep : ¬ ∀ config, NoneLost config anyStep := by
  intro hnone
  have hrun : (run (step ⟨fun _ => none⟩) .init lazyPool).map
      (fun s => (s.reports.length, s.database.outbox.length)) = some (1, 0) := by
    decide
  obtain ⟨s, hreach, hobserved⟩ := exists_reaches_of_run hrun
  simp only [Prod.mk.injEq] at hobserved
  obtain ⟨hreports, houtbox⟩ := hobserved
  obtain ⟨report, hreport⟩ := List.length_eq_one_iff.mp hreports
  have hcommitted := (hnone _ s hreach).reported report
    (by rw [hreport]; exact List.mem_singleton_self report)
  have hlength := hcommitted.kept.outbox.length_le
  rw [hcommitted.enqueued, List.length_append, houtbox] at hlength
  simp at hlength

end X402Facilitator.Notifications
