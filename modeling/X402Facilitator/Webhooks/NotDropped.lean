import X402Facilitator.Webhooks.Dispatcher

/-!
# No event is dropped silently

An event with a receiver ends delivered, queued or dead-lettered, and no rejection
escapes, exactly when its authenticator answers or a caller catches.  Only the
fallback of the `enqueue` over Kafka does catch.
-/

namespace X402Facilitator.Webhooks

section Statement

inductive Handoff where
  | direct (event : List (String × Json))
  | kafka (event : List (String × Json))
  | consumed (message : Option Json)

def Handoff.record (env : Environment) : Handoff → Json
  | .direct event | .kafka event => buildRecord env event
  | .consumed message => message.getD .null

def Handoff.handle (env : Environment) : Handoff → Outcome
  | .direct event => enqueueDirect env event
  | .kafka event => enqueueKafka env event
  | .consumed message => eachMessage env message

def Handoff.overKafka : Handoff → Bool
  | .kafka _ => true
  | _ => false

/-- The delivery ended with a response below 500 to one of its attempts. -/
def Answered (receive : ℕ → Request → Attempt) (res : Delivery) : Prop :=
  res.delivered = true ∧ ∃ attempt ≤ maxAttempts, ∃ request status, status < 500 ∧
    receive attempt request = .response status ∧ res.status = some status

/-- The event was delivered, or the broker has it, or it is among the dead letters if
the store takes them; and no rejection escapes. -/
structure NotDropped (env : Environment) (record : Json) (outcome : Outcome) : Prop where
  kept : (∃ res ∈ outcome.delivery, Answered env.receive res) ∨ outcome.queued = true ∨
    ∀ insert ∈ env.dlq, (∀ letter, letter.payload = record → (insert letter).isOk) →
      ∃ letter ∈ outcome.letters, letter.messageId = record.member "id" ∧ letter.payload = record
  contained : outcome.escapes = false

end Statement

variable {env : Environment} {record : Json}

variable {receive : ℕ → Request → Attempt} {request : Request}

/-- A delivery was answered by one of the attempts that were left. -/
theorem deliverAttempts_delivered {remaining attempt : ℕ} {lastStatus : Option ℕ}
    (hdelivered : (deliverAttempts receive request remaining attempt lastStatus).delivered = true) :
    ∃ number status, number < attempt + remaining ∧ status < 500 ∧
      receive number request = .response status ∧
      (deliverAttempts receive request remaining attempt lastStatus).status = some status := by
  induction remaining generalizing attempt lastStatus with
  | zero => cases hdelivered
  | succ remaining ih =>
      rw [deliverAttempts] at hdelivered ⊢
      cases hreceived : receive attempt request with
      | response status =>
          simp only [hreceived] at hdelivered ⊢
          by_cases hlt : status < 500
          · rw [if_pos hlt]
            exact ⟨attempt, status, by omega, hlt, hreceived, rfl⟩
          · rw [if_neg hlt] at hdelivered ⊢
            obtain ⟨number, found, hnumber, hfound⟩ := ih hdelivered
            exact ⟨number, found, by omega, hfound⟩
      | error err =>
          simp only [hreceived] at hdelivered ⊢
          by_cases hcertificate : isCertificateRejection err = true
          · rw [if_pos hcertificate] at hdelivered
            cases hdelivered
          · rw [if_neg hcertificate] at hdelivered ⊢
            obtain ⟨number, found, hnumber, hfound⟩ := ih hdelivered
            exact ⟨number, found, by omega, hfound⟩

theorem deliver_answered {res : Delivery} (hdeliver : deliver env record maxAttempts = some res)
    (hdelivered : res.delivered = true) : Answered env.receive res := by
  obtain ⟨auth, -, rfl⟩ := Option.map_eq_some_iff.mp hdeliver
  obtain ⟨attempt, status, hlt, hstatus⟩ := deliverAttempts_delivered hdelivered
  exact ⟨hdelivered, attempt, by omega, _, status, hstatus⟩

theorem deliver_isSome :
    (deliver env record maxAttempts).isSome = (env.authenticate record record.stringify).isSome :=
  Option.isSome_map

/-- A store that takes the record's letters has one afterwards. -/
theorem recordDeadLetter_records (source error : String) (attempts : ℕ) :
    ∀ insert ∈ env.dlq, (∀ letter, letter.payload = record → (insert letter).isOk) →
      ∃ letter ∈ recordDeadLetter env source record error attempts,
        letter.messageId = record.member "id" ∧ letter.payload = record := by
  intro insert hinsert htakes
  rw [recordDeadLetter, Option.mem_def.mp hinsert]
  refine ⟨⟨record.member "id", source, record.member "type", record, error, attempts⟩, ?_, rfl, rfl⟩
  have hok := htakes ⟨record.member "id", source, record.member "type", record, error, attempts⟩ rfl
  simp only
  split
  · exact List.mem_singleton_self _
  · next hfailed =>
      rw [hfailed] at hok
      cases hok

theorem not_notDropped_rejected : ¬ NotDropped env record .rejected := by
  intro hkept
  cases hkept.contained

/-- The direct path does not catch. -/
theorem enqueueDirect_notDropped_iff {event : List (String × Json)}
    (hurl : ((buildRecord env event).member "url").truthy = true) :
    NotDropped env (buildRecord env event) (enqueueDirect env event) ↔
      (deliver env (buildRecord env event) maxAttempts).isSome := by
  rw [enqueueDirect, if_pos hurl]
  cases hdeliver : deliver env (buildRecord env event) maxAttempts with
  | none => simpa using not_notDropped_rejected
  | some res =>
      refine iff_of_true ?_ rfl
      simp only
      split
      · next hdelivered =>
          exact ⟨Or.inl ⟨res, rfl, deliver_answered hdeliver hdelivered⟩, rfl⟩
      · exact ⟨Or.inr (Or.inr (recordDeadLetter_records _ _ _)), rfl⟩

theorem eachMessage_of_url (hurl : (record.member "url").truthy = true) :
    eachMessage env (some record) = consumeRecord env record := by
  cases record with
  | null => cases hurl
  | bool value => rfl
  | num value => rfl
  | str value => rfl
  | arr items => rfl
  | obj members => rfl

/-- Nor does the consumer. -/
theorem eachMessage_notDropped_iff (hurl : (record.member "url").truthy = true) :
    NotDropped env record (eachMessage env (some record)) ↔
      (deliver env record maxAttempts).isSome := by
  rw [eachMessage_of_url hurl, consumeRecord, if_pos hurl]
  cases hdeliver : deliver env record maxAttempts with
  | none => simpa using not_notDropped_rejected
  | some res =>
      refine iff_of_true ?_ rfl
      simp only
      split
      · next hdelivered =>
          exact ⟨Or.inl ⟨res, rfl, deliver_answered hdeliver hdelivered⟩, rfl⟩
      · exact ⟨Or.inr (Or.inr (recordDeadLetter_records _ _ _)), rfl⟩

/-- The fallback catches, and without it the broker has the event. -/
theorem enqueueKafka_notDropped {event : List (String × Json)}
    (hurl : ((buildRecord env event).member "url").truthy = true) :
    NotDropped env (buildRecord env event) (enqueueKafka env event) := by
  rw [enqueueKafka]
  simp only
  split
  · exact ⟨Or.inr (Or.inl rfl), rfl⟩
  · rw [if_pos hurl]
    cases hdeliver : deliver env (buildRecord env event) maxAttempts with
    | none => exact ⟨Or.inr (Or.inr (recordDeadLetter_records _ _ _)), rfl⟩
    | some res =>
        simp only [Option.getD_some]
        split
        · next hdelivered => exact ⟨Or.inl ⟨res, rfl, deliver_answered hdeliver hdelivered⟩, rfl⟩
        · exact ⟨Or.inr (Or.inr (recordDeadLetter_records _ _ _)), rfl⟩

/-- An event with a receiver is not dropped if and only if its path is the `enqueue`
over Kafka or its authenticator answers. -/
theorem notDropped_iff_authenticated (env : Environment) (handoff : Handoff)
    (hurl : ((handoff.record env).member "url").truthy = true) :
    NotDropped env (handoff.record env) (handoff.handle env) ↔
      handoff.overKafka = true ∨
        (env.authenticate (handoff.record env) (handoff.record env).stringify).isSome := by
  cases handoff with
  | direct event =>
      rw [← deliver_isSome]
      exact (enqueueDirect_notDropped_iff hurl).trans (or_iff_right Bool.false_ne_true).symm
  | kafka event => exact iff_of_true (enqueueKafka_notDropped hurl) (Or.inl rfl)
  | consumed message =>
      cases message with
      | none => cases hurl
      | some record =>
          rw [← deliver_isSome]
          exact (eachMessage_notDropped_iff hurl).trans (or_iff_right Bool.false_ne_true).symm

/-- On no path is an event dropped under the built-in authenticator, where the
lookups it makes fail with a message. -/
theorem notDropped_of_failWithMessage {options : AuthenticatorOptions}
    (hfail : options.FailWithMessage) (henv : env.authenticate = authenticate options)
    (handoff : Handoff) (hurl : ((handoff.record env).member "url").truthy = true) :
    NotDropped env (handoff.record env) (handoff.handle env) := by
  have hdeliver : (deliver env (handoff.record env) maxAttempts).isSome := by
    rw [deliver_isSome, henv]
    exact authenticate_isSome hfail _ _
  cases handoff with
  | direct event => exact (enqueueDirect_notDropped_iff hurl).mpr hdeliver
  | kafka event => exact enqueueKafka_notDropped hurl
  | consumed message =>
      cases message with
      | none => cases hurl
      | some record => exact (eachMessage_notDropped_iff hurl).mpr hdeliver

/-- A receiver that is never reached, and a store that takes every letter. -/
def unauthenticated : Environment where
  url := .str "https://receiver.example/hook"
  uuid := "event"
  publishedAt := "2026-01-01T00:00:00.000Z"
  authenticate := fun _ _ => none
  receive := fun _ _ => .response 200
  send := fun _ => .ok ()
  dlqTopic := none
  dlq := some fun _ => .ok 1

/-- Without lookups nothing fails. -/
theorem notDropped_of_failWithMessage_unsigned :
    let options : AuthenticatorOptions := ⟨none, [], none, 0, fun _ body => body⟩
    let env := { unauthenticated with authenticate := authenticate options }
    NotDropped env ((Handoff.direct []).record env) ((Handoff.direct []).handle env) := by
  intro options env
  have hfail : options.FailWithMessage :=
    ⟨fun resolveSecret hresolve => by simp [options] at hresolve,
      fun getAgent hprovider => by simp [options] at hprovider⟩
  exact notDropped_of_failWithMessage hfail rfl (.direct []) (by decide)

/-- The direct path lets the rejection escape, and records no dead letter. -/
theorem rejected_event_dropped :
    ¬ ∀ (env : Environment) (handoff : Handoff),
      ((handoff.record env).member "url").truthy = true →
        NotDropped env (handoff.record env) (handoff.handle env) := by
  intro hkept
  have hurl : (((Handoff.direct []).record unauthenticated).member "url").truthy = true := by
    decide
  have hescapes : ((Handoff.direct []).handle unauthenticated).escapes = true := by decide
  rw [(hkept unauthenticated (.direct []) hurl).contained] at hescapes
  cases hescapes

/-- A receiver that always answers 503, under an authenticator that answers. -/
def unavailable : Environment :=
  { unauthenticated with
    authenticate := fun _ _ => some ⟨none, []⟩
    receive := fun _ _ => .response 503 }

theorem unavailable_event_kept :
    ((Handoff.direct []).handle unavailable).letters.length = 1 ∧
      NotDropped unavailable ((Handoff.direct []).record unavailable)
        ((Handoff.direct []).handle unavailable) :=
  ⟨by decide, (notDropped_iff_authenticated unavailable (.direct []) (by decide)).mpr (Or.inr rfl)⟩

end X402Facilitator.Webhooks
