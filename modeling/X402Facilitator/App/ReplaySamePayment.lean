import X402Facilitator.App.Provenance

/-!
# What a replay answers

A stored answer belongs to a key, not to a payment: a request that reuses an
`Idempotency-Key` with another payment is answered with the first one's result.
Where the caller sends no header the claim's key binds the body, and the record's key
the payload that names no transaction beside it, up to a collision of the digest that
the two requests exhibit.
-/

namespace X402Facilitator

open X402Facilitator.Execution

/-- How two keys that are a header, or else a tagged digest of a text, can be
equal. `same` is what equal texts mean. -/
inductive SameKey (digest : String → String) (tag : String)
    (leftHeader rightHeader : Option String) (leftText rightText : String)
    (same : Prop) : Prop
  | header {header : String} (hleft : leftHeader = some header)
      (hright : rightHeader = some header)
  | same (hleft : leftHeader = none) (hright : rightHeader = none) (hsame : same)
  | collision (hleft : leftHeader = none) (hright : rightHeader = none)
      (hdiffers : leftText ≠ rightText) (hdigest : digest leftText = digest rightText)
  | leftSpells (hleft : leftHeader = some (tag ++ digest rightText))
      (hright : rightHeader = none)
  | rightSpells (hleft : leftHeader = none)
      (hright : rightHeader = some (tag ++ digest leftText))

theorem sameKey_of_eq {digest : String → String} {tag : String}
    {leftHeader rightHeader : Option String} {leftText rightText : String} {same : Prop}
    (hsame : leftText = rightText → same)
    (hkey : leftHeader.getD (tag ++ digest leftText) =
      rightHeader.getD (tag ++ digest rightText)) :
    SameKey digest tag leftHeader rightHeader leftText rightText same := by
  cases leftHeader with
  | some left =>
      cases rightHeader with
      | some right => exact .header rfl (congrArg some hkey.symm)
      | none => exact .leftSpells (congrArg some hkey) rfl
  | none =>
      cases rightHeader with
      | some right => exact .rightSpells rfl (congrArg some hkey.symm)
      | none =>
          by_cases htext : leftText = rightText
          · exact .same rfl rfl (hsame htext)
          · exact .collision rfl rfl htext ((String.append_right_inj tag).mp hkey)

namespace Request

variable (library : Library) (request left right : Request)

/-- `paymentPayload.transaction`, where it is a string that is not blank. -/
def trimmedTransaction : Option String :=
  ((request.paymentPayload.member "transaction").asString?.map trim).filter (· ≠ "")

theorem derivedText_eq : request.derivedText =
    request.trimmedTransaction.getD request.paymentPayload.stringify := by
  rw [derivedText, trimmedTransaction]
  cases (request.paymentPayload.member "transaction").asString?.map trim with
  | none => rfl
  | some transaction => by_cases hblank : transaction = "" <;> simp [Option.filter, hblank]

theorem deriveIdempotencyKey_eq : request.deriveIdempotencyKey library =
    request.trimmedHeader.getD ("derived:" ++ library.sha256Hex request.derivedText) := by
  rw [deriveIdempotencyKey]
  cases request.trimmedHeader <;> rfl

/-- The payloads name one transaction, or are equal as JSON values; or the
transaction of one is the JSON text of the other, which names none. -/
inductive SamePayment : Prop
  | transaction {transaction : String} (hleft : left.trimmedTransaction = some transaction)
      (hright : right.trimmedTransaction = some transaction)
  | payload (hpayload : left.paymentPayload = right.paymentPayload)
  | leftSpells (hleft : left.trimmedTransaction = some right.paymentPayload.stringify)
      (hright : right.trimmedTransaction = none)
  | rightSpells (hleft : left.trimmedTransaction = none)
      (hright : right.trimmedTransaction = some left.paymentPayload.stringify)

variable {left right} in
theorem samePayment_of_derivedText_eq (htext : left.derivedText = right.derivedText) :
    left.SamePayment right := by
  rw [derivedText_eq, derivedText_eq] at htext
  cases hleft : left.trimmedTransaction with
  | some transaction =>
      rw [hleft] at htext
      cases hright : right.trimmedTransaction with
      | some other =>
          rw [hright] at htext
          exact .transaction hleft (hright.trans (congrArg some htext.symm))
      | none =>
          rw [hright] at htext
          exact .leftSpells (hleft.trans (congrArg some htext)) hright
  | none =>
      rw [hleft] at htext
      cases hright : right.trimmedTransaction with
      | some other =>
          rw [hright] at htext
          exact .rightSpells hleft (hright.trans (congrArg some htext.symm))
      | none =>
          rw [hright] at htext
          exact .payload (Json.stringify_injective htext)

/-- The payloads are equal as JSON values, where neither names a transaction beside them. -/
def SamePlainPayload : Prop :=
  left.trimmedTransaction = none → right.trimmedTransaction = none →
    left.paymentPayload = right.paymentPayload

variable {left right} in
theorem SamePayment.samePlainPayload (hsame : left.SamePayment right) :
    left.SamePlainPayload right := by
  intro hleft hright
  cases hsame with
  | transaction hnamed _ => exact absurd (hleft.symm.trans hnamed) (by simp)
  | payload hpayload => exact hpayload
  | leftSpells hspells _ => exact absurd (hleft.symm.trans hspells) (by simp)
  | rightSpells _ hspells => exact absurd (hright.symm.trans hspells) (by simp)

/-- Why two requests of one caller have one record key. -/
def SameRecordKey : Prop :=
  SameKey library.sha256Hex "derived:" left.trimmedHeader right.trimmedHeader
    left.derivedText right.derivedText (left.SamePlainPayload right)

def SameClaimKey : Prop :=
  SameKey library.sha256Hex "body:" left.claimHeader right.claimHeader
    left.body.stringify right.body.stringify (left.body = right.body)

theorem scopedKey_injective (keyId : Option String) :
    Function.Injective (scopedKey keyId) := by
  intro key key' hkey
  rw [scopedKey, scopedKey] at hkey
  cases hscope : keyId.filter (· ≠ "") with
  | none =>
      rw [hscope] at hkey
      exact hkey
  | some scope =>
      rw [hscope] at hkey
      exact (String.append_right_inj _).mp hkey

variable {library left right}

theorem sameRecordKey_of_storeKey_eq (hprincipal : left.principal = right.principal)
    (hkey : left.storeKey library = right.storeKey library) :
    left.SameRecordKey library right := by
  apply sameKey_of_eq fun htext => (samePayment_of_derivedText_eq htext).samePlainPayload
  rw [← deriveIdempotencyKey_eq, ← deriveIdempotencyKey_eq]
  rw [storeKey, storeKey, keyId, keyId, hprincipal] at hkey
  exact scopedKey_injective _ hkey

theorem sameClaimKey_of_keyFor_eq (hkey : left.keyFor library = right.keyFor library) :
    left.SameClaimKey library right := by
  apply sameKey_of_eq fun htext => Json.stringify_injective htext
  rw [← keyFor_eq, ← keyFor_eq]
  exact hkey

end Request

def RequestsOf (principal : Principal) (_ : World) : Action → Prop
  | .request _ request => request.principal = principal
  | _ => True

/-- The requests of one caller without a header and without a transaction beside the payload. -/
def PlainRequestsOf (principal : Principal) (_ : World) : Action → Prop
  | .request _ request => request.principal = principal ∧ request.header = none ∧
      request.trimmedTransaction = none
  | _ => True

section Stored

variable (deployment : Deployment) (w : World) (index : ℕ)

/-- The handler is about to be answered from the record of its key, which holds
the outcome of a settlement. -/
def AnswersFromRecord (reply : Reply) : Prop :=
  ∃ handler record, w.handlers.get index = some handler ∧
    handler.stage = .readingRecord ∧
    w.store.get (handler.storeKey deployment) = some record ∧
    (record.state = .settled ∨ record.state = .failed) ∧
    replyFromRecord deployment.library handler.request record = some reply

/-- The handler is about to be answered with the response of its claim. -/
def AnswersFromClaim (response : Json) : Prop :=
  ∃ handler record statusCode, w.handlers.get index = some handler ∧
    handler.stage = .claiming record ∧
    beginOutcome (w.idempotency.records.get (handler.claimKey deployment)) =
      .replayed statusCode response

end Stored

/-- Whenever a request is answered from a stored result, the result is the one
of another request with an equal payment. -/
def ReplaysSamePayment (deployment : Deployment) (meets : World → Action → Prop) : Prop :=
  ∀ w index handler, Reaches (step deployment) meets .init w →
    w.handlers.get index = some handler →
    (∃ reply, AnswersFromRecord deployment w index reply) ∨
        (∃ response, AnswersFromClaim deployment w index response) →
      ∃ other producer, other ≠ index ∧ w.handlers.get other = some producer ∧
        producer.request.paymentPayload = handler.request.paymentPayload ∧
        producer.request.paymentRequirements = handler.request.paymentRequirements

/-- Whenever a request is answered from a stored result, the result is the one
of another request with the same key. -/
def ReplaysSameKey (deployment : Deployment) (principal : Principal) : Prop :=
  ∀ w index handler, Reaches (step deployment) (RequestsOf principal) .init w →
    w.handlers.get index = some handler →
    (∀ reply, AnswersFromRecord deployment w index reply →
      ∃ other producer, other ≠ index ∧ w.handlers.get other = some producer ∧
        producer.isOwner = true ∧
        handler.request.SameRecordKey deployment.library producer.request) ∧
    (∀ body, AnswersFromRecord deployment w index (.storedResponse body) →
      ∃ other producer result, other ≠ index ∧ w.handlers.get other = some producer ∧
        producer.result = some result ∧ body = result.body ∧
        handler.request.SameRecordKey deployment.library producer.request) ∧
    ∀ response, AnswersFromClaim deployment w index response →
      ∃ other producer result, other ≠ index ∧ w.handlers.get other = some producer ∧
        producer.result = some result ∧ response = result.body ∧
        handler.request.SameClaimKey deployment.library producer.request

def HandlersOf (principal : Principal) (w : World) : Prop :=
  ∀ index handler, w.handlers.get index = some handler →
    handler.request.principal = principal

section Replay

variable {deployment : Deployment} {w : World} {index : ℕ} {handler : Handler}
variable {principal : Principal}

theorem HandlersOf.step {w' : World} {action : Action} (hof : HandlersOf principal w)
    (hmeets : RequestsOf principal w action)
    (hstep : X402Facilitator.step deployment w action = some w') :
    HandlersOf principal w' := by
  intro index handler hhandler
  rcases exists_before_of_step hstep hhandler with ⟨request, rfl, rfl⟩ | hold
  · exact hmeets
  · obtain ⟨found, hfound, hrequest⟩ := hold
    rw [hrequest]
    exact hof index found hfound

theorem handlersOf_of_reaches
    (hreach : Reaches (step deployment) (RequestsOf principal) .init w) :
    HandlersOf principal w := by
  apply hreach.preserves fun _ _ _ hof hmeets hstep => hof.step hmeets hstep
  intro index handler hhandler
  simp [World.init] at hhandler

/-- A handler that still reads or claims is not an owner and has no result. -/
theorem ne_of_isOwner {other : ℕ} {producer : Handler}
    (hhandler : w.handlers.get index = some handler) (hfresh : handler.isOwner = false)
    (hproducer : w.handlers.get other = some producer) (howner : producer.isOwner = true) :
    other ≠ index := by
  intro hsame
  rw [hsame, hhandler] at hproducer
  cases hproducer
  rw [hfresh] at howner
  cases howner

theorem Handler.isOwner_of_result {result : SettleResult}
    (hresult : handler.result = some result) : handler.isOwner = true := by
  rw [Handler.result] at hresult
  split at hresult
  · next hstage => exact Handler.isOwner_of_stage hstage
  · cases hresult

theorem replyStored_of_isObject {library : Library} {response : Json}
    (hobject : response.isObject = true) :
    replyStored library response = .storedResponse response := by
  cases response with
  | obj members => rfl
  | _ => cases hobject

/-- A stored result is sent as it is. -/
theorem response_of_storedResponse {library : Library} {request : Request}
    {record : Settlement ℕ} {body : Json}
    (hresponse : record.response = .null ∨ record.response.isObject = true)
    (hreply : replyFromRecord library request record = some (.storedResponse body)) :
    record.response.isObject = true ∧ body = record.response := by
  have hstored : ∀ fallback : Reply, fallback ≠ .storedResponse body →
      (if record.response.truthy then some (replyStored library record.response)
        else some fallback) = some (.storedResponse body) →
      record.response.isObject = true ∧ body = record.response := by
    intro fallback hfallback hsome
    rcases hresponse with hnull | hobject
    · rw [hnull] at hsome
      exact absurd (Option.some.inj hsome) hfallback
    · split at hsome
      · rw [replyStored_of_isObject hobject] at hsome
        cases hsome
        exact ⟨hobject, rfl⟩
      · exact absurd (Option.some.inj hsome) hfallback
  rw [replyFromRecord] at hreply
  split at hreply
  · split at hreply
    · exact hstored _ (by simp) hreply
    · cases hreply
    · cases hreply
    · split at hreply
      · cases hreply
      · exact hstored _ (by simp) hreply
  · cases hreply

theorem World.ResultOf.isObject {key : String} {response : Json}
    (hresult : w.ResultOf deployment key response) : response.isObject = true := by
  obtain ⟨_, _, result, _, _, _, rfl⟩ := hresult
  exact result.isObject

/-- The owner of a record's key sent a request with the same key. -/
theorem sameRecordKey_of_ownerOf (hof : HandlersOf principal w)
    (hhandler : w.handlers.get index = some handler) {other : ℕ} {producer : Handler}
    (hproducer : w.handlers.get other = some producer)
    (hkey : producer.storeKey deployment = handler.storeKey deployment) :
    handler.request.SameRecordKey deployment.library producer.request := by
  apply Request.sameRecordKey_of_storeKey_eq _ hkey.symm
  rw [hof index handler hhandler, hof other producer hproducer]

end Replay

/-- In the runs of one caller a stored answer is the result of another request
with the same key. -/
theorem replaysSameKey (deployment : Deployment) (principal : Principal) :
    ReplaysSameKey deployment principal := by
  intro w index handler hreach hhandler
  have htraced := traced_of_reaches hreach
  have hof := handlersOf_of_reaches hreach
  refine ⟨?_, ?_, ?_⟩
  · rintro reply ⟨found, record, hfound, hstage, hget, hstate, -⟩
    rw [hhandler] at hfound
    cases hfound
    obtain ⟨other, producer, hproducer, hkey, howner⟩ :=
      htraced.owned _ record hget (by rcases hstate with h | h <;> simp [h])
    refine ⟨other, producer, ?_, hproducer, howner, ?_⟩
    · exact ne_of_isOwner hhandler (by rw [Handler.isOwner, hstage]) hproducer howner
    · exact sameRecordKey_of_ownerOf hof hhandler hproducer hkey
  · rintro body ⟨found, record, hfound, hstage, hget, hstate, hreply⟩
    rw [hhandler] at hfound
    cases hfound
    have hresponded := htraced.responded _ record hget
    obtain ⟨hobject, hbody⟩ :=
      response_of_storedResponse (hresponded.imp_right World.ResultOf.isObject) hreply
    rcases hresponded with hnull | hresult
    · rw [hnull] at hobject
      cases hobject
    · obtain ⟨other, producer, result, hproducer, hkey, hresult, hresponse⟩ := hresult
      refine ⟨other, producer, result, ?_, hproducer, hresult, hbody.trans hresponse, ?_⟩
      · exact ne_of_isOwner hhandler (by rw [Handler.isOwner, hstage]) hproducer
          (Handler.isOwner_of_result hresult)
      · exact sameRecordKey_of_ownerOf hof hhandler hproducer hkey
  · rintro response ⟨found, record, statusCode, hfound, hstage, houtcome⟩
    rw [hhandler] at hfound
    cases hfound
    obtain ⟨other, producer, result, hproducer, hkey, hresult, hresponse⟩ :=
      htraced.completed _ statusCode response (completed_of_replayed houtcome)
    refine ⟨other, producer, result, ?_, hproducer, hresult, hresponse, ?_⟩
    · exact ne_of_isOwner hhandler (by rw [Handler.isOwner, hstage]) hproducer
        (Handler.isOwner_of_result hresult)
    · exact Request.sameClaimKey_of_keyFor_eq hkey.symm

def reuseKey (first second : Request) : List Action :=
  Sample.claim 0 first ++ Sample.settle 0 Sample.settled ++
    [.request 1 second, .handler 1 (.rateChecked true) 0]

def Handler.payTo (handler : Handler) : Option String :=
  (handler.request.paymentRequirements.member "payTo").asString?

def World.observeReuse (w : World) :
    List ℕ × Option (Option String) × Option (Option String × SettlementState) :=
  (w.handlers.keys, (w.handlers.get 0).map Handler.payTo,
    (w.handlers.get 1).bind fun handler =>
      match handler.stage with
      | .readingRecord =>
          (w.store.get (handler.storeKey Sample.deployment)).bind fun record =>
            (replyFromRecord Sample.deployment.library handler.request record).map
              fun _ => (handler.payTo, record.state)
      | _ => none)

/-- A second payment to somebody else is answered with the success of the first. -/
theorem not_replaysSamePayment_of_reuse {meets : World → Action → Prop}
    (first second : Request)
    (hrun : (run (step Sample.deployment) .init (reuseKey first second)).map
      World.observeReuse = some ([0, 1], some (some "G1"), some (some "G2", .settled)))
    (hfirst : ∀ w, meets w (.request 0 first)) (hsecond : ∀ w, meets w (.request 1 second))
    (hothers : ∀ w index event now, meets w (.handler index event now)) :
    ¬ ReplaysSamePayment Sample.deployment meets := by
  intro hreplays
  obtain ⟨w, hfinish, hobserved⟩ := Option.map_eq_some_iff.mp hrun
  have hreach : Reaches (step Sample.deployment) meets .init w := by
    apply reaches_of_run_of_forall _ hfinish
    intro action haction state
    simp only [reuseKey, Sample.claim, Sample.settle, List.cons_append, List.nil_append,
      List.mem_cons, List.not_mem_nil, or_false] at haction
    rcases haction with rfl | rfl | rfl | rfl | rfl | rfl | rfl | rfl | rfl | rfl <;>
      first | exact hothers _ _ _ _ | exact hfirst _ | exact hsecond _
  obtain ⟨hkeys, hpair⟩ := Prod.mk.inj hobserved
  obtain ⟨hpaid, hreread⟩ := Prod.mk.inj hpair
  obtain ⟨handler, hhandler, hmatch⟩ := Option.bind_eq_some_iff.mp hreread
  split at hmatch
  · next hstage =>
      obtain ⟨record, hget, hreplied⟩ := Option.bind_eq_some_iff.mp hmatch
      obtain ⟨reply, hreply, hvalue⟩ := Option.map_eq_some_iff.mp hreplied
      obtain ⟨hpayTo, hstate⟩ := Prod.mk.inj hvalue
      obtain ⟨other, producer, hne, hproducer, -, hsame⟩ :=
        hreplays w 1 handler hreach hhandler
          (Or.inl ⟨reply, handler, record, hhandler, hstage, hget, Or.inl hstate, hreply⟩)
      -- The only other handler pays somebody else.
      have hother : other = 0 := by
        have hmem : other ∈ w.handlers.keys := by
          rw [InsertionMap.mem_keys_iff, hproducer]
          rfl
        rw [hkeys] at hmem
        simpa [hne] using hmem
      rw [hother] at hproducer
      rw [hproducer] at hpaid
      have hrecipient : producer.payTo = some "G1" := Option.some.inj hpaid
      rw [Handler.payTo, hsame, ← Handler.payTo, hpayTo] at hrecipient
      simp at hrecipient
  · cases hmatch

/-- Neither a header nor the digest of a payload binds the requirements. -/
theorem not_replaysSamePayment :
    ¬ ReplaysSamePayment Sample.deployment (RequestsOf .unauthenticated) ∧
      ¬ ReplaysSamePayment Sample.deployment (PlainRequestsOf .unauthenticated) := by
  constructor
  · exact not_replaysSamePayment_of_reuse Sample.request
      ⟨.unauthenticated, some "order-1", Sample.body "G2" none⟩
      (by decide) (fun _ => rfl) (fun _ => rfl) fun _ _ _ _ => trivial
  · exact not_replaysSamePayment_of_reuse
      ⟨.unauthenticated, none, Sample.body "G1" none⟩
      ⟨.unauthenticated, none, Sample.body "G2" none⟩
      (by decide) (fun _ => ⟨rfl, rfl, rfl⟩) (fun _ => ⟨rfl, rfl, rfl⟩) fun _ _ _ _ => trivial

end X402Facilitator
