import X402Facilitator.App.System

/-!
# Isolation of tenants

Settlement records are kept under a key scoped by the caller, and the status
routes look them up under the same key.  The claims are not scoped: two callers
that send the same `Idempotency-Key` share one.  Results stay with their caller
in the runs whose callers have ids apart and share no header and no body.
-/

namespace X402Facilitator

open X402Facilitator.Execution

inductive StatusReply where
  | notFound
  | settlement (record : Settlement ℕ)
  | events (idempotencyKey : String) (events : List (SettlementEvent ℕ))

section Status

variable (deployment : Deployment) (w : World) (principal : Principal)
variable (idempotencyKey : String)

def lookupKey : String :=
  Request.scopedKey (principal.keyId deployment.library) idempotencyKey

/-- A record with another caller's id is not shown. -/
def visibleTo (record : Settlement ℕ) : Bool :=
  match (principal.keyId deployment.library).filter (· ≠ ""),
      record.keyId.filter (· ≠ "") with
  | some keyId, some recorded => deployment.library.toUpperCase recorded == keyId
  | _, _ => true

/-- `GET /settlements/:idempotencyKey`. -/
def getSettlement : StatusReply :=
  match w.store.get (lookupKey deployment principal idempotencyKey) with
  | none => .notFound
  | some record =>
      if visibleTo deployment principal record then .settlement record else .notFound

/-- `GET /settlements/:idempotencyKey/events`. -/
def getSettlementEvents : StatusReply :=
  match w.store.get (lookupKey deployment principal idempotencyKey) with
  | none => .notFound
  | some record =>
      if visibleTo deployment principal record then
        .events idempotencyKey
          (w.store.getEventLog (lookupKey deployment principal idempotencyKey))
      else .notFound

end Status

/-- The settlement system together with its status routes. -/
inductive TenantAction where
  | settle (action : Action)
  | status (principal : Principal) (idempotencyKey : String)
  | events (principal : Principal) (idempotencyKey : String)

def tenantStep (deployment : Deployment) (w : World) : TenantAction → Option World
  | .settle action => step deployment w action
  | .status _ _ => some w
  | .events _ _ => some w

/-- Who the authenticator says the caller is: the id of an API key, or the
subject of a token. -/
def Principal.identity : Principal → Option (String ⊕ String)
  | unauthenticated => none
  | apiKey id => some (.inl id)
  | jwt sub azp => some (.inr ((sub.or azp).getD "jwt"))

/-- Two authenticated callers that are not the same. -/
def Principal.Distinct (left right : Principal) : Prop :=
  left.identity.isSome = true ∧ right.identity.isSome = true ∧
    left.identity ≠ right.identity

/-- In this step `reader` is answered from what is recorded under `key`. -/
inductive AnsweredFromRecord (deployment : Deployment) (w : World) :
    TenantAction → Principal → String → Prop
  | replay {index now : ℕ} {handler : Handler} {reply : Reply}
      (hhandler : w.handlers.get index = some handler)
      (hstage : handler.stage = .readingRecord)
      (hreply : (w.store.get (handler.storeKey deployment)).bind
        (replyFromRecord deployment.library handler.request) = some reply) :
      AnsweredFromRecord deployment w (.settle (.handler index .recordRead now))
        handler.request.principal (handler.storeKey deployment)
  | status {principal : Principal} {key : String} {record : Settlement ℕ}
      (hreply : getSettlement deployment w principal key = .settlement record) :
      AnsweredFromRecord deployment w (.status principal key) principal
        (lookupKey deployment principal key)
  | events {principal : Principal} {key name : String}
      {events : List (SettlementEvent ℕ)}
      (hreply : getSettlementEvents deployment w principal key = .events name events) :
      AnsweredFromRecord deployment w (.events principal key) principal
        (lookupKey deployment principal key)

/-- In this step `reader` is answered with the response recorded for the claim
`key`. -/
inductive AnsweredFromClaim (deployment : Deployment) (w : World) :
    TenantAction → Principal → String → Prop
  | replay {index now statusCode : ℕ} {handler : Handler} {response : Json}
      {record : Option (Settlement ℕ)} (hhandler : w.handlers.get index = some handler)
      (hstage : handler.stage = .claiming record)
      (houtcome : beginOutcome (w.idempotency.records.get (handler.claimKey deployment)) =
        .replayed statusCode response) :
      AnsweredFromClaim deployment w (.settle (.handler index .claimBegun now))
        handler.request.principal (handler.claimKey deployment)

/-- In this step `writer` changes what is recorded under `key`. -/
def WritesRecord (deployment : Deployment) (w : World) (action : TenantAction)
    (writer : Principal) (key : String) : Prop :=
  ∃ index event now handler w', action = .settle (.handler index event now) ∧
    w.handlers.get index = some handler ∧ handler.request.principal = writer ∧
    step deployment w (.handler index event now) = some w' ∧
    w'.store.stream key ≠ w.store.stream key

/-- In this step `writer` changes the claim `key`. -/
def WritesClaim (deployment : Deployment) (w : World) (action : TenantAction)
    (writer : Principal) (key : String) : Prop :=
  ∃ index event now handler w', action = .settle (.handler index event now) ∧
    w.handlers.get index = some handler ∧ handler.request.principal = writer ∧
    step deployment w (.handler index event now) = some w' ∧
    w'.idempotency.records.get key ≠ w.idempotency.records.get key

/-- What a request of one caller has written, no later step answers another
caller with, and no later request of another caller changes. -/
def TenantsIsolated (deployment : Deployment) (meets : World → TenantAction → Prop) :
    Prop :=
  ∀ w₀ w₁ w write action author other key,
    Reaches (tenantStep deployment) meets .init w₀ → meets w₀ write →
    tenantStep deployment w₀ write = some w₁ →
    Reaches (tenantStep deployment) meets w₁ w → meets w action →
    author.Distinct other →
      (WritesRecord deployment w₀ write author key →
        ¬ AnsweredFromRecord deployment w action other key ∧
          ¬ WritesRecord deployment w action other key) ∧
      (WritesClaim deployment w₀ write author key →
        ¬ AnsweredFromClaim deployment w action other key)

/-- Neither id begins the other one's scoped keys, so no two keys under them can be one. -/
structure IdsApart (library : Library) (left right : Principal) : Prop where
  nonempty : ∀ id, left.keyId library = some id ∨ right.keyId library = some id → id ≠ ""
  unprefixed : ∀ id other, left.keyId library = some id → right.keyId library = some other →
    ¬ id.toList ++ [':'] <+: other.toList ++ [':'] ∧
      ¬ other.toList ++ [':'] <+: id.toList ++ [':']

/-- The header of `right` is not the digest of the body of `left`. -/
def Request.Unspelt (library : Library) (left right : Request) : Prop :=
  left.claimHeader = none →
    right.claimHeader ≠ some ("body:" ++ library.sha256Hex left.body.stringify)

/-- The requests have different headers, or without a header different bodies whose digests do
not collide, and no header spells out a digest. -/
structure Request.Unshared (library : Library) (left right : Request) : Prop where
  header : ∀ key, left.claimHeader = some key → right.claimHeader ≠ some key
  body : left.claimHeader = none → right.claimHeader = none → left.body ≠ right.body ∧
    (library.sha256Hex left.body.stringify = library.sha256Hex right.body.stringify →
      left.body.stringify = right.body.stringify)
  leftUnspelt : left.Unspelt library right
  rightUnspelt : right.Unspelt library left

/-- Different callers have ids apart, and share no header and no body. -/
def CallersApart (deployment : Deployment) (w : World) : TenantAction → Prop
  | .settle (.request _ request) => ∀ index handler,
      w.handlers.get index = some handler →
        handler.request.principal.Distinct request.principal →
          IdsApart deployment.library handler.request.principal request.principal ∧
            handler.request.Unshared deployment.library request
  | .settle _ => True
  | .status principal _ | .events principal _ => ∀ index handler,
      w.handlers.get index = some handler →
        handler.request.principal.Distinct principal →
          IdsApart deployment.library handler.request.principal principal

theorem Principal.Distinct.symm {left right : Principal} (hdistinct : left.Distinct right) :
    right.Distinct left :=
  ⟨hdistinct.2.1, hdistinct.1, fun heq => hdistinct.2.2 heq.symm⟩

theorem Principal.not_distinct_self (principal : Principal) :
    ¬ principal.Distinct principal :=
  fun hdistinct => hdistinct.2.2 rfl

theorem Principal.exists_keyId {principal : Principal} (library : Library)
    (hsome : principal.identity.isSome = true) : ∃ id, principal.keyId library = some id := by
  cases principal with
  | unauthenticated => cases hsome
  | apiKey id => exact ⟨_, rfl⟩
  | jwt sub azp => exact ⟨_, rfl⟩

/-- Callers whose ids are apart have no record key in common. -/
theorem scopedKey_ne_of_idsApart {library : Library} {left right : Principal}
    (hdistinct : left.Distinct right) (hapart : IdsApart library left right)
    (key key' : String) : Request.scopedKey (left.keyId library) key ≠
      Request.scopedKey (right.keyId library) key' := by
  obtain ⟨id, hid⟩ := Principal.exists_keyId library hdistinct.1
  obtain ⟨other, hother⟩ := Principal.exists_keyId library hdistinct.2.1
  have hscoped : ∀ id ≠ "", ∀ key, Request.scopedKey (some id) key = id ++ ":" ++ key := by
    intro id hne key
    simp [Request.scopedKey, Option.filter, hne]
  intro heq
  rw [hid, hother, hscoped id (hapart.nonempty id (.inl hid)),
    hscoped other (hapart.nonempty other (.inr hother))] at heq
  have hlist := congrArg String.toList heq
  simp only [String.toList_append] at hlist
  rcases List.prefix_or_prefix_of_prefix (List.prefix_append (id.toList ++ [':']) key.toList)
    ⟨key'.toList, hlist.symm⟩ with hprefix | hprefix
  · exact (hapart.unprefixed id other hid hother).1 hprefix
  · exact (hapart.unprefixed id other hid hother).2 hprefix

namespace Request

variable {library : Library} {left right : Request}

/-- Requests that share no header and no body have different claims. -/
theorem keyFor_ne_of_unshared (hunshared : left.Unshared library right) :
    left.keyFor library ≠ right.keyFor library := by
  rw [keyFor_eq, keyFor_eq]
  cases hleft : left.claimHeader with
  | some header =>
      cases hright : right.claimHeader with
      | some other =>
          rintro rfl
          exact hunshared.header _ hleft hright
      | none => exact fun heq => hunshared.rightUnspelt hright (hleft.trans (congrArg some heq))
  | none =>
      cases hright : right.claimHeader with
      | some other =>
          exact fun heq => hunshared.leftUnspelt hleft (hright.trans (congrArg some heq.symm))
      | none =>
          obtain ⟨hbody, hcollide⟩ := hunshared.body hleft hright
          intro heq
          have hdigest := String.append_right_inj "body:" |>.mp heq
          exact hbody (Json.stringify_injective (hcollide hdigest))

end Request

def Apart (deployment : Deployment) (w : World) : Prop :=
  ∀ index other handler rival, w.handlers.get index = some handler →
    w.handlers.get other = some rival →
    handler.request.principal.Distinct rival.request.principal →
      handler.storeKey deployment ≠ rival.storeKey deployment ∧
      handler.claimKey deployment ≠ rival.claimKey deployment

section Invariant

variable {deployment : Deployment} {w w' : World} {action : TenantAction}

theorem Apart.step (hapart : Apart deployment w) (hmeets : CallersApart deployment w action)
    (hstep : tenantStep deployment w action = some w') : Apart deployment w' := by
  cases action with
  | status principal key => cases hstep; exact hapart
  | events principal key => cases hstep; exact hapart
  | settle action =>
      change X402Facilitator.step deployment w action = some w' at hstep
      have hrequest : ∀ request index, action = .request index request → ∀ other rival,
          w.handlers.get other = some rival →
          rival.request.principal.Distinct request.principal →
            rival.storeKey deployment ≠ request.storeKey deployment.library ∧
              rival.claimKey deployment ≠ request.keyFor deployment.library := by
        rintro request index rfl other rival hrival hdistinct
        obtain ⟨hids, hunshared⟩ := hmeets other rival hrival hdistinct
        exact ⟨scopedKey_ne_of_idsApart hdistinct hids _ _,
          Request.keyFor_ne_of_unshared hunshared⟩
      intro left right handler rival hleft hright hdistinct
      rcases exists_before_of_step hstep hleft with ⟨request, rfl, rfl⟩ | hbefore
      · rcases exists_before_of_step hstep hright with ⟨_, haction, rfl⟩ | hbefore'
        · cases haction
          exact absurd hdistinct (Principal.not_distinct_self _)
        · obtain ⟨before', hold', hrequest'⟩ := hbefore'
          rw [hrequest'] at hdistinct
          have hkeys := hrequest _ _ rfl right before' hold' hdistinct.symm
          rw [Handler.storeKey, Handler.storeKey, Handler.claimKey, Handler.claimKey,
            hrequest']
          exact ⟨hkeys.1.symm, hkeys.2.symm⟩
      · obtain ⟨before, hold, hsame⟩ := hbefore
        rw [hsame] at hdistinct
        rw [Handler.storeKey, Handler.claimKey, hsame]
        rcases exists_before_of_step hstep hright with ⟨request, rfl, rfl⟩ | hbefore'
        · exact hrequest _ _ rfl left before hold hdistinct
        · obtain ⟨before', hold', hrequest'⟩ := hbefore'
          rw [hrequest'] at hdistinct
          rw [Handler.storeKey, Handler.claimKey, hrequest']
          exact hapart left right before before' hold hold' hdistinct

variable {handler : Handler} {index : ℕ} {key : String} {writer : Principal}

/-- Handlers stay, with their requests, through a run. -/
theorem exists_after_of_reaches {meets : World → TenantAction → Prop}
    (hreach : Reaches (tenantStep deployment) meets w w')
    (hhandler : w.handlers.get index = some handler) :
    ∃ after, w'.handlers.get index = some after ∧ after.request = handler.request := by
  induction hreach with
  | refl => exact ⟨handler, hhandler, rfl⟩
  | tail _ hlast ih =>
      obtain ⟨action, -, hstep⟩ := hlast
      obtain ⟨before, hbefore, hrequest⟩ := ih
      cases action with
      | status principal key => cases hstep; exact ⟨before, hbefore, hrequest⟩
      | events principal key => cases hstep; exact ⟨before, hbefore, hrequest⟩
      | settle action =>
          obtain ⟨after, hafter, hsame⟩ := exists_after_of_step hstep hbefore
          exact ⟨after, hafter, hsame.trans hrequest⟩

/-- A writer of a record has the key it writes. -/
theorem WritesRecord.exists_handler (hwrites : WritesRecord deployment w action writer key) :
    ∃ index handler, w.handlers.get index = some handler ∧
      handler.request.principal = writer ∧ handler.storeKey deployment = key := by
  obtain ⟨index, event, now, handler, w', rfl, hhandler, hwriter, hstep, hchanged⟩ := hwrites
  refine ⟨index, handler, hhandler, hwriter, ?_⟩
  by_contra hkey
  cases steps_of_step hstep with
  | handler hfound hadvance =>
      rw [hhandler] at hfound
      cases hfound
      exact hchanged (World.stream_perform_of_ne now (Ne.symm hkey))

theorem WritesClaim.exists_handler (hwrites : WritesClaim deployment w action writer key) :
    ∃ index handler, w.handlers.get index = some handler ∧
      handler.request.principal = writer ∧ handler.claimKey deployment = key := by
  obtain ⟨index, event, now, handler, w', rfl, hhandler, hwriter, hstep, hchanged⟩ := hwrites
  refine ⟨index, handler, hhandler, hwriter, ?_⟩
  by_contra hkey
  cases steps_of_step hstep with
  | handler hfound hadvance =>
      rw [hhandler] at hfound
      cases hfound
      exact hchanged (World.claim_perform_of_ne now (Ne.symm hkey))

/-- Nobody is answered from a record under a key of another caller's request. -/
theorem AnsweredFromRecord.not_distinct {reader : Principal}
    (hanswered : AnsweredFromRecord deployment w action reader key) (hapart : Apart deployment w)
    (hmeets : CallersApart deployment w action) (hhandler : w.handlers.get index = some handler)
    (hkey : handler.storeKey deployment = key) : ¬ handler.request.principal.Distinct reader := by
  intro hdistinct
  cases hanswered with
  | replay hreader hstage hreply =>
      exact (hapart _ _ handler _ hhandler hreader hdistinct).1 hkey
  | status hreply | events hreply =>
      have hids := hmeets index handler hhandler hdistinct
      exact scopedKey_ne_of_idsApart hdistinct hids _ _ hkey

end Invariant

/-- In the runs whose callers are apart, tenants are isolated. -/
theorem tenantsIsolated_callersApart (deployment : Deployment) :
    TenantsIsolated deployment (CallersApart deployment) := by
  intro w₀ w₁ w write action author other key hreach hmeets₀ hstep hlater hmeets hdistinct
  have hreach' := (hreach.tail hmeets₀ hstep).trans hlater
  have hapart : Apart deployment w := by
    apply hreach'.preserves (fun _ _ _ h hmeets hstep => h.step hmeets hstep)
    intro left right handler rival hhandler
    simp [World.init] at hhandler
  -- The author of the earlier write is still there, with its keys.
  have hstays : ∀ index handler, w₀.handlers.get index = some handler →
      ∃ after, w.handlers.get index = some after ∧ after.request = handler.request :=
    fun index handler hhandler =>
      exists_after_of_reaches (((Reaches.refl w₀).tail hmeets₀ hstep).trans hlater) hhandler
  refine ⟨fun hwrites => ?_, fun hwrites hanswered => ?_⟩
  · obtain ⟨index, handler, hhandler, rfl, hkey⟩ := hwrites.exists_handler
    obtain ⟨after, hafter, hrequest⟩ := hstays index handler hhandler
    rw [← hrequest] at hdistinct
    rw [Handler.storeKey, ← hrequest] at hkey
    refine ⟨fun hanswered => ?_, fun hrewrites => ?_⟩
    · exact hanswered.not_distinct hapart hmeets hafter hkey hdistinct
    · obtain ⟨index', rival, hrival, rfl, hkey'⟩ := hrewrites.exists_handler
      exact (hapart index index' after rival hafter hrival hdistinct).1
        (hkey.trans hkey'.symm)
  · obtain ⟨index, handler, hhandler, rfl, hkey⟩ := hwrites.exists_handler
    obtain ⟨after, hafter, hrequest⟩ := hstays index handler hhandler
    rw [← hrequest] at hdistinct
    rw [Handler.claimKey, ← hrequest] at hkey
    cases hanswered with
    | replay hreader hstage houtcome =>
        exact (hapart index _ after _ hafter hreader hdistinct).2 hkey

/-- Runs of the settlement system are runs with status reads. -/
theorem reaches_tenantStep {deployment : Deployment} {w w' : World}
    (hreach : Reaches (step deployment) anyStep w w') :
    Reaches (tenantStep deployment) anyStep w w' := by
  induction hreach with
  | refl => exact .refl w
  | tail _ hlast ih =>
      obtain ⟨action, -, hstep⟩ := hlast
      exact Relation.ReflTransGen.tail ih ⟨.settle action, trivial, hstep⟩

def World.pendingReplay (deployment : Deployment) (w : World) (index : ℕ) :
    Option (Principal × String) :=
  (w.handlers.get index).bind fun handler =>
    match handler.stage, beginOutcome (w.idempotency.records.get
        (handler.claimKey deployment)) with
    | .claiming _, .replayed _ _ =>
        some (handler.request.principal, handler.claimKey deployment)
    | _, _ => none

theorem answeredFromClaim_of_pendingReplay {deployment : Deployment} {w : World}
    {index : ℕ} {principal : Principal} {key : String}
    (hpending : w.pendingReplay deployment index = some (principal, key)) :
    AnsweredFromClaim deployment w (.settle (.handler index .claimBegun 0)) principal
      key := by
  obtain ⟨handler, hhandler, hmatch⟩ := Option.bind_eq_some_iff.mp hpending
  split at hmatch
  · next hstage houtcome =>
      cases hmatch
      exact .replay hhandler hstage houtcome
  · cases hmatch

/-- The second caller is answered with the first caller's result. -/
theorem not_tenantsIsolated_anyStep : ¬ TenantsIsolated Sample.deployment anyStep := by
  intro hisolated
  have hopen : (run (step Sample.deployment) .init Sample.aliceSettles).map
      (fun w => ((w.handlers.get 0).map fun handler => handler.request.principal,
        (w.idempotency.records.get "order-1").map ClaimRecord.isPending)) =
        some (some Sample.alice, some true) := by
    decide
  have hdone : (run (step Sample.deployment) .init
      (Sample.aliceSettles ++ [.handler 0 (.outcomeCompleted true) 0])).map
      (fun w => (w.idempotency.records.get "order-1").map ClaimRecord.isPending) =
        some (some false) := by
    decide
  have hreplay : (run (step Sample.deployment) .init
      (Sample.aliceSettles ++ [.handler 0 (.outcomeCompleted true) 0] ++
        Sample.bobRequests)).map (fun w => w.pendingReplay Sample.deployment 1) =
        some (some (Sample.bob, "order-1")) := by
    decide
  obtain ⟨w₀, hrun₀, hobserved₀⟩ := Option.map_eq_some_iff.mp hopen
  obtain ⟨w₁, hrun₁, hobserved₁⟩ := Option.map_eq_some_iff.mp hdone
  obtain ⟨w, hrun, hobserved⟩ := Option.map_eq_some_iff.mp hreplay
  rw [run_append, hrun₁, Option.bind_some] at hrun
  rw [run_append, hrun₀, Option.bind_some] at hrun₁
  obtain ⟨next, hstep, hnext⟩ := Option.bind_eq_some_iff.mp hrun₁
  cases hnext
  obtain ⟨handler, hhandler, hprincipal⟩ :=
    Option.map_eq_some_iff.mp (Prod.mk.inj hobserved₀).1
  have hwrites : WritesClaim Sample.deployment w₀
      (.settle (.handler 0 (.outcomeCompleted true) 0)) Sample.alice "order-1" := by
    refine ⟨0, _, 0, handler, w₁, rfl, hhandler, hprincipal, hstep, ?_⟩
    intro hsame
    rw [hsame, (Prod.mk.inj hobserved₀).2] at hobserved₁
    cases hobserved₁
  have hdistinct : Sample.alice.Distinct Sample.bob :=
    ⟨rfl, rfl, by decide⟩
  exact (hisolated w₀ w₁ w (.settle (.handler 0 (.outcomeCompleted true) 0))
    (.settle (.handler 1 .claimBegun 0)) Sample.alice Sample.bob
    "order-1" (reaches_tenantStep (reaches_of_run hrun₀)) trivial hstep
    (reaches_tenantStep (reaches_of_run hrun)) trivial hdistinct).2 hwrites
    (answeredFromClaim_of_pendingReplay hobserved)

end X402Facilitator
