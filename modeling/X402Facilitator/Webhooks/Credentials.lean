import X402Facilitator.Library.Eviction
import X402Facilitator.Library.Execution
import X402Facilitator.Library.JsText

/-!
# The client certificates of deliveries

The provider resolves the credentials of a ref, keeps them for `credentialTtlMs` and pools one agent
for each digest of credentials.  Any number of deliveries interleave: a step is what runs from one
`await` to the next.  The certificate parser and the hash are those of the platform.
-/

namespace X402Facilitator.Mtls

open X402Facilitator.Execution

/-- The `mtls` block of a record. -/
structure MtlsConfig where
  ref : String
  ca : Option String := none
  endpointId : Option String := none

structure Material where
  cert : Option String
  key : Option String
  ca : Option String := none

structure MtlsError where
  message : String
  code : String
  endpointId : Option String := none

/-- What is read of a certificate.  `validToMs` is `Date.parse(validTo)`, if that is finite. -/
structure X509 where
  subject : String
  issuer : String
  validFrom : String
  validTo : String
  fingerprint256 : String
  serialNumber : String
  validToMs : Option ℤ

/-- `createHash('sha256')` gives hexadecimal digits. -/
structure Options where
  x509 : String → Except String X509
  sha256 : String → String
  credentialTtlMs : ℕ
  warnWithinDays : ℤ

structure Certificate extends X509 where
  daysRemaining : ℤ
  expired : Bool

structure Credentials where
  cert : String
  key : String
  ca : Option String
  info : Certificate

/-- An agent with what it was created from, and its number. -/
structure Agent where
  serial : ℕ
  cert : String
  key : String
  ca : Option String

def present (text : Option String) : Option String := text.filter (· ≠ "")

def describeCertificate (options : Options) (pem : String) (now : ℕ) :
    Except MtlsError Certificate :=
  match options.x509 pem with
  | .error message =>
      .error ⟨"client certificate is not a readable PEM certificate: " ++ message,
        "invalid_certificate", none⟩
  | .ok cert =>
      match cert.validToMs with
      | none => .error ⟨"client certificate has an unreadable notAfter date",
          "invalid_certificate", none⟩
      | some validToMs => .ok
          { cert with
            daysRemaining := (validToMs - now) / 86400000
            expired := decide (validToMs ≤ now) }

/-- `checkCertificateExpiry`, by the text that it warns with. -/
def checkCertificateExpiry (options : Options) (info : Certificate) (endpointId : Option String) :
    Option String :=
  let label := match present endpointId with
    | some endpointId => "webhook endpoint \"" ++ endpointId ++ "\""
    | none => "webhook endpoint"
  if info.expired then
    some ("[webhooks] mTLS client certificate for " ++ label ++ " EXPIRED at " ++ info.validTo ++
      " (serial " ++ info.serialNumber ++
      ") — deliveries will fail the TLS handshake until it is replaced")
  else if info.daysRemaining ≤ options.warnWithinDays then
    some ("[webhooks] mTLS client certificate for " ++ label ++ " expires in " ++
      toString info.daysRemaining ++ " day(s) on " ++ info.validTo ++ " (serial " ++
      info.serialNumber ++ ") — rotate it before then")
  else none

def digestText (cert key : String) (ca : Option String) : String :=
  cert ++ "\x00" ++ key ++ "\x00" ++ ca.getD ""

def credentialFingerprint (options : Options) (cert key : String) (ca : Option String) : String :=
  "sha256:" ++ String.ofList ((options.sha256 (digestText cert key ca)).toList.take 32)

structure Identity (options : Options) where
  credentials : Credentials
  fingerprint : String
  agrees : fingerprint =
    credentialFingerprint options credentials.cert credentials.key credentials.ca

def Identity.text {options : Options} (identity : Identity options) : String :=
  digestText identity.credentials.cert identity.credentials.key identity.credentials.ca

/-- `_loadCredentials` from the answer of the resolver on, but for what it stores; the credentials
come with the warning. -/
def loadCredentials (options : Options) (mtls : MtlsConfig)
    (resolved : Except String (Option Material)) (now : ℕ) :
    Except MtlsError (Identity options × Option String) :=
  match resolved with
  | .error message =>
      .error ⟨"could not resolve mTLS credentials for endpoint \"" ++
        mtls.endpointId.getD mtls.ref ++ "\": " ++ message, "credential_resolve_failed",
        mtls.endpointId⟩
  | .ok material =>
      match present (material.bind Material.cert), present (material.bind Material.key) with
      | some cert, some key =>
          (describeCertificate options cert now).map fun info =>
            (⟨⟨cert, key, mtls.ca.or (material.bind Material.ca), info⟩, _, rfl⟩,
              checkCertificateExpiry options info mtls.endpointId)
      | _, _ =>
          .error ⟨"mTLS credential ref \"" ++ mtls.ref ++
            "\" did not yield both a certificate and a private key", "incomplete_credentials",
            mtls.endpointId⟩

structure Entry (options : Options) where
  identity : Identity options
  expiresAt : ℕ

/-- A call of `_loadCredentials`, which has the number of the delivery that made it.  It stays in
flight until the callback of `finally` has run. -/
inductive Load where
  | notStarted
  | resolving (mtls : MtlsConfig)
  | settled (mtls : MtlsConfig) (resolved : Except String (Option Material)) (resolvedAt : ℕ)
  | finished (mtls : MtlsConfig) (resolved : Except String (Option Material)) (resolvedAt : ℕ)

/-- How far a call of `getAgent` has got, and when it was made. -/
inductive Delivery (options : Options) where
  | notMade
  | failed (error : MtlsError)
  | awaiting (mtls : MtlsConfig) (since : ℕ) (load : ℕ)
  | found (mtls : MtlsConfig) (since : ℕ) (identity : Identity options)
  | returned (mtls : MtlsConfig) (since : ℕ) (identity : Identity options) (agent : Agent)

/-- `made` counts the agents and `closed` has the numbers of those that were closed; `clock` is the
last time that was read. -/
structure Provider (options : Options) where
  cache : InsertionMap String (Entry options)
  inFlight : InsertionMap String ℕ
  agents : InsertionMap String Agent
  made : ℕ
  closed : List ℕ
  warnings : List String
  loads : ℕ → Load
  deliveries : ℕ → Delivery options
  clock : ℕ

inductive Action where
  | getAgent (delivery : ℕ) (mtls : MtlsConfig) (now : ℕ)
  | resolve (load : ℕ) (resolved : Except String (Option Material)) (now : ℕ)
  | settle (load : ℕ)
  | resume (delivery : ℕ)
  | closeAll

namespace Provider

variable {options : Options}

def init : Provider options where
  cache := .empty
  inFlight := .empty
  agents := .empty
  made := 0
  closed := []
  warnings := []
  loads := fun _ => .notStarted
  deliveries := fun _ => .notMade
  clock := 0

def setDelivery (s : Provider options) (index : ℕ) (delivery : Delivery options) :
    Provider options :=
  { s with deliveries := Function.update s.deliveries index delivery }

def setLoad (s : Provider options) (index : ℕ) (load : Load) : Provider options :=
  { s with loads := Function.update s.loads index load }

def closeAgent (s : Provider options) (fingerprint : String) : Provider options :=
  match s.agents.get fingerprint with
  | none => s
  | some agent =>
      { s with
        agents := s.agents.erase fingerprint
        closed := s.closed ++ [agent.serial] }

/-- The end of `_loadCredentials`: a rotation closes the agent of the credentials before. -/
def store (s : Provider options) (ref : String) (identity : Identity options) (now : ℕ) :
    Provider options :=
  let stored := { s with cache := s.cache.set ref ⟨identity, now + options.credentialTtlMs⟩ }
  match s.cache.get ref with
  | none => stored
  | some previous =>
      if previous.identity.fingerprint ≠ identity.fingerprint then
        stored.closeAgent previous.identity.fingerprint
      else stored

/-- The agent of `getAgent` for credentials, which is created when there is none. -/
def agentFor (s : Provider options) (identity : Identity options) : Agent × Provider options :=
  match s.agents.get identity.fingerprint with
  | some agent => (agent, s)
  | none =>
      let agent : Agent := ⟨s.made, identity.credentials.cert, identity.credentials.key,
        present identity.credentials.ca⟩
      (agent, { s with
        agents := s.agents.set identity.fingerprint agent
        made := s.made + 1 })

/-- `getAgent` up to its first `await`, with `_credentialsFor`. -/
def request (s : Provider options) (index : ℕ) (mtls : MtlsConfig) (now : ℕ) : Provider options :=
  if mtls.ref = "" then
    s.setDelivery index
      (.failed ⟨"mTLS delivery requested without a credential ref", "missing_ref", none⟩)
  else
    match (s.cache.get mtls.ref).filter fun cached => now < cached.expiresAt with
    | some cached => s.setDelivery index (.found mtls now cached.identity)
    | none =>
        match s.inFlight.get mtls.ref with
        | some load => s.setDelivery index (.awaiting mtls now load)
        | none =>
            { (s.setLoad index (.resolving mtls)).setDelivery index (.awaiting mtls now index) with
              inFlight := s.inFlight.set mtls.ref index }

def returnAgent (s : Provider options) (index : ℕ) (mtls : MtlsConfig) (since : ℕ)
    (identity : Identity options) : Provider options :=
  (s.agentFor identity).2.setDelivery index
    (.returned mtls since identity (s.agentFor identity).1)

end Provider

variable {options : Options}

def step (s : Provider options) : Action → Option (Provider options)
  | .getAgent index mtls now =>
      match s.deliveries index, s.loads index with
      | .notMade, .notStarted => some { s.request index mtls now with clock := now }
      | _, _ => none
  | .resolve index resolved now =>
      match s.loads index with
      | .resolving mtls =>
          let settled := { s.setLoad index (.settled mtls resolved now) with clock := now }
          match loadCredentials options mtls resolved now with
          | .error _ => some settled
          | .ok (identity, warning) =>
              some { settled.store mtls.ref identity now with
                warnings := s.warnings ++ warning.toList }
      | _ => none
  | .settle index =>
      match s.loads index with
      | .settled mtls resolved resolvedAt =>
          some { s.setLoad index (.finished mtls resolved resolvedAt) with
            inFlight := s.inFlight.erase mtls.ref }
      | _ => none
  | .resume index =>
      match s.deliveries index with
      | .found mtls since identity => some (s.returnAgent index mtls since identity)
      | .awaiting mtls since load =>
          match s.loads load with
          | .finished config resolved resolvedAt =>
              match loadCredentials options config resolved resolvedAt with
              | .error error => some (s.setDelivery index (.failed error))
              | .ok (identity, _) => some (s.returnAgent index mtls since identity)
          | _ => none
      | _ => none
  | .closeAll =>
      some { s with
        cache := .empty
        inFlight := .empty
        agents := .empty
        closed := s.closed ++ s.agents.entries.map fun entry => entry.2.serial }

def Load.pendingRef : Load → Option String
  | resolving mtls | settled mtls _ _ => some mtls.ref
  | _ => none

def Load.ref : Load → Option String
  | resolving mtls | settled mtls _ _ | finished mtls _ _ => some mtls.ref
  | notStarted => none

/-- The answer of the resolver, with the block of the delivery that asked for it. -/
def Load.outcome : Load → Option (MtlsConfig × Except String (Option Material) × ℕ)
  | settled mtls resolved resolvedAt | finished mtls resolved resolvedAt =>
      some (mtls, resolved, resolvedAt)
  | _ => none

structure Agent.BuiltFrom (agent : Agent) (identity : Identity options) : Prop where
  cert : agent.cert = identity.credentials.cert
  key : agent.key = identity.credentials.key
  ca : agent.ca = present identity.credentials.ca

namespace Provider

/-- A load of `ref` has yielded `identity`. -/
def ResolvedTo (s : Provider options) (ref : String) (identity : Identity options)
    (resolvedAt : ℕ) : Prop :=
  ∃ load config resolved warning, (s.loads load).outcome = some (config, resolved, resolvedAt) ∧
    config.ref = ref ∧ loadCredentials options config resolved resolvedAt = .ok (identity, warning)

/-- The promise that the delivery awaits has been fulfilled with `identity`. -/
inductive Due (s : Provider options) (index : ℕ) (mtls : MtlsConfig) (since : ℕ)
    (identity : Identity options) : Prop where
  | found (hdelivery : s.deliveries index = .found mtls since identity)
  | loaded {load resolvedAt : ℕ} {config : MtlsConfig}
      {resolved : Except String (Option Material)} {warning : Option String}
      (hdelivery : s.deliveries index = .awaiting mtls since load)
      (hload : s.loads load = .finished config resolved resolvedAt)
      (hok : loadCredentials options config resolved resolvedAt = .ok (identity, warning))

def serials (agents : InsertionMap String Agent) : List ℕ :=
  agents.entries.map fun entry => entry.2.serial

structure Rotated (s : Provider options) (ref : String) (identity : Identity options)
    (agents : InsertionMap String Agent) (closed : List ℕ) : Prop where
  accounted : (closed ++ serials agents).Perm (s.closed ++ serials s.agents)
  kept : ∀ fingerprint agent, agents.get fingerprint = some agent →
    s.agents.get fingerprint = some agent
  gone : ∀ previous, s.cache.get ref = some previous →
    previous.identity.fingerprint ≠ identity.fingerprint →
      agents.get previous.identity.fingerprint = none

structure Pooled (s : Provider options) (identity : Identity options)
    (agents : InsertionMap String Agent) (made : ℕ) (agent : Agent) : Prop where
  accounted : (s.closed ++ serials s.agents).Perm (List.range s.made) →
    (s.closed ++ serials agents).Perm (List.range made)
  get : ∀ fingerprint, agents.get fingerprint =
    if fingerprint = identity.fingerprint then some agent else s.agents.get fingerprint
  built : s.agents.get identity.fingerprint = some agent ∨ agent.BuiltFrom identity

theorem exists_closeAgent (s : Provider options) (fingerprint : String) :
    ∃ agents closed, s.closeAgent fingerprint = { s with agents := agents, closed := closed } ∧
      (closed ++ serials agents).Perm (s.closed ++ serials s.agents) ∧
      ∀ other, agents.get other =
        if other = fingerprint then none else s.agents.get other := by
  rw [closeAgent]
  split
  · next habsent =>
      refine ⟨s.agents, s.closed, rfl, List.Perm.refl _, fun other => ?_⟩
      split
      · next hother => rw [hother, habsent]
      · rfl
  · next agent hagent =>
      have hsplit : (serials s.agents).Perm
          (agent.serial :: serials (s.agents.erase fingerprint)) :=
        (InsertionMap.entries_perm_erase hagent).map fun entry : String × Agent => entry.2.serial
      refine ⟨_, _, rfl, ?_, InsertionMap.get_erase s.agents fingerprint⟩
      rw [List.append_assoc]
      exact hsplit.symm.append_left s.closed

theorem exists_store (s : Provider options) (ref : String) (identity : Identity options)
    (now : ℕ) :
    ∃ agents closed, s.Rotated ref identity agents closed ∧ s.store ref identity now =
      { s with
        cache := s.cache.set ref ⟨identity, now + options.credentialTtlMs⟩
        agents := agents
        closed := closed } := by
  have hsame (hprevious : ∀ previous, s.cache.get ref = some previous →
      previous.identity.fingerprint = identity.fingerprint) :
      s.Rotated ref identity s.agents s.closed :=
    ⟨List.Perm.refl _, fun _ _ h => h, fun previous h hne => absurd (hprevious previous h) hne⟩
  rw [store]
  split
  · next hnone => exact ⟨_, _, hsame fun previous h => by simp [hnone] at h, rfl⟩
  · next previous hprevious =>
      split
      · obtain ⟨agents, closed, hclose, haccounted, hget⟩ := exists_closeAgent
          { s with cache := s.cache.set ref ⟨identity, now + options.credentialTtlMs⟩ }
          previous.identity.fingerprint
        refine ⟨agents, closed, ⟨haccounted, fun fingerprint agent hagent => ?_, ?_⟩, hclose⟩
        · rw [hget, Option.ite_none_left_eq_some] at hagent
          exact hagent.2
        · intro other hother hne
          obtain rfl := Option.some.inj (hprevious.symm.trans hother)
          rw [hget, if_pos rfl]
      · next heq =>
          refine ⟨_, _, hsame fun other hother => ?_, rfl⟩
          obtain rfl := Option.some.inj (hprevious.symm.trans hother)
          exact not_not.mp heq

theorem exists_returnAgent (s : Provider options) (index : ℕ) (mtls : MtlsConfig) (since : ℕ)
    (identity : Identity options) :
    ∃ agents made agent, s.Pooled identity agents made agent ∧
      s.returnAgent index mtls since identity =
        { s.setDelivery index (.returned mtls since identity agent) with
          agents := agents, made := made } := by
  rw [returnAgent, agentFor]
  split
  · next agent hagent =>
      refine ⟨s.agents, s.made, agent, ⟨id, fun fingerprint => ?_, Or.inl hagent⟩, rfl⟩
      split
      · next hfingerprint => rw [hfingerprint, hagent]
      · rfl
  · next habsent =>
      refine ⟨_, _, _, ⟨fun haccounted => ?_, fun fingerprint => InsertionMap.get_set _ _ _ _,
        Or.inr ⟨rfl, rfl, rfl⟩⟩, rfl⟩
      rw [serials, InsertionMap.entries_set_of_absent _ habsent, List.map_append,
        ← List.append_assoc, List.range_succ]
      exact haccounted.append_right _

end Provider

inductive Change (s : Provider options) : Action → Provider options → Prop where
  | refused (index : ℕ) (mtls : MtlsConfig) (now : ℕ) (error : MtlsError) :
      Change s (.getAgent index mtls now)
        { s.setDelivery index (.failed error) with clock := now }
  | cached {index now : ℕ} {mtls : MtlsConfig} {entry : Entry options}
      (hget : s.cache.get mtls.ref = some entry) (hfresh : now < entry.expiresAt) :
      Change s (.getAgent index mtls now)
        { s.setDelivery index (.found mtls now entry.identity) with clock := now }
  | joined {index now load : ℕ} {mtls : MtlsConfig}
      (hget : s.inFlight.get mtls.ref = some load) :
      Change s (.getAgent index mtls now)
        { s.setDelivery index (.awaiting mtls now load) with clock := now }
  | started {index now : ℕ} {mtls : MtlsConfig} (hload : s.loads index = .notStarted)
      (hget : s.inFlight.get mtls.ref = none) :
      Change s (.getAgent index mtls now)
        { (s.setLoad index (.resolving mtls)).setDelivery index (.awaiting mtls now index) with
          inFlight := s.inFlight.set mtls.ref index, clock := now }
  | rejected {index now : ℕ} {mtls : MtlsConfig} {resolved : Except String (Option Material)}
      (hload : s.loads index = .resolving mtls) :
      Change s (.resolve index resolved now)
        { s.setLoad index (.settled mtls resolved now) with clock := now }
  | stored {index now : ℕ} {mtls : MtlsConfig} {resolved : Except String (Option Material)}
      {identity : Identity options} {warning : Option String}
      {agents : InsertionMap String Agent} {closed : List ℕ}
      (hload : s.loads index = .resolving mtls)
      (hok : loadCredentials options mtls resolved now = .ok (identity, warning))
      (hrotated : s.Rotated mtls.ref identity agents closed) :
      Change s (.resolve index resolved now)
        { s.setLoad index (.settled mtls resolved now) with
          cache := s.cache.set mtls.ref ⟨identity, now + options.credentialTtlMs⟩
          agents := agents, closed := closed, clock := now
          warnings := s.warnings ++ warning.toList }
  | left {index resolvedAt : ℕ} {mtls : MtlsConfig} {resolved : Except String (Option Material)}
      (hload : s.loads index = .settled mtls resolved resolvedAt) :
      Change s (.settle index)
        { s.setLoad index (.finished mtls resolved resolvedAt) with
          inFlight := s.inFlight.erase mtls.ref }
  | returned {index since made : ℕ} {mtls : MtlsConfig} {identity : Identity options}
      {agents : InsertionMap String Agent} {agent : Agent}
      (hdue : s.Due index mtls since identity) (hpooled : s.Pooled identity agents made agent) :
      Change s (.resume index)
        { s.setDelivery index (.returned mtls since identity agent) with
          agents := agents, made := made }
  | threw {index : ℕ} (error : MtlsError)
      (hnot : ∀ mtls since identity, ¬ s.Due index mtls since identity) :
      Change s (.resume index) (s.setDelivery index (.failed error))
  | closed : Change s .closeAll
      { s with
        cache := .empty
        inFlight := .empty
        agents := .empty
        closed := s.closed ++ Provider.serials s.agents }

section Steps

variable {s s' : Provider options} {action : Action} {index since load resolvedAt : ℕ}
variable {ref fingerprint : String} {mtls : MtlsConfig} {identity : Identity options}
variable {agent : Agent}

theorem change_request (mtls : MtlsConfig) (now : ℕ) (hload : s.loads index = .notStarted) :
    Change s (.getAgent index mtls now) { s.request index mtls now with clock := now } := by
  rw [Provider.request]
  split
  · exact .refused index mtls now _
  · split
    · next cached hcached =>
        obtain ⟨hget, hfresh⟩ := Option.filter_eq_some_iff.mp hcached
        exact .cached hget (of_decide_eq_true hfresh)
    · split
      · next load hget => exact .joined hget
      · next hget => exact .started hload hget

theorem change_returnAgent (hdue : s.Due index mtls since identity) :
    Change s (.resume index) (s.returnAgent index mtls since identity) := by
  obtain ⟨agents, made, agent, hpooled, hreturn⟩ := s.exists_returnAgent index mtls since identity
  rw [hreturn]
  exact .returned hdue hpooled

theorem change_of_step (hstep : step s action = some s') : Change s action s' := by
  cases action with
  | getAgent index mtls now =>
      rw [step] at hstep
      split at hstep
      · next hdelivery hload =>
          cases hstep
          exact change_request mtls now hload
      · cases hstep
  | resolve index resolved now =>
      rw [step] at hstep
      split at hstep
      · next mtls hload =>
          dsimp only at hstep
          split at hstep
          · cases hstep
            exact .rejected hload
          · next identity warning hok =>
              obtain ⟨agents, closed, hrotated, hstore⟩ := Provider.exists_store
                { s.setLoad index (.settled mtls resolved now) with clock := now } mtls.ref
                identity now
              rw [hstore] at hstep
              cases hstep
              exact .stored hload hok ⟨hrotated.accounted, hrotated.kept, hrotated.gone⟩
      · cases hstep
  | settle index =>
      rw [step] at hstep
      split at hstep
      · next mtls resolved resolvedAt hload =>
          cases hstep
          exact .left hload
      · cases hstep
  | resume index =>
      rw [step] at hstep
      split at hstep
      · next mtls since identity hdelivery =>
          cases hstep
          exact change_returnAgent (.found hdelivery)
      · next mtls since load hdelivery =>
          split at hstep
          · next config resolved resolvedAt hload =>
              split at hstep
              · next error hfails =>
                  cases hstep
                  apply Change.threw
                  rintro mtls since identity (hother | ⟨hother, hfinished, hok⟩)
                  · rw [hdelivery] at hother
                    cases hother
                  · rw [hdelivery] at hother
                    cases hother
                    rw [hload] at hfinished
                    cases hfinished
                    rw [hfails] at hok
                    cases hok
              · next identity warning hok =>
                  cases hstep
                  exact change_returnAgent (.loaded hdelivery hload hok)
          · cases hstep
      · cases hstep
  | closeAll =>
      cases hstep
      exact .closed

/-- One certificate, its digest, and a lifetime of ten milliseconds. -/
def oneCertificate : Options where
  x509 := fun _ => .ok ⟨"CN=merchant", "CN=issuer", "", "", "", "01", some 0⟩
  sha256 := fun _ => "8e3b09ee18001684e371195649d16f52042b38565a82a9f6b48be5cb0b713261"
  credentialTtlMs := 10
  warnWithinDays := 14

def oneDelivery : List Action :=
  [.getAgent 0 ⟨"merchant", none, none⟩ 0,
    .resolve 0 (.ok (some ⟨some "cert", some "key", none⟩)) 5, .settle 0, .resume 0]

/-- Every agent that was created is in the pool or was closed, and once. -/
def Provider.Accounted (s : Provider options) : Prop :=
  (s.closed ++ serials s.agents).Perm (List.range s.made)

theorem Provider.Accounted.change (haccounted : s.Accounted) (hchange : Change s action s') :
    s'.Accounted := by
  cases hchange with
  | stored hload hok hrotated => exact hrotated.accounted.trans haccounted
  | returned hdue hpooled => exact hpooled.accounted haccounted
  | closed =>
      change (s.closed ++ serials s.agents ++ []).Perm _
      rw [List.append_nil]
      exact haccounted
  | _ => exact haccounted

/-- In every run each agent is either in the pool or was closed, and never closed twice. -/
theorem pooled_or_closed_once (hreach : Reaches step anyStep (.init : Provider options) s) :
    s.Accounted :=
  hreach.preserves (fun _ _ _ h _ hstep => h.change (change_of_step hstep)) (List.Perm.refl [])

/-- Two certificates of one key, and their digests. -/
def twoCertificates : Options :=
  { oneCertificate with
    sha256 := fun text =>
      if text = digestText "renewed" "key" none then
        "fffa5f1f3222d95a31983cac3ff80c36fe0214f9316a383ffd13d849a2381956"
      else "8e3b09ee18001684e371195649d16f52042b38565a82a9f6b48be5cb0b713261" }

/-- A later delivery, for which the certificate has been renewed. -/
def renewedDelivery : List Action :=
  [.getAgent 1 ⟨"merchant", none, none⟩ 20,
    .resolve 1 (.ok (some ⟨some "renewed", some "key", none⟩)) 25, .settle 1, .resume 1]

/-- The agent of the certificate before is closed, and the one of the renewed is pooled. -/
theorem pooled_or_closed_once_renewed : ∃ s : Provider twoCertificates,
    run step .init (oneDelivery ++ renewedDelivery) = some s ∧
      (s.closed, Provider.serials s.agents) = ([0], [1]) ∧ s.Accounted := by
  have hrun : (run step (.init : Provider twoCertificates) (oneDelivery ++ renewedDelivery)).map
      (fun s => (s.closed, Provider.serials s.agents)) = some ([0], [1]) := by decide +kernel
  obtain ⟨s, hs, hseen⟩ := Option.map_eq_some_iff.mp hrun
  exact ⟨s, hs, hseen, pooled_or_closed_once (reaches_of_run hs)⟩

end Steps

end X402Facilitator.Mtls
