import X402Facilitator.RateLimit.Meter
import X402Facilitator.TrustProxy.ClientIp

/-!
# The allowlist behind the hooks

A limiter's allowlist is checked at boot and consulted by every check, with the
`req.ip` that the request has by then.  That is a pseudonym, which is in no CIDR:
no check ever bypasses the limit, whatever address was resolved.
-/

namespace X402Facilitator.RateLimit

open TrustProxy (Thrown Trust FastifyRequest Crypto isIP ipMatchesCidr trustProxyHook pseudonymHook
  pseudonymizeIp)

def isValidCidr (entry : Text) : Bool :=
  match Text.splitLast '/' entry with
  | none => (isIP entry).isSome
  | some (address, length) =>
      match isIP address with
      | none => false
      | some family =>
          (Number.ofText length).isInteger && !(Number.ofText length).isNegative &&
            !(Number.ofText length).exceeds family.bits

structure Allowlist where
  entries : List Text
  valid : ∀ entry ∈ entries, isValidCidr entry = true

namespace Allowlist

def construct (entries : List Text) : Except Thrown Allowlist :=
  match hinvalid : entries.find? fun entry => !isValidCidr entry with
  | some entry =>
      .error (.error ("RATE_LIMIT_ALLOWLIST entries must be IPs or CIDRs — got \"" ++
        String.ofList entry ++ "\"."))
  | none => .ok ⟨entries, by simpa using hinvalid⟩

def allowlistMatch (allowlist : Allowlist) : Option Text → Except Thrown (Option Text)
  | none => .ok none
  | some ip => allowlist.entries.findM? (ipMatchesCidr ip)

def Contains (allowlist : Allowlist) (ip : Option Text) : Prop :=
  ∃ address ∈ ip, ∃ cidr ∈ allowlist.entries, ipMatchesCidr address cidr = .ok true

end Allowlist

/-- What a limiter is constructed with, and its allowlist. -/
structure Limiter where
  global : MeteredLimits
  keys : String → Option MeteredLimits
  perNetwork : String → Option ℕ
  allowlist : Allowlist

/-- The configuration for a request of which the allowlist has been asked. -/
def Limiter.meterConfig (limiter : Limiter) (matched : Bool) : MeterConfig where
  global := limiter.global
  keys := limiter.keys
  allowlisted := fun _ => matched
  perNetwork := limiter.perNetwork

/-- `req.keyId || req.ip`; an address that is missing is spelled out in a bucket's id. -/
def caller (request : FastifyRequest) : Caller where
  keyId := request.keyId
  ip := String.ofList (request.ip.getD "undefined".toList)

inductive CheckCall where
  | verify
  | settle (network : Option String)
  | catalog
  | catalogRead

inductive RecordCall where
  | verify
  | settle (feeCharged : ℤ)
  | catalog
  | catalogRead

section Calls

variable {maxSize : ℕ} (config : MeterConfig) (limiter : Limiter)
variable (store : MemoryStore MeterId maxSize) (clock : ℕ → ℕ)

def CheckCall.answer (caller : Caller) : CheckCall → Outcome × MemoryStore MeterId maxSize
  | verify => RateLimiter.checkVerify config store caller clock
  | settle network => RateLimiter.checkSettle config store caller clock network
  | catalog => RateLimiter.checkCatalog config store caller clock
  | catalogRead => RateLimiter.checkCatalogRead config store caller clock

def RecordCall.answer (caller : Caller) : RecordCall → Outcome × MemoryStore MeterId maxSize
  | verify => RateLimiter.recordVerify config store caller clock
  | settle feeCharged => RateLimiter.recordSettle config store caller clock feeCharged
  | catalog => RateLimiter.recordCatalog config store caller clock
  | catalogRead => RateLimiter.recordCatalogRead config store caller clock

/-- A check of a request, which asks the allowlist before the store. -/
def Limiter.check (request : FastifyRequest) (call : CheckCall) :
    Except Thrown (Outcome × MemoryStore MeterId maxSize) := do
  let cidr ← limiter.allowlist.allowlistMatch request.ip
  pure (call.answer (limiter.meterConfig cidr.isSome) store clock (caller request))

/-- A record of a request, which does not ask the allowlist. -/
def Limiter.record (request : FastifyRequest) (call : RecordCall) :
    Outcome × MemoryStore MeterId maxSize :=
  call.answer (limiter.meterConfig false) store clock (caller request)

end Calls

def Bypasses {maxSize : ℕ} (result : Except Thrown (Outcome × MemoryStore MeterId maxSize)) :
    Prop :=
  ∃ answer, result = .ok answer ∧ answer.1.bypassed = true

/-- What an allowlist promises of the checks and records of a request, where
`resolved` is the request with its resolved address. -/
structure Limiter.Honours (limiter : Limiter) (resolved request : FastifyRequest) : Prop where
  bypasses : limiter.allowlist.Contains resolved.ip →
    ∀ {maxSize} (store : MemoryStore MeterId maxSize) clock call,
      Bypasses (limiter.check store clock request call)
  uncounted : limiter.allowlist.Contains resolved.ip →
    ∀ {maxSize} (store : MemoryStore MeterId maxSize) clock call id,
      held id (limiter.record store clock request call).2.map ≤ held id store.map
  limited : ¬ limiter.allowlist.Contains resolved.ip →
    ∀ {maxSize} (store : MemoryStore MeterId maxSize) clock call,
      ¬ Bypasses (limiter.check store clock request call)

section Bypass

variable {maxSize : ℕ} {config : MeterConfig} {store : MemoryStore MeterId maxSize}
variable {clock : ℕ → ℕ}

theorem bypassed_verdict (limit : Limit) (count amount resetAt : ℕ) :
    (verdict limit count amount resetAt).bypassed = false := by
  rw [verdict]
  split <;> rfl

theorem bypassed_because (outcome : Outcome) (reason : String) :
    (outcome.because reason).bypassed = outcome.bypassed := by
  rw [Outcome.because]
  split <;> rfl

theorem tightest_mem (first : Outcome) (others : List Outcome) :
    tightest first others ∈ first :: others := by
  induction others generalizing first with
  | nil => exact List.mem_singleton_self first
  | cons current others ih =>
      rw [tightest, List.foldl_cons]
      split
      · exact List.mem_cons_of_mem first (ih current)
      · have hskip : first :: others ⊆ first :: current :: others :=
          List.cons_subset_cons first (List.subset_cons_self current others)
        exact hskip (ih first)

theorem bypassed_checkMinute (caller : Caller) (type : MeterType) (limit : Limit)
    (reason : String) :
    (RateLimiter.checkMinute config store caller clock type limit reason).1.bypassed =
      config.allowlisted caller.ip := by
  rw [RateLimiter.checkMinute, MeterConfig.bypass]
  cases hlisted : config.allowlisted caller.ip with
  | true => rfl
  | false => exact (bypassed_because _ _).trans (bypassed_verdict _ _ _ _)

theorem bypassed_checkSettle (caller : Caller) (network : Option String) :
    (RateLimiter.checkSettle config store caller clock network).1.bypassed =
      config.allowlisted caller.ip := by
  rw [RateLimiter.checkSettle, MeterConfig.bypass]
  cases hlisted : config.allowlisted caller.ip with
  | true => rfl
  | false =>
      let limits := config.getKeyConfig caller.owner
      let minute := RateLimiter.check store caller.owner .settle 60 limits.settleRpm 1 (clock 0)
      let hour := RateLimiter.check minute.2 caller.owner .settle 3600 limits.settleRph 1 (clock 1)
      let day := RateLimiter.check hour.2 caller.owner .settle 86400 limits.settleRpd 1 (clock 2)
      have hverdicts : ∀ outcome ∈ [minute.1, hour.1, day.1], outcome.bypassed = false := by
        simp only [List.forall_mem_cons, List.not_mem_nil, false_implies, implies_true, and_true]
        exact ⟨bypassed_verdict _ _ _ _, bypassed_verdict _ _ _ _, bypassed_verdict _ _ _ _⟩
      simp only [Bool.false_eq_true, if_false]
      split
      · next outcome hrefused =>
          rw [bypassed_because]
          exact hverdicts outcome (List.mem_of_find?_eq_some hrefused)
      · split
        · exact hverdicts _ (tightest_mem _ _)
        · exact (bypassed_because _ _).trans (bypassed_verdict _ _ _ _)

theorem bypassed_answer (config : MeterConfig) (store : MemoryStore MeterId maxSize)
    (clock : ℕ → ℕ) (caller : Caller) (call : CheckCall) :
    (call.answer config store clock caller).1.bypassed = config.allowlisted caller.ip := by
  cases call with
  | verify => exact bypassed_checkMinute caller _ _ _
  | settle network => exact bypassed_checkSettle caller network
  | catalog | catalogRead => exact bypassed_checkMinute caller _ _ _

/-- A check bypasses the limit where the allowlist has found an entry. -/
theorem bypasses_iff {limiter : Limiter} {request : FastifyRequest} {call : CheckCall} :
    Bypasses (limiter.check store clock request call) ↔
      ∃ cidr, limiter.allowlist.allowlistMatch request.ip = .ok (some cidr) := by
  rw [Limiter.check]
  cases limiter.allowlist.allowlistMatch request.ip with
  | error thrown =>
      constructor
      · rintro ⟨answer, hanswer, -⟩
        cases hanswer
      · rintro ⟨cidr, hcidr⟩
        cases hcidr
  | ok found =>
      have hbypassed := bypassed_answer (limiter.meterConfig found.isSome) store clock
        (caller request) call
      constructor
      · rintro ⟨answer, hanswer, hbypass⟩
        cases hanswer
        rw [hbypassed] at hbypass
        obtain ⟨cidr, rfl⟩ := Option.isSome_iff_exists.mp hbypass
        exact ⟨cidr, rfl⟩
      · rintro ⟨cidr, hcidr⟩
        cases hcidr
        exact ⟨_, rfl, hbypassed⟩

end Bypass

section Pseudonyms

variable (crypto : Crypto) (secret : Option Text) (limiter : Limiter)

theorem findM?_matches {p : Text → Except Thrown Bool} {entries : List Text} {found : Text}
    (hfound : entries.findM? p = .ok (some found)) : p found = .ok true := by
  induction entries with
  | nil => cases hfound
  | cons entry entries ih =>
      rw [List.findM?] at hfound
      cases hentry : p entry with
      | error thrown =>
          rw [hentry] at hfound
          cases hfound
      | ok matched =>
          rw [hentry] at hfound
          cases matched with
          | false => exact ih hfound
          | true =>
              cases hfound
              exact hentry

/-- No request bypasses a limit with the pseudonym for an address. -/
theorem not_bypasses_pseudonym {maxSize : ℕ} (store : MemoryStore MeterId maxSize)
    (clock : ℕ → ℕ) (resolved : FastifyRequest) (call : CheckCall) :
    ¬ Bypasses (limiter.check store clock (pseudonymHook crypto secret resolved) call) := by
  intro hbypasses
  obtain ⟨cidr, hcidr⟩ := bypasses_iff.mp hbypasses
  rw [TrustProxy.pseudonymHook_ip] at hcidr
  cases hip : pseudonymizeIp crypto secret resolved.ip with
  | none =>
      rw [hip] at hcidr
      cases hcidr
  | some pseudonym =>
      rw [hip] at hcidr
      exact TrustProxy.ipMatchesCidr_ne_true (TrustProxy.parseIp_pseudonym crypto secret hip) cidr
        (findM?_matches hcidr)

theorem honours_iff_not_contains (resolved : FastifyRequest) :
    limiter.Honours resolved (pseudonymHook crypto secret resolved) ↔
      ¬ limiter.allowlist.Contains resolved.ip := by
  constructor
  · intro hhonours hcontains
    exact not_bypasses_pseudonym crypto secret limiter (.empty : MemoryStore MeterId 0) id
      resolved .verify (hhonours.bypasses hcontains _ _ _)
  · intro hnot
    refine ⟨fun hcontains => absurd hcontains hnot, fun hcontains => absurd hcontains hnot, ?_⟩
    intro _ maxSize store clock call
    exact not_bypasses_pseudonym crypto secret limiter store clock resolved call

/-- The allowlist is honoured for the requests that resolve to no address in it. -/
theorem honoured_iff_outside (trust : Trust) (request : FastifyRequest) :
    (∀ resolved, trustProxyHook trust request = .ok resolved →
        limiter.Honours resolved (pseudonymHook crypto secret resolved)) ↔
      ∀ resolved, trustProxyHook trust request = .ok resolved →
        ¬ limiter.allowlist.Contains resolved.ip :=
  forall₂_congr fun resolved _ => honours_iff_not_contains crypto secret limiter resolved

/-- A client in a listed network, connected without a proxy. -/
def listedClient : FastifyRequest where
  ip := some "10.0.0.1".toList
  socketAddress := some "10.0.0.1".toList
  connectionAddress := none
  headers := fun _ => none
  keyId := none

def privateNetwork : Allowlist := ⟨["10.0.0.0/8".toList], by decide +kernel⟩

/-- Digests that are right for the address of `listedClient`. -/
def listedDigest : Crypto where
  sha256 := fun _ =>
    [245, 4, 115, 68, 18, 47, 13, 238, 153, 116, 186, 103, 97, 230, 28, 107, 134, 73, 225, 243,
      150, 141, 19, 166, 53, 235, 191, 123, 229, 58, 58, 13]
  hmacSha256 := fun _ _ => []

theorem listed_client_is_limited :
    ¬ ∀ resolved, trustProxyHook .nothing listedClient = .ok resolved →
      Limiter.Honours ⟨{}, fun _ => none, fun _ => none, privateNetwork⟩ resolved
        (pseudonymHook listedDigest none resolved) := by
  intro hhonours
  have hresolve : TrustProxy.resolveClientIp listedClient .nothing =
      .ok (some "10.0.0.1".toList) := by decide +kernel
  have hhook : trustProxyHook .nothing listedClient = .ok listedClient := by
    rw [trustProxyHook, hresolve]
    rfl
  have hcontains : privateNetwork.Contains listedClient.ip :=
    ⟨_, rfl, _, List.mem_singleton_self _, by decide +kernel⟩
  exact (honours_iff_not_contains _ _ _ _).mp (hhonours listedClient hhook) hcontains

end Pseudonyms

end X402Facilitator.RateLimit
