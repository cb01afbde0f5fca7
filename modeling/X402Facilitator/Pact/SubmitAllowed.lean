import X402Facilitator.Pact.Submitter

/-!
# What is sponsored

What reaches `sendTransaction` is an allow-listed call, but for two comparisons: addresses are
compared as texts, and a fee that is no number is above no ceiling.
-/

namespace X402Facilitator.Pact

open Checks

section Statement

variable (accountOf : String → String)
variable (scheme : PactStellarScheme) (sdk : SubmitSdk) (server : SubmitServer)
variable (signers : Signers) (network txXdr : String)

/-- The sources and the addresses of the authorizations. -/
def namedAddresses (transaction : Transaction) (op : Operation) : List String :=
  transaction.source :: op.source.toList ++
    op.auth.filterMap fun auth => auth.credentials.map AddressCredentials.address

/-- An authorization is of an address and does not live too long. -/
def ShortLived (auth : AuthEntry) : Prop :=
  ∃ creds latest ledger, auth.credentials = some creds ∧ server.latestLedger = some latest ∧
    server.ledgerSeconds = some ledger ∧
    creds.signatureExpirationLedger ≤
      submitMaxLedger latest ledger + signatureExpirationLedgerTolerance

/-- What may be sponsored; the accounts of the facilitator are what its addresses stand for. -/
structure Sponsorable (allowed : Allowed) : Prop where
  decoded : ∃ networkPassphrase, sdk.networkPassphrase network = some networkPassphrase ∧
    sdk.decode txXdr networkPassphrase = some allowed.transaction
  invocation : allowed.transaction.operations = [allowed.parsed.op] ∧
    allowed.parsed.op.type = "invokeHostFunction" ∧
    ∃ contract fn args, scheme.pactContracts network = some contract ∧
      fn ∈ pactSubmitFunctions ∧
      allowed.parsed.op.func = some (.invokeContract contract fn args)
  noFacilitator : ∀ address ∈ namedAddresses allowed.transaction allowed.parsed.op,
    accountOf address ∉ scheme.facilitatorAddresses
  authorized : ∀ auth ∈ allowed.parsed.op.auth, ShortLived server auth
  simulated : server.simulateTransaction allowed.transaction = some (.ok allowed.sim)
  nothingPending : (sdk.signatureStatus allowed.transaction allowed.sim).pendingSignature = []
  fee : ∃ fee, submitFee scheme allowed.sim = some fee ∧ fee ≤ scheme.maxTransactionFeeStroops

/-- No address is the muxed form of an account of the facilitator, and the fee is a number. -/
def PlainCall (allowed : Allowed) : Prop :=
  (∀ address ∈ namedAddresses allowed.transaction allowed.parsed.op,
    accountOf address ≠ address → accountOf address ∉ scheme.facilitatorAddresses) ∧
  submitFee scheme allowed.sim ≠ none

def SubmitReply.reason : SubmitReply → Option String
  | .sponsored _ _ _ => none
  | .refused errorReason _ _ => some errorReason
  | .failed reason => some reason

/-- What is sent is the operation of a call, rebuilt with a signer of the facilitator as the
source, and it may be sponsored exactly where `holds`; where nothing is sent, the reply names a
reason. -/
def SubmitSound (holds : Allowed → Prop) : Prop :=
  (∀ reply sent, submit scheme sdk server signers network txXdr = (reply, some sent) →
    ∃ allowed signer, checkCall scheme sdk server network txXdr = .ok allowed ∧
      signer ∈ scheme.signingAddresses ∧
      sent.transaction = rebuildCall scheme network signer allowed ∧
      sent.feeSource = scheme.feeBumpSigner ∧
      (Sponsorable accountOf scheme sdk server network txXdr allowed ↔ holds allowed)) ∧
  ∀ reply, submit scheme sdk server signers network txXdr = (reply, none) →
    ∃ reason, reply.reason = some reason ∧ reason ≠ ""

end Statement

variable {scheme : PactStellarScheme} {sdk : SubmitSdk} {server : SubmitServer}
variable {signers : Signers} {network txXdr : String} {allowed : Allowed}

section Stop

variable {A B : Type} {value : B}

theorem holds_of_unlessStopped {holds : Bool} {reason : String} {rest : Unit → Except Stop B}
    (hok : (unlessStopped holds reason >>= rest) = .ok value) :
    holds = true ∧ rest () = .ok value := by
  obtain ⟨⟨⟩, hholds, hrest⟩ := ok_of_bind hok
  cases holds with
  | false => cases hholds
  | true => exact ⟨rfl, hrest⟩

theorem some_of_answered {offered : Option A} {rest : A → Except Stop B}
    (hok : (answered offered >>= rest) = .ok value) :
    ∃ found, offered = some found ∧ rest found = .ok value := by
  obtain ⟨found, hfound, hrest⟩ := ok_of_bind hok
  cases offered with
  | none => cases hfound
  | some answer =>
      cases hfound
      exact ⟨found, rfl, hrest⟩

end Stop

variable {transaction : Transaction} {addresses : List String} {rebuilt : Rebuilt ℕ}

theorem call_of_ok {parsed : Parsed}
    (hok : parseCall scheme sdk network txXdr = .ok (transaction, parsed)) :
    (∃ networkPassphrase, sdk.networkPassphrase network = some networkPassphrase ∧
      sdk.decode txXdr networkPassphrase = some transaction) ∧
    parseInvocation transaction scheme.facilitatorAddresses submitPrefix = .ok parsed ∧
    scheme.pactContracts network = some parsed.contract ∧ parsed.fn ∈ pactSubmitFunctions := by
  rw [parseCall] at hok
  split at hok
  · cases hok
  · next pactContract hcontract =>
      obtain ⟨networkPassphrase, hnetwork, hok⟩ := some_of_answered hok
      split at hok
      · cases hok
      · next decoded hdecoded =>
          split at hok
          · cases hok
          · next found hfound =>
              obtain ⟨hsame, hok⟩ := holds_of_unlessStopped hok
              obtain ⟨hlisted, hok⟩ := holds_of_unlessStopped hok
              cases hok
              refine ⟨⟨networkPassphrase, hnetwork, hdecoded⟩, hfound, ?_,
                List.contains_iff_mem.mp hlisted⟩
              rw [of_decide_eq_true hsame]
              exact (Option.filter_eq_some_iff.mp hcontract).1

structure Checked (scheme : PactStellarScheme) (sdk : SubmitSdk) (server : SubmitServer)
    (network txXdr : String) (allowed : Allowed) : Prop where
  call : parseCall scheme sdk network txXdr = .ok (allowed.transaction, allowed.parsed)
  simulated : server.simulateTransaction allowed.transaction = some (.ok allowed.sim)
  fee : allowed.fee = submitFee scheme allowed.sim ∧
    ∀ fee ∈ submitFee scheme allowed.sim, fee ≤ scheme.maxTransactionFeeStroops
  auth : ∃ latest ledger, server.latestLedger = some latest ∧
    server.ledgerSeconds = some ledger ∧
    checkAuthEntries allowed.parsed.op scheme.facilitatorAddresses
      (.finite (submitMaxLedger latest ledger)) submitPrefix = none
  nothingPending : (sdk.signatureStatus allowed.transaction allowed.sim).pendingSignature = []

theorem checked_of_ok (hok : checkCall scheme sdk server network txXdr = .ok allowed) :
    Checked scheme sdk server network txXdr allowed := by
  rw [checkCall] at hok
  obtain ⟨⟨transaction, parsed⟩, hcall, hok⟩ := ok_of_bind hok
  obtain ⟨simulated, hsimulated, hok⟩ := some_of_answered hok
  split at hok
  · cases hok
  · next sim =>
      obtain ⟨hfee, hok⟩ := holds_of_unlessStopped hok
      obtain ⟨latest, hlatest, hok⟩ := some_of_answered hok
      obtain ⟨ledger, hledger, hok⟩ := some_of_answered hok
      split at hok
      · cases hok
      · next hauth =>
          obtain ⟨hpending, hok⟩ := holds_of_unlessStopped hok
          cases hok
          refine ⟨hcall, hsimulated, ⟨rfl, ?_⟩, ⟨latest, ledger, hlatest, hledger, hauth⟩,
            List.isEmpty_iff.mp hpending⟩
          intro fee hfound
          rw [Option.mem_def.mp hfound, Bool.not_eq_true', Option.any_some,
            decide_eq_false_iff_not] at hfee
          exact Int.not_lt.mp hfee

/-- The addresses of a checked call are none of the facilitator's, as texts. -/
theorem notMem_of_checked (hchecked : Checked scheme sdk server network txXdr allowed) :
    ∀ address ∈ namedAddresses allowed.transaction allowed.parsed.op,
      address ∉ scheme.facilitatorAddresses := by
  obtain ⟨-, hparsed, -⟩ := call_of_ok hchecked.call
  obtain ⟨-, -, -, hsource, hop⟩ := parsed_of_ok hparsed
  obtain ⟨latest, ledger, -, -, hauth⟩ := hchecked.auth
  intro address haddress
  rcases List.mem_cons.mp haddress with rfl | haddress
  · exact hsource
  · rcases List.mem_append.mp haddress with hfound | hfound
    · exact hop address (Option.mem_toList.mp hfound)
    · obtain ⟨auth, hmem, hmap⟩ := List.mem_filterMap.mp hfound
      obtain ⟨creds, hcreds, hforeign, -⟩ := entries_of_ok hauth auth hmem
      rw [hcreds] at hmap
      cases hmap
      exact hforeign

/-- A checked call may be sponsored exactly where it is plain. -/
theorem sponsorable_iff (accountOf : String → String)
    (hchecked : Checked scheme sdk server network txXdr allowed) :
    Sponsorable accountOf scheme sdk server network txXdr allowed ↔
      PlainCall accountOf scheme allowed := by
  constructor
  · intro hsponsorable
    refine ⟨fun address haddress _ => hsponsorable.noFacilitator address haddress, ?_⟩
    obtain ⟨fee, hfee, -⟩ := hsponsorable.fee
    rw [hfee]
    exact Option.some_ne_none fee
  · rintro ⟨hunmuxed, hnumber⟩
    obtain ⟨hdecoded, hparsed, hcontract, hlisted⟩ := call_of_ok hchecked.call
    obtain ⟨hops, htype, hfunc, -, -⟩ := parsed_of_ok hparsed
    obtain ⟨latest, ledger, hlatest, hledger, hauth⟩ := hchecked.auth
    obtain ⟨fee, hfee⟩ := Option.ne_none_iff_exists'.mp hnumber
    refine ⟨hdecoded, ⟨hops, htype, _, _, _, hcontract, hlisted, hfunc⟩, ?_, ?_,
      hchecked.simulated, hchecked.nothingPending, fee, hfee, hchecked.fee.2 fee hfee⟩
    · intro address haddress
      by_cases hplain : accountOf address = address
      · rw [hplain]
        exact notMem_of_checked hchecked address haddress
      · exact hunmuxed address haddress hplain
    · intro auth hmem
      obtain ⟨creds, hcreds, -, hexpiration⟩ := entries_of_ok hauth auth hmem
      have hbound := hexpiration _ rfl
      exact ⟨creds, latest, ledger, hcreds, hlatest, hledger, by exact_mod_cast hbound⟩

theorem append_ne_empty {tag : String} (htag : tag ≠ "") (reason : String) :
    tag ++ reason ≠ "" := by
  intro hempty
  exact htag (String.append_eq_empty_iff.mp hempty).1

def Stop.Named : Stop → Prop
  | .refused errorReason _ => errorReason ≠ ""
  | .threw => True

def Names {A : Type} (checks : Except Stop A) : Prop :=
  ∀ stopped, checks = .error stopped → stopped.Named

section Names

variable {A B : Type}

theorem names_ok (value : A) : Names (.ok value) :=
  fun _ herror => by cases herror

theorem names_error {stopped : Stop} (hnamed : stopped.Named) :
    Names (.error stopped : Except Stop A) := by
  rintro _ ⟨⟩
  exact hnamed

theorem names_bind {first : Except Stop A} {rest : A → Except Stop B} (hfirst : Names first)
    (hrest : ∀ value, Names (rest value)) : Names (first >>= rest) := by
  cases first with
  | error stopped => exact names_error (hfirst stopped rfl)
  | ok value => exact hrest value

theorem named_prefixed (reason : String) (message : Option String) :
    (Stop.refused (submitPrefix ++ reason) message).Named :=
  append_ne_empty (by decide) reason

theorem names_unlessStopped (holds : Bool) (reason : String) :
    Names (unlessStopped holds reason) := by
  cases holds with
  | false => exact names_error (named_prefixed reason none)
  | true => exact names_ok ()

theorem names_answered (offered : Option A) : Names (answered offered) := by
  cases offered with
  | none => exact names_error trivial
  | some value => exact names_ok value

end Names

/-- A fault of the invocation has a reason. -/
theorem reason_of_parseInvocation {fault : Fault}
    (herror : parseInvocation transaction addresses submitPrefix = .error fault) :
    ∃ reason, fault.reason = submitPrefix ++ reason := by
  rw [parseInvocation] at herror
  split at herror
  · split at herror
    · cases herror
      exact ⟨_, rfl⟩
    · split at herror
      · cases herror
        exact ⟨_, rfl⟩
      · split at herror
        · cases herror
        · cases herror
          exact ⟨_, rfl⟩
  · cases herror
    exact ⟨_, rfl⟩

theorem reason_of_checkAuthEntries {op : Operation} {maxLedger : Number} {found : String}
    (hfound : checkAuthEntries op addresses maxLedger submitPrefix = some found) :
    ∃ reason, found = submitPrefix ++ reason := by
  obtain ⟨auth, -, hauth⟩ := List.exists_of_findSome?_eq_some hfound
  rw [checkAuthEntry] at hauth
  split at hauth
  · exact ⟨_, (Option.some.inj hauth).symm⟩
  · split at hauth
    · exact ⟨_, (Option.some.inj hauth).symm⟩
    · split at hauth
      · exact ⟨_, (Option.some.inj hauth).symm⟩
      · cases hauth

theorem names_parseCall (scheme : PactStellarScheme) (sdk : SubmitSdk) (network txXdr : String) :
    Names (parseCall scheme sdk network txXdr) := by
  rw [parseCall]
  split
  · exact names_error (named_prefixed _ _)
  · refine names_bind (names_answered _) fun networkPassphrase => ?_
    split
    · exact names_error (named_prefixed _ _)
    · split
      · next fault hfault =>
          obtain ⟨reason, hreason⟩ := reason_of_parseInvocation hfault
          rw [hreason]
          exact names_error (named_prefixed _ _)
      · exact names_bind (names_unlessStopped _ _) fun _ =>
          names_bind (names_unlessStopped _ _) fun _ => names_ok _

theorem names_checkCall (scheme : PactStellarScheme) (sdk : SubmitSdk) (server : SubmitServer)
    (network txXdr : String) : Names (checkCall scheme sdk server network txXdr) := by
  rw [checkCall]
  refine names_bind (names_parseCall scheme sdk network txXdr) fun call => ?_
  refine names_bind (names_answered _) fun simulated => ?_
  split
  · exact names_error (named_prefixed _ _)
  · refine names_bind (names_unlessStopped _ _) fun _ => ?_
    refine names_bind (names_answered _) fun latest => ?_
    refine names_bind (names_answered _) fun ledger => ?_
    split
    · next found hfound =>
        obtain ⟨reason, rfl⟩ := reason_of_checkAuthEntries hfound
        exact names_error (named_prefixed _ _)
    · exact names_bind (names_unlessStopped _ _) fun _ => names_ok _

theorem reason_reply {stopped : Stop} (hnamed : stopped.Named) :
    ∃ reason, stopped.reply.reason = some reason ∧ reason ≠ "" := by
  cases stopped with
  | refused errorReason message => exact ⟨errorReason, rfl, hnamed⟩
  | threw => exact ⟨"internal_error", rfl, by decide⟩

/-- What is sent is the transaction that is handed to the submission. -/
theorem sent_of_signed {sent : Sent} (hsigned : signed scheme server signers rebuilt = .ok sent) :
    sent.transaction = rebuilt ∧ sent.feeSource = scheme.feeBumpSigner := by
  rw [signed] at hsigned
  split at hsigned
  · split at hsigned
    · cases hsigned
    · cases hsigned
    · next hbump =>
        cases hsigned
        exact ⟨rfl, hbump.symm⟩
    · next hbump =>
        split at hsigned
        · cases hsigned
        · cases hsigned
        · cases hsigned
          exact ⟨rfl, hbump.symm⟩
  · cases hsigned

/-- A submission that sends nothing fails. -/
theorem fails_of_signed {outcome : Outcome}
    (hsigned : signed scheme server signers rebuilt = .error outcome) (allowed : Allowed) :
    ∃ reason, (submitReply allowed outcome).reason = some reason ∧ reason ≠ "" := by
  have hthrew : ∃ reason, (submitReply allowed .threw).reason = some reason ∧ reason ≠ "" :=
    ⟨"internal_error", rfl, by decide⟩
  have hreturned : ∀ errorReason, ∃ reason,
      (submitReply allowed (.returned none (some errorReason))).reason = some reason ∧
        reason ≠ "" :=
    fun errorReason => ⟨_, rfl, append_ne_empty (by decide) errorReason⟩
  rw [signed] at hsigned
  split at hsigned
  · split at hsigned
    · cases hsigned
      exact hthrew
    · cases hsigned
      exact hreturned _
    · cases hsigned
    · split at hsigned
      · cases hsigned
        exact hthrew
      · cases hsigned
        exact hreturned _
      · cases hsigned
  · cases hsigned
    exact hthrew

theorem submitSponsored_cases (scheme : PactStellarScheme) (server : SubmitServer)
    (signers : Signers) (rebuilt : Rebuilt ℕ) :
    (∃ outcome, signed scheme server signers rebuilt = .error outcome ∧
      submitSponsored scheme server signers rebuilt = (outcome, none)) ∨
    ∃ outcome sent, signed scheme server signers rebuilt = .ok sent ∧
      submitSponsored scheme server signers rebuilt = (outcome, some sent) := by
  rw [submitSponsored]
  split
  · next outcome hsigned => exact .inl ⟨outcome, hsigned, rfl⟩
  · next sent hsigned =>
      right
      split
      · exact ⟨_, sent, hsigned, rfl⟩
      · exact ⟨_, sent, hsigned, rfl⟩
      · exact ⟨_, sent, hsigned, rfl⟩

/-- What is sponsored is an allow-listed call exactly where no address is a muxed form of the
facilitator's and the fee is a number; every refusal names a reason. -/
theorem submitSound_plain (accountOf : String → String) (scheme : PactStellarScheme)
    (sdk : SubmitSdk) (server : SubmitServer) (signers : Signers) (network txXdr : String) :
    SubmitSound accountOf scheme sdk server signers network txXdr
      (PlainCall accountOf scheme) := by
  rw [SubmitSound, submit]
  cases hcheck : checkCall scheme sdk server network txXdr with
  | error stopped =>
      refine ⟨fun reply sent hsubmit => (by cases hsubmit), fun reply hsubmit => ?_⟩
      cases hsubmit
      exact reason_reply (names_checkCall scheme sdk server network txXdr stopped hcheck)
  | ok allowed =>
      simp only
      split
      · next hsigner =>
          rcases submitSponsored_cases scheme server signers
            (rebuildCall scheme network (signers.selectSigner scheme.signingAddresses) allowed)
            with ⟨outcome, hsigned, hsponsored⟩ | ⟨outcome, found, hsigned, hsponsored⟩
          · rw [hsponsored]
            refine ⟨fun reply sent hsubmit => (by cases hsubmit), fun reply hsubmit => ?_⟩
            cases hsubmit
            exact fails_of_signed hsigned allowed
          · rw [hsponsored]
            refine ⟨fun reply sent hsubmit => ?_, fun reply hsubmit => by cases hsubmit⟩
            cases hsubmit
            obtain ⟨htransaction, hfee⟩ := sent_of_signed hsigned
            exact ⟨allowed, _, rfl, List.contains_iff_mem.mp hsigner, htransaction, hfee,
              sponsorable_iff accountOf (checked_of_ok hcheck)⟩
      · refine ⟨fun reply sent hsubmit => (by cases hsubmit), fun reply hsubmit => ?_⟩
        cases hsubmit
        exact ⟨"internal_error", rfl, by decide⟩

/-- A call of `release`. -/
def releaseOperation (source : Option String) : Operation where
  type := "invokeHostFunction"
  source := source
  func := some (.invokeContract testPact "release" [])
  auth := []

def releaseTransaction (source : Option String) : Transaction :=
  ⟨testBuyer, [releaseOperation source], none, none, []⟩

def testSubmitSdk (source : Option String) : SubmitSdk :=
  ⟨some, fun _ _ => some (releaseTransaction source), fun _ _ => ⟨[], []⟩⟩

def testServer (minResourceFee : Option String) : SubmitServer :=
  ⟨fun _ => some (.ok ⟨minResourceFee, ""⟩), some 100, testRpc.ledgerSeconds, fun _ => true,
    fun _ => some (.pending, "hash"), fun _ => .success⟩

def testSigners : Signers :=
  ⟨fun addresses => addresses.headD "", fun _ => .signed, fun _ _ => .signed⟩

def releaseAllowed (source minResourceFee : Option String) : Allowed :=
  ⟨releaseTransaction source, ⟨releaseOperation source, testPact, "release", []⟩,
    ⟨minResourceFee, ""⟩, submitFee testScheme ⟨minResourceFee, ""⟩⟩

/-- What a sound submission sends may be sponsored. -/
theorem sponsorable_of_sent (allowed : Allowed) {accountOf : String → String}
    (hsound : SubmitSound accountOf scheme sdk server signers network txXdr fun _ => True)
    (hcheck : checkCall scheme sdk server network txXdr = .ok allowed)
    (hsent : (submit scheme sdk server signers network txXdr).2.isSome = true) :
    Sponsorable accountOf scheme sdk server network txXdr allowed := by
  cases hsubmit : submit scheme sdk server signers network txXdr with
  | mk reply offered =>
      rw [hsubmit] at hsent
      obtain ⟨sent, rfl⟩ := Option.isSome_iff_exists.mp hsent
      obtain ⟨found, -, hfound, -, -, -, hiff⟩ := hsound.1 reply sent hsubmit
      rw [hcheck] at hfound
      cases hfound
      exact hiff.mpr trivial

/-- An operation of the facilitator's own account is sent, and a call at a fee that is no
number. -/
theorem not_submitSound :
    ¬ SubmitSound testAccountOf testScheme (testSubmitSdk (some muxedAccount))
      (testServer (some "107000")) testSigners "stellar:testnet" "AAAA" (fun _ => True) ∧
    ¬ SubmitSound testAccountOf testScheme (testSubmitSdk none) (testServer none) testSigners
      "stellar:testnet" "AAAA" (fun _ => True) := by
  constructor
  · intro hsound
    have hsponsorable := sponsorable_of_sent
      (releaseAllowed (some muxedAccount) (some "107000")) hsound rfl rfl
    refine hsponsorable.noFacilitator muxedAccount ?_ ?_
    · exact List.mem_cons_of_mem _ List.mem_cons_self
    · rw [testAccountOf, if_pos rfl]
      exact List.mem_cons_self
  · intro hsound
    have hsponsorable := sponsorable_of_sent (releaseAllowed none none) hsound rfl rfl
    obtain ⟨fee, hfee, -⟩ := hsponsorable.fee
    cases hfee

end X402Facilitator.Pact
