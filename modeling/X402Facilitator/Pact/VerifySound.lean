import X402Facilitator.Pact.Verify

/-!
# What a valid pact payload is

The rules of the verification table, for a payload that has been accepted.  The checks
compare addresses as texts, so that an account of the facilitator passes them in its muxed
form.
-/

namespace X402Facilitator.Pact

open Checks

section Statement

variable (accountOf : String → String)
variable (scheme : PactStellarScheme) (sdk : Sdk) (rpc : Rpc)
variable (payload : PaymentPayload) (requirements : PaymentRequirements)

structure Payment where
  pactContract : String
  params : Native
  buyer : String
  cap : ℤ

def Payment.param (payment : Payment) (name : String) : Option Native :=
  (payment.params.property name).join

def Payment.expected (payment : Payment) (requirements : PaymentRequirements) : Expected :=
  ⟨some (.text payment.buyer), payment.pactContract, payment.cap, requirements.asset⟩

/-- The sources, the addresses of the authorizations, the buyer and the seller. -/
def addressesOf (verified : Verified) (buyer : String) : List String :=
  verified.transaction.source :: verified.op.source.toList ++
    verified.op.auth.filterMap (fun auth => auth.credentials.map AddressCredentials.address) ++
    [buyer, requirements.payTo]

/-- An authorization is of `pact.open`, and beneath it of the transfer only. -/
def LimitedTree (payment : Payment) (root : Invocation) : Prop :=
  ∃ args subs, root = .call (.contractFn payment.pactContract "open" args) subs ∧
    (subs = [] ∨ ∃ transfer,
      subs = [.call (.contractFn requirements.asset "transfer" transfer) []] ∧
      transfer[0]? = some (.text payment.buyer) ∧
      transfer[1]? = some (.text payment.pactContract) ∧
      (transfer[2]?).bind Native.bigInt = some payment.cap)

/-- An authorization is of an address, does not live too long, and is limited. -/
def Authorized (payment : Payment) (auth : AuthEntry) : Prop :=
  (∃ creds latest ledger last, auth.credentials = some creds ∧ rpc.latestLedger = some latest ∧
    rpc.ledgerSeconds = some ledger ∧ maxLedger requirements latest ledger = some (.finite last) ∧
    creds.signatureExpirationLedger ≤ last + signatureExpirationLedgerTolerance) ∧
  LimitedTree requirements payment auth.rootInvocation

/-- An event of a contract that is not the pact's own. -/
def DiagnosticEvent.isForeign (pactContract : String) (event : DiagnosticEvent) : Bool :=
  decide (event.type = .contract) && !event.isOwn pactContract

/-- The one event that is not the pact's own is the transfer. -/
def OneTransfer (payment : Payment) (events : List DiagnosticEvent) : Prop :=
  ∃ event, events.filter (DiagnosticEvent.isForeign payment.pactContract) = [event] ∧
    event.contractId = some requirements.asset ∧
    event.topics[0]? = some (.text "transfer") ∧
    event.topics[1]? = some (.text payment.buyer) ∧
    event.topics[2]? = some (.text payment.pactContract) ∧
    (amountOf event.data).bigInt = some payment.cap

/-- The verification table; the accounts of the facilitator are what its addresses stand for. -/
structure Rules (payment : Payment) (verified : Verified) : Prop where
  request : payload.x402Version = some 2 ∧
    payload.accepted.bind Accepted.scheme = some "pact" ∧ requirements.scheme = "pact" ∧
    payload.accepted.bind Accepted.network = some requirements.network ∧
    sdk.isStellarNetwork requirements.network = true
  configured : scheme.pactContracts requirements.network = some payment.pactContract ∧
    ∀ named ∈ requirements.pactContract, named ≠ "" → named = payment.pactContract
  decoded : ∃ text ∈ payload.transaction,
    sdk.decode text requirements.network = some verified.transaction
  invocation : verified.transaction.operations = [verified.op] ∧
    verified.op.type = "invokeHostFunction" ∧
    verified.op.func = some (.invokeContract payment.pactContract "open" [payment.params])
  noFacilitator : ∀ address ∈ addressesOf requirements verified payment.buyer,
    accountOf address ∉ scheme.facilitatorAddresses
  parties : verified.payer = some (.text payment.buyer) ∧
    payment.param "buyer" = some (.text payment.buyer) ∧
    payment.param "seller" = some (.text requirements.payTo)
  amount : (payment.param "cap").bind Native.bigInt = some payment.cap ∧
    requirements.amount.bind Json.bigInt = some payment.cap
  condition : ∃ committed, (payment.param "condition_hash").bind Native.hex = some committed ∧
    (∀ condition ∈ requirements.pactwright.condition,
      conditionHash sdk condition = some committed) ∧
    ∀ offered ∈ requirements.pactwright.conditionHash, ∃ text, offered.toText = some text ∧
      committed = sdk.toLowerCase text
  silence : ∀ silence ∈ requirements.pactwright.silence,
    (payment.param "silence").map Native.number = some (.finite (expectedSilence silence))
  simulated : rpc.simulateTransaction verified.transaction = some (.success verified.simResponse)
  fee : ∃ fee, totalFee scheme verified.simResponse.minResourceFee = some fee ∧
    fee ≤ scheme.maxTransactionFeeStroops
  transfer : OneTransfer requirements payment verified.simResponse.events
  authorized : verified.op.auth ≠ [] ∧
    ∀ auth ∈ verified.op.auth, Authorized rpc requirements payment auth
  signed : payment.buyer ∈
      (sdk.signatureStatus verified.transaction verified.simResponse).alreadySigned ∧
    (sdk.signatureStatus verified.transaction verified.simResponse).pendingSignature = []
  trustline : requirements.payTo.toList.head? = some 'C' ∨
    ∃ account, rpc.simulateBalance account requirements.payTo requirements.asset = some true

/-- No address of a valid payload is the muxed form of an account of the facilitator. -/
def Unmuxed (verified : Verified) : Prop :=
  ∀ buyer, verified.payer = some (.text buyer) →
    ∀ address ∈ addressesOf requirements verified buyer, accountOf address ≠ address →
      accountOf address ∉ scheme.facilitatorAddresses

/-- The fee of the simulation is a number, and the timeout a finite number of ledgers. -/
def Readable (verified : Verified) : Prop :=
  totalFee scheme verified.simResponse.minResourceFee ≠ none ∧
  ∀ ledger ∈ rpc.ledgerSeconds, ∃ ledgers : ℚ,
    timeoutLedgers requirements ledger = some (.finite ledgers)

/-- A payload that is valid meets the rules exactly where `holds`, and what a settlement
submits is the operation of a payload that is valid in the same call. -/
def VerifySound (holds : Verified → Prop) : Prop :=
  (∀ verified, verifyPayload scheme sdk rpc payload requirements = .ok verified →
    ((∃ payment, Rules accountOf scheme sdk rpc payload requirements payment verified) ↔
      holds verified)) ∧
  ∀ selectSigner submit result rebuilt,
    settle scheme sdk rpc payload requirements selectSigner submit = (result, some rebuilt) →
      ∃ verified, verifyPayload scheme sdk rpc payload requirements = .ok verified ∧
        rebuilt.operations = [verified.op]

end Statement

variable {scheme : PactStellarScheme} {sdk : Sdk} {rpc : Rpc} {payload : PaymentPayload}
variable {requirements : PaymentRequirements} {opened : Opened} {verified : Verified}
variable {expected : Expected} {transaction : Transaction} {parsed : Parsed}
variable {facilitatorAddresses : List String} {reasonPrefix text : String}
variable {value : Option Native}

theorem eq_of_isText (htext : isText value text = true) : value = some (.text text) := by
  cases value with
  | none => cases htext
  | some found =>
      cases found with
      | text found => exact congrArg (some ∘ Native.text) (of_decide_eq_true htext)
      | null | bool | integer | bytes | vec | map => cases htext

theorem isText_self (text : String) : isText (some (.text text)) text = true :=
  decide_eq_true rfl

theorem eq_of_strictEquals (heq : strictEquals value (some (.text text)) = true) :
    value = some (.text text) := by
  rcases value with _ | (_ | _ | _ | _ | _ | _ | _) <;> exact eq_of_isText heq

theorem not_mem_of_isFacilitator (hnot : (!isFacilitator scheme (some (.text text))) = true) :
    text ∉ scheme.facilitatorAddresses := by
  intro hmem
  rw [Bool.not_eq_true'] at hnot
  exact Bool.eq_false_iff.mp hnot (List.any_eq_true.mpr ⟨text, hmem, isText_self text⟩)

theorem parsed_of_ok
    (hok : parseInvocation transaction facilitatorAddresses reasonPrefix = .ok parsed) :
    transaction.operations = [parsed.op] ∧ parsed.op.type = "invokeHostFunction" ∧
      parsed.op.func = some (.invokeContract parsed.contract parsed.fn parsed.args) ∧
      transaction.source ∉ facilitatorAddresses ∧
      ∀ source ∈ parsed.op.source, source ∉ facilitatorAddresses := by
  rw [parseInvocation] at hok
  split at hok
  · next op hop =>
      split at hok
      · cases hok
      · next htype =>
          split at hok
          · cases hok
          · next hsafe =>
              split at hok
              · next contract fn args hfunc =>
                  cases hok
                  rw [Bool.not_eq_true, Bool.or_eq_false_iff] at hsafe
                  obtain ⟨hop', hsource⟩ := hsafe
                  refine ⟨hop, of_not_not htype, hfunc, ?_, ?_⟩
                  · exact fun hmem => Bool.eq_false_iff.mp hsource (List.contains_iff_mem.mpr hmem)
                  · intro source hfound hmem
                    rw [Option.mem_def.mp hfound] at hop'
                    exact Bool.eq_false_iff.mp hop' (List.contains_iff_mem.mpr hmem)
              · cases hok
  · cases hok

theorem requested_of_ok {pactContract : String}
    (hok : requestedContract scheme sdk payload requirements = .ok pactContract) :
    (payload.x402Version = some 2 ∧
      payload.accepted.bind Accepted.scheme = some "pact" ∧ requirements.scheme = "pact" ∧
      payload.accepted.bind Accepted.network = some requirements.network ∧
      sdk.isStellarNetwork requirements.network = true) ∧
    scheme.pactContracts requirements.network = some pactContract ∧
    ∀ named ∈ requirements.pactContract, named ≠ "" → named = pactContract := by
  rw [requestedContract] at hok
  obtain ⟨hversion, hok⟩ := holds_of_bind hok
  obtain ⟨hscheme, hok⟩ := holds_of_bind hok
  obtain ⟨hnetwork, hok⟩ := holds_of_bind hok
  obtain ⟨hstellar, hok⟩ := holds_of_bind hok
  obtain ⟨haccepted, hoffered⟩ := Bool.and_eq_true_iff.mp hscheme
  split at hok
  · cases hok
  · next contract hcontract =>
      obtain ⟨hnamed, hok⟩ := holds_of_bind hok
      cases hok
      refine ⟨⟨of_decide_eq_true hversion, of_decide_eq_true haccepted,
        of_decide_eq_true hoffered, of_decide_eq_true hnetwork, hstellar⟩,
        (Option.filter_eq_some_iff.mp hcontract).1, ?_⟩
      intro named hfound hne
      rw [Option.mem_def.mp hfound, Option.filter_some, decide_eq_true hne] at hnamed
      exact of_decide_eq_true hnamed

theorem opened_of_ok (hok : openPayload scheme sdk payload requirements = .ok opened) :
    requestedContract scheme sdk payload requirements = .ok opened.pactContract ∧
    (∃ text ∈ payload.transaction,
      sdk.decode text requirements.network = some opened.transaction) ∧
    opened.transaction.operations = [opened.op] ∧ opened.op.type = "invokeHostFunction" ∧
    opened.op.func = some (.invokeContract opened.pactContract "open" [opened.params]) ∧
    opened.transaction.source ∉ scheme.facilitatorAddresses ∧
    (∀ source ∈ opened.op.source, source ∉ scheme.facilitatorAddresses) ∧
    opened.param "buyer" = opened.buyer := by
  rw [openPayload] at hok
  obtain ⟨pactContract, hcontract, hok⟩ := ok_of_bind hok
  split at hok
  · cases hok
  · next transaction hdecoded =>
      obtain ⟨parsed, hparsed, hok⟩ := ok_of_bind hok
      obtain ⟨hops, htype, hfunc, hsource, hop⟩ := parsed_of_ok hparsed
      obtain ⟨hsame, hok⟩ := holds_of_bind hok
      obtain ⟨hopen, hok⟩ := holds_of_bind hok
      obtain ⟨params, hparams, hok⟩ := some_of_bind hok
      obtain ⟨buyer, hbuyer, hok⟩ := some_of_bind hok
      cases hok
      obtain ⟨hfn, hlength⟩ := Bool.and_eq_true_iff.mp hopen
      have hargs : parsed.args = [params] := by
        obtain ⟨arg, harg⟩ := List.length_eq_one_iff.mp (of_decide_eq_true hlength)
        rw [harg] at hparams ⊢
        cases hparams
        rfl
      rw [of_decide_eq_true hsame, of_decide_eq_true hfn, hargs] at hfunc
      obtain ⟨text, htext, hdecode⟩ := Option.bind_eq_some_iff.mp hdecoded
      refine ⟨hcontract, ⟨text, htext, hdecode⟩, hops, htype, hfunc, hsource, hop, ?_⟩
      rw [Opened.param, hbuyer]
      rfl

/-! ## Events and authorizations -/

def DiagnosticEvent.transfer (event : DiagnosticEvent) : Transfer :=
  ⟨event.topics[1]?, event.topics[2]?, amountOf event.data⟩

def DiagnosticEvent.IsTransfer (event : DiagnosticEvent) (asset : String) : Prop :=
  event.contractId = some asset ∧ event.topics[0]? = some (.text "transfer")

variable {events : List DiagnosticEvent} {transfers : List Transfer} {payment : Payment}
  {op : Operation} {sim : Simulation}

/-- An event is passed over, or it is a transfer of the asset. -/
theorem transfers_of_cons {event : DiagnosticEvent}
    (hok : collectTransfers expected (event :: events) = .ok transfers) :
    (event.isForeign expected.pactContract = false ∧
      collectTransfers expected events = .ok transfers) ∨
    (event.isForeign expected.pactContract = true ∧ event.IsTransfer expected.asset ∧
      ∃ rest, collectTransfers expected events = .ok rest ∧
        transfers = event.transfer :: rest) := by
  rw [collectTransfers] at hok
  split at hok
  · next htype =>
      left
      refine ⟨?_, hok⟩
      rw [DiagnosticEvent.isForeign, decide_eq_false htype, Bool.false_and]
  · next htype =>
      split at hok
      · cases hok
      · next contract hcontract =>
          split at hok
          · next hown =>
              left
              refine ⟨?_, hok⟩
              rw [DiagnosticEvent.isForeign, hown, Bool.not_true, Bool.and_false]
          · next hown =>
              split at hok
              · cases hok
              · next hforeign =>
                  right
                  rw [Bool.not_eq_true, Bool.or_eq_false_iff, Bool.not_eq_false',
                    decide_eq_false_iff_not, not_not] at hforeign
                  obtain ⟨rest, hrest, hmap⟩ := ok_of_map hok
                  refine ⟨?_, ⟨?_, eq_of_isText hforeign.2⟩, rest, hrest, hmap.symm⟩
                  · rw [DiagnosticEvent.isForeign, decide_eq_true (of_not_not htype),
                      Bool.eq_false_iff.mpr hown]
                    rfl
                  · rw [hcontract, hforeign.1]

/-- The events that are not the pact's own are the transfers. -/
theorem transfers_of_ok (hok : collectTransfers expected events = .ok transfers) :
    (∀ event ∈ events.filter (DiagnosticEvent.isForeign expected.pactContract),
      event.IsTransfer expected.asset) ∧
    (events.filter (DiagnosticEvent.isForeign expected.pactContract)).map
      DiagnosticEvent.transfer = transfers := by
  induction events generalizing transfers with
  | nil =>
      cases hok
      exact ⟨List.forall_mem_nil _, rfl⟩
  | cons event events ih =>
      rcases transfers_of_cons hok with ⟨hpassed, hrest⟩ | ⟨hkept, htransfer, rest, hrest, rfl⟩
      · rw [List.filter_cons_of_neg (Bool.eq_false_iff.mp hpassed)]
        exact ih hrest
      · obtain ⟨hevents, hmap⟩ := ih hrest
        rw [List.filter_cons_of_pos hkept, List.map_cons, hmap]
        exact ⟨List.forall_mem_cons.mpr ⟨htransfer, hevents⟩, rfl⟩

/-- The events that pass are those of one transfer. -/
theorem oneTransfer_of_ok (hok : checkEvents (payment.expected requirements) events = .ok ()) :
    OneTransfer requirements payment events := by
  rw [checkEvents] at hok
  obtain ⟨transfers, htransfers, hok⟩ := ok_of_bind hok
  obtain ⟨hevents, hmap⟩ := transfers_of_ok htransfers
  split at hok
  · cases hok
  · next transfer =>
      obtain ⟨event, hevent, htransfer⟩ := List.map_eq_singleton_iff.mp hmap
      obtain ⟨hsender, hok⟩ := holds_of_bind hok
      obtain ⟨hrecipient, hok⟩ := holds_of_bind hok
      obtain ⟨amount, hamount, hok⟩ := some_of_bind hok
      have hcap : amount = payment.cap := of_decide_eq_true (holds_of_require hok)
      obtain ⟨hcontract, htopic⟩ := hevents event (hevent ▸ List.mem_cons_self)
      subst htransfer
      exact ⟨event, hevent, hcontract, htopic, eq_of_strictEquals hsender,
        eq_of_isText hrecipient, hcap ▸ hamount⟩
  · cases hok

theorem transferCall_of_ok {sub : Invocation}
    (hok : checkTransferCall (payment.expected requirements) sub = .ok ()) :
    ∃ transfer, sub = .call (.contractFn requirements.asset "transfer" transfer) [] ∧
      transfer[0]? = some (.text payment.buyer) ∧
      transfer[1]? = some (.text payment.pactContract) ∧
      (transfer[2]?).bind Native.bigInt = some payment.cap := by
  obtain ⟨function, subs⟩ := sub
  rw [checkTransferCall] at hok
  split at hok
  · cases hok
  · next hnone =>
      obtain rfl : subs = [] := of_not_not hnone
      split at hok
      · cases hok
      · next contractAddress functionName args hfunction =>
          split at hok
          · cases hok
          · next hcall =>
              simp only [Bool.not_eq_true, Bool.or_eq_false_iff, Bool.not_eq_false',
                decide_eq_false_iff_not, not_not] at hcall
              obtain ⟨⟨⟨rfl, rfl⟩, hsender⟩, hrecipient⟩ := hcall
              split at hok
              · cases hok
              · next amount hamount =>
                  have hcap : amount = payment.cap := of_decide_eq_true (holds_of_require hok)
                  change function = _ at hfunction
                  subst hfunction
                  exact ⟨args, rfl, eq_of_strictEquals hsender, eq_of_isText hrecipient,
                    hcap ▸ hamount⟩

theorem limitedTree_of_ok {auth : AuthEntry}
    (hok : checkAuthCall (payment.expected requirements) auth = .ok ()) :
    LimitedTree requirements payment auth.rootInvocation := by
  obtain ⟨credentials, ⟨function, subs⟩⟩ := auth
  rw [checkAuthCall] at hok
  split at hok
  · cases hok
  · next contractAddress functionName args hfunction =>
      obtain ⟨hcontract, hok⟩ := holds_of_bind hok
      obtain ⟨hopen, hok⟩ := holds_of_bind hok
      obtain ⟨hlength, hcalls⟩ := holds_of_bind hok
      obtain rfl : contractAddress = payment.pactContract := of_decide_eq_true hcontract
      obtain rfl : functionName = "open" := of_decide_eq_true hopen
      change function = _ at hfunction
      subst hfunction
      refine ⟨args, subs, rfl, ?_⟩
      rcases subs with _ | ⟨sub, _ | ⟨other, rest⟩⟩
      · exact .inl rfl
      · obtain ⟨⟨⟩, hcall, -⟩ := ok_of_bind hcalls
        obtain ⟨transfer, rfl, hargs⟩ := transferCall_of_ok hcall
        exact .inr ⟨transfer, rfl, hargs⟩
      · have hle : rest.length + 2 ≤ 1 := of_decide_eq_true hlength
        omega

theorem limitedTrees_of_ok {auths : List AuthEntry}
    (hok : checkAuthTree (payment.expected requirements) auths = .ok ()) :
    ∀ auth ∈ auths, LimitedTree requirements payment auth.rootInvocation := by
  induction auths with
  | nil => exact List.forall_mem_nil _
  | cons auth rest ih =>
      obtain ⟨⟨⟩, hauth, hrest⟩ := ok_of_bind hok
      exact List.forall_mem_cons.mpr ⟨limitedTree_of_ok hauth, ih hrest⟩

/-- The entries that pass have addresses that are none of the facilitator's. -/
theorem entries_of_ok {maxLedger : Number}
    (hok : checkAuthEntries op facilitatorAddresses maxLedger reasonPrefix = none) :
    ∀ auth ∈ op.auth, ∃ creds, auth.credentials = some creds ∧
      creds.address ∉ facilitatorAddresses ∧
      ∀ last : ℚ, maxLedger = .finite last →
        creds.signatureExpirationLedger ≤ last + signatureExpirationLedgerTolerance := by
  intro auth hauth
  have hentry := List.findSome?_eq_none_iff.mp hok auth hauth
  rw [checkAuthEntry] at hentry
  split at hentry
  · cases hentry
  · next creds hcreds =>
      split at hentry
      · cases hentry
      · next hforeign =>
          split at hentry
          · cases hentry
          · next hexpiration =>
              refine ⟨creds, hcreds, fun hmem => hforeign (List.contains_iff_mem.mpr hmem), ?_⟩
              rintro last rfl
              exact not_lt.mp (mt Number.finite_lt_finite.mpr hexpiration)

theorem authorized_of_ok
    (hok : checkAuth scheme rpc requirements op (payment.expected requirements) = .ok ()) :
    op.auth ≠ [] ∧
      ((∀ ledger ∈ rpc.ledgerSeconds, ∃ ledgers : ℚ,
          timeoutLedgers requirements ledger = some (.finite ledgers)) →
        ∀ auth ∈ op.auth, Authorized rpc requirements payment auth) ∧
      ∀ address ∈ op.auth.filterMap fun auth => auth.credentials.map AddressCredentials.address,
        address ∉ scheme.facilitatorAddresses := by
  rw [checkAuth] at hok
  obtain ⟨latest, hlatest, hok⟩ := some_of_bind hok
  obtain ⟨ledger, hledger, hok⟩ := some_of_bind hok
  obtain ⟨last, hlast, hok⟩ := some_of_bind hok
  obtain ⟨hsome, hok⟩ := holds_of_bind hok
  split at hok
  · cases hok
  · next hentries =>
      have hfound := entries_of_ok hentries
      have htrees := limitedTrees_of_ok hok
      refine ⟨?_, ?_, ?_⟩
      · rintro hempty
        rw [hempty] at hsome
        cases hsome
      · intro hfinite auth hauth
        obtain ⟨creds, hcreds, -, hexpiration⟩ := hfound auth hauth
        obtain ⟨ledgers, hledgers⟩ := hfinite ledger hledger
        rw [maxLedger, hledgers] at hlast
        cases hlast
        have hmax : maxLedger requirements latest ledger =
            some (.finite (⌈ledgers⌉ + (latest : ℤ))) := by
          rw [maxLedger, hledgers]
          rfl
        exact ⟨⟨creds, latest, ledger, _, hcreds, hlatest, hledger, hmax, hexpiration _ rfl⟩,
          htrees auth hauth⟩
      · intro address haddress
        obtain ⟨auth, hauth, hmap⟩ := List.mem_filterMap.mp haddress
        obtain ⟨creds, hcreds, hforeign, -⟩ := hfound auth hauth
        rw [hcreds] at hmap
        cases hmap
        exact hforeign

/-! ## The parameters -/

theorem terms_of_ok {terms : PactTerms} (hok : checkTerms sdk opened terms = .ok ()) :
    (∃ committed, (opened.param "condition_hash").bind Native.hex = some committed ∧
      (∀ condition ∈ terms.condition, conditionHash sdk condition = some committed) ∧
      ∀ offered ∈ terms.conditionHash, ∃ text, offered.toText = some text ∧
        committed = sdk.toLowerCase text) ∧
    ∀ silence ∈ terms.silence,
      (opened.param "silence").map Native.number = some (.finite (expectedSilence silence)) := by
  rw [checkTerms] at hok
  obtain ⟨committed, hcommitted, hok⟩ := some_of_bind hok
  obtain ⟨⟨⟩, hcondition, hok⟩ := ok_of_bind hok
  obtain ⟨⟨⟩, hhash, hsilence⟩ := ok_of_bind hok
  refine ⟨⟨committed, hcommitted, ?_, ?_⟩, ?_⟩
  · intro condition hfound
    obtain ⟨hash, hhash, hcheck⟩ :=
      some_of_bind (check_of_checkOffered hcondition condition hfound)
    rw [hhash, of_decide_eq_true (holds_of_require hcheck)]
  · intro offered hfound
    obtain ⟨text, htext, hcheck⟩ := some_of_bind (check_of_checkOffered hhash offered hfound)
    exact ⟨text, htext, of_decide_eq_true (holds_of_require hcheck)⟩
  · intro silence hfound
    have hnumber := of_decide_eq_true
      (holds_of_require (check_of_checkOffered hsilence silence hfound))
    cases hparam : (opened.param "silence").map Native.number with
    | none =>
        rw [hparam] at hnumber
        cases hnumber
    | some number =>
        rw [hparam] at hnumber
        exact congrArg some hnumber

theorem params_of_ok {cap : ℤ} (hok : checkParams scheme sdk requirements opened = .ok cap) :
    (!isFacilitator scheme opened.buyer) = true ∧
    (!isFacilitator scheme (opened.param "seller")) = true ∧
    opened.param "seller" = some (.text requirements.payTo) ∧
    requirements.amount.bind Json.bigInt = some cap ∧
    (opened.param "cap").bind Native.bigInt = some cap ∧
    checkTerms sdk opened requirements.pactwright = .ok () := by
  rw [checkParams] at hok
  obtain ⟨hparties, hok⟩ := holds_of_bind hok
  obtain ⟨hseller, hok⟩ := holds_of_bind hok
  obtain ⟨offered, hoffered, hok⟩ := some_of_bind hok
  obtain ⟨amount, hamount, hok⟩ := some_of_bind hok
  obtain ⟨hsame, hok⟩ := holds_of_bind hok
  obtain ⟨⟨⟩, hterms, hok⟩ := ok_of_bind hok
  cases hok
  obtain ⟨hbuyer, hforeign⟩ := Bool.and_eq_true_iff.mp hparties
  obtain rfl : amount = cap := of_decide_eq_true hsame
  exact ⟨hbuyer, hforeign, eq_of_isText hseller, hoffered, hamount, hterms⟩

theorem simulated_of_ok (hok : simulate rpc transaction = .ok sim) :
    rpc.simulateTransaction transaction = some (.success sim) := by
  rw [simulate] at hok
  split at hok
  · cases hok
  · cases hok
  · next found hfound =>
      cases hok
      exact hfound

theorem fee_of_ok (hok : checkFee scheme sim = .ok ()) :
    ∀ fee ∈ totalFee scheme sim.minResourceFee, fee ≤ scheme.maxTransactionFeeStroops := by
  intro fee hfee
  rw [checkFee, Option.mem_def.mp hfee] at hok
  exact of_decide_eq_true (holds_of_require hok)

theorem trustline_of_ok {source seller asset : String}
    (hok : hasTrustline scheme rpc source seller asset = .ok true) :
    seller.toList.head? = some 'C' ∨
      ∃ account, rpc.simulateBalance account seller asset = some true := by
  rw [hasTrustline] at hok
  split at hok
  · next hcontract => exact .inl hcontract
  · obtain ⟨account, -, hok⟩ := some_of_bind hok
    exact .inr ⟨account, some_of_orThrow hok⟩

theorem signatures_of_ok {buyer : Option Native}
    (hok : checkSignatures sdk transaction sim buyer = .ok ()) :
    (∃ text, buyer = some (.text text) ∧
      text ∈ (sdk.signatureStatus transaction sim).alreadySigned) ∧
    (sdk.signatureStatus transaction sim).pendingSignature = [] := by
  rw [checkSignatures] at hok
  obtain ⟨hsigned, hok⟩ := holds_of_bind hok
  obtain ⟨text, hmem, htext⟩ := List.any_eq_true.mp hsigned
  exact ⟨⟨text, eq_of_isText htext, hmem⟩, List.isEmpty_iff.mp (holds_of_require hok)⟩

structure Passed (scheme : PactStellarScheme) (sdk : Sdk) (rpc : Rpc)
    (requirements : PaymentRequirements) (opened : Opened) (verified : Verified) (cap : ℤ) :
    Prop where
  params : checkParams scheme sdk requirements opened = .ok cap
  simulated : simulate rpc opened.transaction = .ok verified.simResponse
  fee : ∀ fee ∈ totalFee scheme verified.simResponse.minResourceFee,
    fee ≤ scheme.maxTransactionFeeStroops
  events : checkEvents ⟨opened.buyer, opened.pactContract, cap, requirements.asset⟩
    verified.simResponse.events = .ok ()
  auth : checkAuth scheme rpc requirements opened.op
    ⟨opened.buyer, opened.pactContract, cap, requirements.asset⟩ = .ok ()
  signatures : checkSignatures sdk opened.transaction verified.simResponse opened.buyer = .ok ()
  trustline : hasTrustline scheme rpc opened.transaction.source requirements.payTo
    requirements.asset = .ok true
  same : verified.payer = opened.buyer ∧ verified.transaction = opened.transaction ∧
    verified.op = opened.op

theorem passed_of_ok (hok : verifyOpened scheme sdk rpc requirements opened = .ok verified) :
    ∃ cap, Passed scheme sdk rpc requirements opened verified cap := by
  rw [verifyOpened] at hok
  obtain ⟨cap, hparams, hok⟩ := ok_of_bind hok
  obtain ⟨sim, hsim, hok⟩ := ok_of_bind hok
  obtain ⟨⟨⟩, hfee, hok⟩ := ok_of_bind hok
  obtain ⟨⟨⟩, hevents, hok⟩ := ok_of_bind hok
  obtain ⟨⟨⟩, hauth, hok⟩ := ok_of_bind hok
  obtain ⟨⟨⟩, hsigned, hok⟩ := ok_of_bind hok
  obtain ⟨trusted, htrusted, hok⟩ := ok_of_bind hok
  obtain ⟨htrust, hok⟩ := holds_of_bind hok
  subst htrust
  have hle := fee_of_ok hfee
  refine ⟨cap, ?_⟩
  split at hok
  · cases hok
    exact ⟨hparams, hsim, hle, hevents, hauth, hsigned, htrusted, rfl, rfl, rfl⟩
  · obtain ⟨pactId, -, hok⟩ := some_of_bind hok
    cases hok
    exact ⟨hparams, hsim, hle, hevents, hauth, hsigned, htrusted, rfl, rfl, rfl⟩

theorem verified_of_ok (hok : verifyPayload scheme sdk rpc payload requirements = .ok verified) :
    ∃ opened cap, openPayload scheme sdk payload requirements = .ok opened ∧
      Passed scheme sdk rpc requirements opened verified cap := by
  rw [verifyPayload] at hok
  split at hok
  · cases hok
  · next opened hopened =>
      split at hok
      · cases hok
      · next found hfound =>
          cases hok
          obtain ⟨cap, hpassed⟩ := passed_of_ok hfound
          exact ⟨opened, cap, hopened, hpassed⟩

/-- A valid payload meets every rule where its numbers are readable, but the one about accounts
of the facilitator, and no address in it is one of the facilitator's. -/
theorem rules_of_ok (accountOf : String → String)
    (hok : verifyPayload scheme sdk rpc payload requirements = .ok verified) :
    ∃ payment : Payment, verified.payer = some (.text payment.buyer) ∧
      (∀ address ∈ addressesOf requirements verified payment.buyer,
        address ∉ scheme.facilitatorAddresses) ∧
      (Readable scheme rpc requirements verified →
        (∀ address ∈ addressesOf requirements verified payment.buyer,
          accountOf address ∉ scheme.facilitatorAddresses) →
        Rules accountOf scheme sdk rpc payload requirements payment verified) := by
  obtain ⟨opened, cap, hopened, hpassed⟩ := verified_of_ok hok
  obtain ⟨hcontract, hdecoded, hops, htype, hfunc, hsource, hopSource, hbuyer⟩ :=
    opened_of_ok hopened
  obtain ⟨hrequest, hconfigured⟩ := requested_of_ok hcontract
  obtain ⟨⟨buyer, htext, hsigned⟩, hpending⟩ := signatures_of_ok hpassed.signatures
  obtain ⟨hforeignBuyer, hforeignSeller, hseller, hamount, hcap, hterms⟩ :=
    params_of_ok hpassed.params
  obtain ⟨hcondition, hsilence⟩ := terms_of_ok hterms
  obtain ⟨hpayer, htransaction, hop⟩ := hpassed.same
  let payment : Payment := ⟨opened.pactContract, opened.params, buyer, cap⟩
  have hevents := hpassed.events
  have hauth := hpassed.auth
  rw [htext] at hevents hauth hforeignBuyer
  rw [hseller] at hforeignSeller
  have htransfer : OneTransfer requirements payment verified.simResponse.events :=
    oneTransfer_of_ok hevents
  have hallowed : checkAuth scheme rpc requirements opened.op (payment.expected requirements) =
      .ok () := hauth
  obtain ⟨hsome, hauthorized, hforeignAuth⟩ := authorized_of_ok hallowed
  rw [← htransaction] at hdecoded hops hsource hsigned hpending
  rw [← hop] at hops htype hfunc hopSource hsome hauthorized hforeignAuth
  have hsimulated := simulated_of_ok hpassed.simulated
  rw [← htransaction] at hsimulated
  refine ⟨payment, hpayer.trans htext, ?_, fun ⟨hreadable, hledgers⟩ hnone => ?_⟩
  · intro address haddress
    rcases List.mem_append.mp haddress with hfirst | hlast
    · rcases List.mem_cons.mp hfirst with rfl | hfirst
      · exact hsource
      · rcases List.mem_append.mp hfirst with hop | hauth
        · exact hopSource address (Option.mem_toList.mp hop)
        · exact hforeignAuth address hauth
    · rcases List.mem_cons.mp hlast with rfl | hlast
      · exact not_mem_of_isFacilitator hforeignBuyer
      · rw [List.mem_singleton.mp hlast]
        exact not_mem_of_isFacilitator hforeignSeller
  · obtain ⟨fee, hfee⟩ := Option.ne_none_iff_exists'.mp hreadable
    exact
      { request := hrequest
        configured := hconfigured
        decoded := hdecoded
        invocation := ⟨hops, htype, hfunc⟩
        noFacilitator := hnone
        parties := ⟨hpayer.trans htext, hbuyer.trans htext, hseller⟩
        amount := ⟨hcap, hamount⟩
        condition := hcondition
        silence := hsilence
        simulated := hsimulated
        fee := ⟨fee, hfee, hpassed.fee fee hfee⟩
        transfer := htransfer
        authorized := ⟨hsome, hauthorized hledgers⟩
        signed := ⟨hsigned, hpending⟩
        trustline := trustline_of_ok hpassed.trustline }

theorem settled_of_some {selectSigner : List String → String} {submit : Rebuilt Json → Outcome}
    {result : SettleResult} {rebuilt : Rebuilt Json}
    (hsettle : settle scheme sdk rpc payload requirements selectSigner submit =
      (result, some rebuilt)) :
    ∃ verified, verifyPayload scheme sdk rpc payload requirements = .ok verified ∧
      rebuilt.operations = [verified.op] := by
  rw [settle] at hsettle
  split at hsettle
  · cases hsettle
  · next verified hverified =>
      simp only at hsettle
      split at hsettle
      · cases hsettle
        exact ⟨verified, hverified, rfl⟩
      · cases hsettle

/-- The rules about numbers make them readable. -/
theorem readable_of_rules {accountOf : String → String}
    (hrules : Rules accountOf scheme sdk rpc payload requirements payment verified) :
    Readable scheme rpc requirements verified := by
  obtain ⟨fee, hfee, -⟩ := hrules.fee
  refine ⟨Option.ne_none_iff_exists'.mpr ⟨fee, hfee⟩, fun ledger hledger => ?_⟩
  obtain ⟨hsome, hall⟩ := hrules.authorized
  obtain ⟨auth, hauth⟩ := List.exists_mem_of_ne_nil _ hsome
  obtain ⟨⟨creds, latest, other, last, -, -, hother, hlast, -⟩, -⟩ := hall auth hauth
  rw [Option.mem_def.mp hledger] at hother
  cases hother
  obtain ⟨ledgers, hledgers, hshift⟩ := Option.map_eq_some_iff.mp hlast
  obtain ⟨quotient, rfl⟩ := Number.finite_of_shift_ceil hshift
  exact ⟨quotient, hledgers⟩

/-- A valid payload meets all the rules exactly when no address in it is the muxed form of
an account of the facilitator, the fee is a number and the timeout is finite. -/
theorem verifySound_readable (accountOf : String → String) (scheme : PactStellarScheme)
    (sdk : Sdk) (rpc : Rpc) (payload : PaymentPayload) (requirements : PaymentRequirements) :
    VerifySound accountOf scheme sdk rpc payload requirements
      fun verified => Unmuxed accountOf scheme requirements verified ∧
        Readable scheme rpc requirements verified := by
  refine ⟨fun verified hok => ⟨?_, ?_⟩, fun _ _ _ _ hsettle => settled_of_some hsettle⟩
  · rintro ⟨payment, hrules⟩
    refine ⟨fun buyer hbuyer address haddress _ => ?_, readable_of_rules hrules⟩
    obtain rfl : payment.buyer = buyer :=
      Native.text.inj (Option.some.inj (hrules.parties.1.symm.trans hbuyer))
    exact hrules.noFacilitator address haddress
  · rintro ⟨hunmuxed, hreadable⟩
    obtain ⟨payment, hpayer, hplain, hrules⟩ := rules_of_ok accountOf hok
    refine ⟨payment, hrules hreadable fun address haddress => ?_⟩
    by_cases hmuxed : accountOf address = address
    · rw [hmuxed]
      exact hplain address haddress
    · exact hunmuxed payment.buyer hpayer address haddress hmuxed

def facilitatorAccount : String := "GA7QYNF7SOWQ3GLR2BGMZEHXAVIRZA4KVWLTJJFC7MGXUA74P7UJVSGZ"

def muxedAccount : String :=
  "MA7QYNF7SOWQ3GLR2BGMZEHXAVIRZA4KVWLTJJFC7MGXUA74P7UJUAAAAAAAAAAAACJUQ"

def testAccountOf (address : String) : String :=
  if address = muxedAccount then facilitatorAccount else address

def testBuyer : String := "GAZILSAJN5CE5KZWBNTUTWF7TTFIMJ3BSBCBUIVR56QKBGW3BPSIZ2TW"

def testPact : String := "CDUXJJUNYFILEYHE3LITANJEKCDFERNAABOSG75OWATFVM776BCMFEV6"

def testAsset : String := "CBIELTK6YBZJU5UP2WWQEUCYKLPU6AUNZ2BQ4WWFEIE3USCIHMXQDAMA"

def testSeller : String := "CAEO5GBC3ULRC5RYBSCSOXLNXHU2HZAHNW5HY5LZM3DIPFMX357ILNJ2"

def testTransfer : List Native := [.text testBuyer, .text testPact, .integer 100]

def muxedOperation : Operation where
  type := "invokeHostFunction"
  source := some muxedAccount
  func := some (.invokeContract testPact "open" [.map [("buyer", .text testBuyer),
    ("cap", .integer 100), ("condition_hash", .bytes []), ("seller", .text testSeller)]])
  auth := [⟨some ⟨testBuyer, 100⟩, .call (.contractFn testPact "open" [])
    [.call (.contractFn testAsset "transfer" testTransfer) []]⟩]

def muxedTransaction : Transaction := ⟨testBuyer, [muxedOperation], none, none, []⟩

def testScheme : PactStellarScheme :=
  ⟨[facilitatorAccount], none, fun _ => some testPact, 250000, 100⟩

def testSimulation : Simulation :=
  ⟨some "107000", [⟨.contract, some testAsset, [.text "transfer", .text testBuyer, .text testPact],
    .integer 100⟩], none, ""⟩

def testSdk : Sdk :=
  ⟨fun _ => true, fun _ _ => some muxedTransaction, fun _ _ => ⟨[testBuyer], []⟩, id, id⟩

def testRpc : Rpc :=
  ⟨fun _ => some (.success testSimulation), some 100, some ⟨5, by decide⟩, some,
    fun _ _ _ => some true⟩

def testPayload : PaymentPayload := ⟨some 2, some ⟨some "pact", some "stellar:testnet"⟩, some ""⟩

def testRequirements : PaymentRequirements :=
  ⟨"pact", "stellar:testnet", testAsset, some (.str "100"), testSeller, some (.ofNat 60), some testPact,
    ⟨none, none, none⟩⟩

theorem muxed_verified :
    (verifyPayload testScheme testSdk testRpc testPayload testRequirements).toOption.map
      (fun verified => verified.op.source) = some (some muxedAccount) := by
  decide +kernel

/-- The facilitator's own account is the source of an operation that is valid. -/
theorem not_verifySound_muxed :
    ¬ VerifySound testAccountOf testScheme testSdk testRpc testPayload testRequirements
      fun _ => True := by
  rintro ⟨hsound, -⟩
  obtain ⟨verified, hverified, hsource⟩ := Option.map_eq_some_iff.mp muxed_verified
  have hok : verifyPayload testScheme testSdk testRpc testPayload testRequirements =
      .ok verified := by
    cases hresult : verifyPayload testScheme testSdk testRpc testPayload testRequirements with
    | error response =>
        rw [hresult] at hverified
        cases hverified
    | ok found =>
        rw [hresult] at hverified
        cases hverified
        rfl
  obtain ⟨payment, hrules⟩ := (hsound verified hok).mpr trivial
  have hmem : muxedAccount ∈ addressesOf testRequirements verified payment.buyer := by
    rw [addressesOf, hsource]
    exact List.mem_cons_of_mem _ List.mem_cons_self
  refine hrules.noFacilitator muxedAccount hmem ?_
  rw [testAccountOf, if_pos rfl]
  exact List.mem_cons_self

end X402Facilitator.Pact
