import X402Facilitator.Assets.DecimalsCache
import X402Facilitator.Catalog.Policy
import X402Facilitator.Library.Eviction

/-!
# The precision of declared amounts

A payment is cataloged with the decimals that are cached for its network, a posted resource
without any.  The decimals are looked up in a plain object, whose inherited members are not
numbers.
-/

namespace X402Facilitator.Catalog

open Assets Execution JsString

section Paths

variable {Other : Type*}

/-- The map of the decimals that are known at a time. -/
def assetDecimalsMap (state : DecimalsCache) (now : ℕ) : PlainObject ℕ :=
  (PlainObject.empty.assign ((state.cache.filter (CachedDecimals.live now)).entries.map
    fun entry => (entry.1, entry.2.decimals))).set (js "native") 7

/-- What the `EXTENSION-RESPONSES` header reports. -/
structure Outcome where
  status : String
  code : Option String
  reason : Option String
  truncated : Option (List String)

/-- The outcome of `processCataloging`; the limiter allows the write, or gives a reason. -/
def catalogingOutcome (validation : PolicyResult Other) (limited : Option String) : Outcome :=
  match validation.reason with
  | some reason =>
      if reason = "missing_or_invalid_discovery_extension" then ⟨"not attempted", none, none, none⟩
      else ⟨"rejected", some reason, none, none⟩
  | none =>
      match limited with
      | some reason => ⟨"rejected", some "catalog_rate_limited", some reason, none⟩
      | none =>
          let truncated :=
            if validation.truncations = [] then none else some validation.truncations
          if validation.softDrops ≠ [] then
            ⟨"partially landed", some "catalog_partial",
              some ("Dropped fields: " ++ ", ".intercalate validation.softDrops), truncated⟩
          else if validation.truncations ≠ [] then
            ⟨"partially landed", some "catalog_partial",
              some ("Truncated fields: " ++ ", ".intercalate validation.truncations), truncated⟩
          else ⟨"landed", some "catalog_success", none, truncated⟩

/-- `processCataloging`, with the cache of the payment's network if the app has one. -/
def processCataloging (library : DiscoveryLibrary Other) (assetCache : Option DecimalsCache)
    (now : ℕ) (payload : PaymentPayload Other) (requirements : PaymentRequirements Other)
    (limited : Option String) : Outcome :=
  catalogingOutcome
    (validateForCatalog library payload requirements
      (assetCache.map fun state => assetDecimalsMap state now)) limited

/-- The answer to a posted resource, up to where it is written. -/
inductive ManualReply (Other : Type*) where
  | rateLimited (reason : String)
  | invalidResource (reason : String)
  | written (validation : PolicyResult Other)

/-- `POST /discovery/resources`. -/
def postResource (library : DiscoveryLibrary Other) (payload : PaymentPayload Other)
    (requirements : PaymentRequirements Other) (limited : Option String) : ManualReply Other :=
  match limited with
  | some reason => .rateLimited reason
  | none =>
      let validation := validateForCatalog library payload requirements none
      match validation.reason with
      | some reason => .invalidResource reason
      | none => .written validation

end Paths

def digitsAfterPoint (text : Text) : Text := (text.dropWhile (· ≠ '.')).tail

/-- The number of fractional digits of an amount; a `BigInt` is a count of stroops. -/
def fractionDigits : Sdk.Value → ℕ
  | .text amount => (digitsAfterPoint amount.chars).length
  | .bigint _ | .number _ => 0

theorem digitsAfterPoint_text (decimal : Decimal) :
    digitsAfterPoint decimal.text = decimal.places := by
  have hfront : ∀ c ∈ decimal.sign ++ decimal.whole, (c ≠ '.' : Bool) = true := by
    intro c hc
    rw [decide_eq_true_iff]
    rintro rfl
    exact decimal.point_notMem_front hc
  rw [digitsAfterPoint, Decimal.text, Decimal.unsigned, Decimal.places]
  cases decimal.fraction with
  | none =>
      have hall : ((decimal.sign ++ decimal.whole) ++ []).dropWhile (· ≠ '.') = [] :=
        List.dropWhile_append_of_pos hfront
      rw [List.append_nil] at hall
      rw [hall]
      rfl
  | some digits =>
      rw [← List.append_assoc, List.dropWhile_append_of_pos hfront,
        List.dropWhile_cons_of_neg (by decide)]
      rfl

/-- The code finds these digits in every amount that is accepted. -/
theorem fracPart_eq {amount : JsString}
    (haccepted : Sdk.validateAmount (some (.text amount)) = []) :
    fracPart amount = digitsAfterPoint amount.chars := by
  obtain ⟨decimal, htext, -⟩ := Sdk.exists_of_validateAmount haccepted
  obtain ⟨rest, hsplit, hplaces⟩ := decimal.splitOn_text
  rw [fracPart, htext, hsplit, digitsAfterPoint_text]
  exact hplaces

section Lookup

variable {state : DecimalsCache} {now : ℕ} {asset : JsString}

theorem proto_notMem (hsound : state.Sound) : js "__proto__" ∉
    ((state.cache.filter (CachedDecimals.live now)).entries.map
      fun entry => (entry.1, entry.2.decimals)).map Prod.fst := by
  intro hmem
  rw [List.map_map] at hmem
  obtain ⟨entry, hentry, hname⟩ := List.mem_map.mp hmem
  have hget := state.cache.get_of_mem (List.mem_filter.mp hentry).1
  rcases hsound.contract entry.1 entry.2 hget with hnative | hcontract
  · rw [show entry.1 = js "__proto__" from hname] at hnative
    exact absurd hnative (by decide)
  · rw [show entry.1 = js "__proto__" from hname] at hcontract
    exact absurd hcontract (by decide)

theorem own_assetDecimalsMap (hsound : state.Sound) (now : ℕ) (asset : JsString) :
    (assetDecimalsMap state now).own.get asset =
      if asset = js "native" then some 7
      else ((state.cache.get asset).filter (CachedDecimals.live now)).map
        CachedDecimals.decimals := by
  have hnodup : (((state.cache.filter (CachedDecimals.live now)).entries.map
      fun entry => (entry.1, entry.2.decimals)).map Prod.fst).Nodup := by
    rw [List.map_map]
    exact (state.cache.filter (CachedDecimals.live now)).keysNodup
  rw [assetDecimalsMap, PlainObject.own_set _ (by decide),
    PlainObject.own_assign _ hnodup (proto_notMem hsound), InsertionMap.lookup_map]
  apply if_congr Iff.rfl rfl
  have hlookup := InsertionMap.get_filter (CachedDecimals.live now) state.cache asset
  rw [InsertionMap.get] at hlookup
  rw [hlookup]
  exact Option.or_none

/-- What is known of an asset, seven decimals where nothing is. -/
def knownDecimals (assetCache : Option DecimalsCache) (now : ℕ) (asset : JsString) : ℕ :=
  (assetCache.bind fun state => state.cached now asset).getD Sdk.STELLAR_DECIMALS

theorem get_cache_eq_none (hsound : state.Sound) (hnative : asset ≠ native)
    (hcontract : isContractId asset = false) : state.cache.get asset = none := by
  cases hget : state.cache.get asset with
  | none => rfl
  | some cached =>
      rcases hsound.contract asset cached hget with heq | hyes
      · exact absurd heq hnative
      · rw [hcontract] at hyes
        cases hyes

theorem prototypeMembers_spec : (prototypeMembers.all fun name =>
    isContractId name = false && name ≠ native && normalizeAssetId name = name) = true := by decide

/-- No inherited member has the name of an asset that is cached. -/
theorem get_of_mem_prototypeMembers (hsound : state.Sound) (hmem : asset ∈ prototypeMembers) :
    (assetDecimalsMap state now).get asset = .inherited ∧ state.cached now asset = none := by
  have hname := List.all_eq_true.mp prototypeMembers_spec asset hmem
  simp only [Bool.and_eq_true, decide_eq_true_eq] at hname
  obtain ⟨⟨hcontract, hnative⟩, hnormal⟩ := hname
  have hnone := get_cache_eq_none hsound hnative hcontract
  have hown := own_assetDecimalsMap hsound now asset
  rw [if_neg hnative, hnone] at hown
  refine ⟨PlainObject.get_of_mem hown hmem, ?_⟩
  rw [DecimalsCache.cached, hnormal, hnone]
  rfl

/-- Any other name is found with the decimals that are known. -/
theorem exceedsDecimals_get (hsound : state.Sound) (hmem : asset ∉ prototypeMembers)
    (count : ℕ) : exceedsDecimals count ((assetDecimalsMap state now).get asset) =
      decide (knownDecimals (some state) now asset < count) := by
  have hown := own_assetDecimalsMap hsound now asset
  rw [knownDecimals, Option.bind_some]
  by_cases hnormal : normalizeAssetId asset = native
  · rw [hsound.cached_native hnormal]
    by_cases hnative : asset = native
    · rw [if_pos hnative] at hown
      rw [PlainObject.get_of_own hown]
      rfl
    · have hcontract := DecimalsCache.not_isContractId hnormal
      rw [if_neg hnative, get_cache_eq_none hsound hnative hcontract] at hown
      rw [PlainObject.get_of_notMem hown hmem]
      rfl
  · have hnative : asset ≠ native := by
      rintro rfl
      exact hnormal rfl
    rw [if_neg hnative] at hown
    rw [DecimalsCache.cached, DecimalsCache.normalizeAssetId_of_ne hnormal]
    cases hcached : ((state.cache.get asset).filter (CachedDecimals.live now)).map
      CachedDecimals.decimals with
    | none =>
        rw [PlainObject.get_of_notMem (hown.trans hcached) hmem]
        rfl
    | some decimals =>
        rw [PlainObject.get_of_own (hown.trans hcached)]
        rfl

end Lookup

section Refusals

variable {Other : Type*} {library : DiscoveryLibrary Other} {payload : PaymentPayload Other}
variable {requirements : PaymentRequirements Other} {amount : Sdk.Value} {asset : JsString}

/-- The payment declares an amount of an asset that is accepted as an amount, in an extension
that is found and has a valid schema. -/
structure Declares (library : DiscoveryLibrary Other) (payload : PaymentPayload Other)
    (requirements : PaymentRequirements Other) (amount : Sdk.Value) (asset : JsString) : Prop where
  extracted : ∃ extracted, library.extractDiscoveryInfo payload requirements = .ok (some extracted)
  priced : ∃ bazaar pricing, payload.bazaar = some bazaar ∧
    library.validateDiscoveryExtension bazaar = true ∧ bazaar.pricing = some pricing ∧
    pricing.amount = some (.value amount) ∧ pricedAsset pricing requirements = asset
  accepted : Sdk.validateAmount (some amount) = []

theorem exceedsDecimals_zero (decimals : Property ℕ) : exceedsDecimals 0 decimals = false := by
  cases decimals <;> rfl

theorem refusesAmount_eq (haccepted : Sdk.validateAmount (some amount) = [])
    (assetDecimalsMap : Option (PlainObject ℕ)) :
    refusesAmount assetDecimalsMap (.value amount) asset =
      exceedsDecimals (fractionDigits amount) (assetDecimalsMap.elim .absent (·.get asset)) := by
  have hyes : (DeclaredAmount.value amount).accepted = true := decide_eq_true haccepted
  rw [refusesAmount, hyes, if_neg (by decide)]
  cases amount with
  | text amount =>
      rw [fractionDigits, ← fracPart_eq haccepted]
  | bigint _ => exact (exceedsDecimals_zero _).symm
  | number _ => exact (exceedsDecimals_zero _).symm

theorem reason_checkedListing (extracted : Extracted Other) (templateDropped : Bool) :
    (checkedListing library payload requirements extracted templateDropped).reason ≠
      some "invalid_pricing_amount" := by
  simp only [checkedListing]
  split
  · exact Option.some_ne_none _ |>.symm
  · split
    · decide
    · split <;> decide

/-- The policy gives this reason just where the amount is refused. -/
theorem reason_iff (hdeclares : Declares library payload requirements amount asset)
    (assetDecimalsMap : Option (PlainObject ℕ)) :
    (validateForCatalog library payload requirements assetDecimalsMap).reason =
        some "invalid_pricing_amount" ↔
      exceedsDecimals (fractionDigits amount) (assetDecimalsMap.elim .absent (·.get asset)) =
        true := by
  obtain ⟨extracted, hextracted⟩ := hdeclares.extracted
  obtain ⟨bazaar, pricing, hbazaar, hschema, hpricing, hamount, hasset⟩ := hdeclares.priced
  have hrefuses : payload.bazaar.bind (refusesBazaar library assetDecimalsMap requirements) =
      if exceedsDecimals (fractionDigits amount) (assetDecimalsMap.elim .absent (·.get asset)) then
        some "invalid_pricing_amount" else none := by
    rw [hbazaar, Option.bind_some, refusesBazaar, hschema, if_neg (by decide), hpricing,
      Option.bind_some, hamount, Option.bind_some, hasset,
      refusesAmount_eq hdeclares.accepted]
  rw [validateForCatalog, validatePolicy, hextracted]
  dsimp only
  by_cases hexceeds : exceedsDecimals (fractionDigits amount)
      (assetDecimalsMap.elim .absent (·.get asset)) = true
  · rw [hrefuses, if_pos hexceeds]
    exact iff_of_true rfl hexceeds
  · rw [hrefuses, if_neg hexceeds]
    apply iff_of_false _ hexceeds
    dsimp only
    split
    · exact reason_checkedListing extracted false
    · split
      · exact reason_checkedListing extracted false
      · split
        · simp [PolicyResult.refused]
        · exact reason_checkedListing extracted true

theorem code_catalogingOutcome (validation : PolicyResult Other) (limited : Option String) :
    (catalogingOutcome validation limited).code = some "invalid_pricing_amount" ↔
      validation.reason = some "invalid_pricing_amount" := by
  cases hreason : validation.reason with
  | some reason =>
      simp only [catalogingOutcome, hreason]
      split
      · next hother => simp [hother]
      · rfl
  | none =>
      cases limited with
      | some limit => simp [catalogingOutcome, hreason]
      | none =>
          simp only [catalogingOutcome, hreason]
          split
          · simp
          · split <;> simp

theorem postResource_iff : postResource library payload requirements none =
      .invalidResource "invalid_pricing_amount" ↔
    (validateForCatalog library payload requirements none).reason =
      some "invalid_pricing_amount" := by
  cases hreason : (validateForCatalog library payload requirements none).reason with
  | some reason => simp [postResource, hreason]
  | none => simp [postResource, hreason]

/-- Both paths refuse an amount just where it has more digits than the asset. -/
structure RefusedAlike (library : DiscoveryLibrary Other) (assetCache : Option DecimalsCache)
    (now : ℕ) (payload : PaymentPayload Other) (requirements : PaymentRequirements Other)
    (limited : Option String) (amount : Sdk.Value) (asset : JsString) : Prop where
  automatic : (processCataloging library assetCache now payload requirements limited).code =
    some "invalid_pricing_amount" ↔ knownDecimals assetCache now asset < fractionDigits amount
  manual : postResource library payload requirements none =
    .invalidResource "invalid_pricing_amount" ↔
      knownDecimals assetCache now asset < fractionDigits amount

theorem manual_iff (hdeclares : Declares library payload requirements amount asset) :
    postResource library payload requirements none =
        .invalidResource "invalid_pricing_amount" ↔
      Sdk.STELLAR_DECIMALS < fractionDigits amount := by
  rw [postResource_iff, reason_iff hdeclares]
  exact decide_eq_true_iff

theorem automatic_iff (hdeclares : Declares library payload requirements amount asset)
    {assetCache : Option DecimalsCache}
    (hsound : ∀ state ∈ assetCache, state.Sound) (now : ℕ) (limited : Option String) :
    (processCataloging library assetCache now payload requirements limited).code =
        some "invalid_pricing_amount" ↔
      knownDecimals assetCache now asset < fractionDigits amount ∧
        (assetCache.isSome = true → asset ∉ prototypeMembers) := by
  rw [processCataloging, code_catalogingOutcome, reason_iff hdeclares]
  cases assetCache with
  | none => simp [exceedsDecimals, knownDecimals]
  | some state =>
      have hstate := hsound state rfl
      by_cases hmem : asset ∈ prototypeMembers
      · rw [Option.map_some, Option.elim_some, (get_of_mem_prototypeMembers hstate hmem).1]
        simp [exceedsDecimals, hmem]
      · rw [Option.map_some, Option.elim_some, exceedsDecimals_get hstate hmem]
        simp [hmem]

/-- The cache of a network, if there is one, has been filled by fetches. -/
def Filled (assetCache : Option DecimalsCache) : Prop :=
  ∀ state ∈ assetCache, Reaches DecimalsCache.step anyStep DecimalsCache.create state

/-- Precision is checked alike just where seven decimals and those of the asset decide alike, and
the name of the asset is not inherited or the amount is short. -/
theorem refusedAlike_iff (hdeclares : Declares library payload requirements amount asset)
    {assetCache : Option DecimalsCache} (hfilled : Filled assetCache) (now : ℕ)
    (limited : Option String) :
    RefusedAlike library assetCache now payload requirements limited amount asset ↔
      (Sdk.STELLAR_DECIMALS < fractionDigits amount ↔
        knownDecimals assetCache now asset < fractionDigits amount) ∧
      (assetCache.isSome = true → asset ∈ prototypeMembers →
        fractionDigits amount ≤ Sdk.STELLAR_DECIMALS) := by
  have hsound : ∀ state ∈ assetCache, state.Sound := fun state hstate =>
    DecimalsCache.sound_of_reaches (hfilled state hstate)
  have hmanual := manual_iff hdeclares
  have hautomatic := automatic_iff hdeclares hsound now limited
  constructor
  · intro halike
    have hsame := hmanual.symm.trans halike.manual
    refine ⟨hsame, fun hcache hmem => ?_⟩
    by_contra hlong
    have hboth := hautomatic.mp (halike.automatic.mpr (hsame.mp (not_le.mp hlong)))
    exact hboth.2 hcache hmem
  · rintro ⟨hsame, hshort⟩
    refine ⟨hautomatic.trans ?_, hmanual.trans hsame⟩
    constructor
    · exact And.left
    · intro hlong
      exact ⟨hlong, fun hcache hmem => (hshort hcache hmem).not_gt (hsame.mpr hlong)⟩

end Refusals

namespace Sample

def priced (amount asset : JsString) : PaymentPayload Unit where
  bazaar := some ⟨some ⟨some (.value (.text amount)), some asset⟩, none, ()⟩
  resource := ⟨none, none, none, none⟩
  content := ()

theorem declares {amount : JsString} (haccepted : Sdk.validateAmount (some (.text amount)) = [])
    (asset : JsString) :
    Declares library (priced amount asset) requirements (.text amount) asset where
  extracted := ⟨_, rfl⟩
  priced := ⟨_, _, rfl, rfl, rfl, rfl, rfl⟩
  accepted := haccepted

def contractId : JsString := js "C" ++ List.replicate 55 (unitOf 'A')

def cache : DecimalsCache where
  cache := DecimalsCache.create.cache.set contractId ⟨0, some DEFAULT_TTL_MS⟩
  pending := .empty

theorem filled : Filled (some cache) := by
  intro state hstate
  obtain rfl := Option.some.inj hstate
  have hrun : run DecimalsCache.step DecimalsCache.create
      [.called contractId 0, .fetched contractId (some 0)] = some cache := by rfl
  exact reaches_of_run hrun

end Sample

/-- Half a unit of an asset without decimals is posted, and a fraction of a unit of the asset
`constructor` is paid for. -/
theorem not_refusedAlike :
    Filled (some Sample.cache) ∧
    ¬ RefusedAlike Sample.library (some Sample.cache) 0
      (Sample.priced (js "1.5") Sample.contractId) Sample.requirements none
      (.text (js "1.5")) Sample.contractId ∧
    ¬ RefusedAlike Sample.library (some Sample.cache) 0
      (Sample.priced (js "0.00000001") (js "constructor")) Sample.requirements none
      (.text (js "0.00000001")) (js "constructor") := by
  refine ⟨Sample.filled, fun halike => ?_, fun halike => ?_⟩
  · have hmanual := halike.manual.mpr (by decide)
    rw [manual_iff (Sample.declares (by decide) Sample.contractId)] at hmanual
    exact absurd hmanual (by decide)
  · have hautomatic := halike.automatic.mpr (by decide)
    rw [automatic_iff (Sample.declares (by decide) (js "constructor")) fun state hstate =>
      DecimalsCache.sound_of_reaches (Sample.filled state hstate)] at hautomatic
    exact hautomatic.2 rfl (by decide)

theorem refusedAlike_wholeUnit :
    RefusedAlike Sample.library (some Sample.cache) 0
      (Sample.priced (js "1") Sample.contractId) Sample.requirements none
      (.text (js "1")) Sample.contractId :=
  (refusedAlike_iff (Sample.declares (by decide) Sample.contractId) Sample.filled 0 none).mpr
    ⟨by decide, fun _ _ => by decide⟩

end X402Facilitator.Catalog
