import X402Facilitator.Library.Execution
import X402Facilitator.Library.InsertionMap
import X402Facilitator.Library.JsText

/-!
# The cache of asset decimals

Native XLM is preloaded and never expires.  The decimals of a contract are fetched once for
all the calls that wait for them, and are kept for a day.
-/

namespace X402Facilitator.Assets

open Execution JsString

def DEFAULT_TTL_MS : ℕ := 24 * 60 * 60 * 1000

/-- The decimals of an asset, and when they expire, none for never. -/
structure CachedDecimals where
  decimals : ℕ
  expiresAt : Option ℕ
  deriving DecidableEq

def CachedDecimals.live (now : ℕ) (cached : CachedDecimals) : Bool :=
  cached.expiresAt.all fun expiresAt => now < expiresAt

abbrev native : JsString := js "native"

def normalizeAssetId (asset : JsString) : JsString :=
  if asset = native ∨ asset = js "XLM" ∨ asset = js "xlm" then native else asset

/-- A contract id, which starts with `C`. -/
def isContractId (asset : JsString) : Bool :=
  unitOf 'C' ∈ asset.head? && asset.length == 56

/-- The cached decimals, and when the fetches that are under way were started. -/
structure DecimalsCache where
  cache : InsertionMap JsString CachedDecimals
  pending : InsertionMap JsString ℕ

namespace DecimalsCache

/-- The default of `preloaded`. -/
def preloaded : List (JsString × ℕ) := [(native, 7), (js "XLM", 7), (js "xlm", 7)]

/-- `createAssetDecimalsCache`. -/
def create : DecimalsCache where
  cache := preloaded.foldl
    (fun cache entry => cache.set (normalizeAssetId entry.1) ⟨entry.2, none⟩) .empty
  pending := .empty

def cached (state : DecimalsCache) (now : ℕ) (asset : JsString) : Option ℕ :=
  ((state.cache.get (normalizeAssetId asset)).filter (CachedDecimals.live now)).map
    CachedDecimals.decimals

/-- `fetchDecimals`, where the contract answers with a number of decimals or with something
else; none where it throws. -/
def fetchDecimals (answer : Option UInt16) (asset : JsString) : Option ℕ :=
  if normalizeAssetId asset = native then some 7
  else if isContractId (normalizeAssetId asset) then answer.map UInt16.toNat
  else none

inductive Action where
  /-- `getDecimals` is called. -/
  | called (asset : JsString) (now : ℕ)
  /-- A fetch that is under way ends. -/
  | fetched (asset : JsString) (answer : Option UInt16)
  | clear

def step (state : DecimalsCache) : Action → Option DecimalsCache
  | .called asset now =>
      let normalized := normalizeAssetId asset
      if (state.cached now asset).isSome || (state.pending.get normalized).isSome then some state
      else some { state with pending := state.pending.set normalized now }
  | .fetched asset answer =>
      (state.pending.get asset).map fun now =>
        match fetchDecimals answer asset with
        | some decimals =>
            { cache := state.cache.set asset ⟨decimals, some (now + DEFAULT_TTL_MS)⟩
              pending := state.pending.erase asset }
        | none => { state with pending := state.pending.erase asset }
  | .clear => some create

/-- Native XLM has seven decimals for good, and what else is known is known of contracts.
What is waited for is not native XLM under any of its names. -/
structure Sound (state : DecimalsCache) : Prop where
  native_eq : state.cache.get native = some ⟨7, none⟩
  contract : ∀ asset cached, state.cache.get asset = some cached →
    asset = native ∨ isContractId asset = true
  pending_ne : ∀ asset now, state.pending.get asset = some now → normalizeAssetId asset ≠ native

section Sound

variable {state state' : DecimalsCache}

variable {asset : JsString} {now : ℕ}

theorem normalizeAssetId_of_ne (hne : normalizeAssetId asset ≠ native) :
    normalizeAssetId asset = asset :=
  if_neg fun hnative => hne (if_pos hnative)

theorem not_isContractId (hnative : normalizeAssetId asset = native) :
    isContractId asset = false := by
  rw [normalizeAssetId] at hnative
  split at hnative
  · next hname => rcases hname with rfl | rfl | rfl <;> decide
  · rw [hnative]
    decide

theorem sound_create : create.Sound where
  native_eq := by decide
  contract := by
    intro asset cached hcached
    left
    by_contra hne
    have hkeys : create.cache.entries = [(native, ⟨7, none⟩)] := by decide
    rw [InsertionMap.get, hkeys, InsertionMap.lookup, if_neg (Ne.symm hne)] at hcached
    cases hcached
  pending_ne := by
    intro asset now hpending
    cases hpending

theorem Sound.cached_native (hsound : state.Sound) (hnative : normalizeAssetId asset = native) :
    state.cached now asset = some 7 := by
  rw [cached, hnative, hsound.native_eq]
  rfl

theorem Sound.erase (hsound : state.Sound) (asset : JsString) :
    Sound { state with pending := state.pending.erase asset } where
  native_eq := hsound.native_eq
  contract := hsound.contract
  pending_ne := by
    intro other now hpending
    rw [InsertionMap.get_erase] at hpending
    split at hpending
    · cases hpending
    · exact hsound.pending_ne other now hpending

theorem Sound.fetched (hsound : state.Sound) {decimals : ℕ} {answer : Option UInt16}
    (hpending : state.pending.get asset = some now)
    (hfetched : fetchDecimals answer asset = some decimals) :
    Sound { cache := state.cache.set asset ⟨decimals, some (now + DEFAULT_TTL_MS)⟩
            pending := state.pending.erase asset } where
  native_eq := by
    have hne : native ≠ asset := by
      rintro rfl
      exact hsound.pending_ne native now hpending (by decide)
    rw [InsertionMap.get_set_of_ne _ _ hne]
    exact hsound.native_eq
  contract := by
    intro other found hfound
    rcases InsertionMap.get_set_cases hfound with ⟨rfl, -⟩ | ⟨-, hold⟩
    · right
      by_contra hnot
      have hne := hsound.pending_ne other now hpending
      rw [fetchDecimals, if_neg hne, normalizeAssetId_of_ne hne, if_neg hnot] at hfetched
      cases hfetched
    · exact hsound.contract other found hold
  pending_ne := (hsound.erase asset).pending_ne

theorem Sound.called (hsound : state.Sound) (now : ℕ) (hne : normalizeAssetId asset ≠ native) :
    Sound { state with pending := state.pending.set (normalizeAssetId asset) now } where
  native_eq := hsound.native_eq
  contract := hsound.contract
  pending_ne := by
    intro other started hpending
    rcases InsertionMap.get_set_cases hpending with ⟨rfl, -⟩ | ⟨-, hold⟩
    · rw [normalizeAssetId_of_ne hne]
      exact hne
    · exact hsound.pending_ne other started hold

theorem sound_step (hsound : state.Sound) {action : Action}
    (hstep : state.step action = some state') : state'.Sound := by
  cases action with
  | called asset now =>
      rw [step] at hstep
      by_cases hnative : normalizeAssetId asset = native
      · rw [hsound.cached_native hnative, Option.isSome_some, Bool.true_or, if_pos rfl] at hstep
        exact Option.some.inj hstep ▸ hsound
      · split at hstep
        · exact Option.some.inj hstep ▸ hsound
        · exact Option.some.inj hstep ▸ hsound.called now hnative
  | fetched asset answer =>
      obtain ⟨now, hpending, hstep⟩ := Option.map_eq_some_iff.mp hstep
      split at hstep
      · next decimals hfetched => exact hstep ▸ hsound.fetched hpending hfetched
      · exact hstep ▸ hsound.erase asset
  | clear => exact Option.some.inj hstep ▸ sound_create

theorem sound_of_reaches (hreach : Reaches step anyStep create state) : state.Sound :=
  hreach.preserves (fun _ _ _ hsound _ hstep => sound_step hsound hstep) sound_create

end Sound

end DecimalsCache

end X402Facilitator.Assets
