import Mathlib.Algebra.Order.Field.Rat
import Mathlib.Data.Nat.Cast.Order.Basic
import Mathlib.Logic.Function.Basic
import X402Facilitator.Library.Eviction

/-!
# The rate limiter

Counts live in buckets, one for each owner, kind and window.  A check reads a
bucket and consumes nothing; a record increments it afterwards.  The limiter is
given the rate limits alone, so its reservation for a fee is the default one.

The in-memory store maps bucket ids to buckets, with a cap.  An expired bucket
counts as missing and is restarted by an increment; a new bucket beyond the cap
makes the store shed the bucket that is reset first, whichever it is.
-/

namespace X402Facilitator.RateLimit

inductive Limit where
  | number (value : ℚ)
  | infinity
  | negativeInfinity
  deriving DecidableEq, Repr

/-- The negation of `total > limit`. -/
def Limit.Admits : Limit → ℕ → Prop
  | number value, total => (total : ℚ) ≤ value
  | infinity, _ => True
  | negativeInfinity, _ => False

instance (limit : Limit) (total : ℕ) : Decidable (limit.Admits total) :=
  match limit with
  | .number value => inferInstanceAs (Decidable ((total : ℚ) ≤ value))
  | .infinity => isTrue trivial
  | .negativeInfinity => isFalse id

theorem Limit.Admits.mono {limit : Limit} {m n : ℕ} (hle : m ≤ n)
    (hadmits : limit.Admits n) : limit.Admits m := by
  cases limit with
  | number value => exact le_trans (Nat.cast_le.mpr hle) hadmits
  | infinity => trivial
  | negativeInfinity => exact hadmits

/-- The limits of one key, or of all callers without their own. -/
structure Limits where
  settleRpm : Limit := .number 10
  settleRph : Limit := .number 100
  settleRpd : Limit := .number 1000
  feeSpd : Limit := .number 5000000

/-- One `name=value` pair of an override. -/
def Limits.override (limits : Limits) : String × Limit → Limits
  | ("settle_rpm", value) => { limits with settleRpm := value }
  | ("settle_rph", value) => { limits with settleRph := value }
  | ("settle_rpd", value) => { limits with settleRpd := value }
  | ("fee_spd", value) => { limits with feeSpd := value }
  | _ => limits

/-- The defaults under the pairs that have a number. -/
def parseLimits (pairs : List (String × Limit)) : Limits :=
  pairs.foldl Limits.override {}

/-- The fee ceilings of a network, within the bounds that are checked at boot. -/
structure NetworkFees where
  maxTransactionFeeStroops : ℕ
  pactMaxTransactionFeeStroops : ℕ
  maxBounds : 100 ≤ maxTransactionFeeStroops ∧ maxTransactionFeeStroops ≤ 10000000
  pactBounds : 100 ≤ pactMaxTransactionFeeStroops ∧ pactMaxTransactionFeeStroops ≤ 10000000

/-- What the limiter is constructed with; `allowlisted` says whether an address
matches an entry of the allowlist. -/
structure RateLimits where
  global : Limits
  keys : String → Option Limits
  allowlisted : String → Bool
  perNetwork : String → Option NetworkFees

/-- An accepted configuration.  Its rate limits name no network. -/
structure Config where
  rateLimits : RateLimits
  perNetwork : String → Option NetworkFees
  unset : ∀ network, rateLimits.perNetwork network = none

/-- `req.keyId || req.ip`.  No key id is an address. -/
inductive Owner where
  | key (keyId : String)
  | ip (address : String)
  deriving DecidableEq, Repr

structure Caller where
  keyId : Option String
  ip : String

def Caller.owner (caller : Caller) : Owner :=
  match caller.keyId with
  | some keyId => .key keyId
  | none => .ip caller.ip

def RateLimits.getKeyConfig (rateLimits : RateLimits) : Owner → Limits
  | .key keyId => (rateLimits.keys keyId.toUpper).getD rateLimits.global
  | .ip _ => rateLimits.global

inductive BucketType where
  | settle
  | fee
  deriving DecidableEq, Repr

structure BucketId where
  owner : Owner
  type : BucketType
  windowStart : ℕ
  windowSec : ℕ
  deriving DecidableEq, Repr

structure Bucket where
  count : ℕ
  resetAt : ℕ
  deriving DecidableEq, Repr

def windowStart (now windowSec : ℕ) : ℕ := now - now % windowSec

def getBucketId (owner : Owner) (type : BucketType) (windowSec now : ℕ) : BucketId :=
  ⟨owner, type, windowStart now windowSec, windowSec⟩

def computeResetAt (now windowSec : ℕ) : ℕ := windowStart now windowSec + windowSec

/-- The store of the buckets, without its eviction. -/
structure Store where
  buckets : BucketId → Option Bucket

namespace Store

def empty : Store := ⟨fun _ => none⟩

def get (store : Store) (id : BucketId) (now : ℕ) : Option Bucket :=
  (store.buckets id).filter fun bucket => now < bucket.resetAt

def increment (store : Store) (id : BucketId) (amount resetAt now : ℕ) : Store :=
  let bucket := (store.get id now).getD ⟨0, resetAt⟩
  ⟨Function.update store.buckets id (some { bucket with count := bucket.count + amount })⟩

def total (store : Store) (id : BucketId) : ℕ := ((store.buckets id).map Bucket.count).getD 0

end Store

/-- `_check`: whether the count would stay within the limit. -/
def check (store : Store) (owner : Owner) (type : BucketType) (windowSec : ℕ)
    (limit : Limit) (amount now : ℕ) : Bool :=
  let count := ((store.get (getBucketId owner type windowSec now) now).map Bucket.count).getD 0
  decide (limit.Admits (count + amount))

def increment (store : Store) (owner : Owner) (type : BucketType) (windowSec amount now : ℕ) :
    Store :=
  store.increment (getBucketId owner type windowSec now) amount
    (computeResetAt now windowSec) now

/-- The windows that `checkSettle` checks, with their limits. -/
def Limits.settleWindows (limits : Limits) : List (ℕ × Limit) :=
  [(60, limits.settleRpm), (3600, limits.settleRph), (86400, limits.settleRpd)]

/-- The windows that `recordSettle` increments. -/
def recordWindows : List ℕ := [60, 3600, 86400]

/-- The fee that `checkSettle` reserves. -/
def RateLimits.maxFee (rateLimits : RateLimits) (network : String) : ℕ :=
  ((rateLimits.perNetwork network).map NetworkFees.maxTransactionFeeStroops).getD 50000

/-- The bucket that `recordSettle` adds a fee to. -/
def feeBucket (owner : Owner) (now : ℕ) : BucketId := getBucketId owner .fee 86400 now

/-- The last increment of `recordSettle`, which leaves out a fee of zero. -/
def recordFee (store : Store) (owner : Owner) (feeCharged now : ℕ) : Store :=
  if 0 < feeCharged then increment store owner .fee 86400 feeCharged now else store

/-- Every bucket is reset at the end of its window. -/
def Store.Dated (store : Store) : Prop :=
  ∀ id bucket, store.buckets id = some bucket → bucket.resetAt = id.windowStart + id.windowSec

section Buckets

variable {store : Store} {owner : Owner} {type : BucketType} {windowSec now : ℕ}

theorem lt_computeResetAt (hwindow : 0 < windowSec) : now < computeResetAt now windowSec := by
  have hmod := Nat.mod_lt now hwindow
  have hle := Nat.mod_le now windowSec
  rw [computeResetAt, windowStart]
  omega

/-- The bucket of a window that is not over has not expired. -/
theorem Store.Dated.get (hdated : store.Dated) (hwindow : 0 < windowSec) :
    store.get (getBucketId owner type windowSec now) now =
      store.buckets (getBucketId owner type windowSec now) := by
  rw [Store.get]
  cases hbucket : store.buckets (getBucketId owner type windowSec now) with
  | none => rfl
  | some bucket =>
      have hreset : bucket.resetAt = computeResetAt now windowSec := hdated _ bucket hbucket
      have hlive : now < bucket.resetAt := by
        rw [hreset]
        exact lt_computeResetAt hwindow
      simp [Option.filter, hlive]

theorem check_eq (hdated : store.Dated) (hwindow : 0 < windowSec) (limit : Limit)
    (amount : ℕ) : check store owner type windowSec limit amount now =
      decide (limit.Admits (store.total (getBucketId owner type windowSec now) + amount)) := by
  rw [check, hdated.get hwindow]
  rfl

/-- What an increment leaves in the buckets. -/
theorem buckets_increment (hdated : store.Dated) (hwindow : 0 < windowSec) (amount : ℕ)
    (id : BucketId) : (increment store owner type windowSec amount now).buckets id =
      if id = getBucketId owner type windowSec now then
        some ⟨store.total id + amount, computeResetAt now windowSec⟩
      else store.buckets id := by
  rw [increment, Store.increment, hdated.get hwindow]
  change Function.update store.buckets (getBucketId owner type windowSec now) _ id = _
  by_cases hid : id = getBucketId owner type windowSec now
  · subst hid
    rw [Function.update_self, if_pos rfl, Store.total]
    cases hold : store.buckets (getBucketId owner type windowSec now) with
    | none => rfl
    | some old =>
        have hreset : old.resetAt = computeResetAt now windowSec := hdated _ old hold
        rw [← hreset]
        rfl
  · rw [Function.update_of_ne hid, if_neg hid]

theorem total_increment (hdated : store.Dated) (hwindow : 0 < windowSec) (amount : ℕ)
    (id : BucketId) : (increment store owner type windowSec amount now).total id =
      store.total id + if id = getBucketId owner type windowSec now then amount else 0 := by
  rw [Store.total, buckets_increment hdated hwindow]
  split <;> rfl

theorem dated_increment (hdated : store.Dated) (hwindow : 0 < windowSec) (amount : ℕ) :
    (increment store owner type windowSec amount now).Dated := by
  intro id bucket hbucket
  rw [buckets_increment hdated hwindow] at hbucket
  split at hbucket
  · next hid =>
      cases hbucket
      rw [hid]
      rfl
  · exact hdated id bucket hbucket

theorem total_recordFee (hdated : store.Dated) (charge : ℕ) (id : BucketId) :
    (recordFee store owner charge now).total id =
      store.total id + if id = feeBucket owner now then charge else 0 := by
  rw [recordFee]
  split
  · exact total_increment hdated (by decide) charge id
  · next hzero =>
      obtain rfl : charge = 0 := by omega
      rw [ite_self, Nat.add_zero]

theorem dated_recordFee (hdated : store.Dated) (charge : ℕ) :
    (recordFee store owner charge now).Dated := by
  rw [recordFee]
  split
  · exact dated_increment hdated (by decide) charge
  · exact hdated

end Buckets

def held {Id : Type*} [DecidableEq Id] (id : Id) (map : InsertionMap Id Bucket) : ℕ :=
  ((map.get id).map Bucket.count).getD 0

/-- The buckets of a store with room for `maxSize` of them. -/
structure MemoryStore (Id : Type*) (maxSize : ℕ) where
  map : InsertionMap Id Bucket
  capped : map.size ≤ maxSize

namespace MemoryStore

variable {Id : Type*} [DecidableEq Id] {maxSize : ℕ}

omit [DecidableEq Id] in
def empty : MemoryStore Id maxSize := ⟨.empty, Nat.zero_le maxSize⟩

def get (store : MemoryStore Id maxSize) (id : Id) (now : ℕ) : Option Bucket :=
  (store.map.get id).filter fun bucket => now < bucket.resetAt

/-- The bucket after an increment: a live one goes on, any other is new. -/
def counted (store : MemoryStore Id maxSize) (id : Id) (amount resetAt now : ℕ) : Bucket :=
  let bucket := (store.get id now).getD ⟨0, resetAt⟩
  { bucket with count := bucket.count + amount }

/-- The store after an increment; the call answers with `counted`. -/
def increment (store : MemoryStore Id maxSize) (id : Id) (amount resetAt now : ℕ) :
    MemoryStore Id maxSize where
  map := (store.map.set id (store.counted id amount resetAt now)).shed Bucket.resetAt maxSize
  capped := InsertionMap.size_shed_le
    ((store.map.size_set_le id _).trans (Nat.succ_le_succ store.capped))

def sweep (store : MemoryStore Id maxSize) (now : ℕ) : MemoryStore Id maxSize where
  map := store.map.filter fun bucket => now < bucket.resetAt
  capped := (List.length_filter_le _ _).trans store.capped

@[simp]
theorem get_empty (id : Id) (now : ℕ) :
    (empty : MemoryStore Id maxSize).get id now = none := rfl

theorem get_eq_some_iff {store : MemoryStore Id maxSize} {id : Id} {now : ℕ}
    {bucket : Bucket} :
    store.get id now = some bucket ↔ store.map.get id = some bucket ∧ now < bucket.resetAt := by
  rw [get, Option.filter_eq_some_iff]
  simp

/-- A bucket that is in the map and has not been reset. -/
theorem get_of_live {store : MemoryStore Id maxSize} {id : Id} {now : ℕ} {bucket : Bucket}
    (hbucket : store.map.get id = some bucket) (hlive : now < bucket.resetAt) :
    store.get id now = some bucket :=
  get_eq_some_iff.mpr ⟨hbucket, hlive⟩

theorem get_of_absent {store : MemoryStore Id maxSize} {id : Id}
    (habsent : store.map.get id = none) (now : ℕ) : store.get id now = none := by
  rw [get, habsent]
  rfl

end MemoryStore

end X402Facilitator.RateLimit
