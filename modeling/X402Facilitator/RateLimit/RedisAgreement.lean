import X402Facilitator.Library.Execution
import X402Facilitator.RateLimit.Meter

/-!
# The limiter over Redis, beside the other

The buckets are counters that Redis adds one to and that expire a second after
their window.  The checks and records are a second implementation of the ones
over the in-memory store, here while Redis does not fail.

Both limiters take the same calls at the same times.  They agree while every
record is an increment by one that both answer, the reservation is the default
one, the in-memory store sheds no live bucket and no window is looked at after
it has ended.
-/

namespace X402Facilitator.RateLimit

structure Counter where
  count : ℕ
  expireAt : ℕ
  deriving DecidableEq

structure Redis where
  counters : MeterId → Option Counter

namespace Redis

def empty : Redis := ⟨fun _ => none⟩

def live (redis : Redis) (id : MeterId) (now : ℕ) : Option Counter :=
  (redis.counters id).filter fun counter => now < counter.expireAt

/-- `GET`, with a missing key as zero. -/
def get (redis : Redis) (id : MeterId) (now : ℕ) : ℕ :=
  ((redis.live id now).map Counter.count).getD 0

/-- `INCR`, and `EXPIRE` where that has created the key. -/
def incr (redis : Redis) (id : MeterId) (windowSec now : ℕ) : ℕ × Redis :=
  let counter := match redis.live id now with
    | none => ⟨1, now + (windowSec + 1)⟩
    | some counter => { counter with count := counter.count + 1 }
  (counter.count, ⟨Function.update redis.counters id (some counter)⟩)

end Redis

namespace RedisRateLimiter

/-- `_incrementAsync`.  The amount is not handed to Redis. -/
def incrementAsync (redis : Redis) (owner : Owner) (type : MeterType) (windowSec _amount now : ℕ) :
    Bucket × Redis :=
  let result := redis.incr (meterId owner type windowSec now) windowSec now
  (⟨result.1, computeResetAt now windowSec⟩, result.2)

def checkAsync (redis : Redis) (owner : Owner) (type : MeterType) (windowSec : ℕ) (limit : Limit)
    (amount now : ℕ) : Outcome :=
  verdict limit (redis.get (meterId owner type windowSec now) now) amount
    (computeResetAt now windowSec)

/-- `res.reason = reason` for a refusal. -/
def because (outcome : Outcome) (reason : String) : Outcome :=
  if outcome.allowed then outcome else { outcome with reason := some reason }

variable (config : MeterConfig) (redis : Redis) (caller : Caller) (clock : ℕ → ℕ)

/-- The checks of the routes with one window of a minute. -/
def checkMinute (type : MeterType) (limit : Limit) (reason : String) : Outcome :=
  match config.bypass caller limit 60 (clock 0) with
  | some outcome => outcome
  | none => because (checkAsync redis caller.owner type 60 limit 1 (clock 0)) reason

def checkVerify : Outcome :=
  checkMinute config redis caller clock .verify (config.getKeyConfig caller.owner).verifyRpm
    "rate_limit_exceeded"

def checkCatalog : Outcome :=
  checkMinute config redis caller clock .catalog (config.getKeyConfig caller.owner).catalogRpm
    "catalog_rate_limited"

def checkCatalogRead : Outcome :=
  checkMinute config redis caller clock .catalogRead
    (config.getKeyConfig caller.owner).catalogReads "catalog_read_rate_limited"

def recordVerify : Outcome × Redis :=
  let result := incrementAsync redis caller.owner .verify 60 1 (clock 0)
  (recorded1 (config.getKeyConfig caller.owner).verifyRpm result.1, result.2)

def recordCatalog : Redis := (incrementAsync redis caller.owner .catalog 60 1 (clock 0)).2

def recordCatalogRead : Redis := (incrementAsync redis caller.owner .catalogRead 60 1 (clock 0)).2

def checkSettle (_network : Option String) : Outcome :=
  let limits := config.getKeyConfig caller.owner
  match config.bypass caller limits.settleRpm 60 (clock 0) with
  | some outcome => outcome
  | none =>
      let minute := checkAsync redis caller.owner .settle 60 limits.settleRpm 1 (clock 0)
      let hour := checkAsync redis caller.owner .settle 3600 limits.settleRph 1 (clock 1)
      let day := checkAsync redis caller.owner .settle 86400 limits.settleRpd 1 (clock 2)
      match [minute, hour, day].find? fun outcome => !outcome.allowed with
      | some outcome => because outcome "rate_limit_exceeded"
      | none =>
          let fee := checkAsync redis caller.owner .fee 86400 limits.feeSpd 50000 (clock 3)
          if fee.allowed then tightest minute [hour, day] else because fee "fee_ceiling_exceeded"

def recordSettle (feeCharged : ℤ) : Outcome × Redis :=
  let minute := incrementAsync redis caller.owner .settle 60 1 (clock 0)
  let hour := incrementAsync minute.2 caller.owner .settle 3600 1 (clock 1)
  let day := incrementAsync hour.2 caller.owner .settle 86400 1 (clock 2)
  let charged := if feeCharged ≠ 0 then
      (incrementAsync day.2 caller.owner .fee 86400 feeCharged.toNat (clock 3)).2
    else day.2
  (recordedSettle (config.getKeyConfig caller.owner) minute.1 hour.1 day.1, charged)

/-- The count that `getUsage` reads in one bucket. -/
def usageCount (owner : Owner) (type : MeterType) (windowSec now : ℕ) : ℕ :=
  redis.get (meterId owner type windowSec now) now

def getUsage (keyId : String) : Usage where
  verifyRpm := usageCount redis (.key keyId) .verify 60 (clock 0)
  settleRpm := usageCount redis (.key keyId) .settle 60 (clock 1)
  settleRph := usageCount redis (.key keyId) .settle 3600 (clock 2)
  settleRpd := usageCount redis (.key keyId) .settle 86400 (clock 3)
  feeSpd := usageCount redis (.key keyId) .fee 86400 (clock 4)
  catalogRpm := usageCount redis (.key keyId) .catalog 60 (clock 5)
  limits := config.getKeyConfig (.key keyId)

end RedisRateLimiter

open Execution

/-- A call of the limiter, or a tick of the timer that sweeps the store. -/
inductive MeterCall where
  | checkVerify (caller : Caller)
  | recordVerify (caller : Caller)
  | checkSettle (caller : Caller) (network : Option String)
  | recordSettle (caller : Caller) (feeCharged : ℤ)
  | checkCatalog (caller : Caller)
  | recordCatalog (caller : Caller)
  | checkCatalogRead (caller : Caller)
  | recordCatalogRead (caller : Caller)
  | getUsage (keyId : String)
  | sweep

/-- A call with the times of its accesses to the store. -/
structure Timed where
  call : MeterCall
  clock : ℕ → ℕ

inductive MeterAnswer where
  | outcome (outcome : Outcome)
  | usage (usage : Usage)
  | undefined

/-- What is compared: the decision, or the counts. -/
def MeterAnswer.compared :
    MeterAnswer → Option (Bool × Limit × Limit × Option String) × Option (List ℕ)
  | outcome result => (some (result.allowed, result.limit, result.remaining, result.reason), none)
  | usage counts => (none, some [counts.verifyRpm, counts.settleRpm, counts.settleRph,
      counts.settleRpd, counts.feeSpd, counts.catalogRpm])
  | undefined => (none, none)

/-- The stores of the two limiters, and the latest time that was read. -/
structure Meters (maxSize : ℕ) where
  memory : MemoryStore MeterId maxSize
  redis : Redis
  latest : ℕ

namespace Meters

variable {maxSize : ℕ}

def init : Meters maxSize := ⟨.empty, .empty, 0⟩

variable (config : MeterConfig)

def memoryCall (store : MemoryStore MeterId maxSize) (timed : Timed) :
    MeterAnswer × MemoryStore MeterId maxSize :=
  let answer := fun result : Outcome × MemoryStore MeterId maxSize =>
    (MeterAnswer.outcome result.1, result.2)
  match timed.call with
  | .checkVerify caller => answer (RateLimiter.checkVerify config store caller timed.clock)
  | .recordVerify caller => answer (RateLimiter.recordVerify config store caller timed.clock)
  | .checkSettle caller network =>
      answer (RateLimiter.checkSettle config store caller timed.clock network)
  | .recordSettle caller feeCharged =>
      answer (RateLimiter.recordSettle config store caller timed.clock feeCharged)
  | .checkCatalog caller => answer (RateLimiter.checkCatalog config store caller timed.clock)
  | .recordCatalog caller => answer (RateLimiter.recordCatalog config store caller timed.clock)
  | .checkCatalogRead caller =>
      answer (RateLimiter.checkCatalogRead config store caller timed.clock)
  | .recordCatalogRead caller =>
      answer (RateLimiter.recordCatalogRead config store caller timed.clock)
  | .getUsage keyId => (.usage (RateLimiter.getUsage config store timed.clock keyId), store)
  | .sweep => (.undefined, store.sweep (timed.clock 0))

def redisCall (redis : Redis) (timed : Timed) : MeterAnswer × Redis :=
  let answer := fun result : Outcome × Redis => (MeterAnswer.outcome result.1, result.2)
  match timed.call with
  | .checkVerify caller =>
      (.outcome (RedisRateLimiter.checkVerify config redis caller timed.clock), redis)
  | .recordVerify caller => answer (RedisRateLimiter.recordVerify config redis caller timed.clock)
  | .checkSettle caller network =>
      (.outcome (RedisRateLimiter.checkSettle config redis caller timed.clock network), redis)
  | .recordSettle caller feeCharged =>
      answer (RedisRateLimiter.recordSettle config redis caller timed.clock feeCharged)
  | .checkCatalog caller =>
      (.outcome (RedisRateLimiter.checkCatalog config redis caller timed.clock), redis)
  | .recordCatalog caller => (.undefined, RedisRateLimiter.recordCatalog redis caller timed.clock)
  | .checkCatalogRead caller =>
      (.outcome (RedisRateLimiter.checkCatalogRead config redis caller timed.clock), redis)
  | .recordCatalogRead caller =>
      (.undefined, RedisRateLimiter.recordCatalogRead redis caller timed.clock)
  | .getUsage keyId => (.usage (RedisRateLimiter.getUsage config redis timed.clock keyId), redis)
  | .sweep => (.undefined, redis)

end Meters

/-- The windows that the accesses of a call look at, in order. -/
def MeterCall.windows : MeterCall → List ℕ
  | checkSettle _ _ | recordSettle _ _ => [60, 3600, 86400, 86400]
  | getUsage _ => [60, 60, 3600, 86400, 86400, 60]
  | _ => [60]

def latestOf (latest : ℕ) : List ℕ → (ℕ → ℕ) → ℕ
  | [], _ => latest
  | _ :: windows, clock => latestOf (max latest (clock 0)) windows fun index => clock (index + 1)

/-- No window is looked at after a time past its end has been read. -/
def InOrder (latest : ℕ) : List ℕ → (ℕ → ℕ) → Prop
  | [], _ => True
  | windowSec :: windows, clock => latest < computeResetAt (clock 0) windowSec ∧
      InOrder (max latest (clock 0)) windows fun index => clock (index + 1)

section Statement

variable {maxSize : ℕ} (config : MeterConfig)

def Meters.step (meters : Meters maxSize) (timed : Timed) : Option (Meters maxSize) :=
  some {
    memory := (Meters.memoryCall config meters.memory timed).2
    redis := (Meters.redisCall config meters.redis timed).2
    latest := latestOf meters.latest timed.call.windows timed.clock }

def Meters.Agrees (meters : Meters maxSize) (timed : Timed) : Prop :=
  (Meters.redisCall config meters.redis timed).1.compared =
    (Meters.memoryCall config meters.memory timed).1.compared

/-- In runs whose calls satisfy `meets`, the limiters agree on every call. -/
def AgreesAlways (maxSize : ℕ) (meets : Meters maxSize → Timed → Prop) : Prop :=
  ∀ meters : Meters maxSize, Reaches (Meters.step config) meets .init meters →
    ∀ timed, meets meters timed → meters.Agrees config timed

/-- The increment sheds no bucket whose window is still open. -/
def SparesOpen (store : MemoryStore MeterId maxSize) (owner : Owner) (type : MeterType)
    (windowSec amount now : ℕ) : Prop :=
  let id := meterId owner type windowSec now
  let bucket := store.counted id amount (computeResetAt now windowSec) now
  ∀ victim ∈ (store.map.set id bucket).victims Bucket.resetAt maxSize, victim.ends ≤ now

def Comparable (meters : Meters maxSize) (timed : Timed) : Prop :=
  InOrder meters.latest timed.call.windows timed.clock ∧
  match timed.call with
  | .recordCatalog _ | .recordCatalogRead _ => False
  | .recordVerify caller =>
      SparesOpen meters.memory caller.owner .verify 60 1 (timed.clock 0)
  | .checkSettle caller network =>
      config.reservation network = 50000 ∨ config.allowlisted caller.ip = true
  | .recordSettle caller feeCharged =>
      let increment := fun (store : MemoryStore MeterId maxSize) windowSec index =>
        (RateLimiter.increment store caller.owner .settle windowSec 1 (timed.clock index)).2
      let minute := increment meters.memory 60 0
      let hour := increment minute 3600 1
      let day := increment hour 86400 2
      (feeCharged = 0 ∨
        feeCharged = 1 ∧ SparesOpen day caller.owner .fee 86400 1 (timed.clock 3)) ∧
      SparesOpen meters.memory caller.owner .settle 60 1 (timed.clock 0) ∧
      SparesOpen minute caller.owner .settle 3600 1 (timed.clock 1) ∧
      SparesOpen hour caller.owner .settle 86400 1 (timed.clock 2)
  | _ => True

end Statement

section Match

variable {maxSize : ℕ} {store : MemoryStore MeterId maxSize} {redis : Redis} {latest : ℕ}
variable {owner : Owner} {type : MeterType} {windowSec now : ℕ}

def MatchesAt (store : MemoryStore MeterId maxSize) (redis : Redis) (id : MeterId) : Prop :=
  (store.map.get id = none ∧ redis.counters id = none) ∨
    ∃ count expireAt, store.map.get id = some ⟨count, id.ends⟩ ∧
      redis.counters id = some ⟨count, expireAt⟩ ∧ id.ends ≤ expireAt

def Matches (store : MemoryStore MeterId maxSize) (redis : Redis) (latest : ℕ) : Prop :=
  ∀ id : MeterId, latest < id.ends → MatchesAt store redis id

theorem matches_empty : Matches (.empty : MemoryStore MeterId maxSize) .empty 0 :=
  fun _ _ => Or.inl ⟨rfl, rfl⟩

theorem Matches.mono (hmatches : Matches store redis latest) {later : ℕ} (hle : latest ≤ later) :
    Matches store redis later :=
  fun id hopen => hmatches id (lt_of_le_of_lt hle hopen)

theorem ends_meterId : (meterId owner type windowSec now).ends = computeResetAt now windowSec := rfl

/-- The buckets that both stores find for an access. -/
theorem MatchesAt.found (hmatches : MatchesAt store redis (meterId owner type windowSec now))
    (hnow : now < computeResetAt now windowSec) :
    (store.get (meterId owner type windowSec now) now = none ∧
      redis.live (meterId owner type windowSec now) now = none) ∨
    ∃ count expireAt,
      store.get (meterId owner type windowSec now) now =
        some ⟨count, computeResetAt now windowSec⟩ ∧
      redis.live (meterId owner type windowSec now) now = some ⟨count, expireAt⟩ ∧
      computeResetAt now windowSec ≤ expireAt := by
  rcases hmatches with ⟨hmemory, hredis⟩ | ⟨count, expireAt, hmemory, hredis, hexpire⟩
  · refine Or.inl ⟨MemoryStore.get_of_absent hmemory now, ?_⟩
    rw [Redis.live, hredis]
    rfl
  · rw [ends_meterId] at hmemory hexpire
    refine Or.inr ⟨count, expireAt, MemoryStore.get_of_live hmemory hnow, ?_, hexpire⟩
    rw [Redis.live, hredis]
    exact Option.filter_some_pos (by simpa using lt_of_lt_of_le hnow hexpire)

theorem MatchesAt.congr {id : MeterId} {store' : MemoryStore MeterId maxSize} {redis' : Redis}
    (hmatches : MatchesAt store redis id) (hmemory : store'.map.get id = store.map.get id)
    (hredis : redis'.counters id = redis.counters id) : MatchesAt store' redis' id := by
  rw [MatchesAt, hmemory, hredis]
  exact hmatches

/-- A sweep keeps the windows that are open at its time. -/
theorem Matches.sweep (hmatches : Matches store redis latest) (now : ℕ) :
    Matches (store.sweep now) redis (max latest now) := by
  intro id hopen
  have hkept : (store.sweep now).map.get id = (store.map.get id).filter
      fun bucket => now < bucket.resetAt := InsertionMap.get_filter _ _ _
  rcases hmatches id (lt_of_le_of_lt (le_max_left _ _) hopen) with
    ⟨hmemory, hredis⟩ | ⟨count, expireAt, hmemory, hredis, hexpire⟩
  · exact Or.inl ⟨by rw [hkept, hmemory]; rfl, hredis⟩
  · refine Or.inr ⟨count, expireAt, ?_, hredis, hexpire⟩
    rw [hkept, hmemory]
    exact Option.filter_some_pos (by simpa using lt_of_le_of_lt (le_max_right _ _) hopen)

structure Access (latest windowSec now : ℕ) : Prop where
  positive : 0 < windowSec
  inside : latest < computeResetAt now windowSec

theorem Access.lt (haccess : Access latest windowSec now) : now < computeResetAt now windowSec :=
  lt_computeResetAt haccess.positive

/-- Both checks come to the same outcome. -/
theorem Matches.check (hmatches : Matches store redis latest) (owner : Owner) (type : MeterType)
    (haccess : Access latest windowSec now) (limit : Limit) (amount : ℕ) :
    (RateLimiter.check store owner type windowSec limit amount now).1 =
        RedisRateLimiter.checkAsync redis owner type windowSec limit amount now ∧
      Matches (RateLimiter.check store owner type windowSec limit amount now).2 redis
        (max latest now) := by
  refine ⟨?_, hmatches.sweep now⟩
  rw [RateLimiter.check, RedisRateLimiter.checkAsync, Redis.get]
  rcases (hmatches (meterId owner type windowSec now) haccess.inside).found haccess.lt with
    ⟨hmemory, hredis⟩ | ⟨count, expireAt, hmemory, hredis, -⟩
  · rw [hmemory, hredis]
    rfl
  · rw [hmemory, hredis]
    rfl

/-- The bucket that both increments by one come to. -/
theorem Matches.counted (hmatches : Matches store redis latest) (owner : Owner)
    (type : MeterType) (haccess : Access latest windowSec now) : ∃ count expireAt,
    store.counted (meterId owner type windowSec now) 1 (computeResetAt now windowSec) now =
        ⟨count, computeResetAt now windowSec⟩ ∧
      redis.incr (meterId owner type windowSec now) windowSec now =
        (count, ⟨Function.update redis.counters (meterId owner type windowSec now)
          (some ⟨count, expireAt⟩)⟩) ∧
      computeResetAt now windowSec ≤ expireAt := by
  rw [MemoryStore.counted, Redis.incr]
  rcases (hmatches (meterId owner type windowSec now) haccess.inside).found haccess.lt with
    ⟨hmemory, hredis⟩ | ⟨count, expireAt, hmemory, hredis, hexpire⟩
  · rw [hmemory, hredis]
    refine ⟨1, now + (windowSec + 1), rfl, rfl, ?_⟩
    have hstart := Nat.sub_le now (now % windowSec)
    rw [computeResetAt, windowStart]
    omega
  · rw [hmemory, hredis]
    exact ⟨count + 1, expireAt, rfl, rfl, hexpire⟩

/-- Both increments by one leave the same bucket. -/
theorem Matches.increment (hmatches : Matches store redis latest)
    (haccess : Access latest windowSec now) (amount : ℕ)
    (hspares : SparesOpen store owner type windowSec 1 now) :
    (RateLimiter.increment store owner type windowSec 1 now).1 =
        (RedisRateLimiter.incrementAsync redis owner type windowSec amount now).1 ∧
      Matches (RateLimiter.increment store owner type windowSec 1 now).2
        (RedisRateLimiter.incrementAsync redis owner type windowSec amount now).2
        (max latest now) := by
  obtain ⟨count, expireAt, hcounted, hincr, hexpire⟩ := hmatches.counted owner type haccess
  constructor
  · rw [RateLimiter.increment, RedisRateLimiter.incrementAsync, hcounted, hincr]
  · intro id hopen
    rw [RateLimiter.increment, RedisRateLimiter.incrementAsync, hincr]
    have hkept : id ∉ (store.map.set (meterId owner type windowSec now)
        (store.counted (meterId owner type windowSec now) 1
          (computeResetAt now windowSec) now)).victims Bucket.resetAt maxSize :=
      fun hvictim => absurd (hspares id hvictim)
        (not_le.mpr (lt_of_le_of_lt (le_max_right _ _) hopen))
    have hget : (store.increment (meterId owner type windowSec now) 1
        (computeResetAt now windowSec) now).map.get id =
          if id = meterId owner type windowSec now then
            some ⟨count, computeResetAt now windowSec⟩
          else store.map.get id := by
      rw [MemoryStore.increment, InsertionMap.get_shed, if_neg hkept, InsertionMap.get_set,
        hcounted]
    by_cases hid : id = meterId owner type windowSec now
    · subst hid
      rw [if_pos rfl] at hget
      exact Or.inr ⟨count, expireAt, hget, Function.update_self _ _ _, hexpire⟩
    · rw [if_neg hid] at hget
      have hcounter : Function.update redis.counters (meterId owner type windowSec now)
          (some ⟨count, expireAt⟩) id = redis.counters id := Function.update_of_ne hid _ _
      exact (hmatches id (lt_of_le_of_lt (le_max_left _ _) hopen)).congr hget hcounter

/-- Both stores report the same count. -/
theorem Matches.usageCount (hmatches : Matches store redis latest)
    (haccess : Access latest windowSec now) :
    RateLimiter.usageCount store owner type windowSec now =
      RedisRateLimiter.usageCount redis owner type windowSec now := by
  rw [RateLimiter.usageCount, RedisRateLimiter.usageCount, Redis.get]
  rcases (hmatches (meterId owner type windowSec now) haccess.inside).found haccess.lt with
    ⟨hmemory, hredis⟩ | ⟨count, expireAt, hmemory, hredis, -⟩
  · rw [hmemory, hredis]
    rfl
  · rw [hmemory, hredis]
    rfl

end Match

section Calls

variable {maxSize : ℕ} {config : MeterConfig} {store : MemoryStore MeterId maxSize}
variable {redis : Redis} {latest : ℕ} {caller : Caller} {clock : ℕ → ℕ}

/-- Both ways to give a reason are the same for a check that gives none. -/
theorem because_eq {outcome : Outcome} (hreason : outcome.reason = none) (reason : String) :
    outcome.because reason = RedisRateLimiter.because outcome reason := by
  rw [Outcome.because, RedisRateLimiter.because, hreason]
  rfl

theorem reason_checkAsync (owner : Owner) (type : MeterType) (windowSec : ℕ) (limit : Limit)
    (amount now : ℕ) :
    (RedisRateLimiter.checkAsync redis owner type windowSec limit amount now).reason = none := by
  rw [RedisRateLimiter.checkAsync, verdict]
  split <;> rfl

theorem latest_le_latestOf (windows : List ℕ) (latest : ℕ) (clock : ℕ → ℕ) :
    latest ≤ latestOf latest windows clock := by
  induction windows generalizing latest clock with
  | nil => exact le_rfl
  | cons windowSec windows ih => exact (le_max_left _ _).trans (ih _ _)

theorem Matches.checkMinute (hmatches : Matches store redis latest) (config : MeterConfig)
    (caller : Caller) (horder : InOrder latest [60] clock) (type : MeterType) (limit : Limit)
    (reason : String) :
    (RateLimiter.checkMinute config store caller clock type limit reason).1 =
        RedisRateLimiter.checkMinute config redis caller clock type limit reason ∧
      Matches (RateLimiter.checkMinute config store caller clock type limit reason).2 redis
        (latestOf latest [60] clock) := by
  rw [RateLimiter.checkMinute, RedisRateLimiter.checkMinute]
  cases config.bypass caller limit 60 (clock 0) with
  | some outcome => exact ⟨rfl, hmatches.mono (latest_le_latestOf _ _ _)⟩
  | none =>
      obtain ⟨hsame, hnext⟩ := hmatches.check caller.owner type
        ⟨by decide, horder.1⟩ limit 1
      refine ⟨?_, hnext⟩
      simp only
      rw [hsame, because_eq (reason_checkAsync _ _ _ _ _ _)]

theorem Matches.checkSettle (hmatches : Matches store redis latest)
    (horder : InOrder latest [60, 3600, 86400, 86400] clock) {network : Option String}
    (hreserves : config.reservation network = 50000 ∨ config.allowlisted caller.ip = true) :
    (RateLimiter.checkSettle config store caller clock network).1 =
        RedisRateLimiter.checkSettle config redis caller clock network ∧
      Matches (RateLimiter.checkSettle config store caller clock network).2 redis
        (latestOf latest [60, 3600, 86400, 86400] clock) := by
  obtain ⟨hfirst, hsecond, hthird, hfourth, -⟩ := horder
  let limits := config.getKeyConfig caller.owner
  obtain ⟨hminute, hmatches₁⟩ := hmatches.check caller.owner .settle ⟨by decide, hfirst⟩
    limits.settleRpm 1
  obtain ⟨hhour, hmatches₂⟩ := hmatches₁.check caller.owner .settle ⟨by decide, hsecond⟩
    limits.settleRph 1
  obtain ⟨hday, hmatches₃⟩ := hmatches₂.check caller.owner .settle ⟨by decide, hthird⟩
    limits.settleRpd 1
  obtain ⟨hfee, hmatches₄⟩ := hmatches₃.check caller.owner .fee ⟨by decide, hfourth⟩
    limits.feeSpd (config.reservation network)
  rw [RateLimiter.checkSettle, RedisRateLimiter.checkSettle]
  cases hbypass : config.bypass caller (config.getKeyConfig caller.owner).settleRpm 60
      (clock 0) with
  | some outcome => exact ⟨rfl, hmatches.mono (latest_le_latestOf _ _ _)⟩
  | none =>
      have hmaxFee : config.reservation network = 50000 := by
        apply hreserves.resolve_right
        intro hlisted
        rw [MeterConfig.bypass, if_pos hlisted] at hbypass
        cases hbypass
      simp only
      rw [hmaxFee] at hfee hmatches₄ ⊢
      rw [hminute, hhour, hday, hfee]
      cases hrefused : [
          RedisRateLimiter.checkAsync redis caller.owner .settle 60 limits.settleRpm 1 (clock 0),
          RedisRateLimiter.checkAsync redis caller.owner .settle 3600 limits.settleRph 1 (clock 1),
          RedisRateLimiter.checkAsync redis caller.owner .settle 86400 limits.settleRpd 1
            (clock 2)].find? fun outcome => !outcome.allowed with
      | some outcome =>
          have hreason : outcome.reason = none := by
            have hmem := List.mem_of_find?_eq_some hrefused
            simp only [List.mem_cons, List.not_mem_nil, or_false] at hmem
            obtain rfl | rfl | rfl := hmem
            · exact reason_checkAsync _ _ _ _ _ _
            · exact reason_checkAsync _ _ _ _ _ _
            · exact reason_checkAsync _ _ _ _ _ _
          exact ⟨because_eq hreason _, hmatches₃.mono (le_max_left _ _)⟩
      | none =>
          simp only
          split
          · exact ⟨rfl, hmatches₄⟩
          · exact ⟨because_eq (reason_checkAsync _ _ _ _ _ _) _, hmatches₄⟩

theorem Matches.recordMinute (hmatches : Matches store redis latest)
    (horder : InOrder latest [60] clock) (type : MeterType) (limit : Limit)
    (hspares : SparesOpen store caller.owner type 60 1 (clock 0)) :
    (RateLimiter.recordMinute store caller clock type limit).1 =
        recorded1 limit (RedisRateLimiter.incrementAsync redis caller.owner type 60 1 (clock 0)).1 ∧
      Matches (RateLimiter.recordMinute store caller clock type limit).2
        (RedisRateLimiter.incrementAsync redis caller.owner type 60 1 (clock 0)).2
        (latestOf latest [60] clock) := by
  obtain ⟨hsame, hnext⟩ := hmatches.increment ⟨by decide, horder.1⟩ 1 hspares
  refine ⟨?_, hnext⟩
  rw [RateLimiter.recordMinute, hsame]

theorem Matches.recordSettle (hmatches : Matches store redis latest) (config : MeterConfig)
    (horder : InOrder latest [60, 3600, 86400, 86400] clock) {feeCharged : ℤ}
    (hminute : SparesOpen store caller.owner .settle 60 1 (clock 0)) :
    let minute := (RateLimiter.increment store caller.owner .settle 60 1 (clock 0)).2
    let hour := (RateLimiter.increment minute caller.owner .settle 3600 1 (clock 1)).2
    let day := (RateLimiter.increment hour caller.owner .settle 86400 1 (clock 2)).2
    SparesOpen minute caller.owner .settle 3600 1 (clock 1) →
    SparesOpen hour caller.owner .settle 86400 1 (clock 2) →
    (feeCharged = 0 ∨ feeCharged = 1 ∧ SparesOpen day caller.owner .fee 86400 1 (clock 3)) →
    (RateLimiter.recordSettle config store caller clock feeCharged).1 =
        (RedisRateLimiter.recordSettle config redis caller clock feeCharged).1 ∧
      Matches (RateLimiter.recordSettle config store caller clock feeCharged).2
        (RedisRateLimiter.recordSettle config redis caller clock feeCharged).2
        (latestOf latest [60, 3600, 86400, 86400] clock) := by
  intro minute hour day hhour hday hfee
  obtain ⟨hfirst, hsecond, hthird, hfourth, -⟩ := horder
  obtain ⟨hsame₁, hmatches₁⟩ := hmatches.increment ⟨by decide, hfirst⟩ 1 hminute
  obtain ⟨hsame₂, hmatches₂⟩ := hmatches₁.increment ⟨by decide, hsecond⟩ 1 hhour
  obtain ⟨hsame₃, hmatches₃⟩ := hmatches₂.increment ⟨by decide, hthird⟩ 1 hday
  rw [RateLimiter.recordSettle, RedisRateLimiter.recordSettle]
  rcases hfee with rfl | ⟨rfl, hfee⟩
  · refine ⟨?_, hmatches₃.mono (le_max_left _ _)⟩
    simp only
    rw [hsame₁, hsame₂, hsame₃]
  · obtain ⟨-, hmatches₄⟩ := hmatches₃.increment ⟨by decide, hfourth⟩ (1 : ℤ).toNat hfee
    refine ⟨?_, hmatches₄⟩
    simp only
    rw [hsame₁, hsame₂, hsame₃]

theorem Matches.getUsage (hmatches : Matches store redis latest)
    (horder : InOrder latest [60, 60, 3600, 86400, 86400, 60] clock) (keyId : String) :
    RateLimiter.getUsage config store clock keyId =
      RedisRateLimiter.getUsage config redis clock keyId := by
  obtain ⟨hfirst, hsecond, hthird, hfourth, hfifth, hsixth, -⟩ := horder
  have haccess : ∀ {windowSec now latest' : ℕ}, 0 < windowSec → latest ≤ latest' →
      latest' < computeResetAt now windowSec → Access latest windowSec now :=
    fun hpositive hle hinside => ⟨hpositive, lt_of_le_of_lt hle hinside⟩
  rw [RateLimiter.getUsage, RedisRateLimiter.getUsage]
  rw [hmatches.usageCount (haccess (by decide) le_rfl hfirst),
    hmatches.usageCount (haccess (by decide) (by omega) hsecond),
    hmatches.usageCount (haccess (by decide) (by omega) hthird),
    hmatches.usageCount (haccess (by decide) (by omega) hfourth),
    hmatches.usageCount (haccess (by decide) (by omega) hfifth),
    hmatches.usageCount (haccess (by decide) (by omega) hsixth)]

/-- A comparable call is answered alike, and the stores still match. -/
theorem Matches.call (hmatches : Matches store redis latest) {timed : Timed}
    (hcomparable : Comparable config ⟨store, redis, latest⟩ timed) :
    (Meters.redisCall config redis timed).1 = (Meters.memoryCall config store timed).1 ∧
      Matches (Meters.memoryCall config store timed).2 (Meters.redisCall config redis timed).2
        (latestOf latest timed.call.windows timed.clock) := by
  obtain ⟨call, clock⟩ := timed
  obtain ⟨horder, hcall⟩ := hcomparable
  cases call with
  | checkVerify caller =>
      obtain ⟨hsame, hnext⟩ := hmatches.checkMinute config caller horder
        .verify (config.getKeyConfig caller.owner).verifyRpm "rate_limit_exceeded"
      exact ⟨congrArg MeterAnswer.outcome hsame.symm, hnext⟩
  | checkCatalog caller =>
      obtain ⟨hsame, hnext⟩ := hmatches.checkMinute config caller horder
        .catalog (config.getKeyConfig caller.owner).catalogRpm "catalog_rate_limited"
      exact ⟨congrArg MeterAnswer.outcome hsame.symm, hnext⟩
  | checkCatalogRead caller =>
      obtain ⟨hsame, hnext⟩ := hmatches.checkMinute config caller horder
        .catalogRead (config.getKeyConfig caller.owner).catalogReads "catalog_read_rate_limited"
      exact ⟨congrArg MeterAnswer.outcome hsame.symm, hnext⟩
  | recordVerify caller =>
      obtain ⟨hsame, hnext⟩ := hmatches.recordMinute horder .verify
        (config.getKeyConfig caller.owner).verifyRpm hcall
      exact ⟨congrArg MeterAnswer.outcome hsame.symm, hnext⟩
  | recordCatalog caller => exact False.elim hcall
  | recordCatalogRead caller => exact False.elim hcall
  | checkSettle caller network =>
      obtain ⟨hsame, hnext⟩ := hmatches.checkSettle horder hcall
      exact ⟨congrArg MeterAnswer.outcome hsame.symm, hnext⟩
  | recordSettle caller feeCharged =>
      obtain ⟨hfee, hminute, hhour, hday⟩ := hcall
      obtain ⟨hsame, hnext⟩ := hmatches.recordSettle config horder hminute hhour hday
        hfee
      exact ⟨congrArg MeterAnswer.outcome hsame.symm, hnext⟩
  | getUsage keyId =>
      exact ⟨congrArg MeterAnswer.usage (hmatches.getUsage horder keyId).symm,
        hmatches.mono (latest_le_latestOf _ _ _)⟩
  | sweep => exact ⟨rfl, hmatches.sweep (clock 0)⟩

def Meters.Matching (meters : Meters maxSize) : Prop :=
  RateLimit.Matches meters.memory meters.redis meters.latest

/-- In every run of comparable calls the two limiters agree. -/
theorem agrees_always (config : MeterConfig) (maxSize : ℕ) :
    AgreesAlways config maxSize (Comparable config) := by
  intro meters hreach timed hcomparable
  have hmatching : meters.Matching := by
    refine hreach.preserves (fun before timed after hbefore hmeets hstep => ?_) matches_empty
    obtain rfl := Option.some.inj hstep
    exact (RateLimit.Matches.call hbefore hmeets).2
  exact congrArg MeterAnswer.compared (RateLimit.Matches.call hmatching hcomparable).1

end Calls

section Examples

def defaultMeters : MeterConfig where
  global := {}
  keys := fun _ => none
  allowlisted := fun _ => false
  perNetwork := fun _ => none

def sponsored : Timed := ⟨.recordSettle ⟨some "KEY", "203.0.113.7"⟩ 50000, fun _ => 0⟩

theorem redis_counts_fee_as_one : ¬ AgreesAlways defaultMeters 10000 fun _ _ => True := by
  intro hagrees
  let meters : Meters 10000 := (Meters.step defaultMeters .init sponsored).get rfl
  have hreach : Reaches (Meters.step defaultMeters) (fun _ _ => True) .init meters :=
    (Reaches.refl _).tail trivial (Option.some_get _).symm
  have husage := hagrees meters hreach ⟨.getUsage "KEY", fun _ => 0⟩ trivial
  exact absurd (congrArg Prod.snd husage) (by decide)

end Examples

end X402Facilitator.RateLimit
