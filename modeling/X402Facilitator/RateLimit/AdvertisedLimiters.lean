import X402Facilitator.RateLimit.AdvertisedBucket

/-!
# The headers of both limiters

Each limiter gives the buckets of its calls and what it is told of them; the condition under
which one of the buckets is the one in the headers is the same for both.
-/

namespace X402Facilitator.RateLimit

def settleBucket (owner : Owner) (window : ℕ) (hwindow : 0 < window) (limit : Limit) (count : ℕ)
    (ticks : Ticks) : SettleBucket where
  id := meterId owner .settle window ticks.idNow
  positive := hwindow
  limit := limit
  count := count

/-- A record's headers are right exactly under the condition on its three buckets, by
themselves and after those of a check. -/
structure RecordIff (minute hour day : SeenBucket) (recorded : LimiterState)
    (allowed : LimiterState → Prop) : Prop where
  returned : Describes ([minute, hour, day].map SeenBucket.bucket) recorded.headers ↔
    RecordTells minute hour day
  written : ∀ check, allowed check → ∀ now,
    (Advertises ([minute, hour, day].map SeenBucket.bucket)
      (handleRateLimit [some recorded, some check] now) ↔ RecordTells minute hour day)

/-- A check's headers are right exactly under the condition on its three buckets. -/
structure CheckIff (bypass : Option LimiterState) (minute hour day : CheckedBucket)
    (fee checked : LimiterState) : Prop where
  returned : Describes ([minute, hour, day].map CheckedBucket.bucket) checked.headers ↔
    CheckTells bypass minute hour day fee
  written : ∀ now, (Advertises ([minute, hour, day].map CheckedBucket.bucket)
    (handleRateLimit [some checked] now) ↔ CheckTells bypass minute hour day fee)

section Tails

variable {config : MeterConfig} {caller : Caller} {window now : ℕ} {limit : Limit}

theorem mem_bypassState {state : LimiterState}
    (hstate : state ∈ config.bypassState caller limit window now) :
    state.limit = limit ∧ state.remaining = limit := by
  rw [MeterConfig.bypassState] at hstate
  split at hstate
  · cases hstate
    exact ⟨rfl, rfl⟩
  · cases hstate

/-- An allowed check has an allowance without bound where the limits have none. -/
theorem check_infinite {minute hour day : CheckedBucket} {fee state : LimiterState}
    {bypass : Option LimiterState}
    (hbypass : ∀ state ∈ bypass, state.limit = minute.bucket.limit ∧
      state.remaining = minute.bucket.limit)
    (hstate : state.headers = (decisive minute.state hour.state day.state fee).headers)
    (hsame : state.allowed = (decisive minute.state hour.state day.state fee).allowed)
    (hlimits : minute.bucket.limit = .infinity ∧ hour.bucket.limit = .infinity ∧
      day.bucket.limit = .infinity)
    (hallowed : (bypass.getD state).allowed = true) :
    (bypass.getD state).remaining.isFinite = false := by
  cases bypass with
  | some bypassed =>
      rw [Option.getD_some, (hbypass bypassed rfl).2, hlimits.1]
      rfl
  | none =>
      rw [Option.getD_none] at hallowed ⊢
      have hremaining : state.remaining =
          (decisive minute.state hour.state day.state fee).remaining :=
        congrArg RateLimitHeaders.remaining hstate
      have hbuckets : ∀ bucket ∈ [minute, hour, day].map CheckedBucket.bucket,
          bucket.limit = .infinity := by
        simpa using hlimits
      rw [hremaining, decisive_infinite hbuckets (hsame ▸ hallowed)]
      rfl

theorem checkIff_of (minute hour day : CheckedBucket) (fee state : LimiterState)
    (bypass : Option LimiterState)
    (hbypass : ∀ state ∈ bypass, state.limit = minute.bucket.limit ∧
      state.remaining = minute.bucket.limit)
    (hfee : fee.allowed = false → fee.remaining = .number 0)
    (hstate : state.headers = (decisive minute.state hour.state day.state fee).headers) :
    CheckIff bypass minute hour day fee (bypass.getD state) where
  returned := check_describes_iff hbypass hfee hstate
  written now := (advertises_check_iff now).trans (check_describes_iff hbypass hfee hstate)

theorem recordIff_of (minute hour day : SeenBucket) (limits : MeteredLimits)
    (hminute : minute.bucket.limit = limits.settleRpm)
    (hhour : hour.bucket.limit = limits.settleRph) (hday : day.bucket.limit = limits.settleRpd)
    {allowed : LimiterState → Prop}
    (hallowed : ∀ check, allowed check → limits.settleRpm = .infinity ∧
      limits.settleRph = .infinity ∧ limits.settleRpd = .infinity →
        check.remaining.isFinite = false) :
    RecordIff minute hour day
      (recordedState limits minute.counted hour.counted day.counted) allowed where
  returned := recordedState_describes_iff hminute hhour hday
  written check hcheck now :=
    (advertises_record_iff now fun hfinite => hallowed check hcheck
      (limits_of_recorded hminute hhour hday hfinite)).trans
        (recordedState_describes_iff hminute hhour hday)

theorem headers_checkedState (minute hour day fee : LimiterState) :
    (checkedState minute hour day fee).headers = (decisive minute hour day fee).headers ∧
      (checkedState minute hour day fee).allowed = (decisive minute hour day fee).allowed := by
  rw [checkedState, decisive]
  cases [minute, hour, day].find? fun state => !state.allowed with
  | some state => exact ⟨rfl, rfl⟩
  | none =>
      rw [Option.getD_none]
      dsimp only
      split <;> exact ⟨rfl, rfl⟩

end Tails

namespace AnyStore

variable (config : MeterConfig) (caller : Caller) (network : Option String) (ticks : ℕ → Ticks)
variable (answers : ℕ → CountAnswer) (reads : ℕ → ReadAnswer)

def seen (owner : Owner) (window : ℕ) (hwindow : 0 < window) (limit : Limit)
    (answer : CountAnswer) (ticks : Ticks) : SeenBucket where
  bucket := settleBucket owner window hwindow limit answer.count ticks
  counted := increment answer window ticks
  told count hcount := by
    cases answer with
    | counted reading => exact Option.some.inj hcount
    | failed held => cases hcount

def checked (owner : Owner) (window : ℕ) (hwindow : 0 < window) (limit : Limit)
    (answer : ReadAnswer) (ticks : Ticks) : CheckedBucket where
  bucket := settleBucket owner window hwindow limit (answer.count + 1) ticks
  counted := Nat.succ_pos _
  state := check answer window limit 1 ticks
  limit := by
    cases answer with
    | found reading => exact judge_limit 1
    | missing => exact judge_limit 1
    | failed held => rfl
  allows hallowed := by
    cases answer with
    | found reading => exact judge_remaining rfl rfl
    | missing => exact judge_remaining rfl rfl
    | failed held => cases hallowed
  refuses hrefused := by
    cases answer with
    | found reading => exact judge_refuses hrefused
    | missing => exact judge_refuses hrefused
    | failed held => rfl

theorem check_refuses {answer : ReadAnswer} {window amount : ℕ} {limit : Limit} {ticks : Ticks}
    (hrefused : (check answer window limit amount ticks).allowed = false) :
    (check answer window limit amount ticks).remaining = .number 0 := by
  cases answer with
  | found reading => exact judge_refuses hrefused
  | missing => exact judge_refuses hrefused
  | failed held => rfl

def minuteSeen : SeenBucket :=
  seen caller.owner 60 (by decide) (config.getKeyConfig caller.owner).settleRpm (answers 0)
    (ticks 0)

def hourSeen : SeenBucket :=
  seen caller.owner 3600 (by decide) (config.getKeyConfig caller.owner).settleRph (answers 1)
    (ticks 1)

def daySeen : SeenBucket :=
  seen caller.owner 86400 (by decide) (config.getKeyConfig caller.owner).settleRpd (answers 2)
    (ticks 2)

def minuteChecked : CheckedBucket :=
  checked caller.owner 60 (by decide) (config.getKeyConfig caller.owner).settleRpm (reads 0)
    (ticks 0)

def hourChecked : CheckedBucket :=
  checked caller.owner 3600 (by decide) (config.getKeyConfig caller.owner).settleRph (reads 1)
    (ticks 1)

def dayChecked : CheckedBucket :=
  checked caller.owner 86400 (by decide) (config.getKeyConfig caller.owner).settleRpd (reads 2)
    (ticks 2)

def feeState : LimiterState :=
  check (reads 3) 86400 (config.getKeyConfig caller.owner).feeSpd (config.reservation network)
    (ticks 3)

def bypass : Option LimiterState :=
  config.bypassState caller (config.getKeyConfig caller.owner).settleRpm 60 (ticks 0).now

/-- What a check of the caller returns where it lets the request through. -/
def Allowed (check : LimiterState) : Prop :=
  ∃ network ticks reads, check = checkSettle config caller ticks network reads ∧
    check.allowed = true

theorem check_iff : CheckIff (bypass config caller ticks) (minuteChecked config caller ticks reads)
    (hourChecked config caller ticks reads) (dayChecked config caller ticks reads)
    (feeState config caller network ticks reads)
    (checkSettle config caller ticks network reads) :=
  checkIff_of (minuteChecked config caller ticks reads) (hourChecked config caller ticks reads)
    (dayChecked config caller ticks reads) (feeState config caller network ticks reads) _
    (bypass config caller ticks) (fun _ hstate => mem_bypassState hstate) check_refuses
    (headers_checkedState _ _ _ _).1

theorem infinite_of_allowed {check : LimiterState} (hcheck : Allowed config caller check)
    (hlimits : (config.getKeyConfig caller.owner).settleRpm = .infinity ∧
      (config.getKeyConfig caller.owner).settleRph = .infinity ∧
        (config.getKeyConfig caller.owner).settleRpd = .infinity) :
    check.remaining.isFinite = false := by
  obtain ⟨network, ticks, reads, rfl, hallowed⟩ := hcheck
  have hheaders := headers_checkedState (minuteChecked config caller ticks reads).state
    (hourChecked config caller ticks reads).state (dayChecked config caller ticks reads).state
    (feeState config caller network ticks reads)
  exact check_infinite (fun _ hstate => mem_bypassState hstate) hheaders.1 hheaders.2 hlimits
    hallowed

theorem record_iff : RecordIff (minuteSeen config caller ticks answers)
    (hourSeen config caller ticks answers) (daySeen config caller ticks answers)
    (recordSettle config caller ticks answers) (Allowed config caller) :=
  recordIff_of (minuteSeen config caller ticks answers) (hourSeen config caller ticks answers)
    (daySeen config caller ticks answers) (config.getKeyConfig caller.owner) rfl rfl rfl
    fun _ hcheck hlimits => infinite_of_allowed config caller hcheck hlimits

variable {config caller network ticks answers reads}

theorem less_iff (limit other : Limit) :
    limit.less other = true ↔ limit.value < other.value := by
  cases limit with
  | number value =>
      cases other with
      | number other => simp [Limit.less, Limit.value]
      | infinity => exact iff_of_true rfl (WithBot.coe_lt_coe.mpr (WithTop.coe_lt_top value))
      | negativeInfinity => exact iff_of_false Bool.false_ne_true not_lt_bot
  | infinity =>
      refine iff_of_false ?_ (not_lt.mpr le_top)
      cases other <;> exact Bool.false_ne_true
  | negativeInfinity =>
      cases other with
      | number other | infinity => exact iff_of_true rfl (WithBot.bot_lt_coe _)
      | negativeInfinity => exact iff_of_false Bool.false_ne_true not_lt_bot

theorem tightest_eq (first : Outcome) (others : List Outcome) :
    tightest first others = leastOf (fun outcome => outcome.remaining.value) first others := by
  rw [tightest, leastOf]
  congr 1
  ext least other
  exact if_congr (less_iff _ _) rfl rfl

/-- The record of three answered increments. -/
theorem headers_recordedState (limits : MeteredLimits) (minute hour day : Bucket) :
    (recordedState limits ⟨some minute.count, .seconds minute.resetAt⟩
        ⟨some hour.count, .seconds hour.resetAt⟩ ⟨some day.count, .seconds day.resetAt⟩).headers =
      ⟨(recordedSettle limits minute hour day).limit,
        (recordedSettle limits minute hour day).remaining, .seconds minute.resetAt⟩ := by
  have hmap := leastOf_map (fun entry : Limit × Limit => entry.2.value)
    (fun outcome : Outcome => (outcome.limit, outcome.remaining))
    (recorded1 limits.settleRpm minute)
    [recorded1 limits.settleRph hour, recorded1 limits.settleRpd day]
  simp only [recordedState, List.headD_eq_head?_getD, head?_sortBy, Option.getD_some,
    LimiterState.headers, recordedSettle, tightest_eq]
  exact congrArg (fun entry : Limit × Limit => (⟨entry.1, entry.2, .seconds minute.resetAt⟩ :
    RateLimitHeaders)) hmap

def memoryAnswers {maxSize : ℕ} (store : MemoryStore MeterId maxSize) (owner : Owner)
    (clock : ℕ → ℕ) : ℕ → CountAnswer :=
  let minute := RateLimiter.increment store owner .settle 60 1 (clock 0)
  let hour := RateLimiter.increment minute.2 owner .settle 3600 1 (clock 1)
  let day := RateLimiter.increment hour.2 owner .settle 86400 1 (clock 2)
  fun access => match access with
    | 0 => .counted minute.1.reading
    | 1 => .counted hour.1.reading
    | _ => .counted day.1.reading

/-- The record over the in-memory store is the one that is given its buckets. -/
theorem recordSettle_memory {maxSize : ℕ} (config : MeterConfig)
    (store : MemoryStore MeterId maxSize) (caller : Caller) (clock : ℕ → ℕ) (feeCharged : ℤ) :
    let outcome := (RateLimiter.recordSettle config store caller clock feeCharged).1
    (recordSettle config caller (fun access => ⟨clock access, clock access⟩)
        (memoryAnswers store caller.owner clock)).headers =
      ⟨outcome.limit, outcome.remaining, .seconds outcome.resetAt⟩ :=
  headers_recordedState _ _ _ _

end AnyStore

namespace RedisFallback

variable (config : MeterConfig) (caller : Caller) (network : Option String) (ticks : ℕ → Ticks)
variable (counts : ℕ → Source CountAnswer) (sources : ℕ → Source ReadAnswer)

def Source.bucketTicks {Answer : Type} (source : Source Answer) (outer : Ticks) : Ticks :=
  match source with
  | .redis _ => outer
  | .memory _ inner => inner

def Source.count {Answer : Type} (count : Answer → ℕ) : Source Answer → ℕ
  | .redis count => count
  | .memory answer _ => count answer

def seen (owner : Owner) (window : ℕ) (hwindow : 0 < window) (limit : Limit)
    (source : Source CountAnswer) (ticks : Ticks) : SeenBucket where
  bucket := settleBucket owner window hwindow limit (source.count CountAnswer.count)
    (source.bucketTicks ticks)
  counted := incrementAsync source window ticks
  told count hcount := by
    cases source with
    | redis told => exact Option.some.inj hcount
    | memory answer inner =>
        exact (AnyStore.seen owner window hwindow limit answer inner).told count hcount

def checked (owner : Owner) (window : ℕ) (hwindow : 0 < window) (limit : Limit)
    (source : Source ReadAnswer) (ticks : Ticks) : CheckedBucket where
  bucket := settleBucket owner window hwindow limit (source.count ReadAnswer.count + 1)
    (source.bucketTicks ticks)
  counted := Nat.succ_pos _
  state := checkAsync source window limit 1 ticks
  limit := by
    cases source with
    | redis count => exact judge_limit 1
    | memory answer inner =>
        exact (AnyStore.checked owner window hwindow limit answer inner).limit
  allows hallowed := by
    cases source with
    | redis count => exact judge_remaining rfl rfl
    | memory answer inner =>
        exact (AnyStore.checked owner window hwindow limit answer inner).allows hallowed
  refuses hrefused := by
    cases source with
    | redis count => exact judge_refuses hrefused
    | memory answer inner =>
        exact (AnyStore.checked owner window hwindow limit answer inner).refuses hrefused

theorem check_refuses {source : Source ReadAnswer} {window amount : ℕ} {limit : Limit}
    {ticks : Ticks} (hrefused : (checkAsync source window limit amount ticks).allowed = false) :
    (checkAsync source window limit amount ticks).remaining = .number 0 := by
  cases source with
  | redis count => exact judge_refuses hrefused
  | memory answer inner => exact AnyStore.check_refuses hrefused

def minuteSeen : SeenBucket :=
  seen caller.owner 60 (by decide) (config.getKeyConfig caller.owner).settleRpm (counts 0)
    (ticks 0)

def hourSeen : SeenBucket :=
  seen caller.owner 3600 (by decide) (config.getKeyConfig caller.owner).settleRph (counts 1)
    (ticks 1)

def daySeen : SeenBucket :=
  seen caller.owner 86400 (by decide) (config.getKeyConfig caller.owner).settleRpd (counts 2)
    (ticks 2)

def minuteChecked : CheckedBucket :=
  checked caller.owner 60 (by decide) (config.getKeyConfig caller.owner).settleRpm (sources 0)
    (ticks 0)

def hourChecked : CheckedBucket :=
  checked caller.owner 3600 (by decide) (config.getKeyConfig caller.owner).settleRph (sources 1)
    (ticks 1)

def dayChecked : CheckedBucket :=
  checked caller.owner 86400 (by decide) (config.getKeyConfig caller.owner).settleRpd (sources 2)
    (ticks 2)

def feeState : LimiterState :=
  checkAsync (sources 3) 86400 (config.getKeyConfig caller.owner).feeSpd 50000 (ticks 3)

/-- What a check of the caller returns where it lets the request through. -/
def Allowed (check : LimiterState) : Prop :=
  ∃ network ticks sources, check = checkSettle config caller ticks network sources ∧
    check.allowed = true

def readState : LimiterState :=
  match [(minuteChecked config caller ticks sources).state,
      (hourChecked config caller ticks sources).state,
      (dayChecked config caller ticks sources).state].find? fun state => !state.allowed with
  | some state => replaceReason state "rate_limit_exceeded"
  | none =>
      if (feeState config caller ticks sources).allowed then
        tightestState (minuteChecked config caller ticks sources).state
          (hourChecked config caller ticks sources).state
          (dayChecked config caller ticks sources).state
      else replaceReason (feeState config caller ticks sources) "fee_ceiling_exceeded"

theorem headers_readState : (readState config caller ticks sources).headers =
      (decisive (minuteChecked config caller ticks sources).state
        (hourChecked config caller ticks sources).state
        (dayChecked config caller ticks sources).state
        (feeState config caller ticks sources)).headers ∧
    (readState config caller ticks sources).allowed =
      (decisive (minuteChecked config caller ticks sources).state
        (hourChecked config caller ticks sources).state
        (dayChecked config caller ticks sources).state
        (feeState config caller ticks sources)).allowed := by
  rw [readState, decisive]
  cases [(minuteChecked config caller ticks sources).state,
      (hourChecked config caller ticks sources).state,
      (dayChecked config caller ticks sources).state].find? fun state => !state.allowed with
  | some state => exact ⟨rfl, rfl⟩
  | none =>
      rw [Option.getD_none]
      dsimp only
      split <;> exact ⟨rfl, rfl⟩

theorem check_iff : CheckIff (AnyStore.bypass config caller ticks)
    (minuteChecked config caller ticks sources) (hourChecked config caller ticks sources)
    (dayChecked config caller ticks sources) (feeState config caller ticks sources)
    (checkSettle config caller ticks network sources) :=
  checkIff_of (minuteChecked config caller ticks sources) (hourChecked config caller ticks sources)
    (dayChecked config caller ticks sources) (feeState config caller ticks sources)
    (readState config caller ticks sources) (AnyStore.bypass config caller ticks)
    (fun _ hstate => mem_bypassState hstate) check_refuses
    (headers_readState config caller ticks sources).1

theorem infinite_of_allowed {check : LimiterState} (hcheck : Allowed config caller check)
    (hlimits : (config.getKeyConfig caller.owner).settleRpm = .infinity ∧
      (config.getKeyConfig caller.owner).settleRph = .infinity ∧
        (config.getKeyConfig caller.owner).settleRpd = .infinity) :
    check.remaining.isFinite = false := by
  obtain ⟨network, ticks, sources, rfl, hallowed⟩ := hcheck
  have hheaders := headers_readState config caller ticks sources
  exact check_infinite (fun _ hstate => mem_bypassState hstate) hheaders.1 hheaders.2 hlimits
    hallowed

theorem record_iff : RecordIff (minuteSeen config caller ticks counts)
    (hourSeen config caller ticks counts) (daySeen config caller ticks counts)
    (recordSettle config caller ticks counts) (Allowed config caller) :=
  recordIff_of (minuteSeen config caller ticks counts) (hourSeen config caller ticks counts)
    (daySeen config caller ticks counts) (config.getKeyConfig caller.owner) rfl rfl rfl
    fun _ hcheck hlimits => infinite_of_allowed config caller hcheck hlimits

end RedisFallback

/-- The headers of a record and of a check, for either limiter, every clock and all that a store
can answer. -/
theorem headers_describe_iff (config : MeterConfig) (caller : Caller) (network : Option String)
    (ticks : ℕ → Ticks) (answers : ℕ → CountAnswer) (reads : ℕ → ReadAnswer)
    (counts : ℕ → RedisFallback.Source CountAnswer)
    (sources : ℕ → RedisFallback.Source ReadAnswer) :
    (RecordIff (AnyStore.minuteSeen config caller ticks answers)
        (AnyStore.hourSeen config caller ticks answers)
        (AnyStore.daySeen config caller ticks answers)
        (AnyStore.recordSettle config caller ticks answers) (AnyStore.Allowed config caller) ∧
      CheckIff (AnyStore.bypass config caller ticks)
        (AnyStore.minuteChecked config caller ticks reads)
        (AnyStore.hourChecked config caller ticks reads)
        (AnyStore.dayChecked config caller ticks reads)
        (AnyStore.feeState config caller network ticks reads)
        (AnyStore.checkSettle config caller ticks network reads)) ∧
    RecordIff (RedisFallback.minuteSeen config caller ticks counts)
        (RedisFallback.hourSeen config caller ticks counts)
        (RedisFallback.daySeen config caller ticks counts)
        (RedisFallback.recordSettle config caller ticks counts)
        (RedisFallback.Allowed config caller) ∧
      CheckIff (AnyStore.bypass config caller ticks)
        (RedisFallback.minuteChecked config caller ticks sources)
        (RedisFallback.hourChecked config caller ticks sources)
        (RedisFallback.dayChecked config caller ticks sources)
        (RedisFallback.feeState config caller ticks sources)
        (RedisFallback.checkSettle config caller ticks network sources) := by
  constructor
  · exact ⟨AnyStore.record_iff config caller ticks answers,
      AnyStore.check_iff config caller network ticks reads⟩
  · exact ⟨RedisFallback.record_iff config caller ticks counts,
      RedisFallback.check_iff config caller network ticks sources⟩

def defaultMeterConfig : MeterConfig := ⟨{}, fun _ => none, fun _ => false, fun _ => none⟩

def hourlyCaller : Caller := ⟨none, "192.0.2.1"⟩

def hourlyTicks (_ : ℕ) : Ticks := ⟨1200, 1200⟩

/-- One request in this minute and, after those of the twenty minutes before it, a hundred in
this hour, which is its limit. -/
def hourlyAnswers : ℕ → CountAnswer
  | 0 => .counted ⟨1, .seconds 1260⟩
  | 1 => .counted ⟨100, .seconds 3600⟩
  | _ => .counted ⟨100, .seconds 86400⟩

def hourlyMinute : SeenBucket :=
  AnyStore.minuteSeen defaultMeterConfig hourlyCaller hourlyTicks hourlyAnswers

def hourlyHour : SeenBucket :=
  AnyStore.hourSeen defaultMeterConfig hourlyCaller hourlyTicks hourlyAnswers

def hourlyDay : SeenBucket :=
  AnyStore.daySeen defaultMeterConfig hourlyCaller hourlyTicks hourlyAnswers

theorem tightestSeen_hourly : tightestSeen hourlyMinute hourlyHour hourlyDay = hourlyHour := by
  have hminute : hourlyMinute.shown = .number 9 := by decide +kernel
  have hhour : hourlyHour.shown = .number 0 := by decide +kernel
  have hday : hourlyDay.shown = .number 900 := by decide +kernel
  have hless : hourlyHour.shown.value < hourlyMinute.shown.value := by
    rw [hminute, hhour]
    exact WithBot.coe_lt_coe.mpr (WithTop.coe_lt_coe.mpr (by norm_num))
  have hmore : ¬ hourlyDay.shown.value < hourlyHour.shown.value := by
    rw [hday, hhour]
    exact not_lt.mpr (WithBot.coe_le_coe.mpr (WithTop.coe_le_coe.mpr (by norm_num)))
  rw [tightestSeen, leastOf, List.foldl_cons, List.foldl_cons, if_pos hless, if_neg hmore]
  rfl

theorem not_headers_describe :
    ¬ Describes ([hourlyMinute, hourlyHour, hourlyDay].map SeenBucket.bucket)
      (AnyStore.recordSettle defaultMeterConfig hourlyCaller hourlyTicks
        hourlyAnswers).headers := by
  have hheaders : (AnyStore.recordSettle defaultMeterConfig hourlyCaller hourlyTicks
      hourlyAnswers).headers =
        ⟨hourlyHour.bucket.limit, hourlyHour.shown, hourlyMinute.counted.resetAt⟩ := by
    have hstate : recordedState {} hourlyMinute.counted hourlyHour.counted hourlyDay.counted =
        { allowed := true, limit := (tightestSeen hourlyMinute hourlyHour hourlyDay).bucket.limit,
          remaining := (tightestSeen hourlyMinute hourlyHour hourlyDay).shown,
          resetAt := hourlyMinute.counted.resetAt } :=
      recordedState_eq rfl rfl rfl
    rw [tightestSeen_hourly] at hstate
    exact congrArg LimiterState.headers hstate
  rw [hheaders]
  rintro ⟨bucket, hbucket, hlimit, -, hreset, -⟩
  simp only [List.map_cons, List.map_nil, List.mem_cons, List.not_mem_nil, or_false] at hbucket
  rcases hbucket with rfl | rfl | rfl
  · exact absurd hlimit (by decide)
  · exact absurd hreset (by decide)
  · exact absurd hlimit (by decide)

end X402Facilitator.RateLimit
