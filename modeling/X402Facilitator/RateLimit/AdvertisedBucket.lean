import Mathlib.Tactic.Linarith
import X402Facilitator.RateLimit.Advertised

/-!
# One bucket in the headers

The headers of a check are those of one of the three settle buckets wherever one of these
decides the check.  Those of a record have the limit and the allowance of the tightest
bucket, and the reset time of the first.
-/

namespace X402Facilitator.RateLimit

/-- One of the three buckets, with the request counted in it. -/
structure SettleBucket where
  id : MeterId
  positive : 0 < id.windowSec
  limit : Limit
  count : ℕ

namespace SettleBucket

def left (bucket : SettleBucket) : Limit := (bucket.limit.minus bucket.count).clamp

end SettleBucket

/-- The headers are those of one bucket, with the least allowance, and from its reset time on a
request is not counted in it. -/
def Describes (buckets : List SettleBucket) (headers : RateLimitHeaders) : Prop :=
  ∃ bucket ∈ buckets, headers.limit = bucket.limit ∧ headers.remaining = bucket.left ∧
    headers.reset.time? = some bucket.id.ends ∧
    (∀ other ∈ buckets, bucket.left.value ≤ other.left.value) ∧
    ∀ now, bucket.id.ends ≤ now →
      meterId bucket.id.owner bucket.id.type bucket.id.windowSec now ≠ bucket.id

/-- A bucket has a limit and an allowance, and its window ends at a reset time. -/
def Fits (buckets : List SettleBucket) (limit left : Limit) (resetAt : ResetAt) : Prop :=
  ∃ bucket ∈ buckets, bucket.limit = limit ∧ bucket.left = left ∧
    resetAt.time? = some bucket.id.ends

section Buckets

variable {buckets : List SettleBucket}

theorem meterId_ne_of_ends_le (bucket : SettleBucket) {now : ℕ} (hnow : bucket.id.ends ≤ now) :
    meterId bucket.id.owner bucket.id.type bucket.id.windowSec now ≠ bucket.id := by
  intro heq
  have hstart : windowStart now bucket.id.windowSec = bucket.id.windowStart :=
    congrArg MeterId.windowStart heq
  have hlt : now < computeResetAt now bucket.id.windowSec := lt_computeResetAt bucket.positive
  rw [computeResetAt, hstart] at hlt
  exact absurd hnow (not_le.mpr hlt)

/-- Headers describe a bucket where one fits them and none has less left. -/
theorem describes_iff (headers : RateLimitHeaders) :
    Describes buckets headers ↔ Fits buckets headers.limit headers.remaining headers.reset ∧
      ∀ other ∈ buckets, headers.remaining.value ≤ other.left.value := by
  constructor
  · rintro ⟨bucket, hbucket, hlimit, hleft, hreset, hleast, -⟩
    exact ⟨⟨bucket, hbucket, hlimit.symm, hleft.symm, hreset⟩, fun other hother =>
      hleft ▸ hleast other hother⟩
  · rintro ⟨⟨bucket, hbucket, hlimit, hleft, hreset⟩, hleast⟩
    exact ⟨bucket, hbucket, hlimit.symm, hleft.symm, hreset, fun other hother =>
      hleft ▸ hleast other hother, fun now hnow => meterId_ne_of_ends_le bucket hnow⟩

theorem zero_le_clamp (limit : Limit) : (Limit.number 0).value ≤ limit.clamp.value := by
  cases limit with
  | number value =>
      have hmax : (0 : ℚ) ≤ max 0 value := le_max_left 0 value
      exact WithBot.coe_le_coe.mpr (WithTop.coe_le_coe.mpr hmax)
  | infinity => exact WithBot.coe_le_coe.mpr le_top
  | negativeInfinity => exact le_rfl

theorem zero_le_left (bucket : SettleBucket) :
    (Limit.number 0).value ≤ bucket.left.value := zero_le_clamp _

variable {total : ℕ}

/-- What an admitted count leaves is not negative. -/
theorem clamp_of_admits {limit : Limit} (hadmits : limit.Admits total) :
    (limit.minus total).clamp = limit.minus total := by
  cases limit with
  | number value =>
      have hle : (0 : ℚ) ≤ value - total := sub_nonneg.mpr hadmits
      exact congrArg Limit.number (max_eq_right hle)
  | infinity => rfl
  | negativeInfinity => exact absurd hadmits id

theorem clamp_of_not_admits {limit : Limit} (hrefused : ¬ limit.Admits total) :
    (limit.minus total).clamp = .number 0 := by
  cases limit with
  | number value =>
      have hle : value - total ≤ (0 : ℚ) := (sub_neg.mpr (not_le.mp hrefused)).le
      exact congrArg Limit.number (max_eq_left hle)
  | infinity => exact absurd trivial hrefused
  | negativeInfinity => rfl

end Buckets

/-- A bucket and what the limiter is told of its count. -/
structure SeenBucket where
  bucket : SettleBucket
  counted : Counted
  told : ∀ count, counted.count = some count → bucket.count = count

namespace SeenBucket

def shown (seen : SeenBucket) : Limit := remainingAfter seen.bucket.limit seen.counted

theorem shown_eq_left (seen : SeenBucket) (htold : seen.counted.count ≠ none) :
    seen.shown = seen.bucket.left := by
  obtain ⟨count, hcount⟩ := Option.ne_none_iff_exists'.mp htold
  rw [shown, SettleBucket.left, remainingAfter, hcount, Option.getD_some, seen.told count hcount]

end SeenBucket

def tightestSeen (minute hour day : SeenBucket) : SeenBucket :=
  leastOf (fun seen => seen.shown.value) minute [hour, day]

/-- A bucket with the limit and the allowance of the one taken for the tightest ends when the
minute's bucket is reset, and none whose increment has failed has less left. -/
def RecordTells (minute hour day : SeenBucket) : Prop :=
  Fits ([minute, hour, day].map SeenBucket.bucket) (tightestSeen minute hour day).bucket.limit
      (tightestSeen minute hour day).shown minute.counted.resetAt ∧
    ∀ seen ∈ [minute, hour, day], seen.counted.count = none →
      (tightestSeen minute hour day).shown.value ≤ seen.bucket.left.value

section Records

variable {minute hour day : SeenBucket} {limits : MeteredLimits}

theorem recordedState_eq (hminute : minute.bucket.limit = limits.settleRpm)
    (hhour : hour.bucket.limit = limits.settleRph) (hday : day.bucket.limit = limits.settleRpd) :
    recordedState limits minute.counted hour.counted day.counted =
      { allowed := true, limit := (tightestSeen minute hour day).bucket.limit,
        remaining := (tightestSeen minute hour day).shown, resetAt := minute.counted.resetAt } := by
  have hmap := leastOf_map (fun entry : Limit × Limit => entry.2.value)
    (fun seen : SeenBucket => (seen.bucket.limit, seen.shown)) minute [hour, day]
  rw [recordedState, ← hminute, ← hhour, ← hday]
  simp only [List.headD_eq_head?_getD, head?_sortBy, Option.getD_some]
  simp only [List.map_cons, List.map_nil] at hmap
  simp only [SeenBucket.shown] at hmap ⊢
  rw [hmap]
  rfl

/-- The headers of a record describe a bucket exactly under the condition. -/
theorem recordedState_describes_iff (hminute : minute.bucket.limit = limits.settleRpm)
    (hhour : hour.bucket.limit = limits.settleRph) (hday : day.bucket.limit = limits.settleRpd) :
    Describes ([minute, hour, day].map SeenBucket.bucket)
        (recordedState limits minute.counted hour.counted day.counted).headers ↔
      RecordTells minute hour day := by
  rw [recordedState_eq hminute hhour hday, describes_iff, RecordTells]
  refine and_congr_right fun _ => ⟨fun hleast seen hseen _ => ?_, fun hfailed other hother => ?_⟩
  · exact hleast _ (List.mem_map_of_mem hseen)
  · obtain ⟨seen, hseen, rfl⟩ := List.mem_map.mp hother
    by_cases htold : seen.counted.count = none
    · exact hfailed seen hseen htold
    · rw [← seen.shown_eq_left htold]
      exact leastOf_le (fun seen : SeenBucket => seen.shown.value) minute [hour, day] hseen

end Records

structure CheckedBucket where
  bucket : SettleBucket
  counted : 0 < bucket.count
  state : LimiterState
  limit : state.limit = bucket.limit
  allows : state.allowed = true → state.remaining = bucket.left
  refuses : state.allowed = false → state.remaining = .number 0

/-- The state that decides what a check returns: the first refusal, and else the tightest of
the settle buckets or the refusal by the fees. -/
def decisive (minute hour day fee : LimiterState) : LimiterState :=
  (([minute, hour, day].find? fun state => !state.allowed)).getD
    (if fee.allowed then tightestState minute hour day else fee)

/-- Where the caller is on the allowlist, a bucket with the limit of the minute ends a minute
later, and nothing is ever left in it, or nothing ever used up.  Where not, a bucket with the
limit of the one that decides has the allowance of that one, and ends when that is reset. -/
def CheckTells (bypass : Option LimiterState) (minute hour day : CheckedBucket)
    (fee : LimiterState) : Prop :=
  let buckets := [minute, hour, day].map CheckedBucket.bucket
  match bypass with
  | some state =>
      (∃ bucket ∈ buckets, bucket.limit = minute.bucket.limit ∧
        state.resetAt.time? = some bucket.id.ends) ∧
      (minute.bucket.limit = .number 0 ∨ ∀ bucket ∈ buckets, bucket.limit = .infinity)
  | none =>
      let state := decisive minute.state hour.state day.state fee
      Fits buckets state.limit state.remaining state.resetAt

section Checks

variable {minute hour day : CheckedBucket} {fee : LimiterState}

variable {bucket : SettleBucket} {state : LimiterState}

theorem left_eq_limit_iff (hcount : 0 < bucket.count) :
    bucket.left = bucket.limit ↔ bucket.limit = .number 0 ∨ bucket.limit = .infinity := by
  have hpositive : (0 : ℚ) < bucket.count := Nat.cast_pos.mpr hcount
  rw [SettleBucket.left]
  cases hlimit : bucket.limit with
  | infinity => simp [Limit.minus, Limit.clamp]
  | negativeInfinity => simp [Limit.minus, Limit.clamp]
  | number value =>
      simp only [Limit.minus, Limit.clamp, Limit.number.injEq, reduceCtorEq, or_false]
      constructor
      · intro hmax
        rcases max_choice 0 (value - (bucket.count : ℚ)) with hzero | hvalue
        · rw [← hmax, hzero]
        · linarith
      · rintro rfl
        exact max_eq_left (by linarith)

theorem minus_infinity_left (hlimit : bucket.limit = .infinity) : bucket.left = .infinity := by
  rw [SettleBucket.left, hlimit]
  rfl

theorem limit_of_left_infinity (hleft : (Limit.infinity).value ≤ bucket.left.value) :
    bucket.limit = .infinity := by
  rw [SettleBucket.left] at hleft
  cases hlimit : bucket.limit with
  | infinity => rfl
  | number value | negativeInfinity =>
      rw [hlimit] at hleft
      exact absurd (WithBot.coe_le_coe.mp hleft) (not_le.mpr (WithTop.coe_lt_top _))

/-- The whole of its limit is left to the tightest bucket only where nothing counts. -/
theorem bypass_describes_iff (hlimit : state.limit = minute.bucket.limit)
    (hremaining : state.remaining = minute.bucket.limit) :
    Describes ([minute, hour, day].map CheckedBucket.bucket) state.headers ↔
      CheckTells (some state) minute hour day fee := by
  have hcounted : ∀ bucket ∈ [minute, hour, day].map CheckedBucket.bucket, 0 < bucket.count := by
    intro bucket hbucket
    obtain ⟨checked, -, rfl⟩ := List.mem_map.mp hbucket
    exact checked.counted
  rw [describes_iff, CheckTells]
  simp only [LimiterState.headers, hlimit, hremaining]
  constructor
  · rintro ⟨⟨bucket, hbucket, hsame, hleft, hreset⟩, hleast⟩
    refine ⟨⟨bucket, hbucket, hsame, hreset⟩, ?_⟩
    rcases (left_eq_limit_iff (hcounted bucket hbucket)).mp (hleft.trans hsame.symm) with
      hzero | hinfinite
    · exact .inl (hsame ▸ hzero)
    · refine .inr fun other hother => limit_of_left_infinity ?_
      have hother' := hleast other hother
      rwa [← hsame, hinfinite] at hother'
  · rintro ⟨⟨bucket, hbucket, hsame, hreset⟩, hkind⟩
    rcases hkind with hzero | hinfinite
    · have hleft := (left_eq_limit_iff (hcounted bucket hbucket)).mpr (.inl (hsame.trans hzero))
      refine ⟨⟨bucket, hbucket, hsame, hleft.trans hsame, hreset⟩, fun other _ => ?_⟩
      rw [hzero]
      exact zero_le_left other
    · have hleft := (left_eq_limit_iff (hcounted bucket hbucket)).mpr
        (.inr (hinfinite bucket hbucket))
      refine ⟨⟨bucket, hbucket, hsame, hleft.trans hsame, hreset⟩, fun other hother => ?_⟩
      rw [minus_infinity_left (hinfinite other hother), ← hsame, hinfinite bucket hbucket]

/-- Nothing less is left in a bucket than in the one that decides. -/
theorem decisive_le (hfee : fee.allowed = false → fee.remaining = .number 0)
    {other : SettleBucket} (hother : other ∈ [minute, hour, day].map CheckedBucket.bucket) :
    (decisive minute.state hour.state day.state fee).remaining.value ≤ other.left.value := by
  obtain ⟨checked, hchecked, rfl⟩ := List.mem_map.mp hother
  have hstates : ∀ {state}, state ∈ [minute.state, hour.state, day.state] →
      ∃ checked ∈ [minute, hour, day], checked.state = state := fun hstate =>
    (List.mem_map (f := CheckedBucket.state) (l := [minute, hour, day])).mp hstate
  rw [decisive]
  cases hfind : [minute.state, hour.state, day.state].find? fun state => !state.allowed with
  | some state =>
      obtain ⟨refused, -, rfl⟩ := hstates (List.mem_of_find?_eq_some hfind)
      have hrefused : refused.state.allowed = false := by
        simpa using List.find?_some hfind
      rw [Option.getD_some, refused.refuses hrefused]
      exact zero_le_left _
  | none =>
      have hallowed : checked.state.allowed = true := by
        have hmem : checked.state ∈ [minute.state, hour.state, day.state] :=
          List.mem_map_of_mem (f := CheckedBucket.state) hchecked
        simpa using List.find?_eq_none.mp hfind _ hmem
      rw [Option.getD_none]
      split
      · rw [← checked.allows hallowed]
        exact leastOf_le (fun state : LimiterState => state.remaining.value) minute.state
          [hour.state, day.state] (List.mem_map_of_mem (f := CheckedBucket.state) hchecked)
      · next hrefused =>
          rw [hfee (Bool.not_eq_true _ ▸ hrefused)]
          exact zero_le_left _

/-- The headers of a check describe a bucket exactly under the condition. -/
theorem check_describes_iff {bypass : Option LimiterState}
    (hbypass : ∀ state ∈ bypass, state.limit = minute.bucket.limit ∧
      state.remaining = minute.bucket.limit)
    (hfee : fee.allowed = false → fee.remaining = .number 0)
    (hstate : state.headers = (decisive minute.state hour.state day.state fee).headers) :
    Describes ([minute, hour, day].map CheckedBucket.bucket) (bypass.getD state).headers ↔
      CheckTells bypass minute hour day fee := by
  cases bypass with
  | some bypassed =>
      obtain ⟨hlimit, hremaining⟩ := hbypass bypassed rfl
      exact bypass_describes_iff hlimit hremaining
  | none =>
      rw [Option.getD_none, hstate, describes_iff]
      exact and_iff_left fun other hother => decisive_le hfee hother

theorem decisive_infinite (hlimits : ∀ bucket ∈ [minute, hour, day].map CheckedBucket.bucket,
    bucket.limit = .infinity)
    (hallowed : (decisive minute.state hour.state day.state fee).allowed = true) :
    (decisive minute.state hour.state day.state fee).remaining = .infinity := by
  rw [decisive] at hallowed ⊢
  cases hfind : [minute.state, hour.state, day.state].find? fun state => !state.allowed with
  | some state =>
      have hrefused := List.find?_some hfind
      rw [hfind, Option.getD_some] at hallowed
      simp [hallowed] at hrefused
  | none =>
      rw [hfind, Option.getD_none] at hallowed
      rw [Option.getD_none]
      split
      · next hfee =>
          rw [if_pos hfee] at hallowed
          have hmem : tightestState minute.state hour.state day.state ∈
              [minute, hour, day].map CheckedBucket.state :=
            leastOf_mem (fun state : LimiterState => state.remaining.value) _ _
          obtain ⟨checked, hchecked, heq⟩ := List.mem_map.mp hmem
          rw [← heq] at hallowed ⊢
          rw [checked.allows hallowed,
            minus_infinity_left (hlimits _ (List.mem_map_of_mem hchecked))]
      · next hfee =>
          rw [if_neg hfee] at hallowed
          exact absurd hallowed hfee

end Checks

def Advertises (buckets : List SettleBucket) (reply : Option RateLimitReply) : Prop :=
  ∃ answered ∈ reply, Describes buckets answered.headers

section Headers

variable {buckets : List SettleBucket} {recorded check : LimiterState}

theorem advertises_check_iff (now : ℕ) :
    Advertises buckets (handleRateLimit [some check] now) ↔ Describes buckets check.headers := by
  have hchosen : chosenState [some check] = some check := by
    cases hfinite : check.remaining.isFinite <;> simp [chosenState, hfinite]
  rw [Advertises, handleRateLimit, hchosen]
  simp

/-- The state of the record is the one that is written. -/
theorem advertises_record_iff (now : ℕ)
    (hfinite : recorded.remaining.isFinite = false → check.remaining.isFinite = false) :
    Advertises buckets (handleRateLimit [some recorded, some check] now) ↔
      Describes buckets recorded.headers := by
  have hchosen : chosenState [some recorded, some check] = some recorded := by
    cases hrecorded : recorded.remaining.isFinite with
    | true => simp [chosenState, hrecorded]
    | false => simp [chosenState, hrecorded, hfinite hrecorded]
  rw [Advertises, handleRateLimit, hchosen]
  simp

/-- An allowance without bound is left only under limits without bound. -/
theorem limits_of_recorded {minute hour day : SeenBucket} {limits : MeteredLimits}
    (hminute : minute.bucket.limit = limits.settleRpm)
    (hhour : hour.bucket.limit = limits.settleRph) (hday : day.bucket.limit = limits.settleRpd)
    (hfinite : (recordedState limits minute.counted hour.counted
      day.counted).remaining.isFinite = false) :
    limits.settleRpm = .infinity ∧ limits.settleRph = .infinity ∧
      limits.settleRpd = .infinity := by
  have hclamp : ∀ {limit : Limit}, limit.clamp.isFinite = false → limit.clamp = .infinity := by
    intro limit hlimit
    cases limit with
    | number value => cases hlimit
    | infinity => rfl
    | negativeInfinity => cases hlimit
  have hlimit : ∀ seen ∈ [minute, hour, day], seen.bucket.limit = .infinity := by
    intro seen hseen
    have hleast := leastOf_le (fun seen : SeenBucket => seen.shown.value) minute [hour, day] hseen
    rw [recordedState_eq hminute hhour hday] at hfinite
    have hinfinite : (tightestSeen minute hour day).shown = .infinity := hclamp hfinite
    change (tightestSeen minute hour day).shown.value ≤ _ at hleast
    rw [hinfinite] at hleast
    let told : SettleBucket := { seen.bucket with count := seen.counted.count.getD 1 }
    have htold : told.limit = .infinity := limit_of_left_infinity hleast
    exact htold
  refine ⟨hminute ▸ hlimit minute ?_, hhour ▸ hlimit hour ?_, hday ▸ hlimit day ?_⟩
  · exact List.mem_cons_self
  · exact List.mem_cons_of_mem _ List.mem_cons_self
  · exact List.mem_cons_of_mem _ (List.mem_cons_of_mem _ List.mem_cons_self)

end Headers

section Judging

variable {limit : Limit} {count : ℕ} {resetAt : ResetAt}

theorem judge_limit (amount : ℕ) :
    (LimiterState.judge limit count amount resetAt).limit = limit := by
  rw [LimiterState.judge]
  split <;> rfl

theorem judge_refuses {amount : ℕ}
    (hrefused : (LimiterState.judge limit count amount resetAt).allowed = false) :
    (LimiterState.judge limit count amount resetAt).remaining = .number 0 := by
  rw [LimiterState.judge] at hrefused ⊢
  split at hrefused
  · cases hrefused
  · next hover => rw [if_neg hover]

/-- A judged count leaves what the bucket with the request in it does. -/
theorem judge_remaining {bucket : SettleBucket} (hlimit : bucket.limit = limit)
    (hcount : bucket.count = count + 1) :
    (LimiterState.judge limit count 1 resetAt).remaining = bucket.left := by
  rw [LimiterState.judge, SettleBucket.left, hlimit, hcount]
  split
  · next hadmits => exact (clamp_of_admits hadmits).symm
  · next hover => exact (clamp_of_not_admits hover).symm

end Judging

end X402Facilitator.RateLimit
