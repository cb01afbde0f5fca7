import Mathlib.Tactic.FieldSimp
import Mathlib.Tactic.Linarith
import Mathlib.Tactic.Positivity
import X402Facilitator.Library.JsText

/-!
# Arithmetic of doubles

A result is rounded to the nearest double, in a tie to the even one, and is infinite from
`2 ^ 1024` on.  No comparison holds of `NaN`.
-/

namespace X402Facilitator.Number

section Rounding

/-- A whole number of 53 bits, scaled by a power of two. -/
def OnGrid (value : ℚ) : Prop :=
  ∃ mantissa exponent : ℤ, |mantissa| < 2 ^ 53 ∧ -1074 ≤ exponent ∧
    value = mantissa * 2 ^ exponent

def IsDouble (value : ℚ) : Prop := OnGrid value ∧ |value| < 2 ^ 1024

variable {value grid : ℚ}

theorem floor_le_roundHalfEven (value : ℚ) : ⌊value⌋ ≤ roundHalfEven value := by
  rw [roundHalfEven]
  grind

theorem roundHalfEven_le_ceil (value : ℚ) : roundHalfEven value ≤ ⌈value⌉ := by
  have hceil : (value : ℚ) ≤ ⌈value⌉ := Int.le_ceil value
  rw [roundHalfEven]
  split
  · exact Int.floor_le_ceil value
  · next hhalf =>
      split
      · exact Int.floor_le_ceil value
      · have hlt : (⌊value⌋ : ℚ) < ⌈value⌉ := by linarith
        exact_mod_cast hlt

theorem quantum_pos (value : ℚ) : 0 < quantum value := zpow_pos (by norm_num) _

/-- Whole multiples of the distance stay where they are, also for the values between them. -/
theorem mul_quantum_le_rounded (count : ℤ) (hle : count * quantum value ≤ value) :
    count * quantum value ≤ rounded value := by
  have hcount : (count : ℚ) ≤ value / quantum value := (le_div_iff₀ (quantum_pos value)).mpr hle
  have hround : count ≤ roundHalfEven (value / quantum value) :=
    (Int.le_floor.mpr hcount).trans (floor_le_roundHalfEven _)
  exact mul_le_mul_of_nonneg_right (Int.cast_le.mpr hround) (quantum_pos value).le

theorem rounded_le_mul_quantum (count : ℤ) (hle : value ≤ count * quantum value) :
    rounded value ≤ count * quantum value := by
  have hcount : value / quantum value ≤ count := (div_le_iff₀ (quantum_pos value)).mpr hle
  have hround : roundHalfEven (value / quantum value) ≤ count :=
    (roundHalfEven_le_ceil _).trans (Int.ceil_le.mpr hcount)
  exact mul_le_mul_of_nonneg_right (Int.cast_le.mpr hround) (quantum_pos value).le

theorem rounded_zero : rounded 0 = 0 := by
  have hzero : roundHalfEven 0 = 0 := by simp [roundHalfEven]
  rw [rounded, zero_div, hzero, Int.cast_zero, zero_mul]

/-- A point of the grid is a multiple of the distance around a value, or closer to zero than the
least multiple of 53 bits, which the value is not. -/
theorem OnGrid.multiple_or_small (hgrid : OnGrid grid) (hvalue : value ≠ 0) :
    (∃ count : ℤ, grid = count * quantum value) ∨
      (|grid| < 2 ^ 52 * quantum value ∧ 2 ^ 52 * quantum value ≤ |value|) := by
  obtain ⟨mantissa, exponent, hmantissa, hexponent, rfl⟩ := hgrid
  by_cases hle : max (Int.log 2 |value| - 52) (-1074) ≤ exponent
  · refine .inl ⟨mantissa * 2 ^ (exponent - max (Int.log 2 |value| - 52) (-1074)).toNat, ?_⟩
    rw [quantum, Int.cast_mul, Int.cast_pow, Int.cast_ofNat, mul_assoc, ← zpow_natCast,
      ← zpow_add₀ (by norm_num), Int.toNat_of_nonneg (by omega), sub_add_cancel]
  · right
    have hmax : max (Int.log 2 |value| - 52) (-1074) = Int.log 2 |value| - 52 := by omega
    have hquantum : (2 : ℚ) ^ 52 * quantum value = 2 ^ Int.log 2 |value| := by
      rw [quantum, hmax, ← zpow_natCast, ← zpow_add₀ (by norm_num)]
      congr 1
      push_cast
      ring
    have hpow : (2 : ℚ) ^ Int.log 2 |value| ≤ |value| := by
      exact_mod_cast Int.zpow_log_le_self (b := 2) one_lt_two (abs_pos.mpr hvalue)
    refine ⟨?_, hquantum ▸ hpow⟩
    have hcast : |(mantissa : ℚ)| < 2 ^ 53 := by exact_mod_cast hmantissa
    have hexp : exponent + 1 ≤ Int.log 2 |value| - 52 := by omega
    rw [abs_mul, abs_of_pos (zpow_pos (by norm_num : (0 : ℚ) < 2) exponent), hquantum]
    calc |(mantissa : ℚ)| * 2 ^ exponent < 2 ^ 53 * 2 ^ exponent :=
          mul_lt_mul_of_pos_right hcast (zpow_pos (by norm_num) _)
      _ = 2 ^ (exponent + 1 + 52) := by
          rw [← zpow_natCast, ← zpow_add₀ (by norm_num)]
          congr 1
          push_cast
          ring
      _ ≤ 2 ^ Int.log 2 |value| := zpow_le_zpow_right₀ (by norm_num) (by omega)

/-- A rounded value does not pass a point of the grid. -/
theorem OnGrid.le_rounded (hgrid : OnGrid grid) (hle : grid ≤ value) : grid ≤ rounded value := by
  rcases eq_or_ne value 0 with rfl | hvalue
  · rwa [rounded_zero]
  rcases hgrid.multiple_or_small hvalue with ⟨count, rfl⟩ | ⟨hsmall, hlarge⟩
  · exact mul_quantum_le_rounded count hle
  · have hpos : 0 ≤ value := by
      by_contra hneg
      rw [abs_of_neg (not_le.mp hneg)] at hlarge
      rw [abs_of_neg (hle.trans_lt (not_le.mp hneg))] at hsmall
      linarith
    rw [abs_of_nonneg hpos] at hlarge
    have hround : ((2 ^ 52 : ℤ) : ℚ) * quantum value ≤ rounded value :=
      mul_quantum_le_rounded (2 ^ 52) (by push_cast; exact hlarge)
    push_cast at hround
    exact (le_abs_self grid).trans (hsmall.le.trans hround)

theorem OnGrid.rounded_le (hgrid : OnGrid grid) (hle : value ≤ grid) : rounded value ≤ grid := by
  rcases eq_or_ne value 0 with rfl | hvalue
  · rwa [rounded_zero]
  rcases hgrid.multiple_or_small hvalue with ⟨count, rfl⟩ | ⟨hsmall, hlarge⟩
  · exact rounded_le_mul_quantum count hle
  · have hneg : value ≤ 0 := by
      by_contra hpos
      rw [abs_of_pos (not_le.mp hpos)] at hlarge
      rw [abs_of_pos ((not_le.mp hpos).trans_le hle)] at hsmall
      linarith
    rw [abs_of_nonpos hneg] at hlarge
    have hround : rounded value ≤ ((-2 ^ 52 : ℤ) : ℚ) * quantum value :=
      rounded_le_mul_quantum (-2 ^ 52) (by push_cast; linarith)
    push_cast at hround
    have habs := neg_abs_le grid
    linarith

theorem OnGrid.rounded_eq (hgrid : OnGrid grid) : rounded grid = grid :=
  le_antisymm (hgrid.rounded_le le_rfl) (hgrid.le_rounded le_rfl)

theorem OnGrid.mul_pow (hgrid : OnGrid grid) (count : ℕ) : OnGrid (grid * 2 ^ count) := by
  obtain ⟨mantissa, exponent, hmantissa, hexponent, rfl⟩ := hgrid
  refine ⟨mantissa, exponent + count, hmantissa, by omega, ?_⟩
  rw [zpow_add₀ (by norm_num), zpow_natCast, mul_assoc]

theorem onGrid_intCast (whole : ℤ) (hwhole : |whole| < 2 ^ 53) : OnGrid whole :=
  ⟨whole, 0, hwhole, by norm_num, by rw [zpow_zero, mul_one]⟩

theorem onGrid_pow (count : ℕ) : OnGrid (2 ^ count) := by
  have hone := (onGrid_intCast 1 (by norm_num)).mul_pow count
  rwa [Int.cast_one, one_mul] at hone

theorem isDouble_intCast (whole : ℤ) (hwhole : |whole| < 2 ^ 53) : IsDouble whole := by
  refine ⟨onGrid_intCast whole hwhole, ?_⟩
  have hcast : |(whole : ℚ)| < 2 ^ 53 := by exact_mod_cast hwhole
  exact hcast.trans (pow_lt_pow_right₀ (by norm_num) (by norm_num))

theorem isDouble_zero : IsDouble 0 := by
  have hzero := isDouble_intCast 0 (by norm_num)
  rwa [Int.cast_zero] at hzero

theorem nearest_of_isDouble (hdouble : IsDouble value) : nearest value = .finite value := by
  rw [nearest, hdouble.1.rounded_eq, if_neg (not_le.mpr hdouble.2)]

/-- The values from `2 ^ 1024` on overflow. -/
theorem nearest_of_le (hle : 2 ^ 1024 ≤ value) : nearest value = .infinity false := by
  have hround := (onGrid_pow 1024).le_rounded hle
  have hnonneg : ¬ value < 0 := not_lt.mpr (le_trans (by positivity) hle)
  rw [nearest, if_pos (hround.trans (le_abs_self _)), decide_eq_false hnonneg]

end Rounding

section Order

/-- `<=` -/
def le : Number → Number → Prop
  | nan, _ => False
  | _, nan => False
  | infinity negative, other => negative = true ∨ other = .infinity false
  | finite _, infinity negative => negative = false
  | finite a, finite b => a ≤ b

instance : LE Number := ⟨le⟩

instance : LT Number := ⟨fun a b => a ≤ b ∧ ¬ b ≤ a⟩

instance (a b : Number) : Decidable (a ≤ b) :=
  match a, b with
  | nan, _ => .isFalse id
  | infinity _, nan => .isFalse id
  | finite _, nan => .isFalse id
  | infinity negative, infinity other =>
      inferInstanceAs (Decidable (negative = true ∨ infinity other = .infinity false))
  | infinity negative, finite value =>
      inferInstanceAs (Decidable (negative = true ∨ finite value = .infinity false))
  | finite _, infinity negative => inferInstanceAs (Decidable (negative = false))
  | finite a, finite b => inferInstanceAs (Decidable (a ≤ b))

instance (a b : Number) : Decidable (a < b) := inferInstanceAs (Decidable (a ≤ b ∧ ¬ b ≤ a))

def min (a b : Number) : Number :=
  if a = .nan ∨ b = .nan then .nan else if a ≤ b then a else b

variable {a b : Number} {x y : ℚ}

@[simp]
theorem finite_le_finite : finite x ≤ finite y ↔ x ≤ y := Iff.rfl

@[simp]
theorem finite_lt_finite : finite x < finite y ↔ x < y := by
  change x ≤ y ∧ ¬ y ≤ x ↔ x < y
  rw [lt_iff_le_not_ge]

theorem le_of_not_lt (ha : a ≠ .nan) (hnot : ¬ finite x < a) : a ≤ finite x := by
  by_contra hle
  refine hnot ⟨?_, hle⟩
  cases a with
  | nan => exact absurd rfl ha
  | infinity negative =>
      cases negative with
      | true => exact absurd (Or.inl rfl) hle
      | false => rfl
  | finite value => exact (not_le.mp (mt finite_le_finite.mpr hle)).le

@[simp]
theorem not_le_nan : ¬ a ≤ nan := by
  cases a <;> exact id

@[simp]
theorem finite_le_infinity {negative : Bool} :
    finite x ≤ infinity negative ↔ negative = false := Iff.rfl

@[simp]
theorem infinity_le_finite {negative : Bool} :
    infinity negative ≤ finite x ↔ negative = true :=
  ⟨fun hor => hor.elim id (fun heq => by cases heq), .inl⟩

@[simp]
theorem min_finite : min (finite x) (finite y) = finite (x ⊓ y) := by
  by_cases hle : x ≤ y
  · simp [min, hle]
  · simp [min, hle, (not_le.mp hle).le]

@[simp]
theorem min_infinity {negative : Bool} :
    min (finite x) (infinity negative) = if negative then .infinity true else .finite x := by
  cases negative <;> simp [min]

@[simp]
theorem min_nan : min a nan = nan := by simp [min]

end Order

section Operations

/-- `+` -/
def add : Number → Number → Number
  | nan, _ => .nan
  | _, nan => .nan
  | infinity negative, infinity other => if negative = other then .infinity negative else .nan
  | infinity negative, finite _ => .infinity negative
  | finite _, infinity negative => .infinity negative
  | finite a, finite b => nearest (a + b)

/-- `*` -/
def mul : Number → Number → Number
  | nan, _ => .nan
  | _, nan => .nan
  | infinity negative, infinity other => .infinity (negative ^^ other)
  | infinity negative, finite b =>
      if b = 0 then .nan else .infinity (negative ^^ decide (b < 0))
  | finite a, infinity negative =>
      if a = 0 then .nan else .infinity (decide (a < 0) ^^ negative)
  | finite a, finite b => nearest (a * b)

/-- `/` of a positive divisor -/
def div (number : Number) (divisor : ℚ) : Number :=
  match number with
  | finite value => nearest (value / divisor)
  | number => number

def floor : Number → Number
  | finite value => .finite ⌊value⌋
  | number => number

def ceil : Number → Number
  | finite value => .finite ⌈value⌉
  | number => number

def shift (offset : ℤ) : Number → Number
  | finite value => .finite (value + offset)
  | number => number

/-- `2 ** exponent` -/
def twoPow (exponent : ℕ) : Number :=
  if exponent < 1024 then .finite (2 ^ exponent) else .infinity false

variable {a b : Number} {x y : ℚ}

theorem nearest_ne_nan (x : ℚ) : nearest x ≠ .nan := by
  rw [nearest]
  split <;> simp

/-- A double is not passed by the rounding of what lies above it. -/
theorem le_nearest (hdouble : IsDouble x) (hle : x ≤ y) : finite x ≤ nearest y := by
  have hround := hdouble.1.le_rounded hle
  rw [nearest]
  split
  · next hlarge =>
      rw [finite_le_infinity, decide_eq_false_iff_not, not_lt]
      by_contra hneg
      have hneg' := not_le.mp hneg
      have hzero := isDouble_zero.1.rounded_le hneg'.le
      rw [abs_of_nonpos hzero] at hlarge
      have hlow := (abs_lt.mp hdouble.2).1
      exact absurd (hlow.trans_le hround) (not_lt.mpr (le_neg.mp hlarge))
  · exact hround

theorem nearest_le (hdouble : IsDouble y) (hle : x ≤ y) : nearest x ≤ finite y := by
  have hround := hdouble.1.rounded_le hle
  rw [nearest]
  split
  · next hlarge =>
      rw [infinity_le_finite, decide_eq_true_eq]
      by_contra hpos
      have hzero := isDouble_zero.1.le_rounded (not_lt.mp hpos)
      rw [abs_of_nonneg hzero] at hlarge
      exact absurd (hround.trans_lt (abs_lt.mp hdouble.2).2) (not_lt.mpr hlarge)
  · exact hround

/-- What is added to a double does not make it smaller. -/
theorem le_add (hdouble : IsDouble x) (hb : finite 0 ≤ b) : finite x ≤ add (finite x) b := by
  cases b with
  | nan => exact absurd hb not_le_nan
  | infinity negative => exact hb
  | finite y => exact le_nearest hdouble (le_add_of_nonneg_right hb)

/-- What is divided, rounded up and shifted is finite only if the quotient is. -/
theorem finite_of_shift_ceil {offset : ℤ} (heq : shift offset (ceil a) = finite x) :
    ∃ y, a = finite y := by
  cases a with
  | nan | infinity => cases heq
  | finite value => exact ⟨value, rfl⟩

theorem floor_nonneg (ha : finite 0 ≤ a) : finite 0 ≤ floor a := by
  cases a with
  | nan => exact ha
  | infinity negative => exact ha
  | finite value =>
      rw [floor, finite_le_finite] at *
      exact_mod_cast Int.floor_nonneg.mpr ha

end Operations

end X402Facilitator.Number
