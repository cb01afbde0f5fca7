import Mathlib.Data.Rat.Cast.Order
import Mathlib.Tactic.Linarith
import X402Facilitator.Library.Decimals

/-!
# Amounts in base units

An amount is turned into base units digit by digit, and formatted from them by slices
counted from the end.  Such a slice is empty for an asset without decimals, and for a short
amount it is taken from the wrong end.
-/

namespace X402Facilitator.Assets

inductive Amount where
  | bigint (value : ℤ)
  | text (value : Text)
  deriving DecidableEq

def Amount.toText : Amount → Text
  | bigint value => printInt value
  | text value => value

/-- The place in a text of an argument of `slice`, which counts from the end where it is
negative. -/
def sliceIndex (length : ℕ) (index : ℤ) : ℕ :=
  if index < 0 then (length + index).toNat else min index.toNat length

/-- `slice(0, stop)`. -/
def sliceTo (stop : ℤ) (text : Text) : Text := text.take (sliceIndex text.length stop)

/-- `slice(start)`. -/
def sliceFrom (start : ℤ) (text : Text) : Text := text.drop (sliceIndex text.length start)

/-- `toBaseUnits` of an asset with these decimals, none for a `SyntaxError`. -/
def toBaseUnits (decimals : ℕ) : Amount → Option Text
  | .bigint value => some (printInt value)
  | .text value =>
      let parts := value.splitOn '.'
      let intPart := parts.headD []
      let fracPart := parts.tail.headD []
      let sign := signText ('-' ∈ intPart.head?)
      let cleanInt := (cutSign intPart).2
      let paddedFrac := (fracPart.take decimals).rightpad decimals '0'
      (bigIntOfText (cleanInt ++ paddedFrac)).map fun units => sign ++ printInt units

/-- `fromBaseUnits`, with none for decimals that are not a number. -/
def fromBaseUnits (baseUnits : Amount) (assetDecimals : Option ℕ) : Text :=
  let decimals := assetDecimals.getD 7
  let str := baseUnits.toText
  let sign := signText ('-' ∈ str.head?)
  let clean := if '-' ∈ str.head? then str.tail else str
  if clean.length ≤ decimals then
    let padded := clean.leftpad (decimals + 1) '0'
    sign ++ '0' :: '.' :: sliceTo (-decimals) padded
  else
    let intPart := sliceTo (-decimals) clean
    let stripped := stripZeros (sliceFrom (-decimals) clean)
    sign ++ (intPart ++ '.' :: if stripped.isEmpty then ['0'] else stripped)

section Formatter

variable {negative : Bool} {decimals units : ℕ}

theorem sliceTo_neg_zero (text : Text) : sliceTo (-(0 : ℕ)) text = [] := by
  simp [sliceTo, sliceIndex]

theorem sliceFrom_neg_zero (text : Text) : sliceFrom (-(0 : ℕ)) text = text := by
  simp [sliceFrom, sliceIndex]

theorem sliceIndex_neg (length : ℕ) (hdecimals : 0 < decimals) :
    sliceIndex length (-decimals) = length - decimals := by
  rw [sliceIndex, if_pos (by omega)]
  omega

def unitsText (negative : Bool) (units : ℕ) : Text :=
  signText negative ++ Nat.toDigits 10 units

theorem toDigits_head_ne (units : ℕ) : '-' ∉ (Nat.toDigits 10 units).head? := by
  intro hmem
  exact (isDigits_toDigits units).notMem (by decide) (List.mem_of_head? hmem)

theorem unitsText_head (negative : Bool) (units : ℕ) :
    ('-' ∈ (unitsText negative units).head?) = (negative = true) := by
  cases negative with
  | true => simp [unitsText, signText]
  | false => simpa [unitsText, signText] using toDigits_head_ne units

theorem clean_unitsText (negative : Bool) (units : ℕ) :
    (if negative = true then (unitsText negative units).tail else unitsText negative units) =
      Nat.toDigits 10 units := by
  cases negative <;> rfl

/-- What the formatter gives for base units as they are written. -/
theorem fromBaseUnits_unitsText (negative : Bool) (units decimals : ℕ) :
    fromBaseUnits (.text (unitsText negative units)) (some decimals) =
      signText negative ++ (
        if (Nat.toDigits 10 units).length ≤ decimals then
          '0' :: '.' :: sliceTo (-decimals) ((Nat.toDigits 10 units).leftpad (decimals + 1) '0')
        else
          sliceTo (-decimals) (Nat.toDigits 10 units) ++ '.' ::
            if (stripZeros (sliceFrom (-decimals) (Nat.toDigits 10 units))).isEmpty then ['0']
            else stripZeros (sliceFrom (-decimals) (Nat.toDigits 10 units))) := by
  rw [fromBaseUnits]
  simp only [Amount.toText, Option.getD_some, unitsText_head, clean_unitsText, Bool.decide_eq_true]
  split <;> rfl

/-- An amount below one unit loses its digits. -/
theorem fromBaseUnits_short (hshort : (Nat.toDigits 10 units).length ≤ decimals) :
    fromBaseUnits (.text (unitsText negative units)) (some decimals) =
      signText negative ++ ['0', '.', '0'] := by
  have hpositive : 0 < (Nat.toDigits 10 units).length := Nat.length_toDigits_pos
  obtain ⟨missing, hmissing⟩ : ∃ missing,
      decimals + 1 - (Nat.toDigits 10 units).length = missing + 1 :=
    ⟨decimals - (Nat.toDigits 10 units).length, by omega⟩
  have hpadded : (Nat.toDigits 10 units).leftpad (decimals + 1) '0' =
      '0' :: (List.replicate missing '0' ++ Nat.toDigits 10 units) := by
    rw [List.leftpad, hmissing, List.replicate_succ, List.cons_append]
  have hlength : ('0' :: (List.replicate missing '0' ++ Nat.toDigits 10 units)).length -
      decimals = 1 := by
    rw [List.length_cons, List.length_append, List.length_replicate]
    omega
  rw [fromBaseUnits_unitsText, if_pos hshort, hpadded, sliceTo,
    sliceIndex_neg _ (by omega), hlength]
  rfl

/-- An asset without decimals has all digits after the point. -/
theorem fromBaseUnits_no_decimals :
    fromBaseUnits (.text (unitsText negative units)) (some 0) = signText negative ++ '.' ::
      if (stripZeros (Nat.toDigits 10 units)).isEmpty then ['0']
      else stripZeros (Nat.toDigits 10 units) := by
  have hlong : ¬ (Nat.toDigits 10 units).length ≤ 0 := not_le.mpr Nat.length_toDigits_pos
  rw [fromBaseUnits_unitsText, if_neg hlong, sliceTo_neg_zero, sliceFrom_neg_zero]
  rfl

/-- The last digits of an amount, as they are shown. -/
theorem exists_fraction {digits : Text} (hdigits : IsDigits digits) (hsome : digits ≠ []) :
    ∃ fraction, (if (stripZeros digits).isEmpty then ['0'] else stripZeros digits) = fraction ∧
      IsDigits fraction ∧ fraction ≠ [] ∧ fraction.length ≤ digits.length ∧
      fraction.rightpad digits.length '0' = digits := by
  have hpositive := List.length_pos_iff.mpr hsome
  have hpadded := rightpad_stripZeros digits
  refine ⟨_, rfl, ?_⟩
  cases hstripped : stripZeros digits with
  | nil =>
      refine ⟨by simpa [IsDigits] using by decide, List.cons_ne_nil _ _, hpositive, ?_⟩
      rw [hstripped] at hpadded
      obtain ⟨count, hcount⟩ := Nat.exists_eq_add_of_le hpositive
      rw [← hpadded, List.rightpad, List.rightpad, List.length_append, List.length_replicate]
      simp [hcount, List.replicate_add]
  | cons c rest =>
      have hlength := length_stripZeros_le digits
      have hvalid := hdigits.stripZeros
      rw [hstripped] at hpadded hlength hvalid
      exact ⟨hvalid, List.cons_ne_nil c rest, hlength, hpadded⟩

end Formatter

section Back

variable {negative : Bool} {decimals units : ℕ} {sign whole value : Text}

def Shown (decimals units : ℕ) : Prop := units = 0 ∨ 1 ≤ decimals ∧ 10 ^ decimals ≤ units

theorem toBaseUnits_of_parts (decimals : ℕ) (rest : List Text) (hsign : sign ∈ [[], ['+'], ['-']])
    (hwhole : IsDigits whole) (hfraction : IsDigits (rest.headD []))
    (hparts : value.splitOn '.' = (sign ++ whole) :: rest) :
    toBaseUnits decimals (.text value) = some (unitsText (sign = ['-'])
      (numeralValue 10 (whole ++ ((rest.headD []).take decimals).rightpad decimals '0'))) := by
  have hhead := hwhole.head_ne [] (by simp)
  rw [List.append_nil] at hhead
  have hdigits := hwhole.append ((hfraction.take decimals).rightpad decimals)
  have hclean : (cutSign (sign ++ whole)).2 = whole ∧
      decide ('-' ∈ (sign ++ whole).head?) = decide (sign = ['-']) := by
    simp only [List.mem_cons, List.not_mem_nil, or_false] at hsign
    rcases hsign with rfl | rfl | rfl
    · refine ⟨by rw [List.nil_append, cutSign_of_head hhead], ?_⟩
      rw [decide_eq_decide, List.nil_append]
      exact ⟨fun hmem => absurd rfl (hhead '-' hmem).1, fun h => absurd h (by decide)⟩
    · exact ⟨rfl, rfl⟩
    · exact ⟨rfl, rfl⟩
  rw [toBaseUnits]
  simp only [hparts, List.headD_cons, List.tail_cons, hclean.1, hclean.2,
    bigIntOfText_of_isDigits hdigits, Option.map_some]
  rfl

theorem toBaseUnits_point {fraction : Text} (hwhole : IsDigits whole)
    (hfraction : IsDigits fraction) :
    toBaseUnits decimals (.text (signText negative ++ (whole ++ '.' :: fraction))) =
      some (unitsText negative
        (numeralValue 10 (whole ++ (fraction.take decimals).rightpad decimals '0'))) := by
  have hpoint : '.' ∉ signText negative ++ whole := by
    rw [List.mem_append, not_or]
    refine ⟨?_, hwhole.notMem (by decide)⟩
    cases negative <;> decide
  have hsplit : (signText negative ++ (whole ++ '.' :: fraction)).splitOn '.' =
      [signText negative ++ whole, fraction] := by
    rw [← List.append_assoc, List.splitOn_append_cons_self_of_not_mem hpoint,
      List.splitOn_eq_singleton (hfraction.notMem (by decide))]
  have hunits := toBaseUnits_of_parts decimals [fraction]
    (by cases negative <;> decide) hwhole hfraction hsplit
  rw [hunits]
  cases negative <;> rfl

/-- What is shown as it is: digits, a point and digits, which are the units. -/
theorem exists_parts (hshown : Shown decimals units) : ∃ whole fraction, IsDigits whole ∧
    IsDigits fraction ∧ whole ++ fraction ≠ [] ∧
    numeralValue 10 (whole ++ (fraction.take decimals).rightpad decimals '0') = units ∧
    (numeralValue 10 (whole ++ fraction) : ℚ) / 10 ^ fraction.length = units / 10 ^ decimals ∧
    ∀ negative, fromBaseUnits (.text (unitsText negative units)) (some decimals) =
      signText negative ++ (whole ++ '.' :: fraction) := by
  have hzeros : ∀ n, IsDigits (List.replicate n '0') := isDigits_zeros
  by_cases hshort : (Nat.toDigits 10 units).length ≤ decimals
  · have hpositive : 0 < decimals := Nat.length_toDigits_pos.trans_le hshort
    have hzero : units = 0 := by
      rcases hshown with hzero | ⟨-, hlarge⟩
      · exact hzero
      · exact absurd ((Nat.length_toDigits_le_iff (by decide) hpositive).mp hshort)
          (not_lt.mpr hlarge)
    subst hzero
    refine ⟨['0'], ['0'], hzeros 1, hzeros 1, List.cons_ne_nil _ _, ?_, ?_,
      fun negative => fromBaseUnits_short hshort⟩
    · have hone : (['0'] : Text).take decimals = ['0'] := List.take_of_length_le hpositive
      have hzero := numeralValue_append_zeros ['0', '0'] (decimals - 1)
      rw [show numeralValue 10 ['0', '0'] = 0 from rfl, zero_mul] at hzero
      rw [hone]
      exact hzero
    · simp [numeralValue, digitValue]
  · rcases Nat.eq_zero_or_pos decimals with hnone | hpositive
    · subst hnone
      have hzero : units = 0 := by
        rcases hshown with hzero | ⟨hone, -⟩
        · exact hzero
        · exact absurd hone (by decide)
      subst hzero
      exact ⟨[], ['0'], hzeros 0, hzeros 1, List.cons_ne_nil _ _, rfl, by
        simp [numeralValue, digitValue], fun negative => fromBaseUnits_no_decimals⟩
    · have hdigits := isDigits_toDigits units
      have hlength : ((Nat.toDigits 10 units).drop
          ((Nat.toDigits 10 units).length - decimals)).length = decimals := by
        rw [List.length_drop]
        omega
      have hsome : (Nat.toDigits 10 units).drop
          ((Nat.toDigits 10 units).length - decimals) ≠ [] := by
        rw [← List.length_pos_iff, hlength]
        exact hpositive
      obtain ⟨fraction, hfraction, hvalid, hne, hle, hpadded⟩ :=
        exists_fraction (hdigits.drop _) hsome
      rw [hlength] at hle hpadded
      have hunits : numeralValue 10 ((Nat.toDigits 10 units).take
          ((Nat.toDigits 10 units).length - decimals) ++ fraction.rightpad decimals '0') =
          units := by
        rw [hpadded, List.take_append_drop, numeralValue_toDigits]
      refine ⟨(Nat.toDigits 10 units).take ((Nat.toDigits 10 units).length - decimals), fraction,
        hdigits.take _, hvalid, List.append_ne_nil_of_right_ne_nil _ hne, ?_, ?_,
        fun negative => ?_⟩
      · rw [List.take_of_length_le hle, hunits]
      · rw [← numeralValue_rightpad_div hle, hunits]
      · rw [fromBaseUnits_unitsText, if_neg hshort, sliceTo, sliceFrom,
          sliceIndex_neg _ hpositive, hfraction]

/-- Base units are shown with their own value exactly where they keep their digits. -/
theorem decimalValue_fromBaseUnits (negative : Bool) (decimals units : ℕ) :
    decimalValue (fromBaseUnits (.text (unitsText negative units)) (some decimals)) =
      some (withSign negative (units / 10 ^ decimals)) ↔ Shown decimals units := by
  constructor
  · intro hvalue
    by_contra hnot
    have hunits : units ≠ 0 := fun hzero => hnot (.inl hzero)
    have hpower : (0 : ℚ) < 10 ^ decimals := by positivity
    by_cases hshort : (Nat.toDigits 10 units).length ≤ decimals
    · have hzero : decimalValue (signText negative ++ ['0', '.', '0']) =
          some (withSign negative 0) := by
        have hpoint := decimalValue_point negative (isDigits_zeros 1) (isDigits_zeros 1)
          (List.cons_ne_nil _ _)
        refine hpoint.trans ?_
        simp [numeralValue, digitValue]
      rw [fromBaseUnits_short hshort, hzero] at hvalue
      have heq := withSign_injective negative (Option.some.inj hvalue)
      have hcast := (div_eq_zero_iff.mp heq.symm).resolve_right hpower.ne'
      exact hunits (Nat.cast_eq_zero.mp hcast)
    · have hnone : decimals = 0 := by
        by_contra hdecimals
        have hlarge := mt (Nat.length_toDigits_le_iff (b := 10) (n := units) (by decide)
          (Nat.pos_of_ne_zero hdecimals)).mpr hshort
        exact hnot (.inr ⟨Nat.pos_of_ne_zero hdecimals, not_lt.mp hlarge⟩)
      subst hnone
      obtain ⟨fraction, hfraction, hvalid, hne, -, -⟩ :=
        exists_fraction (isDigits_toDigits units) Nat.toDigits_ne_nil
      have hnone : IsDigits [] := isDigits_zeros 0
      rw [fromBaseUnits_no_decimals, hfraction, ← List.nil_append ('.' :: fraction),
        decimalValue_point negative hnone hvalid hne] at hvalue
      have heq := withSign_injective negative (Option.some.inj hvalue)
      have hlt : (numeralValue 10 fraction : ℚ) / 10 ^ fraction.length < 1 := by
        rw [div_lt_one (by positivity)]
        exact_mod_cast numeralValue_lt hvalid
      have hone : (1 : ℚ) ≤ units := by exact_mod_cast Nat.one_le_iff_ne_zero.mpr hunits
      rw [List.nil_append, pow_zero, div_one] at heq
      linarith
  · intro hshown
    obtain ⟨whole, fraction, hwhole, hfraction, hsome, -, hvalue, hshape⟩ := exists_parts hshown
    rw [hshape, decimalValue_point negative hwhole hfraction hsome, hvalue]

/-- What is shown as it is, is read back. -/
theorem toBaseUnits_fromBaseUnits (hshown : Shown decimals units) (negative : Bool) :
    toBaseUnits decimals (.text (fromBaseUnits (.text (unitsText negative units))
      (some decimals))) = some (unitsText negative units) := by
  obtain ⟨whole, fraction, hwhole, hfraction, -, hunits, -, hshape⟩ := exists_parts hshown
  rw [hshape, toBaseUnits_point hwhole hfraction, hunits]

end Back

/-- A decimal numeral with no more places than an asset has. -/
structure DecimalUpTo (decimals : ℕ) extends Decimal where
  bounded : toDecimal.places.length ≤ decimals

/-- An integer is shown as what it denotes, and read back. -/
def ConvertsInteger (decimals : ℕ) (n : ℤ) : Prop :=
  decimalValue (fromBaseUnits (.bigint n) (some decimals)) = some ((n : ℚ) / 10 ^ decimals) ∧
    toBaseUnits decimals (.text (fromBaseUnits (.bigint n) (some decimals))) = some (printInt n)

/-- A numeral that is turned into base units is shown with its value. -/
def ConvertsDecimal {decimals : ℕ} (amount : DecimalUpTo decimals) : Prop :=
  ∃ units, toBaseUnits decimals (.text amount.text) = some units ∧
    decimalValue (fromBaseUnits (.text units) (some decimals)) = some amount.value

theorem convertsInteger_iff (decimals : ℕ) (n : ℤ) :
    ConvertsInteger decimals n ↔ Shown decimals n.natAbs := by
  have hvalue : (n : ℚ) / 10 ^ decimals = withSign (n < 0) (n.natAbs / 10 ^ decimals) := by
    rw [Nat.cast_natAbs, withSign]
    split
    · next hneg =>
        rw [abs_of_neg (of_decide_eq_true hneg), Int.cast_neg, neg_div, neg_neg]
    · next hpos =>
        rw [abs_of_nonneg (not_lt.mp fun hneg => hpos (decide_eq_true hneg))]
  rw [ConvertsInteger, hvalue]
  constructor
  · intro hconverts
    exact (decimalValue_fromBaseUnits _ decimals n.natAbs).mp hconverts.1
  · intro hshown
    exact ⟨(decimalValue_fromBaseUnits _ decimals n.natAbs).mpr hshown,
      toBaseUnits_fromBaseUnits hshown _⟩

def Decimal.units (decimals : ℕ) (amount : Decimal) : ℕ :=
  numeralValue 10 (amount.whole ++ (amount.places.take decimals).rightpad decimals '0')

theorem toBaseUnits_text (decimals : ℕ) (amount : Decimal) :
    toBaseUnits decimals (.text amount.text) =
      some (unitsText amount.isNegative (Decimal.units decimals amount)) := by
  obtain ⟨rest, hparts, hplaces⟩ := amount.splitOn_text
  have hunits := toBaseUnits_of_parts decimals rest amount.sign_valid amount.isDigits_whole
    (hplaces ▸ amount.isDigits_places) hparts
  rwa [hplaces] at hunits

theorem value_eq {decimals : ℕ} (amount : DecimalUpTo decimals) :
    amount.value = withSign amount.isNegative
      (Decimal.units decimals amount.toDecimal / 10 ^ decimals) := by
  rw [Decimal.value, Decimal.units, List.take_of_length_le amount.bounded,
    numeralValue_rightpad_div amount.bounded]

theorem convertsDecimal_iff {decimals : ℕ} (amount : DecimalUpTo decimals) :
    ConvertsDecimal amount ↔ Shown decimals (Decimal.units decimals amount.toDecimal) := by
  rw [ConvertsDecimal, toBaseUnits_text, value_eq]
  constructor
  · rintro ⟨units, hunits, hvalue⟩
    obtain rfl := Option.some.inj hunits
    exact (decimalValue_fromBaseUnits _ _ _).mp hvalue
  · intro hshown
    exact ⟨_, rfl, (decimalValue_fromBaseUnits _ _ _).mpr hshown⟩

theorem shown_natAbs (decimals : ℕ) (n : ℤ) :
    Shown decimals n.natAbs ↔ n = 0 ∨ 1 ≤ decimals ∧ 10 ^ decimals ≤ |n| := by
  have habs : |n| = n.natAbs := Int.abs_eq_natAbs n
  rw [Shown, Int.natAbs_eq_zero, habs]
  norm_cast

theorem shown_units {decimals : ℕ} (amount : DecimalUpTo decimals) :
    Shown decimals (Decimal.units decimals amount.toDecimal) ↔
      amount.value = 0 ∨ 1 ≤ decimals ∧ 1 ≤ |amount.value| := by
  have hpower : (0 : ℚ) < 10 ^ decimals := by positivity
  have hnonneg : (0 : ℚ) ≤ Decimal.units decimals amount.toDecimal / 10 ^ decimals := by
    positivity
  have habs : |amount.value| = Decimal.units decimals amount.toDecimal / 10 ^ decimals := by
    rw [value_eq, withSign]
    split
    · rw [abs_neg, abs_of_nonneg hnonneg]
    · exact abs_of_nonneg hnonneg
  rw [Shown, ← abs_eq_zero, habs, div_eq_zero_iff, or_iff_left hpower.ne', one_le_div hpower]
  norm_cast

/-- Integers and numerals go there and back exactly where the formatter keeps their digits:
at zero, and from one whole unit of an asset that has decimals. -/
theorem conversions_roundTrip (decimals : ℕ) :
    (∀ n : ℤ, ConvertsInteger decimals n ↔ n = 0 ∨ 1 ≤ decimals ∧ 10 ^ decimals ≤ |n|) ∧
      ∀ amount : DecimalUpTo decimals, ConvertsDecimal amount ↔
        amount.value = 0 ∨ 1 ≤ decimals ∧ 1 ≤ |amount.value| :=
  ⟨fun n => (convertsInteger_iff decimals n).trans (shown_natAbs decimals n),
    fun amount => (convertsDecimal_iff amount).trans (shown_units amount)⟩

/-- Five of the least units of an asset with seven decimals are shown as `0.0`. -/
theorem not_conversions_roundTrip :
    ¬ ((∀ decimals n, ConvertsInteger decimals n) ∧
      ∀ decimals (amount : DecimalUpTo decimals), ConvertsDecimal amount) := by
  rintro ⟨hinteger, -⟩
  have hshown := (convertsInteger_iff 7 5).mp (hinteger 7 5)
  rcases hshown with hzero | ⟨-, hlarge⟩
  · exact absurd hzero (by decide)
  · exact absurd hlarge (by decide)

example : fromBaseUnits (.bigint 5) (some 7) = "0.0".toList := by decide

example : fromBaseUnits (.bigint 12345678) (some 7) = "1.2345678".toList := by decide

end X402Facilitator.Assets
