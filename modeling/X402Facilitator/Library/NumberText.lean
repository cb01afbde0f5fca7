import X402Facilitator.Library.Decimals
import X402Facilitator.Library.JsonParse
import X402Facilitator.Library.Rounding

/-!
# Texts of doubles

A double is printed with the least number of digits that are read as it, and without an
exponent where the point is near.  What is printed is a numeral of the grammar of JSON, and is
read as the double.
-/

namespace X402Facilitator.Number

def rational (text : Text) : Option ℚ :=
  (decimalValue (text.takeWhile (· ≠ 'e'))).bind fun mantissa =>
    (exponentPart (text.dropWhile (· ≠ 'e'))).map fun exponent => mantissa * 10 ^ exponent

/-- The double nearest to a numeral, none for what is no numeral. -/
def readNumeral (text : Text) : Option Number :=
  if Json.isNumeral text then (rational text).map nearest else none

/-- The position of the first digit: as many digits stand in front of the point. -/
def pointOf (value : ℚ) : ℤ := Int.log 10 |value| + 1

/-- Digits of this number that are read as a value: the closest ones, if there are any. -/
def digitsAt (value : ℚ) (count : ℕ) : Option (ℕ × ℤ) :=
  let exponent := pointOf value - count
  let scaled := |value| / 10 ^ exponent
  let candidates := [(roundHalfEven scaled).toNat, ⌊scaled⌋.toNat, ⌈scaled⌉.toNat]
  (candidates.find? fun digits : ℕ =>
    nearest (withSign (value < 0) (digits * 10 ^ exponent)) = .finite value).map (·, exponent)

/-- The least number of digits; no double has as many as 1400. -/
def shortestDigits (value : ℚ) : Option (ℕ × ℤ) :=
  (List.range 1400).findSome? fun count => digitsAt value (count + 1)

def fractionText (digits : Text) : Text := if digits = [] then [] else '.' :: digits

def exponentText (exponent : ℤ) : Text :=
  'e' :: (if exponent < 0 then '-' else '+') :: Nat.toDigits 10 exponent.natAbs

def layout (digits : Text) (point : ℤ) : Text :=
  if digits.length ≤ point ∧ point ≤ 21 then
    digits ++ List.replicate (point - digits.length).toNat '0'
  else if 0 < point ∧ point ≤ 21 then
    digits.take point.toNat ++ fractionText (digits.drop point.toNat)
  else if -6 < point ∧ point ≤ 0 then
    '0' :: fractionText (List.replicate (-point).toNat '0' ++ digits)
  else digits.take 1 ++ fractionText (digits.drop 1) ++ exponentText (point - 1)

/-- `Number::toString` -/
def toText : Number → Text
  | nan => "NaN".toList
  | infinity negative => signText negative ++ "Infinity".toList
  | finite value =>
      match if value = 0 then none else shortestDigits value with
      | none => ['0']
      | some (digits, exponent) =>
          let printed := Nat.toDigits 10 digits
          signText (value < 0) ++ layout (stripZeros printed) (printed.length + exponent)

section Numerals

variable {whole fraction digits tail : Text} {exponent point : ℤ} {c : Char}

theorem isNumberChar_of_isDigits (hdigits : IsDigits digits) (hc : c ∈ digits) :
    isNumberChar c = true := by
  simp only [isNumberChar, isDigit_of_isDigitIn (hdigits c hc), Bool.true_or]

theorem isDigit_of_mem (hdigits : IsDigits digits) (hc : c ∈ digits) : c.isDigit = true :=
  isDigit_of_isDigitIn (hdigits c hc)

inductive IsTail : Text → ℤ → Prop
  | none : IsTail [] 0
  | exponent (exponent : ℤ) : IsTail (exponentText exponent) exponent

theorem IsTail.exponentPart_eq (htail : IsTail tail exponent) :
    exponentPart tail = some exponent := by
  cases htail with
  | none => rfl
  | exponent =>
      have hsign : cutSign ((if exponent < 0 then '-' else '+') ::
          Nat.toDigits 10 exponent.natAbs) =
            (decide (exponent < 0), Nat.toDigits 10 exponent.natAbs) := by
        split
        · next hneg => rw [decide_eq_true hneg, cutSign]
        · next hneg => rw [decide_eq_false hneg, cutSign]
      simp only [exponentPart, exponentText, hsign, isNumeral_toDigits, if_true,
        numeralValue_toDigits, decide_eq_true_eq, Option.some.injEq]
      split <;> omega

theorem IsTail.isNumberChar (htail : IsTail tail exponent) (hc : c ∈ tail) :
    isNumberChar c = true := by
  cases htail with
  | none => cases hc
  | exponent =>
      rcases List.mem_cons.mp hc with rfl | hc
      · decide
      · rcases List.mem_cons.mp hc with rfl | hc
        · split <;> decide
        · exact isNumberChar_of_isDigits (isDigits_toDigits _) hc

theorem isDigits_toDigits_all (n : ℕ) : Json.isDigits (Nat.toDigits 10 n) = true := by
  rw [Json.isDigits, Bool.and_eq_true_iff, Bool.not_eq_true', List.isEmpty_eq_false_iff]
  exact ⟨Nat.toDigits_ne_nil,
    List.all_eq_true.mpr fun c hc => isDigit_of_mem (isDigits_toDigits n) hc⟩

theorem IsTail.isExponent (htail : IsTail tail exponent) : Json.isExponent tail = true := by
  cases htail with
  | none => rfl
  | exponent =>
      rw [exponentText]
      split
      · exact isDigits_toDigits_all _
      · exact isDigits_toDigits_all _

theorem IsTail.head_not_digit (htail : IsTail tail exponent) :
    ∀ c, tail.head? = some c → c.isDigit = false := by
  cases htail with
  | none => rintro c ⟨⟩
  | exponent =>
      rintro c hc
      cases hc
      decide

/-- The digits in front are passed over. -/
theorem dropWhile_digits (hdigits : IsDigits digits) {rest : Text}
    (hrest : ∀ c, rest.head? = some c → c.isDigit = false) :
    (digits ++ rest).dropWhile Char.isDigit = rest :=
  (JsValue.takeWhile_append_of_head (fun _ hc => isDigit_of_mem hdigits hc) hrest).2

theorem isFraction_fractionText (hfraction : IsDigits fraction) (htail : IsTail tail exponent) :
    Json.isFraction (fractionText fraction ++ tail) = true := by
  cases fraction with
  | nil =>
      change Json.isFraction tail = true
      cases htail with
      | none => rfl
      | exponent => exact (IsTail.exponent exponent).isExponent
  | cons digit rest =>
      change (digit.isDigit && Json.isExponent ((rest ++ tail).dropWhile Char.isDigit)) = true
      rw [dropWhile_digits (fun d hd => hfraction d (List.mem_cons_of_mem digit hd))
        htail.head_not_digit, isDigit_of_mem hfraction List.mem_cons_self, htail.isExponent]
      rfl

theorem fractionText_head (hfraction : IsDigits fraction) (htail : IsTail tail exponent) :
    ∀ c, (fractionText fraction ++ tail).head? = some c → c.isDigit = false := by
  cases fraction with
  | nil => exact htail.head_not_digit
  | cons digit rest =>
      rintro c hc
      cases hc
      decide

structure IsWhole (whole : Text) : Prop where
  digits : IsDigits whole
  ne_nil : whole ≠ []
  lead : whole = ['0'] ∨ whole.head? ≠ some '0'

theorem IsWhole.isNumeral (hwhole : IsWhole whole) (negative : Bool) (hfraction : IsDigits fraction)
    (htail : IsTail tail exponent) :
    Json.isNumeral (signText negative ++ (whole ++ (fractionText fraction ++ tail))) = true := by
  have hunsigned : (if (signText negative ++ (whole ++ (fractionText fraction ++ tail))).head? =
      some '-' then (signText negative ++ (whole ++ (fractionText fraction ++ tail))).tail
      else signText negative ++ (whole ++ (fractionText fraction ++ tail))) =
        whole ++ (fractionText fraction ++ tail) := by
    cases negative with
    | true => rfl
    | false =>
        refine if_neg fun hhead => ?_
        obtain ⟨digit, rest, rfl⟩ := List.exists_cons_of_ne_nil hwhole.ne_nil
        cases hhead
        exact absurd (hwhole.digits '-' List.mem_cons_self) (by decide)
  rw [Json.isNumeral, hunsigned]
  rcases hwhole.lead with rfl | hlead
  · exact isFraction_fractionText hfraction htail
  · obtain ⟨digit, rest, rfl⟩ := List.exists_cons_of_ne_nil hwhole.ne_nil
    have hdrop := dropWhile_digits (fun d hd => hwhole.digits d (List.mem_cons_of_mem digit hd))
      (fractionText_head hfraction htail)
    rw [List.cons_append]
    split
    · next heq =>
        obtain ⟨rfl, -⟩ := List.cons.inj heq
        exact absurd rfl hlead
    · next heq =>
        obtain ⟨rfl, rfl⟩ := List.cons.inj heq
        rw [hdrop, isDigit_of_mem hwhole.digits List.mem_cons_self,
          isFraction_fractionText hfraction htail]
        rfl
    · next heq => cases heq

theorem IsWhole.decimalValue (hwhole : IsWhole whole) (negative : Bool)
    (hfraction : IsDigits fraction) :
    decimalValue (signText negative ++ (whole ++ fractionText fraction)) =
      some (withSign negative (numeralValue 10 (whole ++ fraction) / 10 ^ fraction.length)) := by
  cases fraction with
  | nil =>
      have hvalue := Decimal.decimalValue_text
        ⟨signText negative, whole, none, signText_valid negative,
          isNumeral_iff.mpr ⟨hwhole.ne_nil, hwhole.digits⟩, by simp⟩
      have hnegative : decide (signText negative = ['-']) = negative := by
        cases negative <;> decide
      simpa [Decimal.text, Decimal.unsigned, Decimal.value, Decimal.isNegative, Decimal.places,
        fractionText, hnegative] using hvalue
  | cons digit rest =>
      exact decimalValue_point negative hwhole.digits hfraction
        (List.append_ne_nil_of_left_ne_nil hwhole.ne_nil _)

/-- The characters of a numeral, and what it is read as. -/
theorem IsWhole.readNumeral (hwhole : IsWhole whole) (negative : Bool)
    (hfraction : IsDigits fraction) (htail : IsTail tail exponent) :
    readNumeral (signText negative ++ (whole ++ (fractionText fraction ++ tail))) =
      some (nearest (withSign negative
        (numeralValue 10 (whole ++ fraction) / 10 ^ fraction.length) * 10 ^ exponent)) := by
  have hfront : ∀ c ∈ signText negative ++ (whole ++ fractionText fraction),
      decide (c ≠ 'e') = true := by
    intro c hc
    rw [decide_eq_true_eq]
    rintro rfl
    have hdigit : ∀ {text : Text}, IsDigits text → 'e' ∉ text := fun htext hmem =>
      absurd (htext 'e' hmem) (by decide)
    rcases List.mem_append.mp hc with hc | hc
    · cases negative <;> exact absurd hc (by decide)
    · rcases List.mem_append.mp hc with hc | hc
      · exact hdigit hwhole.digits hc
      · rw [fractionText] at hc
        split at hc
        · cases hc
        · exact hdigit hfraction ((List.mem_cons.mp hc).resolve_left (by decide))
  have hback : ∀ c, tail.head? = some c → decide (c ≠ 'e') = false := by
    cases htail with
    | none => rintro c ⟨⟩
    | exponent =>
        rintro c hc
        cases hc
        decide
  obtain ⟨htake, hdrop⟩ := JsValue.takeWhile_append_of_head hfront hback
  rw [Number.readNumeral, if_pos (hwhole.isNumeral negative hfraction htail), rational,
    ← List.append_assoc whole, ← List.append_assoc, htake, hdrop,
    hwhole.decimalValue negative hfraction, htail.exponentPart_eq]
  rfl

theorem IsWhole.isNumberChar (hwhole : IsWhole whole) (negative : Bool)
    (hfraction : IsDigits fraction) (htail : IsTail tail exponent)
    (hc : c ∈ signText negative ++ (whole ++ (fractionText fraction ++ tail))) :
    isNumberChar c = true := by
  rcases List.mem_append.mp hc with hc | hc
  · cases negative
    · cases hc
    · rw [List.mem_singleton.mp hc]
      decide
  · rcases List.mem_append.mp hc with hc | hc
    · exact isNumberChar_of_isDigits hwhole.digits hc
    · rcases List.mem_append.mp hc with hc | hc
      · rw [fractionText] at hc
        split at hc
        · cases hc
        · rcases List.mem_cons.mp hc with rfl | hc
          · decide
          · exact isNumberChar_of_isDigits hfraction hc
      · exact htail.isNumberChar hc

/-- The layout of digits has a whole part, a fraction and an exponent, and their value. -/
theorem layout_eq (hdigits : IsDigits digits) (hne : digits ≠ []) (hlead : digits.head? ≠ some '0')
    (point : ℤ) : ∃ whole fraction tail exponent,
      layout digits point = whole ++ (fractionText fraction ++ tail) ∧ IsWhole whole ∧
      IsDigits fraction ∧ IsTail tail exponent ∧
      (numeralValue 10 (whole ++ fraction) / 10 ^ fraction.length * 10 ^ exponent : ℚ) =
        numeralValue 10 digits * 10 ^ (point - digits.length) := by
  have hten : (10 : ℚ) ≠ 0 := by norm_num
  have hhead : ∀ n, 0 < n → IsWhole (digits.take n) := by
    intro n hn
    obtain ⟨digit, rest, rfl⟩ := List.exists_cons_of_ne_nil hne
    obtain ⟨m, rfl⟩ := Nat.exists_eq_succ_of_ne_zero hn.ne'
    exact ⟨hdigits.take _, List.cons_ne_nil _ _, .inr hlead⟩
  rw [layout]
  split
  · next hnear =>
      refine ⟨digits ++ List.replicate (point - digits.length).toNat '0', [], [], 0,
        by simp [fractionText], ⟨hdigits.append (isDigits_zeros _), by simp [hne], .inr ?_⟩,
        fun c hc => absurd hc List.not_mem_nil, .none, ?_⟩
      · rwa [List.head?_append_of_ne_nil _ hne]
      · rw [List.append_nil, numeralValue_append_zeros, List.length_nil, pow_zero, div_one,
          zpow_zero, mul_one, Nat.cast_mul, Nat.cast_pow, Nat.cast_ofNat, ← zpow_natCast,
          Int.toNat_of_nonneg (by omega)]
  · split
    · next hnear hinside =>
        refine ⟨digits.take point.toNat, digits.drop point.toNat, [], 0, by simp,
          hhead _ (by omega), hdigits.drop _, .none, ?_⟩
        rw [List.take_append_drop, List.length_drop, zpow_zero, mul_one, div_eq_mul_inv,
          ← zpow_natCast, ← zpow_neg]
        congr 2
        omega
    · split
      · next hbehind =>
          refine ⟨['0'], List.replicate (-point).toNat '0' ++ digits, [], 0, by simp,
            ⟨isDigits_zeros 1, by simp, .inl rfl⟩, (isDigits_zeros _).append hdigits, .none, ?_⟩
          have hzeros : (['0'] ++ (List.replicate (-point).toNat '0' ++ digits) : Text) =
              List.replicate ((-point).toNat + 1) '0' ++ digits := by
            rw [List.replicate_succ, List.singleton_append, List.cons_append]
          rw [hzeros, numeralValue_zeros_append, zpow_zero, mul_one, div_eq_mul_inv,
            ← zpow_natCast, ← zpow_neg, List.length_append, List.length_replicate]
          congr 2
          omega
      · refine ⟨digits.take 1, digits.drop 1, exponentText (point - 1), point - 1, by simp,
          hhead 1 one_pos, hdigits.drop _, .exponent _, ?_⟩
        have hlength := List.length_pos_iff.mpr hne
        rw [List.take_append_drop, List.length_drop, div_eq_mul_inv, mul_assoc, ← zpow_natCast,
          ← zpow_neg, ← zpow_add₀ hten]
        congr 2
        omega

end Numerals

section Digits

variable {value : ℚ} {digits count : ℕ} {exponent : ℤ}

theorem withSign_mul (negative : Bool) (value factor : ℚ) :
    withSign negative value * factor = withSign negative (value * factor) := by
  cases negative with
  | true => exact neg_mul value factor
  | false => rfl

/-- Digits that are found are read as the value. -/
theorem nearest_of_shortestDigits (hfound : shortestDigits value = some (digits, exponent)) :
    nearest (withSign (value < 0) (digits * 10 ^ exponent)) = .finite value := by
  obtain ⟨count, -, hat⟩ := List.exists_of_findSome?_eq_some hfound
  rw [digitsAt] at hat
  obtain ⟨found, hfind, heq⟩ := Option.map_eq_some_iff.mp hat
  cases heq
  have hread := List.find?_some hfind
  exact of_decide_eq_true hread

theorem withSign_abs (value : ℚ) : withSign (value < 0) |value| = value := by
  rw [withSign]
  split
  · next hneg => rw [abs_of_neg (of_decide_eq_true hneg), neg_neg]
  · next hneg => rw [abs_of_nonneg (not_lt.mp (of_decide_eq_false (Bool.eq_false_iff.mpr hneg)))]

/-- A value is scaled to a whole number where it has enough places. -/
theorem isSome_digitsAt (hdouble : IsDouble value) {whole : ℕ}
    (hwhole : |value| / 10 ^ (pointOf value - count) = whole) :
    (digitsAt value count).isSome = true := by
  have hback : (⌊(whole : ℚ)⌋.toNat : ℚ) * 10 ^ (pointOf value - count) = |value| := by
    rw [Int.floor_natCast, Int.toNat_natCast, ← hwhole, div_mul_cancel₀]
    exact zpow_ne_zero _ (by norm_num)
  rw [digitsAt, Option.isSome_map, List.find?_isSome, hwhole]
  refine ⟨⌊(whole : ℚ)⌋.toNat, by simp only [List.mem_cons, true_or, or_true], ?_⟩
  rw [decide_eq_true_eq, hback, withSign_abs, nearest_of_isDouble hdouble]

/-- A double other than zero is at least the least one. -/
theorem OnGrid.le_abs (hgrid : OnGrid value) (hne : value ≠ 0) : 2 ^ (-1074 : ℤ) ≤ |value| := by
  obtain ⟨mantissa, exponent, -, hexponent, rfl⟩ := hgrid
  have hmantissa : (1 : ℚ) ≤ |(mantissa : ℚ)| := by
    have hzero : mantissa ≠ 0 := by
      rintro rfl
      exact hne (by rw [Int.cast_zero, zero_mul])
    exact_mod_cast Int.one_le_abs hzero
  have hpow : (0 : ℚ) < 2 ^ exponent := zpow_pos (by norm_num) _
  rw [abs_mul, abs_of_pos hpow]
  calc (2 : ℚ) ^ (-1074 : ℤ) ≤ 2 ^ exponent := zpow_le_zpow_right₀ (by norm_num) hexponent
    _ ≤ |(mantissa : ℚ)| * 2 ^ exponent := le_mul_of_one_le_left hpow.le hmantissa

/-- The first digit of a double stands between the 324th and the 309th power of ten. -/
theorem pointOf_bounds (hdouble : IsDouble value) (hne : value ≠ 0) :
    -323 ≤ pointOf value ∧ pointOf value ≤ 309 := by
  have hpos := abs_pos.mpr hne
  constructor
  · have hlow : ((10 : ℕ) : ℚ) ^ (-324 : ℤ) ≤ |value| := by
      refine le_trans ?_ (hdouble.1.le_abs hne)
      have hnat : 2 ^ 1074 ≤ 10 ^ 324 := by decide +kernel
      rw [zpow_neg, zpow_neg]
      exact inv_anti₀ (zpow_pos (by norm_num) _) (by exact_mod_cast hnat)
    have hlog := (Int.zpow_le_iff_le_log (by norm_num) hpos).mp hlow
    rw [pointOf]
    omega
  · have hhigh : |value| < ((10 : ℕ) : ℚ) ^ (309 : ℤ) := by
      have hnat : 2 ^ 1024 < 10 ^ 309 := by decide +kernel
      exact hdouble.2.trans (by exact_mod_cast hnat)
    have hlog := (Int.lt_zpow_iff_log_lt (by norm_num) hpos).mp hhigh
    rw [pointOf]
    omega

/-- A double has no more than 1074 places. -/
theorem exists_whole_of_onGrid (hgrid : OnGrid value) :
    ∃ whole : ℕ, |value| / 10 ^ (-1074 : ℤ) = whole := by
  obtain ⟨mantissa, exponent, -, hexponent, rfl⟩ := hgrid
  refine ⟨mantissa.natAbs * 2 ^ (exponent + 1074).toNat * 5 ^ 1074, ?_⟩
  have hpow : (2 : ℚ) ^ (exponent + 1074).toNat = 2 ^ exponent * 2 ^ 1074 := by
    rw [← zpow_natCast, Int.toNat_of_nonneg (by omega), zpow_add₀ (by norm_num)]
    rfl
  have hten : (10 : ℚ) ^ (1074 : ℕ) = 2 ^ 1074 * 5 ^ 1074 := by
    rw [← mul_pow]
    congr 1
    norm_num
  have habs : |(2 : ℚ) ^ exponent| = 2 ^ exponent := abs_of_pos (zpow_pos two_pos exponent)
  rw [zpow_neg, div_inv_eq_mul, abs_mul, habs,
    Nat.cast_mul, Nat.cast_mul, Nat.cast_pow, Nat.cast_pow, Nat.cast_natAbs, Int.cast_abs,
    Nat.cast_ofNat, Nat.cast_ofNat, hpow, zpow_ofNat, hten, ← mul_assoc, ← mul_assoc]

theorem exists_shortestDigits (hdouble : IsDouble value) (hne : value ≠ 0) :
    ∃ found, shortestDigits value = some found := by
  obtain ⟨hlow, hhigh⟩ := pointOf_bounds hdouble hne
  obtain ⟨whole, hwhole⟩ := exists_whole_of_onGrid hdouble.1
  have hcount : pointOf value - ((pointOf value + 1073).toNat + 1 : ℕ) = -1074 := by omega
  rw [← Option.isSome_iff_exists, shortestDigits, List.findSome?_isSome_iff]
  refine ⟨(pointOf value + 1073).toNat, List.mem_range.mpr (by omega), ?_⟩
  exact isSome_digitsAt hdouble (by rw [hcount, hwhole])

theorem head_toDigits {n : ℕ} (hpos : 0 < n) : (Nat.toDigits 10 n).head? ≠ some '0' := by
  induction n using Nat.strong_induction_on with
  | h n ih =>
      by_cases hlt : n < 10
      · rw [Nat.toDigits_of_lt_base hlt]
        interval_cases n <;> decide
      · rw [Nat.toDigits_of_base_le (by norm_num) (not_lt.mp hlt),
          List.head?_append_of_ne_nil _ Nat.toDigits_ne_nil]
        exact ih (n / 10) (by omega) (by omega)

/-- Digits that do not start with a zero keep the first one. -/
theorem stripZeros_of_head {text : Text} (hne : text ≠ []) (hhead : text.head? ≠ some '0') :
    stripZeros text ≠ [] ∧ (stripZeros text).head? ≠ some '0' := by
  obtain ⟨digit, rest, rfl⟩ := List.exists_cons_of_ne_nil hne
  have hsome : stripZeros (digit :: rest) ≠ [] := by
    intro hnil
    have hall := List.rdropWhile_eq_nil_iff.mp hnil digit List.mem_cons_self
    exact hhead (congrArg some (of_decide_eq_true hall))
  obtain ⟨first, tail, hfirst⟩ := List.exists_cons_of_ne_nil hsome
  have hprefix := List.rdropWhile_prefix (· = '0') (digit :: rest)
  rw [← stripZeros, hfirst] at hprefix
  obtain ⟨rfl, -⟩ := List.cons_prefix_cons.mp hprefix
  exact ⟨hsome, by rwa [hfirst]⟩

/-- The zeros that are stripped count as places. -/
theorem stripped_value (text : Text) (exponent : ℤ) :
    (numeralValue 10 (stripZeros text) : ℚ) *
      10 ^ ((text.length + exponent : ℤ) - (stripZeros text).length) =
        numeralValue 10 text * 10 ^ exponent := by
  have hle := length_stripZeros_le text
  have hvalue : numeralValue 10 text =
      numeralValue 10 (stripZeros text) * 10 ^ (text.length - (stripZeros text).length) := by
    rw [← numeralValue_append_zeros, ← List.rightpad, rightpad_stripZeros]
  have hpower : (text.length + exponent : ℤ) - (stripZeros text).length =
      (text.length - (stripZeros text).length : ℕ) + exponent := by
    omega
  rw [hvalue, hpower, zpow_add₀ (by norm_num), zpow_natCast]
  push_cast
  ring

/-- The text of a double is a numeral that is read as the double. -/
theorem readNumeral_toText (hdouble : IsDouble value) :
    readNumeral (toText (.finite value)) = some (.finite value) ∧ toText (.finite value) ≠ [] ∧
      ∀ c ∈ toText (.finite value), isNumberChar c = true := by
  by_cases hne : value = 0
  · have hzero : toText (.finite value) = ['0'] := by simp [toText, hne]
    have hread : rational ['0'] = some 0 := by decide +kernel
    rw [hzero, readNumeral, if_pos (by decide), hread, hne, Option.map_some,
      nearest_of_isDouble isDouble_zero]
    exact ⟨rfl, List.cons_ne_nil _ _, by simp [isNumberChar]⟩
  · obtain ⟨⟨digits, exponent⟩, hfound⟩ := exists_shortestDigits hdouble hne
    have hnearest := nearest_of_shortestDigits hfound
    have hpos : 0 < digits := by
      rw [Nat.pos_iff_ne_zero]
      rintro rfl
      have hzero : withSign (value < 0) (((0 : ℕ) : ℚ) * 10 ^ exponent) = 0 := by
        simp [withSign]
      rw [hzero, nearest_of_isDouble isDouble_zero] at hnearest
      exact hne (Number.finite.inj hnearest).symm
    obtain ⟨hsome, hhead⟩ := stripZeros_of_head Nat.toDigits_ne_nil (head_toDigits hpos)
    obtain ⟨whole, fraction, tail, power, hlayout, hwhole, hfraction, htail, hvalue⟩ :=
      layout_eq (isDigits_toDigits digits).stripZeros hsome hhead
        ((Nat.toDigits 10 digits).length + exponent)
    have htext : toText (.finite value) =
        signText (value < 0) ++ (whole ++ (fractionText fraction ++ tail)) := by
      simp only [toText, if_neg hne, hfound, hlayout]
    rw [htext, hwhole.readNumeral _ hfraction htail, withSign_mul, hvalue, stripped_value,
      numeralValue_toDigits, hnearest]
    refine ⟨rfl, ?_, fun c hc => hwhole.isNumberChar _ hfraction htail hc⟩
    exact List.append_ne_nil_of_right_ne_nil _
      (List.append_ne_nil_of_left_ne_nil hwhole.ne_nil _)

end Digits

inductive IsJson : Number → Prop
  | finite {value : ℚ} (double : IsDouble value) : IsJson (.finite value)

/-- Doubles by their values: what is infinite or no number has no numeral. -/
def doubles : NumberFormat Number where
  Valid := IsJson
  print := toText
  read := readNumeral
  print_ne_nil := fun _ ⟨hdouble⟩ => (readNumeral_toText hdouble).2.1
  isNumberChar_print := fun _ ⟨hdouble⟩ => (readNumeral_toText hdouble).2.2
  read_print := fun _ ⟨hdouble⟩ => (readNumeral_toText hdouble).1

end X402Facilitator.Number
