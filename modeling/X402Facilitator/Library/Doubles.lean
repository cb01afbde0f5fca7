import X402Facilitator.Library.Decimals
import X402Facilitator.Library.Rounding

/-!
# Whole numbers among the doubles

A whole number below `2 ^ 53` is a double, and one from there on is not rounded below it.
-/

namespace X402Facilitator.Number

section Whole

variable {value : ℕ}

/-- A whole number below `2 ^ 53` is a double. -/
theorem ofScientific_of_lt (hlt : value < 2 ^ 53) : ofScientific value 0 = .finite value := by
  have hdouble := isDouble_intCast value (by rw [abs_of_nonneg (Int.natCast_nonneg value)]; omega)
  rw [ofScientific, zpow_zero, mul_one]
  exact nearest_of_isDouble hdouble

/-- A whole number from `2 ^ 53` on is not rounded to a smaller one. -/
theorem ofScientific_of_le (hle : 2 ^ 53 ≤ value) :
    ofScientific value 0 = .infinity false ∨
      ∃ rounded : ℚ, ofScientific value 0 = .finite rounded ∧ 2 ^ 53 ≤ rounded := by
  have hcast : (2 : ℚ) ^ 53 ≤ value := by exact_mod_cast hle
  have hround := (onGrid_pow 53).le_rounded hcast
  rw [ofScientific, zpow_zero, mul_one, nearest]
  split
  · exact .inl (by rw [decide_eq_false (not_lt.mpr (Nat.cast_nonneg value))])
  · exact .inr ⟨_, rfl, hround⟩

end Whole

section Numerals

variable {digits : Text}

/-- `Number` of digits is the double nearest to their value. -/
theorem ofText_of_isDigits (hne : digits ≠ []) (hdigits : IsDigits digits) :
    ofText digits = ofScientific (numeralValue 10 digits) 0 := by
  have hmark : digits.takeWhile (fun c => !isExponentMark c) = digits := by
    rw [List.takeWhile_eq_self_iff]
    intro c hc
    have hrange := toNat_of_isDigit (isDigit_of_isDigitIn (hdigits c hc))
    rw [Bool.not_eq_true', isExponentMark, Bool.or_eq_false_iff, decide_eq_false_iff_not,
      decide_eq_false_iff_not]
    constructor <;> (rintro rfl; revert hrange; decide)
  have hpoint : digits.takeWhile (· ≠ '.') = digits := by
    rw [List.takeWhile_eq_self_iff]
    intro c hc
    rw [decide_eq_true_eq]
    rintro rfl
    exact absurd (hdigits '.' hc) (by decide)
  have hrest : ∀ p : Char → Bool, digits.takeWhile p = digits → digits.dropWhile p = [] := by
    intro p hp
    have hsplit := List.takeWhile_append_dropWhile (p := p) (l := digits)
    rw [hp] at hsplit
    exact List.append_right_eq_self.mp hsplit
  have hdecimal : decimal digits = some (ofScientific (numeralValue 10 digits) 0) := by
    rw [decimal, hmark]
    simp only [hpoint, hrest _ hpoint, hrest _ hmark]
    simp [isNumeral_iff.mpr ⟨hne, hdigits⟩, exponentPart]
  have hinfinity : digits ≠ "Infinity".toList := by
    rintro rfl
    exact absurd (hdigits 'I' (by decide)) (by decide)
  rw [ofText, trim_of_isDigits hdigits, radixLiteral_of_isDigits hdigits,
    cutSign_of_isDigits hdigits]
  simp only [List.isEmpty_iff, if_neg hne, if_neg hinfinity, hdecimal]
  rfl

theorem toNat_of_isHex {c : Char} (hhex : isDigitIn 16 c = true) :
    (48 ≤ c.toNat ∧ c.toNat ≤ 57) ∨ (97 ≤ c.toNat ∧ c.toNat ≤ 102) ∨
      (65 ≤ c.toNat ∧ c.toNat ≤ 70) := by
  have hle : ∀ {a b : Char}, a ≤ b ↔ a.toNat ≤ b.toNat := UInt32.le_iff_toNat_le
  rw [isDigitIn, digitValue] at hhex
  simp only [hle] at hhex
  split at hhex
  · next value heq =>
      simp only [Char.reduceToNat, decide_eq_true_eq] at hhex heq
      split_ifs at heq with hlow hmiddle hhigh
      · exact .inl hlow
      · injection heq with heq
        omega
      · injection heq with heq
        omega
  · cases hhex

/-- `parseInt` of hexadecimal digits is the double nearest to their value. -/
theorem parseHex_of_isHex (hne : digits ≠ []) (hhex : ∀ c ∈ digits, isDigitIn 16 c = true) :
    parseHex digits = ofScientific (numeralValue 16 digits) 0 := by
  have htake : digits.takeWhile (isDigitIn 16) = digits := List.takeWhile_eq_self_iff.mpr hhex
  cases digits with
  | nil => exact absurd rfl hne
  | cons c rest =>
      have hrange := toNat_of_isHex (hhex c List.mem_cons_self)
      have htrimmed : isTrimmed c = false := by
        simp only [isTrimmed, List.mem_cons, List.not_mem_nil, or_false, Bool.or_eq_false_iff,
          decide_eq_false_iff_not, Bool.and_eq_false_iff]
        omega
      have hstart : Text.trimStart (c :: rest) = c :: rest := by
        rw [Text.trimStart, List.dropWhile_cons_of_neg (by rw [htrimmed]; exact Bool.false_ne_true)]
      have hsign : cutSign (c :: rest) = (false, c :: rest) := by
        rw [cutSign]
        · rintro rest ⟨⟩
          exact absurd (hhex '-' List.mem_cons_self) (by decide)
        · rintro rest ⟨⟩
          exact absurd (hhex '+' List.mem_cons_self) (by decide)
      have hmark : ∀ d ∈ rest, d ≠ 'x' ∧ d ≠ 'X' := by
        intro d hd
        have hd' := hhex d (List.mem_cons_of_mem c hd)
        constructor <;> (rintro rfl; revert hd'; decide)
      rw [parseHex, hstart, hsign]
      simp only
      split
      · next heq =>
          obtain ⟨-, rfl⟩ := List.cons.inj heq
          exact absurd rfl (hmark 'x' List.mem_cons_self).1
      · next heq =>
          obtain ⟨-, rfl⟩ := List.cons.inj heq
          exact absurd rfl (hmark 'X' List.mem_cons_self).2
      · rw [htake]
        rfl

theorem numeralValue_lt_of_isHex (hhex : ∀ c ∈ digits, isDigitIn 16 c = true) :
    numeralValue 16 digits < 16 ^ digits.length := by
  induction digits using List.reverseRecOn with
  | nil => decide
  | append_singleton rest c ih =>
      have hrest := ih fun d hd => hhex d (List.mem_append_left _ hd)
      have hc := hhex c (List.mem_append_right _ (List.mem_singleton_self c))
      have hvalue : numeralValue 16 [c] < 16 := by
        rw [isDigitIn] at hc
        split at hc
        · next value heq =>
            simp only [numeralValue, List.foldl_cons, List.foldl_nil, heq, Option.getD_some]
            simpa using of_decide_eq_true hc
        · cases hc
      rw [numeralValue_append, List.length_append, List.length_singleton, pow_one, pow_succ]
      omega

theorem toBigInt_finite (value : ℕ) : (finite value).toBigInt = some (value : ℤ) := by
  simp [toBigInt, Rat.isInt]

end Numerals

end X402Facilitator.Number
