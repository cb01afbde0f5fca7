import Mathlib.Algebra.Order.Field.Basic
import Mathlib.Algebra.Order.Floor.Ring
import Mathlib.Data.List.DropRight
import Mathlib.Data.List.Induction
import Mathlib.Tactic.FieldSimp
import Mathlib.Tactic.Positivity
import Mathlib.Tactic.Ring
import X402Facilitator.Library.JsText

/-!
# Decimal numerals

A numeral is read digit by digit, so that padding it on the right multiplies its value and
padding it on the left does not change it.  The value of a decimal fraction is that of its
digits, over a power of ten.
-/

namespace X402Facilitator

section Digits

variable {c : Char} {digits : Text}

theorem toNat_of_isDigit (hdigit : c.isDigit = true) : 48 ≤ c.toNat ∧ c.toNat ≤ 57 := by
  simpa [Char.isDigit, UInt32.le_iff_toNat_le] using hdigit

theorem digitValue_of_isDigit (hdigit : c.isDigit = true) :
    digitValue c = some (c.toNat - 48) :=
  if_pos (toNat_of_isDigit hdigit)

theorem isDigitIn_of_isDigit (hdigit : c.isDigit = true) : isDigitIn 10 c = true := by
  have hrange := toNat_of_isDigit hdigit
  rw [isDigitIn, digitValue_of_isDigit hdigit]
  exact decide_eq_true (by omega)

theorem isDigit_of_isDigitIn (hdigit : isDigitIn 10 c = true) : c.isDigit = true := by
  have hle : ∀ {a b : Char}, a ≤ b ↔ a.toNat ≤ b.toNat := UInt32.le_iff_toNat_le
  have hrange : 48 ≤ c.toNat ∧ c.toNat ≤ 57 := by
    rw [isDigitIn, digitValue] at hdigit
    simp only [hle] at hdigit
    split at hdigit
    · next value heq =>
        simp only [Char.reduceToNat, decide_eq_true_eq] at hdigit heq
        split_ifs at heq with hlow hmiddle hhigh
        · exact hlow
        · injection heq with heq
          omega
        · injection heq with heq
          omega
    · cases hdigit
  simpa [Char.isDigit, UInt32.le_iff_toNat_le] using hrange

theorem numeralValue_eq (hdigits : ∀ c ∈ digits, c.isDigit = true) :
    numeralValue 10 digits = Nat.ofDigitChars 10 digits 0 := by
  rw [numeralValue, Nat.ofDigitChars]
  refine List.foldl_ext _ _ _ fun value c hc => ?_
  rw [digitValue_of_isDigit (hdigits c hc), Option.getD_some, Nat.mul_comm]
  rfl

end Digits

def IsDigits (text : Text) : Prop := ∀ c ∈ text, isDigitIn 10 c = true

section Numerals

variable {left right digits : Text} {n : ℕ}

theorem IsDigits.append (hleft : IsDigits left) (hright : IsDigits right) :
    IsDigits (left ++ right) := by
  intro c hc
  rcases List.mem_append.mp hc with hc | hc
  · exact hleft c hc
  · exact hright c hc

theorem IsDigits.take (hdigits : IsDigits digits) (n : ℕ) : IsDigits (digits.take n) :=
  fun c hc => hdigits c (List.mem_of_mem_take hc)

theorem IsDigits.drop (hdigits : IsDigits digits) (n : ℕ) : IsDigits (digits.drop n) :=
  fun c hc => hdigits c (List.mem_of_mem_drop hc)

theorem isDigits_zeros (n : ℕ) : IsDigits (List.replicate n '0') := by
  intro c hc
  rw [List.eq_of_mem_replicate hc]
  decide

theorem isNumeral_iff : isNumeral 10 digits = true ↔ digits ≠ [] ∧ IsDigits digits := by
  rw [isNumeral, Bool.and_eq_true_iff, List.all_eq_true, Bool.not_eq_true',
    List.isEmpty_eq_false_iff]
  rfl

theorem isDigits_toDigits (n : ℕ) : IsDigits (Nat.toDigits 10 n) := fun _ hc =>
  isDigitIn_of_isDigit (Nat.isDigit_of_mem_toDigits (by decide) (by decide) hc)

theorem isNumeral_toDigits (n : ℕ) : isNumeral 10 (Nat.toDigits 10 n) = true :=
  isNumeral_iff.mpr ⟨Nat.toDigits_ne_nil, isDigits_toDigits n⟩

/-- Nothing but digits: no sign, no point. -/
theorem IsDigits.notMem (hdigits : IsDigits digits) {c : Char}
    (hc : isDigitIn 10 c = false) : c ∉ digits := by
  intro hmem
  rw [hdigits c hmem] at hc
  cases hc

/-- A numeral in front of another moves up by as many places. -/
theorem numeralValue_append (radix : ℕ) (left right : Text) :
    numeralValue radix (left ++ right) =
      numeralValue radix left * radix ^ right.length + numeralValue radix right := by
  have hfold : ∀ start, right.foldl (fun value c => value * radix + (digitValue c).getD 0) start =
      start * radix ^ right.length + numeralValue radix right := by
    induction right with
    | nil => simp [numeralValue]
    | cons c right ih =>
        intro start
        have hhead := ih ((digitValue c).getD 0)
        rw [numeralValue, List.foldl_cons, ih, List.foldl_cons, zero_mul, zero_add, hhead,
          List.length_cons]
        ring
  rw [numeralValue, List.foldl_append, hfold]
  rfl

theorem numeralValue_zeros (n : ℕ) : numeralValue 10 (List.replicate n '0') = 0 := by
  rw [numeralValue_eq fun c hc => isDigit_of_isDigitIn (isDigits_zeros n c hc),
    Nat.ofDigitChars_replicate_zero, Nat.mul_zero]

theorem numeralValue_toDigits (n : ℕ) : numeralValue 10 (Nat.toDigits 10 n) = n := by
  rw [numeralValue_eq fun c hc => isDigit_of_isDigitIn (isDigits_toDigits n c hc),
    Nat.ofDigitChars_ten_toDigits]

theorem numeralValue_lt (hdigits : IsDigits digits) :
    numeralValue 10 digits < 10 ^ digits.length := by
  induction digits using List.reverseRecOn with
  | nil => decide
  | append_singleton rest c ih =>
      have hrest := ih fun d hd => hdigits d (List.mem_append_left _ hd)
      have hc := hdigits c (List.mem_append_right _ (List.mem_singleton_self c))
      have hvalue : numeralValue 10 [c] < 10 := by
        have hdigit := isDigit_of_isDigitIn hc
        have hrange := toNat_of_isDigit hdigit
        simp only [numeralValue, List.foldl_cons, List.foldl_nil, digitValue_of_isDigit hdigit,
          Option.getD_some]
        omega
      rw [numeralValue_append, List.length_append, List.length_singleton, pow_one, pow_succ]
      omega

/-- Zeros in front of a numeral do not count. -/
theorem numeralValue_zeros_append (n : ℕ) (digits : Text) :
    numeralValue 10 (List.replicate n '0' ++ digits) = numeralValue 10 digits := by
  rw [numeralValue_append, numeralValue_zeros, zero_mul, zero_add]

/-- Zeros after a numeral multiply its value. -/
theorem numeralValue_append_zeros (digits : Text) (n : ℕ) :
    numeralValue 10 (digits ++ List.replicate n '0') = numeralValue 10 digits * 10 ^ n := by
  rw [numeralValue_append, numeralValue_zeros, List.length_replicate, add_zero]

theorem isTrimmed_of_isDigitIn {c : Char} (hdigit : isDigitIn 10 c = true) :
    isTrimmed c = false := by
  have hrange := toNat_of_isDigit (isDigit_of_isDigitIn hdigit)
  simp only [isTrimmed, List.mem_cons, List.not_mem_nil, or_false, Bool.or_eq_false_iff,
    decide_eq_false_iff_not, Bool.and_eq_false_iff]
  omega

theorem trim_of_isDigits (hdigits : IsDigits digits) : Text.trim digits = digits := by
  have hstart : ∀ text : Text, IsDigits text → Text.trimStart text = text := by
    intro text htext
    cases text with
    | nil => rfl
    | cons c rest =>
        have hc := isTrimmed_of_isDigitIn (htext c List.mem_cons_self)
        rw [Text.trimStart, List.dropWhile_cons_of_neg (by rw [hc]; exact Bool.false_ne_true)]
  rw [Text.trim, hstart digits hdigits,
    hstart digits.reverse fun c hc => hdigits c (List.mem_reverse.mp hc), List.reverse_reverse]

theorem radixLiteral_of_isDigits (hdigits : IsDigits digits) : radixLiteral digits = none := by
  match digits, hdigits with
  | [], _ => rfl
  | [_], _ => exact radixLiteral.eq_2 _ (by rintro _ _ ⟨⟩)
  | c :: mark :: rest, hdigits =>
      have hmark := toNat_of_isDigit (isDigit_of_isDigitIn (hdigits mark (by simp)))
      have hradix : radixOfMark mark = none := by
        rw [radixOfMark]
        all_goals rintro rfl; revert hmark; decide
      rw [radixLiteral.eq_def]
      split
      · next heq =>
          cases heq
          rw [hradix, Option.bind_none]
      · rfl

theorem cutSign_of_isDigits (hdigits : IsDigits digits) : cutSign digits = (false, digits) := by
  rw [cutSign]
  · rintro rest rfl
    exact absurd (hdigits '-' List.mem_cons_self) (by decide)
  · rintro rest rfl
    exact absurd (hdigits '+' List.mem_cons_self) (by decide)

/-- `BigInt` of digits is their value. -/
theorem bigIntOfText_of_isDigits (hdigits : IsDigits digits) :
    bigIntOfText digits = some (numeralValue 10 digits : ℤ) := by
  rw [bigIntOfText, trim_of_isDigits hdigits, radixLiteral_of_isDigits hdigits]
  cases digits with
  | nil => rfl
  | cons c rest =>
      have hnumeral : isNumeral 10 (c :: rest) = true :=
        isNumeral_iff.mpr ⟨List.cons_ne_nil c rest, hdigits⟩
      simp only [List.isEmpty_cons, Bool.false_eq_true, if_false, cutSign_of_isDigits hdigits,
        hnumeral, if_true]

/-- `replace(/0+$/, '')`. -/
def stripZeros (digits : Text) : Text := digits.rdropWhile (· = '0')

/-- Padding puts back the zeros that were stripped. -/
theorem rightpad_stripZeros (digits : Text) :
    (stripZeros digits).rightpad digits.length '0' = digits := by
  have hparts : stripZeros digits ++ digits.rtakeWhile (· = '0') = digits :=
    List.rdropWhile_append_rtakeWhile ..
  have hzeros : digits.rtakeWhile (· = '0') =
      List.replicate (digits.length - (stripZeros digits).length) '0' := by
    have hlength := congrArg List.length hparts
    rw [List.length_append] at hlength
    rw [List.eq_replicate_iff]
    refine ⟨by omega, fun c hc => ?_⟩
    simpa using List.mem_rtakeWhile_imp hc
  rw [List.rightpad, ← hzeros, hparts]

theorem length_stripZeros_le (digits : Text) : (stripZeros digits).length ≤ digits.length :=
  (List.rdropWhile_prefix _ digits).length_le

theorem IsDigits.stripZeros (hdigits : IsDigits digits) : IsDigits (stripZeros digits) :=
  fun c hc => hdigits c ((List.rdropWhile_prefix _ digits).subset hc)

theorem IsDigits.rightpad (hdigits : IsDigits digits) (n : ℕ) :
    IsDigits (digits.rightpad n '0') :=
  hdigits.append (isDigits_zeros _)

end Numerals

/-- Zeros after a fraction do not change its value. -/
theorem numeralValue_rightpad_div {whole fraction : Text} {n : ℕ} (hlength : fraction.length ≤ n) :
    (numeralValue 10 (whole ++ fraction.rightpad n '0') : ℚ) / 10 ^ n =
      numeralValue 10 (whole ++ fraction) / 10 ^ fraction.length := by
  have hpower : (10 : ℚ) ^ n = 10 ^ fraction.length * 10 ^ (n - fraction.length) := by
    rw [← pow_add, Nat.add_sub_cancel' hlength]
  rw [List.rightpad, ← List.append_assoc, numeralValue_append_zeros, hpower, Nat.cast_mul,
    Nat.cast_pow, Nat.cast_ofNat]
  field_simp

def signText (negative : Bool) : Text := if negative then ['-'] else []

/-- `toString` of an integer. -/
def printInt (value : ℤ) : Text := signText (value < 0) ++ Nat.toDigits 10 value.natAbs

theorem printInt_natCast (n : ℕ) : printInt n = Nat.toDigits 10 n := by
  rw [printInt, decide_eq_false (not_lt.mpr (Int.natCast_nonneg n)), Int.natAbs_natCast]
  rfl

def withSign (negative : Bool) (value : ℚ) : ℚ := if negative then -value else value

theorem withSign_injective (negative : Bool) : Function.Injective (withSign negative) := by
  intro first second heq
  cases negative with
  | true => exact neg_injective heq
  | false => exact heq

/-- The number that a text of digits, with a sign and a point, denotes. -/
def decimalValue (text : Text) : Option ℚ :=
  let (negative, rest) := cutSign text
  match rest.splitOn '.' with
  | [whole] =>
      if isNumeral 10 whole then some (withSign negative (numeralValue 10 whole)) else none
  | [whole, fraction] =>
      if isNumeral 10 (whole ++ fraction) then
        some (withSign negative (numeralValue 10 (whole ++ fraction) / 10 ^ fraction.length))
      else none
  | _ => none

section Fractions

variable {negative : Bool} {whole fraction rest : Text}

theorem cutSign_signText (hrest : cutSign rest = (false, rest)) :
    cutSign (signText negative ++ rest) = (negative, rest) := by
  cases negative with
  | true => rfl
  | false => exact hrest

theorem cutSign_of_head (hhead : ∀ c ∈ rest.head?, c ≠ '-' ∧ c ≠ '+') :
    cutSign rest = (false, rest) := by
  rw [cutSign]
  · rintro rest' rfl
    exact (hhead '-' rfl).1 rfl
  · rintro rest' rfl
    exact (hhead '+' rfl).2 rfl

theorem IsDigits.head_ne (hwhole : IsDigits whole) (rest : Text)
    (hrest : ∀ c ∈ rest.head?, c = '.') : ∀ c ∈ (whole ++ rest).head?, c ≠ '-' ∧ c ≠ '+' := by
  intro c hc
  cases whole with
  | nil =>
      rw [hrest c hc]
      decide
  | cons d whole =>
      have hd := hwhole d List.mem_cons_self
      obtain rfl : d = c := Option.some.inj hc
      constructor
      · rintro rfl
        exact absurd hd (by decide)
      · rintro rfl
        exact absurd hd (by decide)

/-- The parts of a text with one point. -/
theorem splitOn_point (hwhole : IsDigits whole) (hfraction : IsDigits fraction) :
    (whole ++ '.' :: fraction).splitOn '.' = [whole, fraction] := by
  rw [List.splitOn_append_cons_self_of_not_mem (hwhole.notMem (by decide)),
    List.splitOn_eq_singleton (hfraction.notMem (by decide))]

theorem decimalValue_point (negative : Bool) (hwhole : IsDigits whole)
    (hfraction : IsDigits fraction) (hsome : whole ++ fraction ≠ []) :
    decimalValue (signText negative ++ (whole ++ '.' :: fraction)) =
      some (withSign negative (numeralValue 10 (whole ++ fraction) / 10 ^ fraction.length)) := by
  have hsign : cutSign (whole ++ '.' :: fraction) = (false, whole ++ '.' :: fraction) :=
    cutSign_of_head (hwhole.head_ne _ fun c hc => (Option.some.inj hc).symm)
  have hnumeral := isNumeral_iff.mpr ⟨hsome, hwhole.append hfraction⟩
  rw [decimalValue, cutSign_signText hsign]
  simp only [splitOn_point hwhole hfraction, hnumeral, if_true]

end Fractions

/-- A decimal numeral: a sign, digits, and perhaps a point and more digits. -/
structure Decimal where
  sign : Text
  whole : Text
  fraction : Option Text
  sign_valid : sign ∈ [[], ['+'], ['-']]
  whole_valid : isNumeral 10 whole = true
  fraction_valid : ∀ digits ∈ fraction, isNumeral 10 digits = true

theorem signText_valid (negative : Bool) : signText negative ∈ [[], ['+'], ['-']] := by
  cases negative <;> decide

def Decimal.ofInt (n : ℤ) : Decimal where
  sign := signText (n < 0)
  whole := Nat.toDigits 10 n.natAbs
  fraction := none
  sign_valid := signText_valid (n < 0)
  whole_valid := isNumeral_toDigits n.natAbs
  fraction_valid := fun _ hnone => absurd hnone (Option.not_mem_none _)

namespace Decimal

def places (decimal : Decimal) : Text := decimal.fraction.getD []

def unsigned (decimal : Decimal) : Text :=
  match decimal.fraction with
  | none => decimal.whole
  | some digits => decimal.whole ++ '.' :: digits

def text (decimal : Decimal) : Text := decimal.sign ++ decimal.unsigned

def isNegative (decimal : Decimal) : Bool := decimal.sign = ['-']

def value (decimal : Decimal) : ℚ :=
  withSign decimal.isNegative
    (numeralValue 10 (decimal.whole ++ decimal.places) / 10 ^ decimal.places.length)

theorem isDigits_whole (decimal : Decimal) : IsDigits decimal.whole :=
  (isNumeral_iff.mp decimal.whole_valid).2

theorem isDigits_places (decimal : Decimal) : IsDigits decimal.places := by
  rw [places]
  cases hfraction : decimal.fraction with
  | none => exact fun c hc => absurd hc List.not_mem_nil
  | some digits => exact (isNumeral_iff.mp (decimal.fraction_valid digits hfraction)).2

theorem cutSign_unsigned (decimal : Decimal) :
    cutSign decimal.unsigned = (false, decimal.unsigned) := by
  refine cutSign_of_head ?_
  rw [unsigned]
  split
  · have hhead := decimal.isDigits_whole.head_ne [] (by simp)
    rwa [List.append_nil] at hhead
  · exact decimal.isDigits_whole.head_ne _ fun c hc => (Option.some.inj hc).symm

theorem cutSign_text (decimal : Decimal) :
    cutSign decimal.text = (decimal.isNegative, decimal.unsigned) := by
  rw [text, isNegative]
  have hsign := decimal.sign_valid
  simp only [List.mem_cons, List.not_mem_nil, or_false] at hsign
  rcases hsign with hsign | hsign | hsign
  · rw [hsign]
    exact decimal.cutSign_unsigned
  · rw [hsign]
    rfl
  · rw [hsign]
    rfl

theorem point_notMem_front (decimal : Decimal) : '.' ∉ decimal.sign ++ decimal.whole := by
  have hsign : '.' ∉ decimal.sign := by
    have hvalid := decimal.sign_valid
    simp only [List.mem_cons, List.not_mem_nil, or_false] at hvalid
    rcases hvalid with hvalid | hvalid | hvalid <;> rw [hvalid] <;> decide
  exact fun hmem =>
    (List.mem_append.mp hmem).elim hsign (decimal.isDigits_whole.notMem (by decide))

theorem toNat_lt_of_mem_text (decimal : Decimal) {c : Char} (hc : c ∈ decimal.text) :
    c.toNat < 0x80 := by
  have hdigit : ∀ {digits : Text}, IsDigits digits → c ∈ digits → c.toNat < 0x80 := by
    intro digits hdigits hmem
    exact (toNat_of_isDigit (isDigit_of_isDigitIn (hdigits c hmem))).2.trans_lt (by decide)
  rw [text, unsigned] at hc
  rcases List.mem_append.mp hc with hc | hc
  · have hsigns : ∀ sign ∈ [[], ['+'], ['-']], (sign.all fun d => d.toNat < 0x80) = true := by
      decide
    exact of_decide_eq_true
      (List.all_eq_true.mp (hsigns decimal.sign decimal.sign_valid) c hc)
  · split at hc
    · exact hdigit decimal.isDigits_whole hc
    · next digits hfraction =>
        rcases List.mem_append.mp hc with hc | hc
        · exact hdigit decimal.isDigits_whole hc
        · rcases List.mem_cons.mp hc with rfl | hc
          · decide
          · exact hdigit (isNumeral_iff.mp (decimal.fraction_valid digits hfraction)).2 hc

/-- What is in front of the point, and what is after it. -/
theorem splitOn_text (decimal : Decimal) : ∃ rest,
    decimal.text.splitOn '.' = (decimal.sign ++ decimal.whole) :: rest ∧
      rest.headD [] = decimal.places := by
  have hplaces := decimal.isDigits_places
  rw [text, unsigned, places]
  rw [places] at hplaces
  cases hfraction : decimal.fraction with
  | none => exact ⟨[], List.splitOn_eq_singleton decimal.point_notMem_front, rfl⟩
  | some digits =>
      rw [hfraction, Option.getD_some] at hplaces
      refine ⟨[digits], ?_, rfl⟩
      rw [← List.append_assoc, List.splitOn_append_cons_self_of_not_mem decimal.point_notMem_front,
        List.splitOn_eq_singleton (hplaces.notMem (by decide))]

theorem decimalValue_text (decimal : Decimal) : decimalValue decimal.text = some decimal.value := by
  rw [decimalValue, cutSign_text, value, places, unsigned]
  cases hfraction : decimal.fraction with
  | none =>
      have hsplit : decimal.whole.splitOn '.' = [decimal.whole] :=
        List.splitOn_eq_singleton (decimal.isDigits_whole.notMem (by decide))
      simp only [hsplit, decimal.whole_valid, if_true, Option.getD_none, List.append_nil,
        List.length_nil, pow_zero, div_one]
  | some digits =>
      have hdigits := (isNumeral_iff.mp (decimal.fraction_valid digits hfraction)).2
      have hnumeral : isNumeral 10 (decimal.whole ++ digits) = true :=
        isNumeral_iff.mpr ⟨List.append_ne_nil_of_left_ne_nil
          (isNumeral_iff.mp decimal.whole_valid).1 digits, decimal.isDigits_whole.append hdigits⟩
      simp only [splitOn_point decimal.isDigits_whole hdigits, hnumeral, if_true,
        Option.getD_some]

/-- A numeral that is cut after some places is its value rounded down. -/
theorem floor_mul_pow (whole places : Text) (hplaces : IsDigits places) (n : ℕ) :
    ⌊(numeralValue 10 (whole ++ places) : ℚ) / 10 ^ places.length * 10 ^ n⌋ =
      numeralValue 10 (whole ++ (places.take n).rightpad n '0') := by
  have hpower : (0 : ℚ) < 10 ^ n := by positivity
  rcases Nat.le_total places.length n with hshort | hlong
  · rw [List.take_of_length_le hshort, ← numeralValue_rightpad_div hshort,
      div_mul_cancel₀ _ hpower.ne', Int.floor_natCast]
  · have hlength : (places.take n).length = n := List.length_take_of_le hlong
    have hpadded : (places.take n).rightpad n '0' = places.take n := by
      rw [List.rightpad, hlength, Nat.sub_self, List.replicate_zero, List.append_nil]
    have hparts : numeralValue 10 (whole ++ places) =
        numeralValue 10 (whole ++ places.take n) * 10 ^ (places.length - n) +
          numeralValue 10 (places.drop n) := by
      conv_lhs => rw [← List.take_append_drop n places, ← List.append_assoc]
      rw [numeralValue_append, List.length_drop]
    have hrest : (numeralValue 10 (places.drop n) : ℚ) < 10 ^ (places.length - n) := by
      have hlt := numeralValue_lt (hplaces.drop n)
      rw [List.length_drop] at hlt
      exact_mod_cast hlt
    have hsplit : (10 : ℚ) ^ places.length = 10 ^ (places.length - n) * 10 ^ n := by
      rw [← pow_add, Nat.sub_add_cancel hlong]
    have hscale : (0 : ℚ) < 10 ^ (places.length - n) := by positivity
    have hvalue : (numeralValue 10 (whole ++ places) : ℚ) / 10 ^ places.length * 10 ^ n =
        numeralValue 10 (whole ++ places.take n) +
          numeralValue 10 (places.drop n) / 10 ^ (places.length - n) := by
      rw [hparts, hsplit]
      push_cast
      field_simp
    rw [hpadded, hvalue, Int.floor_eq_iff]
    refine ⟨?_, ?_⟩
    · push_cast
      exact le_add_of_nonneg_right (by positivity)
    · push_cast
      exact add_lt_add_right ((div_lt_one hscale).mpr hrest) _

/-- `/^[+-]?\d+(?:\.\d+)?$/`. -/
def matchesDecimal (text : Text) : Bool :=
  match (cutSign text).2.splitOn '.' with
  | [whole] => isNumeral 10 whole
  | [whole, fraction] => isNumeral 10 whole && isNumeral 10 fraction
  | _ => false

theorem matchesDecimal_text (decimal : Decimal) : matchesDecimal decimal.text = true := by
  rw [matchesDecimal, cutSign_text, unsigned]
  cases hfraction : decimal.fraction with
  | none =>
      have hsplit : decimal.whole.splitOn '.' = [decimal.whole] :=
        List.splitOn_eq_singleton (decimal.isDigits_whole.notMem (by decide))
      simp only [hsplit, decimal.whole_valid]
  | some digits =>
      have hvalid := decimal.fraction_valid digits hfraction
      simp only [splitOn_point decimal.isDigits_whole (isNumeral_iff.mp hvalid).2,
        decimal.whole_valid, hvalid, Bool.and_self]

theorem exists_sign (text : Text) : ∃ sign, sign ∈ [[], ['+'], ['-']] ∧
    text = sign ++ (cutSign text).2 := by
  rw [cutSign.eq_def]
  split
  · exact ⟨['-'], by decide, rfl⟩
  · exact ⟨['+'], by decide, rfl⟩
  · exact ⟨[], by decide, rfl⟩

/-- What matches is a decimal numeral. -/
theorem exists_of_matchesDecimal {text : Text} (hmatches : matchesDecimal text = true) :
    ∃ decimal : Decimal, decimal.text = text := by
  obtain ⟨sign, hsign, htext⟩ := exists_sign text
  have hparts : ['.'].intercalate ((cutSign text).2.splitOn '.') = (cutSign text).2 :=
    List.intercalate_splitOn '.'
  rw [matchesDecimal] at hmatches
  split at hmatches
  · next whole hsplit =>
      refine ⟨⟨sign, whole, none, hsign, hmatches, by simp⟩, ?_⟩
      rw [hsplit] at hparts
      rw [htext, ← hparts, Decimal.text, unsigned]
      simp
  · next whole fraction hsplit =>
      obtain ⟨hwhole, hfraction⟩ := Bool.and_eq_true_iff.mp hmatches
      refine ⟨⟨sign, whole, some fraction, hsign, hwhole, by simpa using hfraction⟩, ?_⟩
      rw [hsplit] at hparts
      rw [htext, ← hparts, Decimal.text, unsigned]
      simp [List.intercalate]
  · cases hmatches

end Decimal

end X402Facilitator
