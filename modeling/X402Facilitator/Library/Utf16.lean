import Mathlib.Data.List.Basic
import Mathlib.Data.Nat.Notation
import Mathlib.Tactic.SplitIfs

/-!
# UTF-16

A character is one code unit, or a pair of surrogates.  Code units are numbers here.
-/

namespace X402Facilitator.Utf16

def units (c : Char) : List ℕ :=
  if c.toNat < 0x10000 then [c.toNat]
  else [0xD800 + (c.toNat - 0x10000) / 0x400, 0xDC00 + (c.toNat - 0x10000) % 0x400]

def encode (chars : List Char) : List ℕ := chars.flatMap units

def isHigh (unit : ℕ) : Bool := 0xD800 ≤ unit && unit < 0xDC00

def isLow (unit : ℕ) : Bool := 0xDC00 ≤ unit && unit < 0xE000

/-- The characters of code units, none where a surrogate is alone. -/
def decode : List ℕ → Option (List Char)
  | [] => some []
  | [unit] => if isHigh unit || isLow unit then none else some [Char.ofNat unit]
  | high :: low :: rest =>
      if isHigh high then
        if isLow low then
          (decode rest).map
            (Char.ofNat (0x10000 + (high - 0xD800) * 0x400 + (low - 0xDC00)) :: ·)
        else none
      else if isLow high then none
      else (decode (low :: rest)).map (Char.ofNat high :: ·)

theorem toNat_lt_or_gt (c : Char) : c.toNat < 0xD800 ∨ 0xDFFF < c.toNat ∧ c.toNat < 0x110000 :=
  c.valid

theorem decode_single {unit : ℕ} (hhigh : isHigh unit = false) (hlow : isLow unit = false)
    (rest : List ℕ) : decode (unit :: rest) = (decode rest).map (Char.ofNat unit :: ·) := by
  cases rest with
  | nil =>
      simp only [decode, hhigh, hlow]
      rfl
  | cons low rest =>
      rw [decode, hhigh, hlow]
      rfl

theorem decode_pair {high low : ℕ} (hhigh : isHigh high = true) (hlow : isLow low = true)
    (rest : List ℕ) : decode (high :: low :: rest) = (decode rest).map
      (Char.ofNat (0x10000 + (high - 0xD800) * 0x400 + (low - 0xDC00)) :: ·) := by
  rw [decode, if_pos hhigh, if_pos hlow]

theorem pair_of_large {c : Char} (hlarge : 0x10000 ≤ c.toNat) : ∃ high low,
    units c = [high, low] ∧ isHigh high = true ∧ isLow low = true ∧
      Char.ofNat (0x10000 + (high - 0xD800) * 0x400 + (low - 0xDC00)) = c := by
  have hvalid := toNat_lt_or_gt c
  have hsum : 0x10000 + (0xD800 + (c.toNat - 0x10000) / 0x400 - 0xD800) * 0x400 +
      (0xDC00 + (c.toNat - 0x10000) % 0x400 - 0xDC00) = c.toNat := by
    omega
  refine ⟨_, _, by rw [units, if_neg (Nat.not_lt.mpr hlarge)], ?_, ?_, ?_⟩
  · rw [isHigh, Bool.and_eq_true_iff, decide_eq_true_iff, decide_eq_true_iff]
    omega
  · rw [isLow, Bool.and_eq_true_iff, decide_eq_true_iff, decide_eq_true_iff]
    omega
  · rw [hsum, Char.ofNat_toNat]

/-- A character in front of code units is read back. -/
theorem decode_units_append (c : Char) (rest : List ℕ) :
    decode (units c ++ rest) = (decode rest).map (c :: ·) := by
  have hvalid := toNat_lt_or_gt c
  rw [units]
  split
  · next hsmall =>
      rw [List.singleton_append, decode_single ?_ ?_, Char.ofNat_toNat]
      · rw [isHigh, Bool.and_eq_false_iff, decide_eq_false_iff_not, decide_eq_false_iff_not]
        omega
      · rw [isLow, Bool.and_eq_false_iff, decide_eq_false_iff_not, decide_eq_false_iff_not]
        omega
  · next hlarge =>
      obtain ⟨high, low, hunits, hhigh, hlow, hchar⟩ := pair_of_large (Nat.not_lt.mp hlarge)
      rw [units, if_neg hlarge] at hunits
      rw [hunits, List.cons_append, List.singleton_append, decode_pair hhigh hlow, hchar]

theorem decode_encode (chars : List Char) : decode (encode chars) = some chars := by
  induction chars with
  | nil => rfl
  | cons c chars ih =>
      rw [encode, List.flatMap_cons, decode_units_append]
      exact congrArg (Option.map (c :: ·)) ih

theorem lt_of_mem_units {c : Char} {unit : ℕ} (hunit : unit ∈ units c) : unit < 0x10000 := by
  have hvalid := toNat_lt_or_gt c
  rw [units] at hunit
  split_ifs at hunit <;>
    simp only [List.mem_cons, List.not_mem_nil, or_false] at hunit <;> omega

theorem toNat_ofNat {n : ℕ} (hvalid : n < 0xD800 ∨ 0xDFFF < n ∧ n < 0x110000) :
    (Char.ofNat n).toNat = n := by
  rw [Char.ofNat, dif_pos hvalid]
  rfl

theorem units_ofNat {unit : ℕ} (hlt : unit < 0x10000) (hhigh : isHigh unit = false)
    (hlow : isLow unit = false) : units (Char.ofNat unit) = [unit] := by
  rw [isHigh, Bool.and_eq_false_iff, decide_eq_false_iff_not, decide_eq_false_iff_not] at hhigh
  rw [isLow, Bool.and_eq_false_iff, decide_eq_false_iff_not, decide_eq_false_iff_not] at hlow
  rw [units, toNat_ofNat (by omega), if_pos hlt]

theorem units_pair {high low : ℕ} (hhigh : isHigh high = true) (hlow : isLow low = true) :
    units (Char.ofNat (0x10000 + (high - 0xD800) * 0x400 + (low - 0xDC00))) = [high, low] := by
  rw [isHigh, Bool.and_eq_true_iff, decide_eq_true_iff, decide_eq_true_iff] at hhigh
  rw [isLow, Bool.and_eq_true_iff, decide_eq_true_iff, decide_eq_true_iff] at hlow
  rw [units, toNat_ofNat (by omega), if_neg (by omega)]
  have hfirst : 0xD800 + (0x10000 + (high - 0xD800) * 0x400 + (low - 0xDC00) - 0x10000) / 0x400 =
      high := by
    omega
  have hsecond : 0xDC00 + (0x10000 + (high - 0xD800) * 0x400 + (low - 0xDC00) - 0x10000) % 0x400 =
      low := by
    omega
  rw [hfirst, hsecond]

/-- Code units that have characters are the code units of these. -/
theorem encode_of_decode {string : List ℕ} (hlt : ∀ unit ∈ string, unit < 0x10000) :
    ∀ {chars}, decode string = some chars → encode chars = string := by
  fun_induction decode string with
  | case1 =>
      rintro chars heq
      cases heq
      rfl
  | case2 unit hsurrogate => rintro chars ⟨⟩
  | case3 unit hplain =>
      rintro chars heq
      obtain ⟨hhigh, hlow⟩ := Bool.or_eq_false_iff.mp (Bool.eq_false_iff.mpr hplain)
      cases heq
      rw [encode, List.flatMap_singleton, units_ofNat (hlt unit List.mem_cons_self) hhigh hlow]
  | case4 high low rest hhigh hlow ih =>
      rintro chars heq
      obtain ⟨tail, htail, rfl⟩ := Option.map_eq_some_iff.mp heq
      have hrest := ih (fun unit hunit =>
        hlt unit (List.mem_cons_of_mem high (List.mem_cons_of_mem low hunit))) htail
      rw [encode] at hrest ⊢
      rw [List.flatMap_cons, units_pair hhigh hlow, hrest]
      rfl
  | case5 high low rest hhigh hlow => rintro chars ⟨⟩
  | case6 high low rest hhigh hlow => rintro chars ⟨⟩
  | case7 high low rest hhigh hlow ih =>
      rintro chars heq
      obtain ⟨tail, htail, rfl⟩ := Option.map_eq_some_iff.mp heq
      have hrest := ih (fun unit hunit => hlt unit (List.mem_cons_of_mem high hunit)) htail
      rw [encode] at hrest ⊢
      rw [List.flatMap_cons, units_ofNat (hlt high List.mem_cons_self)
        (Bool.eq_false_iff.mpr hhigh) (Bool.eq_false_iff.mpr hlow), hrest]
      rfl

end X402Facilitator.Utf16
