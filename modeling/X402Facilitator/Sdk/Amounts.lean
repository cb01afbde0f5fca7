import X402Facilitator.Library.Decimals
import X402Facilitator.Library.Json

/-!
# Amounts of the client library

An amount is a decimal numeral, or a count of stroops.  What has more places than a stroop
is cut, so that the conversion rounds down.
-/

namespace X402Facilitator.Sdk

open JsString

def STELLAR_DECIMALS : ℕ := 7

/-- A value that a caller gives; a number is known by its printed text. -/
inductive Value where
  | text (value : JsString)
  | bigint (value : ℤ)
  | number (printed : NumberText)

/-- `String(value)`. -/
def Value.toJsString : Value → JsString
  | text value => value
  | bigint value => ofText (printInt value)
  | number printed => ofText printed.chars

inductive Thrown where
  | error (message : JsString)
  | syntaxError
  deriving DecidableEq

/-- The errors of an amount, none of them where it is accepted. -/
def validateAmount : Option Value → List JsString
  | none => [js "pricing.amount is required"]
  | some (.bigint _) => []
  | some (.number _) =>
      [js "pricing.amount must be a decimal numeric string; numbers lose precision " ++
        js "before stroop conversion"]
  | some (.text amount) =>
      if amount = [] then [js "pricing.amount is required"]
      else if Decimal.matchesDecimal amount.chars = false then
        [js "pricing.amount \"" ++ amount ++ js "\" is not a valid decimal numeric string"]
      else if '-' ∈ amount.chars.head? then
        [js "pricing.amount must not be negative (got \"" ++ amount ++ js "\")"]
      else []

/-- `replace(/^\+/, '')`. -/
def dropPlus : Text → Text
  | '+' :: rest => rest
  | text => text

def toStroops (amount : Option Value) : Except Thrown Text :=
  match validateAmount amount, amount with
  | error :: _, _ => .error (.error error)
  | [], some (.bigint value) => .ok (printInt value)
  | [], some (.text value) =>
      let parts := value.chars.splitOn '.'
      let intPart := parts.headD []
      let fracPart := parts.tail.headD []
      let truncatedFrac := fracPart.take STELLAR_DECIMALS
      let paddedFrac := truncatedFrac.rightpad STELLAR_DECIMALS '0'
      match bigIntOfText (dropPlus intPart ++ paddedFrac) with
      | some stroops => .ok (printInt stroops)
      | none => .error .syntaxError
  | [], _ => .error .syntaxError

def stroopsOf (amount : Decimal) : ℕ :=
  numeralValue 10
    (amount.whole ++ (amount.places.take STELLAR_DECIMALS).rightpad STELLAR_DECIMALS '0')

section Accepted

variable {amount : JsString} {decimal : Decimal}

/-- A string is accepted where it is a numeral without a minus sign. -/
theorem validateAmount_text (htext : amount.chars = decimal.text) :
    validateAmount (some (.text amount)) = [] ↔ decimal.isNegative = false := by
  have hne : amount ≠ [] := by
    rintro rfl
    have hwhole := (isNumeral_iff.mp decimal.whole_valid).1
    have hnil : decimal.text = [] := htext.symm
    rw [Decimal.text, List.append_eq_nil_iff, Decimal.unsigned] at hnil
    cases hfraction : decimal.fraction with
    | none =>
        rw [hfraction] at hnil
        exact hwhole hnil.2
    | some digits =>
        rw [hfraction] at hnil
        exact List.append_ne_nil_of_left_ne_nil hwhole _ hnil.2
  have hhead : ('-' ∈ amount.chars.head?) ↔ decimal.isNegative = true := by
    have hcut := decimal.cutSign_text
    rw [htext]
    constructor
    · intro hminus
      obtain ⟨rest, hrest⟩ := List.head?_eq_some_iff.mp hminus
      rw [hrest] at hcut
      exact (congrArg Prod.fst hcut).symm
    · intro hnegative
      rw [Decimal.text, of_decide_eq_true hnegative]
      rfl
  rw [validateAmount, if_neg hne, htext, Decimal.matchesDecimal_text,
    if_neg (by decide), ← htext]
  split
  · next hminus => simp [hhead.mp hminus]
  · next hplus => simpa using fun hnegative => hplus (hhead.mpr hnegative)

/-- Every string that is accepted is such a numeral. -/
theorem exists_of_validateAmount (haccepted : validateAmount (some (.text amount)) = []) :
    ∃ decimal : Decimal, amount.chars = decimal.text ∧ decimal.isNegative = false := by
  have hmatches : Decimal.matchesDecimal amount.chars = true := by
    by_contra hnot
    rw [validateAmount] at haccepted
    split at haccepted
    · cases haccepted
    · rw [if_pos (Bool.eq_false_iff.mpr hnot)] at haccepted
      cases haccepted
  obtain ⟨decimal, htext⟩ := Decimal.exists_of_matchesDecimal hmatches
  exact ⟨decimal, htext.symm, (validateAmount_text htext.symm).mp haccepted⟩

theorem toStroops_of_text (htext : amount.chars = decimal.text)
    (hpositive : decimal.isNegative = false) :
    toStroops (some (.text amount)) = .ok (Nat.toDigits 10 (stroopsOf decimal)) := by
  have hwhole := decimal.isDigits_whole
  have hplaces := decimal.isDigits_places
  have hsign : decimal.sign = [] ∨ decimal.sign = ['+'] := by
    have hvalid := decimal.sign_valid
    simp only [List.mem_cons, List.not_mem_nil, or_false] at hvalid
    rcases hvalid with hnone | hplus | hminus
    · exact .inl hnone
    · exact .inr hplus
    · exact absurd hminus (of_decide_eq_false hpositive)
  have hdrop : dropPlus (decimal.sign ++ decimal.whole) = decimal.whole := by
    rcases hsign with hsign | hsign
    · have hhead := hwhole.head_ne [] (by simp)
      rw [List.append_nil] at hhead
      rw [hsign, List.nil_append, dropPlus.eq_def]
      split
      · next heq => exact absurd rfl (hhead '+' (by rw [heq]; rfl)).2
      · rfl
    · rw [hsign]
      rfl
  obtain ⟨rest, hparts, hrest⟩ := decimal.splitOn_text
  have hdigits := hwhole.append ((hplaces.take STELLAR_DECIMALS).rightpad STELLAR_DECIMALS)
  simp only [toStroops, (validateAmount_text htext).mpr hpositive, htext, hparts, hrest, hdrop,
    List.headD_cons, List.tail_cons, bigIntOfText_of_isDigits hdigits, printInt_natCast]
  rfl

/-- The stroops are the value of the numeral in stroops, rounded down. -/
theorem stroopsOf_eq_floor (hpositive : decimal.isNegative = false) :
    (stroopsOf decimal : ℤ) = ⌊decimal.value * 10 ^ STELLAR_DECIMALS⌋ := by
  rw [Decimal.value, hpositive]
  exact (Decimal.floor_mul_pow _ _ decimal.isDigits_places _).symm

end Accepted

end X402Facilitator.Sdk
