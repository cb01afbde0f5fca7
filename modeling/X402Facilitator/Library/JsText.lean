import Mathlib.Algebra.Order.Field.Rat
import Mathlib.Data.Int.Log
import Mathlib.Data.Rat.Floor
import X402Facilitator.Library.Utf16

/-!
# Texts, strings and numbers of JavaScript

Texts are lists of characters here.  The conversions follow the grammar of the
language: `Number` and `parseInt` round to the nearest double, `BigInt` is exact.
A string from outside is any sequence of code units: a surrogate can be alone in it,
and then it is not the text of any characters.
-/

namespace X402Facilitator

/-- White space and line terminators, as `trim` knows them. -/
def isTrimmed (c : Char) : Bool :=
  c.toNat ∈ [9, 10, 11, 12, 13, 32, 160, 5760, 8232, 8233, 8239, 8287, 12288, 65279] ||
    (8192 ≤ c.toNat && c.toNat ≤ 8202)

abbrev Text := List Char

namespace Text

def trimStart (text : Text) : Text := text.dropWhile isTrimmed

def trim (text : Text) : Text := (trimStart (trimStart text).reverse).reverse

/-- `split` at a separator that is a character twice. -/
def splitPair (c : Char) : Text → List Text
  | [] => [[]]
  | [d] => [[d]]
  | d :: e :: rest =>
      if d = c ∧ e = c then [] :: splitPair c rest
      else (splitPair c (e :: rest)).modifyHead (d :: ·)

/-- What follows the last occurrence of a character. -/
def afterLast (c : Char) (text : Text) : Text := (text.reverse.takeWhile (· ≠ c)).reverse

/-- All up to the last occurrence of a character, and with it. -/
def throughLast (c : Char) (text : Text) : Text := (text.reverse.dropWhile (· ≠ c)).reverse

/-- The two sides of the last occurrence of a character. -/
def splitLast (c : Char) (text : Text) : Option (Text × Text) :=
  if c ∈ text then some ((throughLast c text).dropLast, afterLast c text) else none

/-- A frame ends at the first separator. -/
theorem append_cons_injective {c : Char} {first second rest rest' : Text} (hfirst : c ∉ first)
    (hsecond : c ∉ second) (heq : first ++ c :: rest = second ++ c :: rest') :
    first = second ∧ rest = rest' := by
  have htake : ∀ {frame rest : Text}, c ∉ frame →
      (frame ++ c :: rest).takeWhile (· ≠ c) = frame := by
    intro frame rest hframe
    rw [List.takeWhile_append_of_pos, List.takeWhile_cons_of_neg (by simp), List.append_nil]
    intro d hd
    simp only [decide_eq_true_eq]
    rintro rfl
    exact hframe hd
  have hframes := congrArg (List.takeWhile (· ≠ c)) heq
  rw [htake hfirst, htake hsecond] at hframes
  subst hframes
  exact ⟨rfl, (List.cons.inj (List.append_cancel_left heq)).2⟩

theorem toList_toString (n : ℕ) : (toString n).toList = Nat.toDigits 10 n := by
  rw [Nat.toString_eq_ofList_toDigits, String.toList_ofList]

/-- A number in front of a separator can be read back. -/
theorem toDigits_append_injective {c : Char} {m n : ℕ} {rest rest' : Text}
    (hc : c.isDigit = false)
    (heq : Nat.toDigits 10 m ++ c :: rest = Nat.toDigits 10 n ++ c :: rest') :
    m = n ∧ rest = rest' := by
  have hnot : ∀ n, c ∉ Nat.toDigits 10 n := by
    intro n hmem
    rw [Nat.isDigit_of_mem_toDigits (by decide) (by decide) hmem] at hc
    cases hc
  obtain ⟨hdigits, hrest⟩ := append_cons_injective (hnot m) (hnot n) heq
  have hvalues := congrArg (fun digits => Nat.ofDigitChars 10 digits 0) hdigits
  simp only [Nat.ofDigitChars_ten_toDigits] at hvalues
  exact ⟨hvalues, hrest⟩

/-- `toString('hex')` of the bytes of a buffer. -/
def hex (bytes : List UInt8) : Text :=
  bytes.flatMap fun byte => [Nat.digitChar (byte.toNat / 16), Nat.digitChar (byte.toNat % 16)]

end Text

def digitValue (c : Char) : Option ℕ :=
  if '0' ≤ c ∧ c ≤ '9' then some (c.toNat - 48)
  else if 'a' ≤ c ∧ c ≤ 'z' then some (c.toNat - 87)
  else if 'A' ≤ c ∧ c ≤ 'Z' then some (c.toNat - 55)
  else none

def isDigitIn (radix : ℕ) (c : Char) : Bool :=
  match digitValue c with
  | some value => decide (value < radix)
  | none => false

def isNumeral (radix : ℕ) (text : Text) : Bool := !text.isEmpty && text.all (isDigitIn radix)

def numeralValue (radix : ℕ) (digits : Text) : ℕ :=
  digits.foldl (fun value c => value * radix + (digitValue c).getD 0) 0

/-- The radix of a literal that starts with a zero and this mark. -/
def radixOfMark : Char → Option ℕ
  | 'x' | 'X' => some 16
  | 'o' | 'O' => some 8
  | 'b' | 'B' => some 2
  | _ => none

def radixLiteral : Text → Option ℕ
  | '0' :: mark :: digits =>
      (radixOfMark mark).bind fun radix =>
        if isNumeral radix digits then some (numeralValue radix digits) else none
  | _ => none

/-- Whether a text starts with a minus sign, and what follows its sign. -/
def cutSign : Text → Bool × Text
  | '-' :: rest => (true, rest)
  | '+' :: rest => (false, rest)
  | text => (false, text)

/-- `BigInt` of a string, none for a `SyntaxError`. -/
def bigIntOfText (text : Text) : Option ℤ :=
  let literal := Text.trim text
  if literal.isEmpty then some 0
  else match radixLiteral literal with
    | some value => some value
    | none =>
        let (negative, digits) := cutSign literal
        if isNumeral 10 digits then
          some (if negative then -numeralValue 10 digits else numeralValue 10 digits)
        else none

/-- `parseInt` with radix 10, none for `NaN`. -/
def parseInt (text : Text) : Option ℤ :=
  let (negative, rest) := cutSign (Text.trimStart text)
  let digits := rest.takeWhile (isDigitIn 10)
  if digits = [] then none
  else some (if negative then -numeralValue 10 digits else numeralValue 10 digits)

inductive Number where
  | nan
  | infinity (negative : Bool)
  | finite (value : ℚ)
  deriving DecidableEq, Repr

namespace Number

/-- The distance between the doubles around a value. -/
def quantum (value : ℚ) : ℚ := 2 ^ max (Int.log 2 |value| - 52) (-1074)

def roundHalfEven (value : ℚ) : ℤ :=
  let down := ⌊value⌋
  if value - down < 1 / 2 then down
  else if value - down = 1 / 2 ∧ down % 2 = 0 then down
  else down + 1

def rounded (value : ℚ) : ℚ := roundHalfEven (value / quantum value) * quantum value

/-- The nearest double, infinite from `2 ^ 1024` on. -/
def nearest (value : ℚ) : Number :=
  if 2 ^ 1024 ≤ |rounded value| then .infinity (decide (value < 0)) else .finite (rounded value)

/-- A numeral with a power of ten. -/
def ofScientific (numeral : ℕ) (exponent : ℤ) : Number := nearest (numeral * 10 ^ exponent)

def negate : Number → Number
  | nan => .nan
  | infinity negative => .infinity !negative
  | finite value => .finite (-value)

def signed (negative : Bool) (number : Number) : Number :=
  if negative then number.negate else number

def isInteger : Number → Bool
  | finite value => value.isInt
  | _ => false

def isFinite : Number → Bool
  | finite _ => true
  | _ => false

/-- `number < 0`. -/
def isNegative : Number → Bool
  | nan => false
  | infinity negative => negative
  | finite value => decide (value < 0)

/-- `number > bound`. -/
def exceeds : Number → ℕ → Bool
  | nan, _ => false
  | infinity negative, _ => !negative
  | finite value, bound => decide ((bound : ℚ) < value)

/-- `BigInt` of a number, none for a `RangeError`. -/
def toBigInt : Number → Option ℤ
  | finite value => if value.isInt then some value.num else none
  | _ => none

def exponentPart : Text → Option ℤ
  | [] => some 0
  | _ :: text =>
      let (negative, digits) := cutSign text
      if isNumeral 10 digits then
        some (if negative then -numeralValue 10 digits else numeralValue 10 digits)
      else none

def isExponentMark (c : Char) : Bool := c = 'e' || c = 'E'

def decimal (text : Text) : Option Number :=
  let mantissa := text.takeWhile fun c => !isExponentMark c
  let whole := mantissa.takeWhile (· ≠ '.')
  let fraction := (mantissa.dropWhile (· ≠ '.')).tail
  if isNumeral 10 (whole ++ fraction) then
    (exponentPart (text.dropWhile fun c => !isExponentMark c)).map fun exponent =>
      ofScientific (numeralValue 10 (whole ++ fraction)) (exponent - fraction.length)
  else none

/-- `Number` of a string. -/
def ofText (text : Text) : Number :=
  let literal := Text.trim text
  if literal.isEmpty then .finite 0
  else match radixLiteral literal with
    | some value => ofScientific value 0
    | none =>
        let (negative, rest) := cutSign literal
        if rest = "Infinity".toList then .infinity negative
        else ((decimal rest).getD .nan).signed negative

/-- `parseInt` of a string in radix 16. -/
def parseHex (text : Text) : Number :=
  let (negative, rest) := cutSign (Text.trimStart text)
  let body := match rest with
    | '0' :: 'x' :: digits => digits
    | '0' :: 'X' :: digits => digits
    | digits => digits
  let digits := body.takeWhile (isDigitIn 16)
  if digits.isEmpty then .nan
  else (ofScientific (numeralValue 16 digits) 0).signed negative

end Number

namespace Text

variable {c d : Char} {text : Text}

theorem mem_of_mem_trimStart (hmem : d ∈ trimStart text) : d ∈ text :=
  (List.dropWhile_sublist isTrimmed).subset hmem

theorem mem_of_mem_trim (hmem : d ∈ trim text) : d ∈ text := by
  have hinner := mem_of_mem_trimStart (List.mem_reverse.mp hmem)
  exact mem_of_mem_trimStart (List.mem_reverse.mp hinner)

/-- A text without the separator stays in one piece. -/
theorem splitPair_of_notMem (hnot : c ∉ text) : splitPair c text = [text] := by
  induction text with
  | nil => rfl
  | cons d rest ih =>
      cases rest with
      | nil => rfl
      | cons e rest =>
          have hne : ¬ (d = c ∧ e = c) := fun h => hnot (by simp [h.1])
          rw [splitPair, if_neg hne, ih fun hmem => hnot (List.mem_cons_of_mem d hmem)]
          rfl

theorem isDigitIn_digitChar : ∀ n < 16, isDigitIn 16 (Nat.digitChar n) = true := by decide

theorem isDigitIn_of_mem_hex {bytes : List UInt8} (hmem : c ∈ hex bytes) :
    isDigitIn 16 c = true := by
  obtain ⟨byte, -, hc⟩ := List.mem_flatMap.mp hmem
  have hbyte := byte.toNat_lt
  simp only [List.mem_cons, List.not_mem_nil, or_false] at hc
  rcases hc with rfl | rfl
  · exact isDigitIn_digitChar _ (by omega)
  · exact isDigitIn_digitChar _ (by omega)

end Text

abbrev JsString := List UInt16

instance : LawfulBEq JsString := inferInstanceAs (LawfulBEq (List UInt16))

namespace JsString

def ofText (text : Text) : JsString := (Utf16.encode text).map UInt16.ofNat

def js (literal : String) : JsString := ofText literal.toList

/-- The characters of a string, none where a surrogate is alone. -/
def toText? (string : JsString) : Option Text := Utf16.decode (string.map UInt16.toNat)

def isWellFormed (string : JsString) : Bool := string.toText?.isSome

/-- What a test on single characters sees of a code unit. -/
def charOf (unit : UInt16) : Char := Char.ofNat unit.toNat

def chars (string : JsString) : Text := string.map charOf

/-- The code unit of a character that needs only one. -/
def unitOf (c : Char) : UInt16 := UInt16.ofNat c.toNat

def trimStart (string : JsString) : JsString := string.dropWhile fun unit => isTrimmed (charOf unit)

def trim (string : JsString) : JsString := (trimStart (trimStart string).reverse).reverse

def includes (string part : JsString) : Bool := string.tails.any part.isPrefixOf

section Characters

variable {c : Char} {text : Text} {string : JsString}

theorem ofText_append (first second : Text) :
    ofText (first ++ second) = ofText first ++ ofText second := by
  simp only [ofText, Utf16.encode, List.flatMap_append, List.map_append]

theorem ofText_cons (c : Char) (text : Text) : ofText (c :: text) = ofText [c] ++ ofText text :=
  ofText_append [c] text

theorem map_toNat_ofText (text : Text) : (ofText text).map UInt16.toNat = Utf16.encode text := by
  rw [ofText, List.map_map]
  refine (List.map_congr_left fun unit hunit => ?_).trans (List.map_id _)
  obtain ⟨c, -, hc⟩ := List.mem_flatMap.mp hunit
  exact UInt16.toNat_ofNat_of_lt' (Utf16.lt_of_mem_units hc)

theorem toText?_ofText (text : Text) : (ofText text).toText? = some text := by
  rw [toText?, map_toNat_ofText, Utf16.decode_encode]

/-- A string that is well formed is that of its characters. -/
theorem ofText_of_toText? (htext : string.toText? = some text) : ofText text = string := by
  have hencode := Utf16.encode_of_decode
    (fun unit hunit => by
      obtain ⟨unit, -, rfl⟩ := List.mem_map.mp hunit
      exact unit.toNat_lt) htext
  rw [ofText, hencode, List.map_map]
  refine (List.map_congr_left fun unit _ => ?_).trans (List.map_id _)
  exact UInt16.ofNat_toNat

theorem ofText_injective : Function.Injective ofText := by
  intro first second heq
  have htexts := congrArg toText? heq
  rw [toText?_ofText, toText?_ofText] at htexts
  exact Option.some.inj htexts

theorem ofText_singleton (hc : c.toNat < 0x10000) : ofText [c] = [unitOf c] := by
  simp [ofText, Utf16.encode, Utf16.units, hc, unitOf]

/-- A character that needs two code units is that of a pair. -/
theorem pair_of_large (hlarge : 0x10000 ≤ c.toNat) : ∃ high low : UInt16,
    ofText [c] = [high, low] ∧ Utf16.isHigh high.toNat = true ∧ Utf16.isLow low.toNat = true ∧
      Char.ofNat (0x10000 + (high.toNat - 0xD800) * 0x400 + (low.toNat - 0xDC00)) = c := by
  obtain ⟨high, low, hunits, hhigh, hlow, hchar⟩ := Utf16.pair_of_large hlarge
  have hhigh' : high < 0x10000 := Utf16.lt_of_mem_units (hunits ▸ List.mem_cons_self)
  have hlow' : low < 0x10000 :=
    Utf16.lt_of_mem_units (hunits ▸ List.mem_cons_of_mem _ List.mem_cons_self)
  refine ⟨.ofNat high, .ofNat low, ?_, ?_⟩
  · rw [ofText, Utf16.encode, List.flatMap_singleton, hunits, List.map_cons, List.map_cons,
      List.map_nil]
  · rw [UInt16.toNat_ofNat_of_lt' hhigh', UInt16.toNat_ofNat_of_lt' hlow']
    exact ⟨hhigh, hlow, hchar⟩

theorem charOf_unitOf (hc : c.toNat < 0x10000) : charOf (unitOf c) = c := by
  rw [charOf, unitOf, UInt16.toNat_ofNat_of_lt' hc, Char.ofNat_toNat]

/-- A code unit that is seen as a character is that character's. -/
theorem eq_unitOf {unit : UInt16} (hc : charOf unit = c) (hzero : c.toNat ≠ 0) :
    unit = unitOf c := by
  by_cases hvalid : unit.toNat.isValidChar
  · rw [unitOf, ← hc, charOf, Utf16.toNat_ofNat hvalid, UInt16.ofNat_toNat]
  · rw [charOf, Char.ofNat, dif_neg hvalid] at hc
    exact absurd (congrArg Char.toNat hc).symm hzero

/-- A text of characters with one code unit each. -/
theorem ofText_eq_map (htext : ∀ c ∈ text, c.toNat < 0x10000) : ofText text = text.map unitOf := by
  induction text with
  | nil => rfl
  | cons c text ih =>
      rw [ofText_cons, ofText_singleton (htext c List.mem_cons_self),
        ih fun d hd => htext d (List.mem_cons_of_mem c hd)]
      rfl

theorem chars_ofText (htext : ∀ c ∈ text, c.toNat < 0x10000) : (ofText text).chars = text := by
  rw [ofText_eq_map htext, chars, List.map_map]
  exact (List.map_congr_left fun c hc => charOf_unitOf (htext c hc)).trans (List.map_id _)

theorem unitOf_injOn {c d : Char} (hc : c.toNat < 0x10000) (hd : d.toNat < 0x10000)
    (heq : unitOf c = unitOf d) : c = d := by
  rw [← charOf_unitOf hc, heq, charOf_unitOf hd]

end Characters

end JsString

end X402Facilitator
