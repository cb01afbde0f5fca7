import Mathlib.Algebra.BigOperators.Group.List.Basic
import X402Facilitator.Library.Decimals
import X402Facilitator.Library.Encodings

/-!
# Percent-encoding

`encodeURIComponent` writes the UTF-8 bytes of a character as escapes, except for letters,
digits and a few marks; it throws for a surrogate that is alone.  `decodeURIComponent` reads
it back, and leaves all else as it is.
-/

namespace X402Facilitator.JsString

/-- What `encodeURIComponent` leaves as it is. -/
def isUnreserved (c : Char) : Bool :=
  ('A' ≤ c && c ≤ 'Z') || ('a' ≤ c && c ≤ 'z') || ('0' ≤ c && c ≤ '9') ||
    c ∈ "-_.!~*'()".toList

def upperHexDigit (n : ℕ) : Char := if n < 10 then Char.ofNat (48 + n) else Char.ofNat (55 + n)

def escapeByte (byte : ℕ) : Text := ['%', upperHexDigit (byte / 16), upperHexDigit (byte % 16)]

def encodeChar (c : Char) : Text :=
  if isUnreserved c then [c] else (Utf8.bytes c).flatMap escapeByte

/-- `encodeURIComponent`, none for a `URIError`. -/
def encodeURIComponent (string : JsString) : Option JsString :=
  string.toText?.map fun text => ofText (text.flatMap encodeChar)

/-- The byte of the escape that a string starts with, and what follows it. -/
def escapedByte : JsString → Option (ℕ × JsString)
  | percent :: high :: low :: rest =>
      if charOf percent = '%' ∧ isDigitIn 16 (charOf high) = true ∧
          isDigitIn 16 (charOf low) = true then
        some (numeralValue 16 [charOf high, charOf low], rest)
      else none
  | _ => none

def escapedBytes : ℕ → JsString → Option (List ℕ × JsString)
  | 0, string => some ([], string)
  | count + 1, string =>
      (escapedByte string).bind fun first =>
        (escapedBytes count first.2).map fun read => (first.1 :: read.1, read.2)

def decodeWith : ℕ → JsString → Option JsString
  | _, [] => some []
  | 0, _ :: _ => none
  | fuel + 1, unit :: rest =>
      if charOf unit = '%' then
        (escapedByte (unit :: rest)).bind fun first =>
          (Utf8.sequenceLength first.1).bind fun count =>
            (escapedBytes count (unit :: rest)).bind fun read =>
              (Utf8.character read.1).bind fun c =>
                (decodeWith fuel read.2).map (ofText [c] ++ ·)
      else (decodeWith fuel rest).map (unit :: ·)

/-- `decodeURIComponent`, none for a `URIError`. -/
def decodeURIComponent (string : JsString) : Option JsString := decodeWith string.length string

def isEncoded (c : Char) : Bool := isUnreserved c || c = '%'

theorem upperHexDigit_spec : ∀ n < 16, isUnreserved (upperHexDigit n) = true ∧
    isDigitIn 16 (upperHexDigit n) = true ∧ digitValue (upperHexDigit n) = some n := by decide

variable {c : Char} {text : Text}

theorem toNat_lt_of_isUnreserved (hc : isUnreserved c = true) : c.toNat < 0x80 := by
  have hle : ∀ {a b : Char}, a ≤ b ↔ a.toNat ≤ b.toNat := UInt32.le_iff_toNat_le
  simp only [isUnreserved, Bool.or_eq_true, Bool.and_eq_true, decide_eq_true_eq, hle] at hc
  rcases hc with ((hc | hc) | hc) | hc
  · exact hc.2.trans_lt (by decide)
  · exact hc.2.trans_lt (by decide)
  · exact hc.2.trans_lt (by decide)
  · have hall : ("-_.!~*'()".toList.all fun d => d.toNat < 0x80) = true := by decide
    exact of_decide_eq_true (List.all_eq_true.mp hall c hc)

theorem toNat_lt_of_isEncoded (hc : isEncoded c = true) : c.toNat < 0x80 := by
  rcases Bool.or_eq_true_iff.mp hc with hc | hc
  · exact toNat_lt_of_isUnreserved hc
  · rw [of_decide_eq_true hc]
    decide

theorem isEncoded_of_mem_escapeByte {byte : ℕ} (hbyte : byte < 256) (hc : c ∈ escapeByte byte) :
    isEncoded c = true := by
  have hhigh := (upperHexDigit_spec (byte / 16) (by omega)).1
  have hlow := (upperHexDigit_spec (byte % 16) (by omega)).1
  simp only [escapeByte, List.mem_cons, List.not_mem_nil, or_false] at hc
  rcases hc with rfl | rfl | rfl
  · rfl
  · rw [isEncoded, hhigh, Bool.true_or]
  · rw [isEncoded, hlow, Bool.true_or]

theorem isEncoded_of_mem_encodeChar {d : Char} (hd : d ∈ encodeChar c) : isEncoded d = true := by
  rw [encodeChar] at hd
  split at hd
  · next hplain =>
      rw [List.mem_singleton.mp hd, isEncoded, hplain, Bool.true_or]
  · obtain ⟨byte, hbyte, hd⟩ := List.mem_flatMap.mp hd
    exact isEncoded_of_mem_escapeByte (Utf8.bytes_lt hbyte) hd

theorem isEncoded_of_mem (hc : c ∈ text.flatMap encodeChar) : isEncoded c = true := by
  obtain ⟨d, -, hd⟩ := List.mem_flatMap.mp hc
  exact isEncoded_of_mem_encodeChar hd

/-- How many code units a code unit is encoded in. -/
def unitLength (unit : UInt16) : ℕ :=
  if isUnreserved (charOf unit) then 1
  else if unit.toNat < 0x80 then 3
  else if unit.toNat < 0x800 ∨ Utf16.isHigh unit.toNat ∨ Utf16.isLow unit.toNat then 6
  else 9

def encodedLength (string : JsString) : ℕ := (string.map unitLength).sum

theorem unitLength_pos (unit : UInt16) : 0 < unitLength unit := by
  rw [unitLength]
  split_ifs <;> decide

theorem length_flatMap_escapeByte (bytes : List ℕ) :
    (bytes.flatMap escapeByte).length = 3 * bytes.length := by
  induction bytes with
  | nil => rfl
  | cons byte bytes ih =>
      rw [List.flatMap_cons, List.length_append, ih, List.length_cons, Nat.mul_succ, Nat.add_comm]
      rfl

theorem length_ofText_of_isEncoded (htext : ∀ c ∈ text, isEncoded c = true) :
    (ofText text).length = text.length := by
  rw [ofText_eq_map fun c hc => (toNat_lt_of_isEncoded (htext c hc)).trans (by decide),
    List.length_map]

theorem not_isUnreserved_of_le (hc : 0x80 ≤ c.toNat) : isUnreserved c = false :=
  Bool.eq_false_iff.mpr fun hplain => not_le.mpr (toNat_lt_of_isUnreserved hplain) hc

theorem isUnreserved_charOf {unit : UInt16} (hunit : 0x80 ≤ unit.toNat) :
    isUnreserved (charOf unit) = false := by
  by_cases hvalid : unit.toNat < 0xD800 ∨ 0xDFFF < unit.toNat ∧ unit.toNat < 0x110000
  · refine not_isUnreserved_of_le ?_
    rwa [charOf, Utf16.toNat_ofNat hvalid]
  · rw [charOf, Char.ofNat, dif_neg hvalid]
    decide

theorem length_encodeChar (c : Char) :
    (ofText (encodeChar c)).length = encodedLength (ofText [c]) := by
  have hvalid := Utf8.toNat_valid c
  rw [length_ofText_of_isEncoded fun d hd => isEncoded_of_mem_encodeChar hd]
  by_cases hsmall : c.toNat < 0x10000
  · have hunit : (unitOf c).toNat = c.toNat := UInt16.toNat_ofNat_of_lt' hsmall
    have hhigh : Utf16.isHigh c.toNat = false := by
      rw [Utf16.isHigh, Bool.and_eq_false_iff, decide_eq_false_iff_not, decide_eq_false_iff_not]
      omega
    have hlow : Utf16.isLow c.toNat = false := by
      rw [Utf16.isLow, Bool.and_eq_false_iff, decide_eq_false_iff_not, decide_eq_false_iff_not]
      omega
    rw [ofText_singleton hsmall, encodedLength, List.map_singleton, List.sum_singleton, unitLength,
      charOf_unitOf hsmall, hunit, hhigh, hlow, encodeChar]
    split
    · rfl
    · rw [length_flatMap_escapeByte, Utf8.bytes]
      simp only [Bool.false_eq_true, or_false]
      split_ifs <;> rfl
  · have hplain := not_isUnreserved_of_le (c := c) (by omega)
    have hpair : ofText [c] = [UInt16.ofNat (0xD800 + (c.toNat - 0x10000) / 0x400),
        UInt16.ofNat (0xDC00 + (c.toNat - 0x10000) % 0x400)] := by
      simp [ofText, Utf16.encode, Utf16.units, hsmall]
    have hfirst := UInt16.toNat_ofNat_of_lt'
      (show 0xD800 + (c.toNat - 0x10000) / 0x400 < 0x10000 by omega)
    have hsecond := UInt16.toNat_ofNat_of_lt'
      (show 0xDC00 + (c.toNat - 0x10000) % 0x400 < 0x10000 by omega)
    have hhigh : Utf16.isHigh (0xD800 + (c.toNat - 0x10000) / 0x400) = true := by
      rw [Utf16.isHigh, Bool.and_eq_true_iff, decide_eq_true_iff, decide_eq_true_iff]
      omega
    have hlow : Utf16.isLow (0xDC00 + (c.toNat - 0x10000) % 0x400) = true := by
      rw [Utf16.isLow, Bool.and_eq_true_iff, decide_eq_true_iff, decide_eq_true_iff]
      omega
    have hunit : ∀ unit : UInt16, 0xD800 ≤ unit.toNat →
        (Utf16.isHigh unit.toNat = true ∨ Utf16.isLow unit.toNat = true) → unitLength unit = 6 := by
      intro unit hle hsurrogate
      rw [unitLength, isUnreserved_charOf (by omega), if_neg Bool.false_ne_true,
        if_neg (by omega), if_pos (.inr hsurrogate)]
    rw [hpair, encodedLength, List.map_cons, List.map_singleton, List.sum_cons, List.sum_singleton,
      hunit _ (by omega) (.inl (by rw [hfirst, hhigh])),
      hunit _ (by omega) (.inr (by rw [hsecond, hlow])), encodeChar, hplain,
      if_neg Bool.false_ne_true, length_flatMap_escapeByte, Utf8.bytes, if_neg (by omega),
      if_neg (by omega), if_neg hsmall]
    rfl

theorem length_encodeChar_pos (c : Char) : 0 < (ofText (encodeChar c)).length := by
  rw [length_encodeChar, encodedLength]
  have hne : ofText [c] ≠ [] := by
    intro hnil
    have heq : [c] = [] := ofText_injective hnil
    cases heq
  obtain ⟨unit, rest, hunits⟩ := List.exists_cons_of_ne_nil hne
  rw [hunits, List.map_cons, List.sum_cons]
  exact Nat.add_pos_left (unitLength_pos unit) _

/-- An encoded string is as long as its code units make it. -/
theorem length_encodeURIComponent {string encoded : JsString}
    (hencoded : encodeURIComponent string = some encoded) :
    encoded.length = encodedLength string := by
  obtain ⟨text, htext, rfl⟩ := Option.map_eq_some_iff.mp hencoded
  rw [← ofText_of_toText? htext]
  clear htext hencoded
  induction text with
  | nil => rfl
  | cons c text ih =>
      rw [List.flatMap_cons, ofText_append, List.length_append, ih, length_encodeChar,
        ofText_cons c text]
      simp only [encodedLength, List.map_append, List.sum_append]

section Decoding

variable {string encoded : JsString}

variable {byte : ℕ} {c : Char}

theorem ofText_escapeByte (hbyte : byte < 256) : ofText (escapeByte byte) =
    [unitOf '%', unitOf (upperHexDigit (byte / 16)), unitOf (upperHexDigit (byte % 16))] := by
  rw [ofText_eq_map fun c hc =>
    (toNat_lt_of_isEncoded (isEncoded_of_mem_escapeByte hbyte hc)).trans (by decide)]
  rfl

theorem escapedByte_escapeByte (hbyte : byte < 256) (rest : JsString) :
    escapedByte (ofText (escapeByte byte) ++ rest) = some (byte, rest) := by
  obtain ⟨hhigh, hhighDigit, hhighValue⟩ := upperHexDigit_spec (byte / 16) (by omega)
  obtain ⟨hlow, hlowDigit, hlowValue⟩ := upperHexDigit_spec (byte % 16) (by omega)
  have hfirst := charOf_unitOf ((toNat_lt_of_isUnreserved hhigh).trans (by decide))
  have hsecond := charOf_unitOf ((toNat_lt_of_isUnreserved hlow).trans (by decide))
  have hpercent : charOf (unitOf '%') = '%' := by decide
  have hvalue : numeralValue 16 [upperHexDigit (byte / 16), upperHexDigit (byte % 16)] = byte := by
    simp only [numeralValue, List.foldl_cons, List.foldl_nil, hhighValue, hlowValue,
      Option.getD_some]
    omega
  rw [ofText_escapeByte hbyte, List.cons_append, List.cons_append, List.cons_append,
    List.nil_append, escapedByte, hfirst, hsecond, if_pos ⟨hpercent, hhighDigit, hlowDigit⟩, hvalue]

theorem escapedBytes_flatMap {bytes : List ℕ} (hbytes : ∀ byte ∈ bytes, byte < 256)
    (rest : JsString) :
    escapedBytes bytes.length (ofText (bytes.flatMap escapeByte) ++ rest) = some (bytes, rest) := by
  induction bytes with
  | nil => rfl
  | cons byte bytes ih =>
      have htail := ih fun b hb => hbytes b (List.mem_cons_of_mem byte hb)
      rw [List.flatMap_cons, ofText_append, List.append_assoc, List.length_cons, escapedBytes,
        escapedByte_escapeByte (hbytes byte List.mem_cons_self), Option.bind_some, htail]
      rfl

/-- One character is read back. -/
theorem decodeWith_encodeChar (c : Char) (rest : JsString) (fuel : ℕ) :
    decodeWith (fuel + 1) (ofText (encodeChar c) ++ rest) =
      (decodeWith fuel rest).map (ofText [c] ++ ·) := by
  rw [encodeChar]
  split
  · next hplain =>
      have hlt : c.toNat < 0x10000 := (toNat_lt_of_isUnreserved hplain).trans (by decide)
      have hne : c ≠ '%' := by
        rintro rfl
        exact absurd hplain (by decide)
      rw [ofText_singleton hlt, List.singleton_append, decodeWith, charOf_unitOf hlt, if_neg hne]
      rfl
  · obtain ⟨first, tail, hbytes, hlength, hchar⟩ := Utf8.exists_bytes c
    have hlt : ∀ byte ∈ first :: tail, byte < 256 := by
      intro byte hbyte
      rw [← hbytes] at hbyte
      exact Utf8.bytes_lt hbyte
    have hread := escapedBytes_flatMap hlt rest
    have hfirst := escapedByte_escapeByte (hlt first List.mem_cons_self)
      (ofText (tail.flatMap escapeByte) ++ rest)
    rw [← List.append_assoc, ← ofText_append] at hfirst
    rw [List.length_cons] at hread
    rw [hbytes]
    have hhead : ofText ((first :: tail).flatMap escapeByte) ++ rest = unitOf '%' ::
        (unitOf (upperHexDigit (first / 16)) :: unitOf (upperHexDigit (first % 16)) ::
          (ofText (tail.flatMap escapeByte) ++ rest)) := by
      rw [List.flatMap_cons, ofText_append, ofText_escapeByte (hlt first List.mem_cons_self)]
      rfl
    rw [List.flatMap_cons] at hread hhead ⊢
    rw [hhead] at hread hfirst ⊢
    rw [decodeWith, if_pos (by decide), hfirst, Option.bind_some, hlength, Option.bind_some, hread,
      Option.bind_some, hchar, Option.bind_some]

theorem decodeWith_flatMap (text : Text) : ∀ fuel,
    (ofText (text.flatMap encodeChar)).length ≤ fuel →
      decodeWith fuel (ofText (text.flatMap encodeChar)) = some (ofText text) := by
  induction text with
  | nil => intro fuel _; cases fuel <;> rfl
  | cons c text ih =>
      intro fuel hfuel
      rw [List.flatMap_cons, ofText_append] at hfuel ⊢
      rw [List.length_append] at hfuel
      have hpos := length_encodeChar_pos c
      obtain ⟨fuel, rfl⟩ : ∃ less, fuel = less + 1 := ⟨fuel - 1, by omega⟩
      rw [decodeWith_encodeChar, ih fuel (by omega), ofText_cons c text]
      rfl

/-- What was encoded is decoded. -/
theorem decodeURIComponent_of_encodeURIComponent
    (hencoded : encodeURIComponent string = some encoded) :
    decodeURIComponent encoded = some string := by
  obtain ⟨text, htext, rfl⟩ := Option.map_eq_some_iff.mp hencoded
  rw [decodeURIComponent, decodeWith_flatMap text _ le_rfl, ofText_of_toText? htext]

/-- A string that is there is not decoded to an empty one. -/
theorem decodeURIComponent_ne_nil (hdecoded : decodeURIComponent encoded = some string)
    (hne : encoded ≠ []) : string ≠ [] := by
  have hchar : ∀ c : Char, ofText [c] ≠ [] := by
    intro c hnil
    have heq : [c] = [] := ofText_injective hnil
    cases heq
  cases encoded with
  | nil => exact absurd rfl hne
  | cons unit rest =>
      rw [decodeURIComponent, List.length_cons, decodeWith] at hdecoded
      split at hdecoded
      · obtain ⟨first, -, hdecoded⟩ := Option.bind_eq_some_iff.mp hdecoded
        obtain ⟨count, -, hdecoded⟩ := Option.bind_eq_some_iff.mp hdecoded
        obtain ⟨read, -, hdecoded⟩ := Option.bind_eq_some_iff.mp hdecoded
        obtain ⟨c, -, hdecoded⟩ := Option.bind_eq_some_iff.mp hdecoded
        obtain ⟨tail, -, rfl⟩ := Option.map_eq_some_iff.mp hdecoded
        exact List.append_ne_nil_of_left_ne_nil (hchar c) tail
      · obtain ⟨tail, -, rfl⟩ := Option.map_eq_some_iff.mp hdecoded
        exact List.cons_ne_nil unit tail

/-- An encoded string has no separators. -/
theorem notMem_of_encodeURIComponent (hencoded : encodeURIComponent string = some encoded)
    (hc : isEncoded c = false) (hsmall : c.toNat < 0x10000) : unitOf c ∉ encoded := by
  obtain ⟨text, -, rfl⟩ := Option.map_eq_some_iff.mp hencoded
  have hlt : ∀ d ∈ text.flatMap encodeChar, d.toNat < 0x10000 :=
    fun d hd => (toNat_lt_of_isEncoded (isEncoded_of_mem hd)).trans (by decide)
  rw [ofText_eq_map hlt]
  intro hmem
  obtain ⟨d, hd, hunit⟩ := List.mem_map.mp hmem
  rw [← unitOf_injOn (hlt d hd) hsmall hunit, isEncoded_of_mem hd] at hc
  cases hc

/-- What needs no escapes keeps its length. -/
theorem encodedLength_ofText {text : Text} (htext : ∀ c ∈ text, isUnreserved c = true) :
    encodedLength (ofText text) = text.length := by
  have hsame : text.flatMap encodeChar = text := by
    induction text with
    | nil => rfl
    | cons c text ih =>
        rw [List.flatMap_cons, ih fun d hd => htext d (List.mem_cons_of_mem c hd), encodeChar,
          htext c List.mem_cons_self]
        rfl
  have hencoded : encodeURIComponent (ofText text) = some (ofText text) := by
    rw [encodeURIComponent, toText?_ofText, Option.map_some, hsame]
  rw [← length_encodeURIComponent hencoded, length_ofText_of_isEncoded fun c hc => by
    rw [isEncoded, htext c hc, Bool.true_or]]

theorem isUnreserved_of_isDigitIn (hdigit : isDigitIn 10 c = true) : isUnreserved c = true := by
  have hle : ∀ {a b : Char}, a ≤ b ↔ a.toNat ≤ b.toNat := UInt32.le_iff_toNat_le
  have hrange := toNat_of_isDigit (isDigit_of_isDigitIn hdigit)
  have hdigits : ('0' ≤ c && c ≤ '9') = true := by
    rw [Bool.and_eq_true_iff, decide_eq_true_iff, decide_eq_true_iff, hle, hle]
    exact hrange
  rw [isUnreserved, hdigits, Bool.or_true, Bool.true_or]

end Decoding

end X402Facilitator.JsString
