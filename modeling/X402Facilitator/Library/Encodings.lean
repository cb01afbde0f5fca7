import Mathlib.Data.List.Basic
import Mathlib.Data.Nat.Notation

/-!
# UTF-8 and Base64

In UTF-8 a character is a sequence of one to four bytes, whose first byte tells how many they
are.  A sequence that is longer than it has to be stands for nothing.  Base64 writes three bytes
as four characters.  Bytes are numbers here.
-/

namespace X402Facilitator.Utf8

def bytes (c : Char) : List ℕ :=
  if c.toNat < 0x80 then [c.toNat]
  else if c.toNat < 0x800 then [0xC0 + c.toNat / 0x40, 0x80 + c.toNat % 0x40]
  else if c.toNat < 0x10000 then
    [0xE0 + c.toNat / 0x1000, 0x80 + c.toNat / 0x40 % 0x40, 0x80 + c.toNat % 0x40]
  else
    [0xF0 + c.toNat / 0x40000, 0x80 + c.toNat / 0x1000 % 0x40, 0x80 + c.toNat / 0x40 % 0x40,
      0x80 + c.toNat % 0x40]

def encode (chars : List Char) : List ℕ := chars.flatMap bytes

/-- How many bytes there are in a sequence that starts with this one. -/
def sequenceLength (first : ℕ) : Option ℕ :=
  if first < 0x80 then some 1
  else if first < 0xC0 then none
  else if first < 0xE0 then some 2
  else if first < 0xF0 then some 3
  else if first < 0xF8 then some 4
  else none

def isTail (byte : ℕ) : Bool := 0x80 ≤ byte && byte < 0xC0

/-- The character of this number, where the sequence is not too long for it. -/
def scalar (least n : ℕ) : Option Char :=
  if least ≤ n ∧ (n < 0xD800 ∨ 0xDFFF < n ∧ n < 0x110000) then some (Char.ofNat n) else none

def character : List ℕ → Option Char
  | [a] => if a < 0x80 then scalar 0 a else none
  | [a, b] => if isTail b then scalar 0x80 ((a - 0xC0) * 0x40 + (b - 0x80)) else none
  | [a, b, c] =>
      if isTail b && isTail c then
        scalar 0x800 ((a - 0xE0) * 0x1000 + (b - 0x80) * 0x40 + (c - 0x80))
      else none
  | [a, b, c, d] =>
      if isTail b && isTail c && isTail d then
        scalar 0x10000
          ((a - 0xF0) * 0x40000 + (b - 0x80) * 0x1000 + (c - 0x80) * 0x40 + (d - 0x80))
      else none
  | _ => none

/-- The first character of bytes, and how many of them it takes. -/
def firstCharacter (bytes : List ℕ) : Option (Char × ℕ) :=
  (bytes.head?.bind sequenceLength).bind fun count =>
    if bytes.length < count then none
    else (character (bytes.take count)).map fun c => (c, count)

/-- The characters of bytes, in at most so many sequences. -/
def decodeWith : ℕ → List ℕ → Option (List Char)
  | _, [] => some []
  | 0, _ :: _ => none
  | fuel + 1, first :: rest =>
      (firstCharacter (first :: rest)).bind fun found =>
        (decodeWith fuel ((first :: rest).drop found.2)).map (found.1 :: ·)

def decode (bytes : List ℕ) : Option (List Char) := decodeWith bytes.length bytes

def replacement : Char := Char.ofNat 0xFFFD

/-- Whether a byte may follow the first one of a longer sequence. -/
def isSecond (first byte : ℕ) : Bool :=
  if first = 0xE0 then 0xA0 ≤ byte && byte < 0xC0
  else if first = 0xED then 0x80 ≤ byte && byte < 0xA0
  else if first = 0xF0 then 0x90 ≤ byte && byte < 0xC0
  else if first = 0xF4 then 0x80 ≤ byte && byte < 0x90
  else 0xE0 ≤ first && first < 0xF4 && isTail byte

/-- How many bytes belong to a sequence that breaks off, after its first one. -/
def truncated (first : ℕ) : List ℕ → ℕ
  | second :: rest =>
      if isSecond first second then
        if 0xF0 ≤ first && rest.head?.any isTail then 2 else 1
      else 0
  | [] => 0

/-- The characters of bytes, where each sequence that breaks off or stands for nothing is
replaced, in at most so many sequences. -/
def replaceWith : ℕ → List ℕ → List Char
  | _, [] | 0, _ :: _ => []
  | fuel + 1, first :: rest =>
      match firstCharacter (first :: rest) with
      | some (c, count) => c :: replaceWith fuel ((first :: rest).drop count)
      | none => replacement :: replaceWith fuel (rest.drop (truncated first rest))

/-- `buffer.toString('utf8')` -/
def toText (bytes : List ℕ) : List Char := replaceWith bytes.length bytes

theorem toNat_valid (c : Char) : c.toNat < 0xD800 ∨ 0xDFFF < c.toNat ∧ c.toNat < 0x110000 :=
  c.valid

theorem scalar_toNat {least : ℕ} {c : Char} (hleast : least ≤ c.toNat) :
    scalar least c.toNat = some c := by
  rw [scalar, if_pos ⟨hleast, toNat_valid c⟩, Char.ofNat_toNat]

theorem isTail_add {n : ℕ} (hn : n < 0x40) : isTail (0x80 + n) = true := by
  rw [isTail, Bool.and_eq_true_iff, decide_eq_true_iff, decide_eq_true_iff]
  omega

/-- The bytes of a character are one sequence, and stand for it. -/
theorem exists_bytes (c : Char) : ∃ first rest, bytes c = first :: rest ∧
    sequenceLength first = some (rest.length + 1) ∧ character (first :: rest) = some c := by
  have hvalid := toNat_valid c
  have htail : ∀ n, isTail (0x80 + n % 0x40) = true := fun n => isTail_add (by omega)
  rw [bytes]
  split
  · next hone =>
      refine ⟨_, [], rfl, ?_, ?_⟩
      · rw [sequenceLength, if_pos hone]
        rfl
      · rw [character, if_pos hone, scalar_toNat (Nat.zero_le _)]
  · split
    · next hone htwo =>
        have hsum : (0xC0 + c.toNat / 0x40 - 0xC0) * 0x40 + (0x80 + c.toNat % 0x40 - 0x80) =
            c.toNat := by
          omega
        refine ⟨_, _, rfl, ?_, ?_⟩
        · rw [sequenceLength, if_neg (by omega), if_neg (by omega), if_pos (by omega)]
          rfl
        · rw [character, if_pos (htail _), hsum, scalar_toNat (by omega)]
    · split
      · next hone htwo hthree =>
          have hsum : (0xE0 + c.toNat / 0x1000 - 0xE0) * 0x1000 +
              (0x80 + c.toNat / 0x40 % 0x40 - 0x80) * 0x40 +
              (0x80 + c.toNat % 0x40 - 0x80) = c.toNat := by
            omega
          refine ⟨_, _, rfl, ?_, ?_⟩
          · rw [sequenceLength, if_neg (by omega), if_neg (by omega), if_neg (by omega),
              if_pos (by omega)]
            rfl
          · simp only [character, htail, Bool.and_self, if_true, hsum]
            exact scalar_toNat (by omega)
      · next hone htwo hthree =>
          have hsum : (0xF0 + c.toNat / 0x40000 - 0xF0) * 0x40000 +
              (0x80 + c.toNat / 0x1000 % 0x40 - 0x80) * 0x1000 +
              (0x80 + c.toNat / 0x40 % 0x40 - 0x80) * 0x40 +
              (0x80 + c.toNat % 0x40 - 0x80) = c.toNat := by
            omega
          refine ⟨_, _, rfl, ?_, ?_⟩
          · rw [sequenceLength, if_neg (by omega), if_neg (by omega), if_neg (by omega),
              if_neg (by omega), if_pos (by omega)]
            rfl
          · simp only [character, htail, Bool.and_self, if_true, hsum]
            exact scalar_toNat (by omega)

theorem bytes_lt {c : Char} {byte : ℕ} (hbyte : byte ∈ bytes c) : byte < 256 := by
  have hvalid := toNat_valid c
  rw [bytes] at hbyte
  split_ifs at hbyte <;>
    simp only [List.mem_cons, List.not_mem_nil, or_false] at hbyte <;> omega

theorem encode_cons (c : Char) (chars : List Char) :
    encode (c :: chars) = bytes c ++ encode chars :=
  rfl

theorem decodeWith_encode (chars : List Char) : ∀ fuel, (encode chars).length ≤ fuel →
    decodeWith fuel (encode chars) = some chars := by
  induction chars with
  | nil => intro fuel _; cases fuel <;> rfl
  | cons c chars ih =>
      intro fuel hfuel
      obtain ⟨first, rest, hbytes, hlength, hchar⟩ := exists_bytes c
      rw [encode_cons, hbytes] at hfuel ⊢
      rw [List.cons_append, List.length_cons, List.length_append] at hfuel
      obtain ⟨fuel, rfl⟩ : ∃ less, fuel = less + 1 := ⟨fuel - 1, by omega⟩
      have htake : (first :: (rest ++ encode chars)).take (rest.length + 1) = first :: rest := by
        rw [List.take_succ_cons, List.take_left' rfl]
      have hdrop : (first :: (rest ++ encode chars)).drop (rest.length + 1) = encode chars := by
        rw [List.drop_succ_cons, List.drop_left' rfl]
      have hfirst : firstCharacter (first :: (rest ++ encode chars)) =
          some (c, rest.length + 1) := by
        rw [firstCharacter, List.head?_cons, Option.bind_some, hlength, Option.bind_some,
          if_neg (by rw [List.length_cons, List.length_append]; omega), htake, hchar]
        rfl
      rw [List.cons_append, decodeWith, hfirst, Option.bind_some, hdrop, ih fuel (by omega)]
      rfl

theorem decode_encode (chars : List Char) : decode (encode chars) = some chars :=
  decodeWith_encode chars _ (Nat.le_refl _)

/-- Nothing is replaced in bytes that are decoded. -/
theorem replaceWith_of_decodeWith {fuel : ℕ} {bytes : List ℕ} {chars : List Char}
    (hdecoded : decodeWith fuel bytes = some chars) : replaceWith fuel bytes = chars := by
  induction fuel generalizing bytes chars with
  | zero =>
      cases bytes with
      | nil => exact Option.some.inj hdecoded
      | cons _ _ => cases hdecoded
  | succ fuel ih =>
      cases bytes with
      | nil => exact Option.some.inj hdecoded
      | cons first rest =>
          rw [decodeWith] at hdecoded
          obtain ⟨found, hfound, hdecoded⟩ := Option.bind_eq_some_iff.mp hdecoded
          obtain ⟨chars', hrest, rfl⟩ := Option.map_eq_some_iff.mp hdecoded
          simp only [replaceWith, hfound, ih hrest]

@[simp] theorem toText_encode (chars : List Char) : toText (encode chars) = chars :=
  replaceWith_of_decodeWith (decode_encode chars)

end X402Facilitator.Utf8

namespace X402Facilitator.Base64

def alphabet : List Char :=
  "ABCDEFGHIJKLMNOPQRSTUVWXYZabcdefghijklmnopqrstuvwxyz0123456789+/".toList

def pad : Char := '='

def digit (n : ℕ) : Char := alphabet.getD n pad

/-- The value of a digit, none for any other character. -/
def valueOf (c : Char) : Option ℕ := alphabet.findIdx? fun d => d = c

/-- Three bytes are four digits; what is missing of the last three is padded. -/
def encode : List ℕ → List Char
  | [] => []
  | [a] => [digit (a / 4), digit (a % 4 * 16), pad, pad]
  | [a, b] => [digit (a / 4), digit (a % 4 * 16 + b / 16), digit (b % 16 * 4), pad]
  | a :: b :: c :: rest =>
      digit (a / 4) :: digit (a % 4 * 16 + b / 16) :: digit (b % 16 * 4 + c / 64) ::
        digit (c % 64) :: encode rest

def bytesOf : List ℕ → List ℕ
  | [w, x] => [w * 4 + x / 16]
  | [w, x, y] => [w * 4 + x / 16, x % 16 * 16 + y / 4]
  | [w, x, y, z] => [w * 4 + x / 16, x % 16 * 16 + y / 4, y % 4 * 64 + z]
  | _ => []

def decode : List Char → Option (List ℕ)
  | [] => some []
  | w :: x :: y :: z :: rest =>
      if z = pad then
        if rest = [] then ((if y = pad then [w, x] else [w, x, y]).mapM valueOf).map bytesOf
        else none
      else ([w, x, y, z].mapM valueOf).bind fun digits => (decode rest).map (bytesOf digits ++ ·)
  | _ => none

theorem valueOf_digit : ∀ n < 64, valueOf (digit n) = some n := by decide +kernel

theorem digit_ne_pad : ∀ n < 64, digit n ≠ pad := by decide +kernel

/-- The digits of four characters. -/
theorem mapM_digits {digits : List ℕ} (hdigits : ∀ n ∈ digits, n < 64) :
    (digits.map digit).mapM valueOf = some digits := by
  induction digits with
  | nil => rfl
  | cons n digits ih =>
      rw [List.map_cons, List.mapM_cons, valueOf_digit n (hdigits n List.mem_cons_self),
        ih fun m hm => hdigits m (List.mem_cons_of_mem n hm)]
      rfl

/-- Four characters without padding. -/
theorem decode_digits {w x y z : ℕ} (hdigits : ∀ n ∈ [w, x, y, z], n < 64) (rest : List Char) :
    decode (digit w :: digit x :: digit y :: digit z :: rest) =
      (decode rest).map (bytesOf [w, x, y, z] ++ ·) := by
  have hread := mapM_digits hdigits
  simp only [List.map_cons, List.map_nil] at hread
  rw [decode, if_neg (digit_ne_pad z (hdigits z (by simp))), hread]
  rfl

/-- Bytes are read back. -/
theorem decode_encode {bytes : List ℕ} (hbytes : ∀ byte ∈ bytes, byte < 256) :
    decode (encode bytes) = some bytes := by
  fun_induction encode bytes with
  | case1 => rfl
  | case2 a =>
      have ha := hbytes a (by simp)
      have hdigits : ∀ n ∈ [a / 4, a % 4 * 16], n < 64 := by
        simp only [List.mem_cons, List.not_mem_nil, or_false, forall_eq_or_imp, forall_eq]
        omega
      have hread := mapM_digits hdigits
      have hbytesOf : bytesOf [a / 4, a % 4 * 16] = [a] := by
        simp only [bytesOf, List.cons.injEq, and_true]
        omega
      simp only [List.map_cons, List.map_nil] at hread
      rw [decode, if_pos rfl, if_pos rfl, if_pos rfl, hread, Option.map_some, hbytesOf]
  | case3 a b =>
      have ha := hbytes a (by simp)
      have hb := hbytes b (by simp)
      have hdigits : ∀ n ∈ [a / 4, a % 4 * 16 + b / 16, b % 16 * 4], n < 64 := by
        simp only [List.mem_cons, List.not_mem_nil, or_false, forall_eq_or_imp, forall_eq]
        omega
      have hread := mapM_digits hdigits
      have hbytesOf : bytesOf [a / 4, a % 4 * 16 + b / 16, b % 16 * 4] = [a, b] := by
        simp only [bytesOf, List.cons.injEq, and_true]
        omega
      simp only [List.map_cons, List.map_nil] at hread
      rw [decode, if_pos rfl, if_pos rfl, if_neg (digit_ne_pad _ (hdigits _ (by simp))), hread,
        Option.map_some, hbytesOf]
  | case4 a b c rest ih =>
      have ha := hbytes a (by simp)
      have hb := hbytes b (by simp)
      have hc := hbytes c (by simp)
      have hdigits : ∀ n ∈ [a / 4, a % 4 * 16 + b / 16, b % 16 * 4 + c / 64, c % 64], n < 64 := by
        simp only [List.mem_cons, List.not_mem_nil, or_false, forall_eq_or_imp, forall_eq]
        omega
      have hbytesOf : bytesOf [a / 4, a % 4 * 16 + b / 16, b % 16 * 4 + c / 64, c % 64] =
          [a, b, c] := by
        simp only [bytesOf, List.cons.injEq, and_true]
        omega
      rw [decode_digits hdigits, ih fun byte hbyte => hbytes byte (by simp [hbyte]), hbytesOf]
      rfl

end X402Facilitator.Base64
