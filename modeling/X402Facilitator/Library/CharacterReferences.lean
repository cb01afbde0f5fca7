import X402Facilitator.Library.JsText

/-!
# Character references of HTML

A reference is a number, or the longest name that the text goes on with; the semicolon may be
missing after a number and after the names of the angle brackets.  Of the named references
only those are read whose names start as these do.
-/

namespace X402Facilitator.CharacterReferences

/-- The names with what they stand for, longer ones before those that they start with. -/
def names : List (Text × Char) :=
  [("lt;", '<'), ("LT;", '<'), ("gt;", '>'), ("GT;", '>'), ("ltcc;", '⪦'), ("ltcir;", '⩹'),
    ("ltdot;", '⋖'), ("lthree;", '⋋'), ("ltimes;", '⋉'), ("ltlarr;", '⥶'), ("ltquest;", '⩻'),
    ("ltri;", '◃'), ("ltrie;", '⊴'), ("ltrif;", '◂'), ("ltrPar;", '⦖'), ("gtcc;", '⪧'),
    ("gtcir;", '⩺'), ("gtdot;", '⋗'), ("gtlPar;", '⦕'), ("gtquest;", '⩼'), ("gtrapprox;", '⪆'),
    ("gtrarr;", '⥸'), ("gtrdot;", '⋗'), ("gtreqless;", '⋛'), ("gtreqqless;", '⪌'),
    ("gtrless;", '≷'), ("gtrsim;", '≳'), ("lt", '<'), ("LT", '<'), ("gt", '>'), ("GT", '>')].map
    fun entry => (entry.1.toList, entry.2)

def windows1252 : List ℕ :=
  [0x20AC, 0x81, 0x201A, 0x0192, 0x201E, 0x2026, 0x2020, 0x2021, 0x02C6, 0x2030, 0x0160, 0x2039,
    0x0152, 0x8D, 0x017D, 0x8F, 0x90, 0x2018, 0x2019, 0x201C, 0x201D, 0x2022, 0x2013, 0x2014,
    0x02DC, 0x2122, 0x0161, 0x203A, 0x0153, 0x9D, 0x017E, 0x0178]

/-- The character of a number; one that has none is replaced. -/
def numberChar (n : ℕ) : Char :=
  if n = 0 ∨ 0x10FFFF < n ∨ (0xD800 ≤ n ∧ n < 0xE000) then Char.ofNat 0xFFFD
  else if 0x80 ≤ n ∧ n < 0xA0 then Char.ofNat (windows1252.getD (n - 0x80) n)
  else Char.ofNat n

/-- A number in digits, with the number of characters that it takes. -/
def numbered (base : ℕ) (text : Text) : Option (Char × ℕ) :=
  let digits := text.takeWhile (isDigitIn base)
  if digits = [] then none
  else
    let semicolon := if (text.drop digits.length).head? = some ';' then 1 else 0
    some (numberChar (numeralValue base digits), digits.length + semicolon)

def named (text : Text) : Option (Char × ℕ) :=
  (names.find? fun entry => entry.1.isPrefixOf text).map fun entry => (entry.2, entry.1.length)

/-- What follows an ampersand, read as a reference: the character, and the number of
characters that stand for it. -/
def reference : Text → Option (Char × ℕ)
  | '#' :: 'x' :: rest | '#' :: 'X' :: rest =>
      (numbered 16 rest).map fun read => (read.1, read.2 + 2)
  | '#' :: rest => (numbered 10 rest).map fun read => (read.1, read.2 + 1)
  | text => named text

/-- The decoded text after so many characters that have been read. -/
def decodeFrom : ℕ → Text → Text
  | _, [] => []
  | skip + 1, _ :: rest => decodeFrom skip rest
  | 0, c :: rest =>
      if c = '&' then
        match reference rest with
        | some (decoded, count) => decoded :: decodeFrom count rest
        | none => c :: decodeFrom 0 rest
      else c :: decodeFrom 0 rest

def decode (text : Text) : Text := decodeFrom 0 text

def first : Text → Option Char
  | [] => none
  | c :: rest => some (if c = '&' then (reference rest).elim c Prod.fst else c)

/-- A less-than sign in front of such a character. -/
def startsPair (p : Char → Bool) : Text → Bool
  | '<' :: c :: _ => p c
  | _ => false

/-- Whether a less-than sign is followed by such a character. -/
def hasPair (p : Char → Bool) (text : Text) : Bool := text.tails.any (startsPair p)

def spellsPair (p : Char → Bool) : Text → Bool
  | '<' :: rest => (first rest).any p
  | '&' :: rest =>
      (reference rest).any fun read => read.1 = '<' && (first (rest.drop read.2)).any p
  | _ => false

section Decoding

variable {c decoded : Char} {rest text : Text} {count : ℕ}

theorem decodeFrom_eq (skip : ℕ) (text : Text) :
    decodeFrom skip text = decode (text.drop skip) := by
  induction text generalizing skip with
  | nil =>
      rw [List.drop_nil]
      cases skip <;> rfl
  | cons c rest ih =>
      cases skip with
      | zero => rfl
      | succ skip => exact ih skip

theorem decode_cons_of_ne (hc : c ≠ '&') : decode (c :: rest) = c :: decode rest :=
  if_neg hc

theorem decode_of_none (hnone : reference rest = none) :
    decode ('&' :: rest) = '&' :: decode rest := by
  rw [decode, decodeFrom, if_pos rfl, hnone]
  rfl

theorem decode_of_some (hsome : reference rest = some (decoded, count)) :
    decode ('&' :: rest) = decoded :: decode (rest.drop count) := by
  rw [decode, decodeFrom, if_pos rfl, hsome, ← decodeFrom_eq]

theorem head?_decode (text : Text) : (decode text).head? = first text := by
  cases text with
  | nil => rfl
  | cons c rest =>
      rw [first]
      by_cases hc : c = '&'
      · rw [hc, if_pos rfl]
        cases href : reference rest with
        | none => rw [decode_of_none href, List.head?_cons, Option.elim_none]
        | some read =>
            obtain ⟨decoded, count⟩ := read
            rw [decode_of_some href, List.head?_cons, Option.elim_some]
      · rw [decode_cons_of_ne hc, if_neg hc, List.head?_cons]

end Decoding

section Pairs

variable {c decoded : Char} {rest text : Text} {base count : ℕ} {p : Char → Bool}

def isInner (c : Char) : Bool := c ≠ '<' && c ≠ '&'

theorem isInner_of_isDigitIn (hc : isDigitIn base c = true) : isInner c = true := by
  by_contra hnot
  rw [isInner, Bool.and_eq_true_iff, decide_eq_true_iff, decide_eq_true_iff, not_and_or,
    not_not, not_not] at hnot
  rcases hnot with rfl | rfl <;> cases hc

theorem all_isInner_of_numbered (hread : numbered base text = some (decoded, count)) :
    (text.take count).all isInner = true := by
  rw [numbered] at hread
  split at hread
  · cases hread
  · next hdigits =>
      obtain ⟨-, rfl⟩ := Prod.mk.inj (Option.some.inj hread)
      have hstart : text.takeWhile (isDigitIn base) <+: text := List.takeWhile_prefix _
      have htake : text.take (text.takeWhile (isDigitIn base)).length =
          text.takeWhile (isDigitIn base) := (List.prefix_iff_eq_take.mp hstart).symm
      have hall : (text.takeWhile (isDigitIn base)).all isInner = true :=
        List.all_eq_true.mpr fun d hd =>
          isInner_of_isDigitIn (List.all_eq_true.mp List.all_takeWhile d hd)
      rw [List.take_add, List.all_append, htake, hall, Bool.true_and]
      split
      · next hsemicolon =>
          obtain ⟨tail, htail⟩ := List.head?_eq_some_iff.mp hsemicolon
          rw [htail]
          rfl
      · rfl

theorem all_isInner_names : (names.all fun entry => entry.1.all isInner) = true := by decide

theorem all_isInner_of_named (hread : named text = some (decoded, count)) :
    (text.take count).all isInner = true := by
  obtain ⟨entry, hentry, heq⟩ := Option.map_eq_some_iff.mp hread
  obtain ⟨-, rfl⟩ := Prod.mk.inj heq
  have hfound := List.find?_some hentry
  simp only [List.isPrefixOf_iff_prefix] at hfound
  rw [← List.prefix_iff_eq_take.mp hfound]
  exact List.all_eq_true.mp all_isInner_names entry (List.mem_of_find?_eq_some hentry)

theorem all_isInner_of_marks (marks : Text) (hmarks : marks.all isInner = true)
    (hread : (numbered base rest).map (fun read => (read.1, read.2 + marks.length)) =
      some (decoded, count)) : ((marks ++ rest).take count).all isInner = true := by
  obtain ⟨read, hnumbered, heq⟩ := Option.map_eq_some_iff.mp hread
  obtain ⟨-, rfl⟩ := Prod.mk.inj heq
  rw [Nat.add_comm, List.take_length_add_append, List.all_append, hmarks, Bool.true_and]
  exact all_isInner_of_numbered hnumbered

/-- A reference goes on with neither an ampersand nor a less-than sign. -/
theorem all_isInner_of_reference (hread : reference rest = some (decoded, count)) :
    (rest.take count).all isInner = true := by
  rw [reference.eq_def] at hread
  split at hread
  · next digits => exact all_isInner_of_marks ['#', 'x'] rfl hread
  · next digits => exact all_isInner_of_marks ['#', 'X'] rfl hread
  · next digits _ _ => exact all_isInner_of_marks ['#'] rfl hread
  · exact all_isInner_of_named hread

theorem spellsPair_of_ne (p : Char → Bool) (hless : c ≠ '<') (hamp : c ≠ '&') (rest : Text) :
    spellsPair p (c :: rest) = false := by
  rw [spellsPair]
  · exact fun _ heq => hless (List.cons.inj heq).1
  · exact fun _ heq => hamp (List.cons.inj heq).1

theorem any_tails_drop (hinner : (rest.take count).all isInner = true) :
    rest.tails.any (spellsPair p) = (rest.drop count).tails.any (spellsPair p) := by
  induction rest generalizing count with
  | nil => rw [List.drop_nil]
  | cons c rest ih =>
      cases count with
      | zero => rfl
      | succ count =>
          rw [List.take_succ_cons, List.all_cons, Bool.and_eq_true_iff, isInner,
            Bool.and_eq_true_iff, decide_eq_true_iff, decide_eq_true_iff] at hinner
          have hnot := spellsPair_of_ne p hinner.1.1 hinner.1.2 rest
          rw [List.tails, List.any_cons, hnot, Bool.false_or, List.drop_succ_cons]
          exact ih hinner.2

theorem hasPair_cons (p : Char → Bool) (c : Char) (text : Text) :
    hasPair p (c :: text) = (startsPair p (c :: text) || hasPair p text) := by
  rw [hasPair, List.tails, List.any_cons]
  rfl

theorem startsPair_decode (p : Char → Bool) (text : Text) :
    startsPair p ('<' :: decode text) = (first text).any p := by
  rw [← head?_decode]
  cases decode text <;> rfl

theorem startsPair_of_ne (p : Char → Bool) (hc : c ≠ '<') (text : Text) :
    startsPair p (c :: text) = false := by
  rw [startsPair]
  exact fun _ _ heq => hc (List.cons.inj heq).1

/-- The decoded text has a pair just where the text spells one. -/
theorem hasPair_decode (p : Char → Bool) (text : Text) :
    hasPair p (decode text) = text.tails.any (spellsPair p) := by
  -- A reference is read in one step, so the induction is on the length.
  induction hlength : text.length using Nat.strong_induction_on generalizing text with
  | _ length ih =>
      cases text with
      | nil => rfl
      | cons c rest =>
          have hless : rest.length < length := by
            rw [← hlength]
            exact Nat.lt_succ_self rest.length
          have hrest := ih rest.length hless rest rfl
          rw [List.tails, List.any_cons]
          by_cases hc : c = '&'
          · subst hc
            cases href : reference rest with
            | none =>
                rw [decode_of_none href, hasPair_cons, startsPair_of_ne p (by decide), hrest,
                  spellsPair, href, Option.any_none]
            | some read =>
                obtain ⟨decoded, count⟩ := read
                have hdrop := ih (rest.drop count).length
                  ((List.drop_sublist count rest).length_le.trans_lt hless) (rest.drop count) rfl
                rw [decode_of_some href, hasPair_cons, hdrop,
                  ← any_tails_drop (all_isInner_of_reference href), spellsPair, href,
                  Option.any_some]
                by_cases hdecoded : decoded = '<'
                · rw [hdecoded, startsPair_decode, decide_eq_true rfl, Bool.true_and]
                · rw [startsPair_of_ne p hdecoded, decide_eq_false hdecoded, Bool.false_and]
          · rw [decode_cons_of_ne hc, hasPair_cons, hrest]
            by_cases hless : c = '<'
            · rw [hless, startsPair_decode, spellsPair]
            · rw [startsPair_of_ne p hless, spellsPair_of_ne p hless hc]

end Pairs

end X402Facilitator.CharacterReferences
