import Mathlib.Data.List.Nodup
import X402Facilitator.Library.JsValue

/-!
# Parsing of JSON texts

The grammar of JSON with its white space and escapes.  A text is read into a value whose
strings are code units, by what reads its numerals; a `Json` has no value for a string with a
surrogate that is alone.
-/

namespace X402Facilitator

namespace Json

def isSpace (c : Char) : Bool := c = ' ' || c = '\t' || c = '\n' || c = '\r'

def skipSpace (text : List Char) : List Char := text.dropWhile isSpace

def afterWord (word text : List Char) : Option (List Char) :=
  if word <+: text then some (text.drop word.length) else none

def escapeOf (letter : Char) : Option Char :=
  if letter ∈ ['"', '\\', '/', 'b', 'f', 'n', 'r', 't'] then some (shortUnescape letter)
  else none

/-- A literal after its opening quote: its code units, and what follows it. -/
def parseUnits : List Char → Option (JsString × List Char)
  | '"' :: rest => some ([], rest)
  | '\\' :: 'u' :: a :: b :: c :: d :: rest =>
      if [a, b, c, d].all (isDigitIn 16) then
        (parseUnits rest).map fun read => (.ofNat (numeralValue 16 [a, b, c, d]) :: read.1, read.2)
      else none
  | '\\' :: letter :: rest =>
      (escapeOf letter).bind fun c =>
        (parseUnits rest).map fun read => (JsString.ofText [c] ++ read.1, read.2)
  | c :: rest =>
      if c.toNat < 32 then none
      else (parseUnits rest).map fun read => (JsString.ofText [c] ++ read.1, read.2)
  | [] => none

def isNumeralChar (c : Char) : Bool := isNumberChar c || c = 'E'

/-- The numeral that a text starts with, in the printer's case. -/
def numeralOf (text : List Char) : List Char :=
  (text.takeWhile isNumeralChar).map fun c => if c = 'E' then 'e' else c

end Json

namespace JsValue

open Json

variable {N : Type} (format : NumberFormat N)

def parseNumber (text : List Char) : Option (JsValue N × List Char) :=
  (format.read (numeralOf text)).map (num ·, text.dropWhile isNumeralChar)

mutual

def parseValue : ℕ → List Char → Option (JsValue N × List Char)
  | 0, _ => none
  | fuel + 1, text =>
      match skipSpace text with
      | [] => none
      | c :: rest =>
          match kindOfChar c with
          | 0 => (afterWord "null".toList (c :: rest)).map (null, ·)
          | 1 =>
              ((afterWord "true".toList (c :: rest)).map (bool true, ·)).or
                ((afterWord "false".toList (c :: rest)).map (bool false, ·))
          | 2 => parseNumber format (c :: rest)
          | 3 => (parseUnits rest).map fun read => (str read.1, read.2)
          | 4 =>
              if (skipSpace rest).head? = some ']' then some (arr [], (skipSpace rest).tail)
              else (parseItems fuel rest).map fun read => (arr read.1, read.2)
          | 5 =>
              if (skipSpace rest).head? = some '}' then some (obj [], (skipSpace rest).tail)
              else (parseMembers fuel rest).map fun read => (obj (spread [] read.1), read.2)

def parseItems : ℕ → List Char → Option (List (JsValue N) × List Char)
  | 0, _ => none
  | fuel + 1, text =>
      (parseValue fuel text).bind fun item =>
        match skipSpace item.2 with
        | ',' :: rest => (parseItems fuel rest).map fun read => (item.1 :: read.1, read.2)
        | ']' :: rest => some ([item.1], rest)
        | _ => none

def parseMembers : ℕ → List Char → Option (List (JsString × JsValue N) × List Char)
  | 0, _ => none
  | fuel + 1, text =>
      match skipSpace text with
      | '"' :: rest =>
          (parseUnits rest).bind fun name =>
            match skipSpace name.2 with
            | ':' :: rest =>
                (parseValue fuel rest).bind fun value =>
                  match skipSpace value.2 with
                  | ',' :: rest => (parseMembers fuel rest).map fun read =>
                      ((name.1, value.1) :: read.1, read.2)
                  | '}' :: rest => some ([(name.1, value.1)], rest)
                  | _ => none
            | _ => none
      | _ => none

end

/-- `JSON.parse`, none for a `SyntaxError`. -/
def parse (text : String) : Option (JsValue N) :=
  (parseValue format (2 * text.toList.length + 1) text.toList).bind fun read =>
    if skipSpace read.2 = [] then some read.1 else none

def prepend (units : JsString) (read : JsString × List Char) : JsString × List Char :=
  (units ++ read.1, read.2)

attribute [local simp] parseUnits

theorem hexDigit_of_lt : ∀ n < 16, isDigitIn 16 (hexDigit n) = true ∧
    (digitValue (hexDigit n)).getD 0 = n := by
  decide

variable {n : ℕ} {c : Char} {rest : List Char}

/-- Four hexadecimal digits are read as their number. -/
theorem numeralValue_hexDigits (hlt : n < 0x10000) :
    (hexDigits n).all (isDigitIn 16) = true ∧ numeralValue 16 (hexDigits n) = n := by
  have hfirst := hexDigit_of_lt (n / 0x1000) (by omega)
  have hsecond := hexDigit_of_lt (n / 0x100 % 16) (by omega)
  have hthird := hexDigit_of_lt (n / 0x10 % 16) (by omega)
  have hfourth := hexDigit_of_lt (n % 16) (by omega)
  constructor
  · simp only [hexDigits, List.all_cons, hfirst.1, hsecond.1, hthird.1, hfourth.1, List.all_nil,
      Bool.and_self]
  · simp only [hexDigits, numeralValue, List.foldl_cons, List.foldl_nil, hfirst.2, hsecond.2,
      hthird.2, hfourth.2]
    omega

theorem parseUnits_hexDigits (hlt : n < 0x10000) (rest : List Char) :
    parseUnits ('\\' :: 'u' :: (hexDigits n ++ rest)) =
      (parseUnits rest).map (prepend [.ofNat n]) := by
  obtain ⟨hdigits, hvalue⟩ := numeralValue_hexDigits hlt
  rw [hexDigits] at hdigits hvalue ⊢
  simp only [List.cons_append, List.nil_append]
  rw [parseUnits, if_pos hdigits, hvalue]
  rfl

theorem parseUnits_control (hcontrol : c.toNat < 32) (rest : List Char) :
    parseUnits ('\\' :: 'u' :: '0' :: '0' :: hexDigit (c.toNat / 16) :: hexDigit (c.toNat % 16) ::
      rest) = (parseUnits rest).map (prepend (JsString.ofText [c])) := by
  have hdigits : hexDigits c.toNat =
      ['0', '0', hexDigit (c.toNat / 16), hexDigit (c.toNat % 16)] := by
    rw [hexDigits, Nat.div_eq_of_lt (by omega), Nat.div_eq_of_lt (by omega),
      Nat.mod_eq_of_lt (by omega : c.toNat / 0x10 < 16)]
    rfl
  have hread := parseUnits_hexDigits (by omega : c.toNat < 0x10000) rest
  rw [hdigits] at hread
  rw [JsString.ofText_singleton (by omega)]
  exact hread

theorem parseUnits_letter {letter : Char} (hletter : shortEscape c = some letter) (rest : List Char) :
    parseUnits ('\\' :: letter :: rest) =
      (parseUnits rest).map (prepend (JsString.ofText [c])) := by
  have hescape : escapeOf letter = some c := by
    rw [escapeOf, shortUnescape_shortEscape hletter, if_pos]
    rw [shortEscape] at hletter
    split_ifs at hletter <;> (cases hletter; decide)
  rw [parseUnits, hescape]
  · rfl
  · rintro a b c' d rest' rfl
    exact absurd rfl (shortEscape_ne_u hletter)

theorem parseUnits_plain (hplain : shortEscape c = none) (hcontrol : ¬ c.toNat < 32)
    (rest : List Char) :
    parseUnits (c :: rest) = (parseUnits rest).map (prepend (JsString.ofText [c])) := by
  have hquote := ne_quote_of_shortEscape_none hplain
  have hslash := ne_backslash_of_shortEscape_none hplain
  rw [parseUnits, if_neg hcontrol]
  · rfl
  · exact hquote
  · rintro _ _ _ _ _ rfl
    exact absurd rfl hslash
  · rintro _ _ rfl
    exact absurd rfl hslash

theorem parseUnits_escapeChar (c : Char) (rest : List Char) :
    parseUnits (escapeChar c ++ rest) =
      (parseUnits rest).map (prepend (JsString.ofText [c])) := by
  rw [escapeChar]
  split
  · next letter hletter => exact parseUnits_letter hletter rest
  · next hplain =>
      split
      · next hcontrol => exact parseUnits_control hcontrol rest
      · next hcontrol => exact parseUnits_plain hplain hcontrol rest

theorem not_surrogate {unit : ℕ} (hnot : (Utf16.isHigh unit || Utf16.isLow unit) = false) :
    unit < 0xD800 ∨ 0xDFFF < unit := by
  simp only [Utf16.isHigh, Utf16.isLow, Bool.or_eq_false_iff, Bool.and_eq_false_iff,
    decide_eq_false_iff_not] at hnot
  omega

/-- A code unit that is no surrogate is that of a character. -/
theorem ofText_charOf {unit : UInt16}
    (hnot : (Utf16.isHigh unit.toNat || Utf16.isLow unit.toNat) = false) :
    JsString.ofText [Char.ofNat unit.toNat] = [unit] := by
  have hlt := unit.toNat_lt
  have hvalid := not_surrogate hnot
  have htoNat : (Char.ofNat unit.toNat).toNat = unit.toNat := Utf16.toNat_ofNat (by omega)
  rw [JsString.ofText_singleton (by omega), JsString.unitOf, htoNat, UInt16.ofNat_toNat]

theorem parseUnits_escapeUnit (unit : UInt16) (rest : List Char) :
    parseUnits (escapeUnit unit ++ rest) = (parseUnits rest).map (prepend [unit]) := by
  rw [escapeUnit]
  split
  · have hread := parseUnits_hexDigits unit.toNat_lt rest
    rwa [UInt16.ofNat_toNat] at hread
  · next hnot => rw [parseUnits_escapeChar, ofText_charOf (Bool.eq_false_iff.mpr hnot)]

/-- The character of a pair stands for it, and is printed as it is. -/
theorem ofText_pairChar {high low : UInt16} (hhigh : Utf16.isHigh high.toNat = true)
    (hlow : Utf16.isLow low.toNat = true) :
    JsString.ofText [pairChar high.toNat low.toNat] = [high, low] ∧
      0x10000 ≤ (pairChar high.toNat low.toNat).toNat := by
  have hunits := Utf16.units_pair hhigh hlow
  constructor
  · rw [JsString.ofText, Utf16.encode, List.flatMap_singleton, pairChar, hunits, List.map_cons,
      List.map_cons, List.map_nil, UInt16.ofNat_toNat, UInt16.ofNat_toNat]
  · by_contra hsmall
    change Utf16.units (pairChar high.toNat low.toNat) = _ at hunits
    rw [Utf16.units, if_pos (not_le.mp hsmall)] at hunits
    have hlength := congrArg List.length hunits
    simp only [List.length_cons, List.length_nil] at hlength
    omega

theorem shortEscape_of_large (hlarge : 0x10000 ≤ c.toNat) : shortEscape c = none := by
  cases hc : shortEscape c with
  | none => rfl
  | some letter =>
      rw [shortEscape] at hc
      split_ifs at hc <;> (subst c; exact absurd hlarge (by decide))

theorem escapeChar_of_large (hlarge : 0x10000 ≤ c.toNat) : escapeChar c = [c] := by
  rw [escapeChar, shortEscape_of_large hlarge]
  exact if_neg (by omega)

/-- A string literal is read back. -/
theorem parseUnits_escape (string : JsString) (rest : List Char) :
    parseUnits (escape string ++ '"' :: rest) = some (string, rest) := by
  fun_induction escape string with
  | case1 =>
      rw [List.nil_append, parseUnits]
  | case2 unit =>
      rw [parseUnits_escapeUnit, parseUnits]
      rfl
  | case3 high low tail hpair ih =>
      obtain ⟨hhigh, hlow⟩ := Bool.and_eq_true_iff.mp hpair
      obtain ⟨htext, hlarge⟩ := ofText_pairChar hhigh hlow
      rw [List.cons_append, parseUnits_plain (shortEscape_of_large hlarge) (by omega), ih, htext]
      rfl
  | case4 high low tail hpair ih =>
      rw [List.append_assoc, parseUnits_escapeUnit, ih]
      rfl

theorem takeWhile_append_of_head {p : Char → Bool} {first : List Char}
    (hfirst : ∀ c ∈ first, p c = true) (hrest : ∀ c, rest.head? = some c → p c = false) :
    (first ++ rest).takeWhile p = first ∧ (first ++ rest).dropWhile p = rest := by
  rw [List.takeWhile_append_of_pos hfirst, List.dropWhile_append_of_pos hfirst]
  cases rest with
  | nil => exact ⟨List.append_nil first, rfl⟩
  | cons c rest =>
      have hc : ¬ p c = true := Bool.eq_false_iff.mp (hrest c rfl)
      rw [List.takeWhile_cons_of_neg hc, List.dropWhile_cons_of_neg hc, List.append_nil]
      exact ⟨rfl, rfl⟩

theorem not_isNumeralChar_of_delimited (hrest : Delimited rest) (c : Char)
    (hc : rest.head? = some c) : isNumeralChar c = false := by
  rcases hrest c hc with rfl | rfl | rfl <;> decide

section Format

variable {format : NumberFormat N}

/-- A printed number is read back. -/
theorem parseNumber_print {number : N} {rest : List Char} (hvalid : format.Valid number)
    (hrest : Delimited rest) :
    parseNumber format (format.print number ++ rest) = some (num number, rest) := by
  have hchars := format.isNumberChar_print number hvalid
  obtain ⟨htake, hdrop⟩ := takeWhile_append_of_head (p := isNumeralChar)
    (fun c hc => by rw [isNumeralChar, hchars c hc, Bool.true_or])
    (not_isNumeralChar_of_delimited hrest)
  have hcase : ∀ c ∈ format.print number, (if c = 'E' then 'e' else c) = c := by
    intro c hc
    rw [if_neg]
    rintro rfl
    exact absurd (hchars 'E' hc) (by decide)
  rw [parseNumber, numeralOf, htake, hdrop, List.map_congr_left hcase, List.map_id',
    format.read_print number hvalid]
  rfl

variable {c : Char} {value : JsValue N}

theorem skipSpace_of_not (hc : isSpace c = false) (rest : List Char) :
    skipSpace (c :: rest) = c :: rest :=
  List.dropWhile_cons_of_neg (Bool.eq_false_iff.mp hc)

theorem afterWord_append (word rest : List Char) : afterWord word (word ++ rest) = some rest := by
  rw [afterWord, if_pos (List.prefix_append word rest), List.drop_left]

theorem delimited_itemChars (items : List (JsValue N)) (rest : List Char) :
    Delimited (itemChars format items ++ rest) := by
  intro c h
  cases items <;> simp [itemChars] at h <;> simp [← h]

theorem delimited_memberChars (members : List (JsString × JsValue N)) (rest : List Char) :
    Delimited (memberChars format members ++ rest) := by
  intro c h
  rcases members with _ | ⟨⟨name, value⟩, members⟩ <;>
    simp [memberChars] at h <;> simp [← h]

theorem not_isSpace_of_isNumberChar (hc : isNumberChar c = true) : isSpace c = false := by
  rw [Bool.eq_false_iff, isSpace]
  intro hspace
  simp only [Bool.or_eq_true, decide_eq_true_eq, or_assoc] at hspace
  rcases hspace with rfl | rfl | rfl | rfl <;> exact absurd hc (by decide)

/-- A value starts with the character that announces it: no white space, and no bracket that
closes. -/
theorem exists_head (hwell : value.WellFormed format) (rest : List Char) :
    ∃ c tail, chars format value ++ rest = c :: tail ∧
      (∀ number, value = num number → kindOfChar c = 2) ∧ isSpace c = false ∧ c ≠ ']' ∧ c ≠ '}' := by
  cases value with
  | num number =>
      have hchars := format.isNumberChar_print number hwell
      cases hprint : format.print number with
      | nil => exact absurd hprint (format.print_ne_nil number hwell)
      | cons c digits =>
          have hc : isNumberChar c = true := hchars c (hprint ▸ List.mem_cons_self)
          refine ⟨c, digits ++ rest, by rw [chars, hprint, List.cons_append],
            fun _ _ => kindOfChar_number hc, not_isSpace_of_isNumberChar hc, ?_, ?_⟩ <;>
          · rintro rfl
            exact absurd hc (by decide)
  | null => exact ⟨'n', _, rfl, by simp, rfl, by decide, by decide⟩
  | bool b => cases b <;> exact ⟨_, _, rfl, by simp, rfl, by decide, by decide⟩
  | str text => exact ⟨'"', _, rfl, by simp, rfl, by decide, by decide⟩
  | arr items =>
      cases items <;> exact ⟨'[', _, rfl, by simp, rfl, by decide, by decide⟩
  | obj members =>
      cases members <;> exact ⟨'{', _, rfl, by simp, rfl, by decide, by decide⟩

theorem skipSpace_chars (hwell : value.WellFormed format) (rest : List Char) :
    skipSpace (chars format value ++ rest) = chars format value ++ rest := by
  obtain ⟨c, tail, htext, -, hspace, -⟩ := exists_head hwell rest
  rw [htext, skipSpace_of_not hspace]

theorem length_chars_pos (hwell : value.WellFormed format) : 0 < (chars format value).length := by
  obtain ⟨c, tail, htext, -⟩ := exists_head hwell []
  rw [List.append_nil] at htext
  rw [htext]
  exact Nat.succ_pos _

theorem head_chars_ne {item : JsValue N} (hwell : item.WellFormed format) (rest : List Char) :
    (skipSpace (chars format item ++ rest)).head? ≠ some ']' := by
  obtain ⟨c, tail, htext, -, -, hne, -⟩ := exists_head hwell rest
  rw [skipSpace_chars hwell, htext]
  exact fun hhead => hne (Option.some.inj hhead)

theorem afterWord_false (rest : List Char) :
    afterWord "true".toList ("false".toList ++ rest) = none := by
  rw [afterWord, if_neg]
  rintro ⟨tail, htail⟩
  exact absurd (List.cons.inj htail).1 (by decide)

/-- A member is read as its name and then as its value. -/
theorem parseMembers_quote (name : JsString) (fuel : ℕ) (text : List Char) :
    parseMembers format (fuel + 1) (quote name ++ ':' :: text) =
      (parseValue format fuel text).bind fun value =>
        match skipSpace value.2 with
        | ',' :: rest => (parseMembers format fuel rest).map fun read =>
            ((name, value.1) :: read.1, read.2)
        | '}' :: rest => some ([(name, value.1)], rest)
        | _ => none := by
  have htext : quote name ++ ':' :: text =
      '"' :: (escape name ++ '"' :: ':' :: text) := by
    rw [quote, List.append_assoc, List.singleton_append, List.cons_append]
  rw [htext, parseMembers, skipSpace_of_not (by decide)]
  simp only [parseUnits_escape, Option.bind_some]
  rw [skipSpace_of_not (by decide)]
  rfl

mutual

/-- A value is read back from its text. -/
theorem parseValue_chars : ∀ (value : JsValue N) (fuel : ℕ) (rest : List Char),
    value.WellFormed format → Delimited rest → 2 * (chars format value).length ≤ fuel →
    parseValue format fuel (chars format value ++ rest) = some (value, rest)
  | value, 0, rest, hwell, _, hfuel => by
      have hpos := length_chars_pos hwell
      omega
  | null, fuel + 1, rest, hwell, _, _ => by
      rw [parseValue, skipSpace_chars hwell]
      exact congrArg (Option.map _) (afterWord_append "null".toList rest)
  | bool true, fuel + 1, rest, hwell, _, _ => by
      rw [parseValue, skipSpace_chars hwell]
      change ((afterWord "true".toList ("true".toList ++ rest)).map _).or _ = _
      rw [afterWord_append]
      rfl
  | bool false, fuel + 1, rest, hwell, _, _ => by
      rw [parseValue, skipSpace_chars hwell]
      change ((afterWord "true".toList ("false".toList ++ rest)).map _).or
        ((afterWord "false".toList ("false".toList ++ rest)).map _) = _
      rw [afterWord_false, afterWord_append]
      rfl
  | num number, fuel + 1, rest, hwell, hrest, _ => by
      obtain ⟨c, tail, htext, hkind, -⟩ := exists_head hwell rest
      rw [parseValue, skipSpace_chars hwell, htext]
      simp only [hkind number rfl]
      rw [← htext]
      exact parseNumber_print hwell hrest
  | str text, fuel + 1, rest, hwell, _, _ => by
      rw [parseValue, skipSpace_chars hwell]
      change (parseUnits (escape text ++ ['"'] ++ rest)).map _ = _
      rw [List.append_assoc, List.singleton_append, parseUnits_escape]
      rfl
  | arr [], fuel + 1, rest, hwell, _, _ => by
      rw [parseValue, skipSpace_chars hwell]
      rfl
  | arr (item :: items), fuel + 1, rest, hwell, _, hfuel => by
      rw [chars, List.cons_append, List.length_cons] at hfuel
      rw [parseValue, skipSpace_chars hwell]
      change (if (skipSpace (chars format item ++ itemChars format items ++ rest)).head? =
        some ']' then _
        else (parseItems format fuel (chars format item ++ itemChars format items ++ rest)).map
          _) = _
      rw [List.append_assoc, if_neg (head_chars_ne hwell.1 _),
        parseItems_chars item items fuel rest hwell (by omega)]
      rfl
  | obj [], fuel + 1, rest, hwell, _, _ => by
      rw [parseValue, skipSpace_chars hwell]
      rfl
  | obj ((name, value) :: members), fuel + 1, rest, hwell, _, hfuel => by
      rw [chars, List.cons_append, List.cons_append, List.length_cons] at hfuel
      rw [parseValue, skipSpace_chars hwell]
      change (parseMembers format fuel ((quote name ++ ':' :: chars format value ++
        memberChars format members) ++ rest)).map _ = _
      rw [parseMembers_chars name value members fuel rest hwell.2 (by omega), Option.map_some,
        spread_nil_of_nodup hwell.1]

theorem parseItems_chars : ∀ (item : JsValue N) (items : List (JsValue N)) (fuel : ℕ)
    (rest : List Char), ItemsWellFormed format (item :: items) →
    2 * (chars format item ++ itemChars format items).length < fuel →
    parseItems format fuel (chars format item ++ (itemChars format items ++ rest)) =
      some (item :: items, rest)
  | item, items, 0, rest, _, hfuel => by omega
  | item, [], fuel + 1, rest, hwell, hfuel => by
      rw [List.length_append] at hfuel
      rw [parseItems, parseValue_chars item fuel _ hwell.1 (delimited_itemChars [] rest) (by omega)]
      rfl
  | item, next :: items, fuel + 1, rest, hwell, hfuel => by
      rw [List.length_append, itemChars, List.cons_append, List.length_cons] at hfuel
      rw [parseItems, parseValue_chars item fuel _ hwell.1 (delimited_itemChars _ rest) (by omega)]
      change (parseItems format fuel (chars format next ++ itemChars format items ++ rest)).map
        _ = _
      rw [List.append_assoc, parseItems_chars next items fuel rest hwell.2 (by omega)]
      rfl

theorem parseMembers_chars : ∀ (name : JsString) (value : JsValue N)
    (members : List (JsString × JsValue N)) (fuel : ℕ) (rest : List Char),
    MembersWellFormed format ((name, value) :: members) →
    2 * (quote name ++ ':' :: chars format value ++ memberChars format members).length < fuel →
    parseMembers format fuel ((quote name ++ ':' :: chars format value ++
      memberChars format members) ++ rest) = some ((name, value) :: members, rest)
  | name, value, members, 0, rest, _, hfuel => by omega
  | name, value, [], fuel + 1, rest, hwell, hfuel => by
      rw [List.length_append, List.length_append, List.length_cons] at hfuel
      rw [List.append_assoc, List.append_assoc, List.cons_append, parseMembers_quote,
        parseValue_chars value fuel _ hwell.1 (delimited_memberChars [] rest) (by omega)]
      rfl
  | name, value, (next, found) :: members, fuel + 1, rest, hwell, hfuel => by
      rw [List.length_append, List.length_append, List.length_cons, memberChars, List.cons_append,
        List.cons_append, List.length_cons] at hfuel
      rw [List.append_assoc, List.append_assoc, List.cons_append, parseMembers_quote,
        parseValue_chars value fuel _ hwell.1 (delimited_memberChars _ rest) (by omega)]
      change (parseMembers format fuel ((quote next ++ ':' :: chars format found ++
        memberChars format members) ++ rest)).map _ = _
      rw [parseMembers_chars next found members fuel rest hwell.2 (by omega)]
      rfl

end

/-- `JSON.parse` reads back what is printed. -/
theorem parse_chars (hwell : value.WellFormed format) :
    parse format (String.ofList (value.chars format)) = some value := by
  rw [parse, String.toList_ofList]
  have hread := parseValue_chars value (2 * (chars format value).length + 1) [] hwell
    delimited_nil (Nat.le_succ _)
  rw [List.append_nil] at hread
  rw [hread]
  rfl

end Format

end JsValue

namespace Json

def isDigits (text : List Char) : Bool := !text.isEmpty && text.all Char.isDigit

def isExponent : List Char → Bool
  | [] => true
  | 'e' :: '+' :: digits => isDigits digits
  | 'e' :: '-' :: digits => isDigits digits
  | 'e' :: digits => isDigits digits
  | _ => false

def isFraction : List Char → Bool
  | '.' :: digit :: rest => digit.isDigit && isExponent (rest.dropWhile Char.isDigit)
  | rest => isExponent rest

/-- A numeral of the grammar, with the exponent in the printer's case. -/
def isNumeral (text : List Char) : Bool :=
  match if text.head? = some '-' then text.tail else text with
  | '0' :: rest => isFraction rest
  | digit :: rest => digit.isDigit && isFraction (rest.dropWhile Char.isDigit)
  | [] => false

def isPrinted (text : List Char) : Bool := isNumeral text && text ≠ ['-', '0']

/-- The text that the printer gives the number of a numeral; both zeros print as `0`. -/
def readText (text : List Char) : Option NumberText :=
  let numeral := if text = ['-', '0'] then ['0'] else text
  if hvalid : numeral ≠ [] ∧ numeral.all isNumberChar = true then
    if isNumeral numeral then some ⟨numeral, hvalid.1, List.all_eq_true.mp hvalid.2⟩ else none
  else none

theorem readText_chars {number : NumberText} (hprinted : isPrinted number.chars = true) :
    readText number.chars = some number := by
  obtain ⟨hnumeral, hzero⟩ := Bool.and_eq_true_iff.mp hprinted
  have hvalid : number.chars ≠ [] ∧ number.chars.all isNumberChar = true :=
    ⟨number.nonempty, List.all_eq_true.mpr number.valid⟩
  simp only [readText, if_neg (of_decide_eq_true hzero), if_pos hnumeral]
  exact dif_pos hvalid

def textNumbers : NumberFormat NumberText where
  Valid number := isPrinted number.chars = true
  print := NumberText.chars
  read := readText
  print_ne_nil number _ := number.nonempty
  isNumberChar_print number _ := number.valid
  read_print _ := readText_chars

mutual

def toJs : Json → JsValue NumberText
  | null => .null
  | bool b => .bool b
  | num number => .num number
  | str text => .str (JsString.js text)
  | arr items => .arr (itemsToJs items)
  | obj members => .obj (membersToJs members)

def itemsToJs : List Json → List (JsValue NumberText)
  | [] => []
  | item :: items => toJs item :: itemsToJs items

def membersToJs : List (String × Json) → List (JsString × JsValue NumberText)
  | [] => []
  | (name, value) :: members => (JsString.js name, toJs value) :: membersToJs members

end

def textOf (string : JsString) : Option String := string.toText?.map String.ofList

mutual

/-- A value with its strings as characters, none where a surrogate is alone. -/
def ofJs : JsValue NumberText → Option Json
  | .null => some null
  | .bool b => some (bool b)
  | .num number => some (num number)
  | .str text => (textOf text).map str
  | .arr items => (itemsOfJs items).map arr
  | .obj members => (membersOfJs members).map obj

def itemsOfJs : List (JsValue NumberText) → Option (List Json)
  | [] => some []
  | item :: items => (ofJs item).bind fun first => (itemsOfJs items).map (first :: ·)

def membersOfJs : List (JsString × JsValue NumberText) → Option (List (String × Json))
  | [] => some []
  | (name, value) :: members =>
      (textOf name).bind fun text => (ofJs value).bind fun first =>
        (membersOfJs members).map ((text, first) :: ·)

end

/-- `JSON.parse`, none for a `SyntaxError` or a string that has no characters. -/
def parse (text : String) : Option Json := (JsValue.parse textNumbers text).bind ofJs

mutual

/-- The numbers are printed, and the names of an object are distinct. -/
def WellFormed : Json → Prop
  | null | bool _ | str _ => True
  | num number => isPrinted number.chars = true
  | arr items => ItemsWellFormed items
  | obj members => (members.map Prod.fst).Nodup ∧ MembersWellFormed members

def ItemsWellFormed : List Json → Prop
  | [] => True
  | item :: items => WellFormed item ∧ ItemsWellFormed items

def MembersWellFormed : List (String × Json) → Prop
  | [] => True
  | (_, value) :: members => WellFormed value ∧ MembersWellFormed members

end

theorem textOf_js (text : String) : textOf (JsString.js text) = some text := by
  rw [textOf, JsString.js, JsString.toText?_ofText, Option.map_some, String.ofList_toList]

mutual

theorem ofJs_toJs : ∀ value : Json, ofJs (toJs value) = some value
  | null | bool _ | num _ => rfl
  | str text => by rw [toJs, ofJs, textOf_js, Option.map_some]
  | arr items => by rw [toJs, ofJs, itemsOfJs_itemsToJs items, Option.map_some]
  | obj members => by rw [toJs, ofJs, membersOfJs_membersToJs members, Option.map_some]

theorem itemsOfJs_itemsToJs : ∀ items : List Json, itemsOfJs (itemsToJs items) = some items
  | [] => rfl
  | item :: items => by
      rw [itemsToJs, itemsOfJs, ofJs_toJs item, itemsOfJs_itemsToJs items]
      rfl

theorem membersOfJs_membersToJs : ∀ members : List (String × Json),
    membersOfJs (membersToJs members) = some members
  | [] => rfl
  | (name, value) :: members => by
      rw [membersToJs, membersOfJs, textOf_js, ofJs_toJs value, membersOfJs_membersToJs members]
      rfl

end

theorem escape_cons_of_not_high {unit : UInt16} (hnot : Utf16.isHigh unit.toNat = false)
    (rest : JsString) :
    JsValue.escape (unit :: rest) = JsValue.escapeUnit unit ++ JsValue.escape rest := by
  cases rest with
  | nil => rw [JsValue.escape, JsValue.escape, List.append_nil]
  | cons low rest => rw [JsValue.escape, hnot, Bool.false_and, if_neg Bool.false_ne_true]

/-- A character is escaped alike in a string of code units. -/
theorem escape_ofText_append (c : Char) (rest : JsString) :
    JsValue.escape (JsString.ofText [c] ++ rest) = escapeChar c ++ JsValue.escape rest := by
  have hvalid := Utf16.toNat_lt_or_gt c
  by_cases hsmall : c.toNat < 0x10000
  · have hnat : (JsString.unitOf c).toNat = c.toNat := UInt16.toNat_ofNat_of_lt' hsmall
    have hhigh : Utf16.isHigh (JsString.unitOf c).toNat = false := by
      simp only [Utf16.isHigh, hnat, Bool.and_eq_false_iff, decide_eq_false_iff_not]
      omega
    have hlow : Utf16.isLow (JsString.unitOf c).toNat = false := by
      simp only [Utf16.isLow, hnat, Bool.and_eq_false_iff, decide_eq_false_iff_not]
      omega
    rw [JsString.ofText_singleton hsmall, List.singleton_append, escape_cons_of_not_high hhigh,
      JsValue.escapeUnit, hhigh, hlow, hnat, Char.ofNat_toNat]
    rfl
  · obtain ⟨high, low, hunits, hhigh, hlow, hchar⟩ := JsString.pair_of_large (not_lt.mp hsmall)
    rw [hunits, List.cons_append, List.singleton_append, JsValue.escape, hhigh, hlow, Bool.and_self,
      if_pos rfl, JsValue.pairChar, hchar, JsValue.escapeChar_of_large (not_lt.mp hsmall)]
    rfl

theorem escape_ofText (text : List Char) :
    JsValue.escape (JsString.ofText text) = escape text := by
  induction text with
  | nil => rfl
  | cons c text ih => rw [JsString.ofText_cons, escape_ofText_append, ih, escape]

theorem quote_js (text : String) : JsValue.quote (JsString.js text) = quote text := by
  rw [JsValue.quote, JsString.js, escape_ofText, quote]

mutual

/-- A value has the same text with its strings as code units. -/
theorem chars_toJs : ∀ value : Json, (toJs value).chars textNumbers = value.chars
  | null | bool true | bool false | num _ | arr [] | obj [] => rfl
  | str text => by rw [toJs, JsValue.chars, quote_js, chars]
  | arr (item :: items) => by
      rw [toJs, itemsToJs, JsValue.chars, chars_toJs item, itemChars_toJs items, chars]
  | obj ((name, value) :: members) => by
      rw [toJs, membersToJs, JsValue.chars, quote_js, chars_toJs value, memberChars_toJs members,
        chars]

theorem itemChars_toJs : ∀ items : List Json,
    JsValue.itemChars textNumbers (itemsToJs items) = itemChars items
  | [] => rfl
  | item :: items => by
      rw [itemsToJs, JsValue.itemChars, chars_toJs item, itemChars_toJs items, itemChars]

theorem memberChars_toJs : ∀ members : List (String × Json),
    JsValue.memberChars textNumbers (membersToJs members) = memberChars members
  | [] => rfl
  | (name, value) :: members => by
      rw [membersToJs, JsValue.memberChars, quote_js, chars_toJs value, memberChars_toJs members,
        memberChars]

end

theorem fst_membersToJs (members : List (String × Json)) :
    (membersToJs members).map Prod.fst = (members.map Prod.fst).map JsString.js := by
  induction members with
  | nil => rfl
  | cons entry members ih => rw [membersToJs, List.map_cons, ih, List.map_cons, List.map_cons]

mutual

theorem wellFormed_toJs : ∀ value : Json, value.WellFormed → (toJs value).WellFormed textNumbers
  | null, _ | bool _, _ | str _, _ => trivial
  | num _, hwell => hwell
  | arr items, hwell => itemsWellFormed_toJs items hwell
  | obj members, hwell => by
      refine ⟨?_, membersWellFormed_toJs members hwell.2⟩
      rw [fst_membersToJs]
      refine hwell.1.map fun first second heq => ?_
      exact String.toList_inj.mp (JsString.ofText_injective heq)

theorem itemsWellFormed_toJs : ∀ items : List Json, ItemsWellFormed items →
    JsValue.ItemsWellFormed textNumbers (itemsToJs items)
  | [], _ => trivial
  | item :: items, hwell => ⟨wellFormed_toJs item hwell.1, itemsWellFormed_toJs items hwell.2⟩

theorem membersWellFormed_toJs : ∀ members : List (String × Json), MembersWellFormed members →
    JsValue.MembersWellFormed textNumbers (membersToJs members)
  | [], _ => trivial
  | (_, value) :: members, hwell =>
      ⟨wellFormed_toJs value hwell.1, membersWellFormed_toJs members hwell.2⟩

end

/-- `JSON.parse` reads back what `JSON.stringify` prints. -/
theorem parse_stringify {value : Json} (hwell : value.WellFormed) :
    parse value.stringify = some value := by
  rw [parse, stringify, ← chars_toJs, JsValue.parse_chars (wellFormed_toJs value hwell)]
  exact ofJs_toJs value

end Json

end X402Facilitator
