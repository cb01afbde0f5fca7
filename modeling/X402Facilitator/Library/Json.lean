import Mathlib.Data.List.Basic
import Mathlib.Data.Nat.Notation
import Mathlib.Tactic.IntervalCases
import Mathlib.Tactic.SplitIfs

/-!
# JSON values and their serialized text

Values are kept the way a parser hands them to a program: object members in
enumeration order, numbers by the canonical text that the printer gives them.
`stringify` is the compact serialization; it is injective, and so identifies
the value it was computed from.
-/

namespace X402Facilitator

def isNumberChar (c : Char) : Bool :=
  c.isDigit || c == '-' || c == '+' || c == '.' || c == 'e'

structure NumberText where
  chars : List Char
  nonempty : chars ≠ []
  valid : ∀ c ∈ chars, isNumberChar c = true

inductive Json where
  | null
  | bool (value : Bool)
  | num (value : NumberText)
  | str (value : String)
  | arr (items : List Json)
  | obj (members : List (String × Json))

namespace Json

def ofNat (n : ℕ) : Json :=
  .num
    { chars := Nat.toDigits 10 n
      nonempty := Nat.toDigits_ne_nil
      valid := by
        intro c hc
        rw [isNumberChar, Nat.isDigit_of_mem_toDigits (by decide) (by decide) hc]
        rfl }

def truthy : Json → Bool
  | null => false
  | bool value => value
  | num value => value.chars != ['0']
  | str value => value != ""
  | arr _ => true
  | obj _ => true

/-- Null or absent, the values that `??` skips. -/
def isNullish : Json → Bool
  | null => true
  | _ => false

/-- `value ?? fallback`. -/
def orElse (value fallback : Json) : Json :=
  if value.isNullish then fallback else value

/-- `value || fallback`. -/
def orFalsy (value fallback : Json) : Json :=
  if value.truthy then value else fallback

/-- Member access; an absent member reads as null. -/
def member (name : String) : Json → Json
  | obj members => (members.lookup name).getD null
  | _ => null

/-- Member access; none for `undefined`. -/
def property (name : String) : Json → Option Json
  | obj members => members.lookup name
  | _ => none

def asString? : Json → Option String
  | str value => some value
  | _ => none

def isObject : Json → Bool
  | obj _ => true
  | _ => false

@[simp] theorem orElse_null (fallback : Json) : orElse null fallback = fallback := rfl

theorem orElse_of_truthy {value : Json} (htruthy : value.truthy = true)
    (fallback : Json) : orElse value fallback = value := by
  cases value <;> simp_all [orElse, isNullish, truthy]

def hexDigit (n : ℕ) : Char :=
  if n < 10 then Char.ofNat (48 + n) else Char.ofNat (87 + n)

/-- Two-character escapes; `none` for a character that has no short form. -/
def shortEscape (c : Char) : Option Char :=
  if c = '"' then some '"'
  else if c = '\\' then some '\\'
  else if c = Char.ofNat 8 then some 'b'
  else if c = Char.ofNat 9 then some 't'
  else if c = Char.ofNat 10 then some 'n'
  else if c = Char.ofNat 12 then some 'f'
  else if c = Char.ofNat 13 then some 'r'
  else none

/-- The text of one character inside a string literal. -/
def escapeChar (c : Char) : List Char :=
  match shortEscape c with
  | some letter => ['\\', letter]
  | none =>
      if c.toNat < 32 then
        ['\\', 'u', '0', '0', hexDigit (c.toNat / 16), hexDigit (c.toNat % 16)]
      else [c]

def escape : List Char → List Char
  | [] => []
  | c :: rest => escapeChar c ++ escape rest

def quote (value : String) : List Char := '"' :: escape value.toList ++ ['"']

mutual

def chars : Json → List Char
  | null => ['n', 'u', 'l', 'l']
  | bool true => ['t', 'r', 'u', 'e']
  | bool false => ['f', 'a', 'l', 's', 'e']
  | num value => value.chars
  | str value => quote value
  | arr [] => ['[', ']']
  | arr (item :: items) => '[' :: chars item ++ itemChars items
  | obj [] => ['{', '}']
  | obj ((name, value) :: members) =>
      '{' :: quote name ++ ':' :: chars value ++ memberChars members

def itemChars : List Json → List Char
  | [] => [']']
  | item :: items => ',' :: chars item ++ itemChars items

def memberChars : List (String × Json) → List Char
  | [] => ['}']
  | (name, value) :: members =>
      ',' :: quote name ++ ':' :: chars value ++ memberChars members

end

def stringify (value : Json) : String := String.ofList value.chars

def breakLine (depth : ℕ) : List Char := '\n' :: List.replicate (2 * depth) ' '

mutual

def prettyChars (depth : ℕ) : Json → List Char
  | arr (item :: items) =>
      '[' :: breakLine (depth + 1) ++ prettyChars (depth + 1) item ++ prettyItems depth items
  | obj ((name, value) :: members) =>
      '{' :: breakLine (depth + 1) ++ quote name ++ ':' :: ' ' ::
        prettyChars (depth + 1) value ++ prettyMembers depth members
  | value => chars value

def prettyItems (depth : ℕ) : List Json → List Char
  | [] => breakLine depth ++ [']']
  | item :: items =>
      ',' :: breakLine (depth + 1) ++ prettyChars (depth + 1) item ++ prettyItems depth items

def prettyMembers (depth : ℕ) : List (String × Json) → List Char
  | [] => breakLine depth ++ ['}']
  | (name, value) :: members =>
      ',' :: breakLine (depth + 1) ++ quote name ++ ':' :: ' ' ::
        prettyChars (depth + 1) value ++ prettyMembers depth members

end

/-- `JSON.stringify(value, null, 2)`. -/
def pretty (value : Json) : String := String.ofList (prettyChars 0 value)

mutual

/-- `String(value)`, none for a `TypeError`: an object's own `toString` is not callable. -/
def toText : Json → Option String
  | null => some "null"
  | bool true => some "true"
  | bool false => some "false"
  | num value => some (String.ofList value.chars)
  | str value => some value
  | arr items => (itemTexts items).map (String.intercalate ",")
  | obj members => if (members.lookup "toString").isSome then none else some "[object Object]"

def itemTexts : List Json → Option (List String)
  | [] => some []
  | null :: items => (itemTexts items).map ("" :: ·)
  | item :: items => (toText item).bind fun text => (itemTexts items).map (text :: ·)

end

/-- What may follow a value: the end of the text, a comma or a closing
bracket.  A printed number is only delimited by what follows it. -/
def Delimited (rest : List Char) : Prop :=
  ∀ c, rest.head? = some c → c = ',' ∨ c = ']' ∨ c = '}'

theorem delimited_nil : Delimited [] := by
  intro c h
  simp at h

theorem delimited_itemChars (items : List Json) (rest : List Char) :
    Delimited (itemChars items ++ rest) := by
  intro c h
  cases items <;> simp [itemChars] at h <;> simp [← h]

theorem delimited_memberChars (members : List (String × Json)) (rest : List Char) :
    Delimited (memberChars members ++ rest) := by
  intro c h
  rcases members with _ | ⟨⟨name, value⟩, members⟩ <;>
    simp [memberChars] at h <;> simp [← h]

theorem hexDigit_injective {m n : ℕ} (hm : m < 16) (hn : n < 16)
    (heq : hexDigit m = hexDigit n) : m = n := by
  interval_cases m <;> interval_cases n <;> first | rfl | (revert heq; decide)

/-- The character a two-character escape stands for. -/
def shortUnescape (letter : Char) : Char :=
  if letter = 'b' then Char.ofNat 8
  else if letter = 't' then Char.ofNat 9
  else if letter = 'n' then Char.ofNat 10
  else if letter = 'f' then Char.ofNat 12
  else if letter = 'r' then Char.ofNat 13
  else letter

variable {c letter d : Char} {s t : List Char} {a : Json}

theorem shortUnescape_shortEscape (hc : shortEscape c = some letter) :
    shortUnescape letter = c := by
  rw [shortEscape] at hc
  split_ifs at hc <;> (cases hc; subst c; decide)

theorem shortEscape_ne_u (hc : shortEscape c = some letter) : letter ≠ 'u' := by
  rw [shortEscape] at hc
  split_ifs at hc <;> (cases hc; decide)

theorem ne_backslash_of_shortEscape_none (hc : shortEscape c = none) : c ≠ '\\' := by
  rintro rfl
  simp [shortEscape] at hc

theorem ne_quote_of_shortEscape_none (hc : shortEscape c = none) : c ≠ '"' := by
  rintro rfl
  simp [shortEscape] at hc

theorem eq_of_control_digits (hc : c.toNat < 32) (hd : d.toNat < 32)
    (hhigh : hexDigit (c.toNat / 16) = hexDigit (d.toNat / 16))
    (hlow : hexDigit (c.toNat % 16) = hexDigit (d.toNat % 16)) : c = d := by
  have h1 := hexDigit_injective (by omega) (by omega) hhigh
  have h2 := hexDigit_injective (by omega) (by omega) hlow
  have hnat : c.toNat = d.toNat := by omega
  exact Char.toNat_inj.mp hnat

/-- Character escapes are uniquely decodable. -/
theorem escapeChar_decodable (heq : escapeChar c ++ s = escapeChar d ++ t) : c = d ∧ s = t := by
  unfold escapeChar at heq
  cases hc : shortEscape c with
  | some letter =>
      cases hd : shortEscape d with
      | some letter' =>
          simp only [hc, hd, List.cons_append, List.nil_append, List.cons.injEq,
            true_and] at heq
          obtain ⟨rfl, rfl⟩ := heq
          exact ⟨(shortUnescape_shortEscape hc).symm.trans
            (shortUnescape_shortEscape hd), rfl⟩
      | none =>
          by_cases hctl : d.toNat < 32
          · simp only [hc, hd, hctl, if_true, List.cons_append, List.cons.injEq] at heq
            exact absurd heq.2.1 (shortEscape_ne_u hc)
          · simp only [hc, hd, hctl, if_false, List.cons_append, List.cons.injEq] at heq
            exact absurd heq.1.symm (ne_backslash_of_shortEscape_none hd)
  | none =>
      by_cases hctl : c.toNat < 32
      · cases hd : shortEscape d with
        | some letter' =>
            simp only [hc, hd, hctl, if_true, List.cons_append, List.cons.injEq] at heq
            exact absurd heq.2.1.symm (shortEscape_ne_u hd)
        | none =>
            by_cases hctl' : d.toNat < 32
            · simp only [hc, hd, hctl, hctl', if_true, List.cons_append,
                List.nil_append, List.cons.injEq, true_and] at heq
              obtain ⟨hhigh, hlow, rfl⟩ := heq
              exact ⟨eq_of_control_digits hctl hctl' hhigh hlow, rfl⟩
            · simp only [hc, hd, hctl, hctl', if_true, if_false, List.cons_append,
                List.cons.injEq] at heq
              exact absurd heq.1.symm (ne_backslash_of_shortEscape_none hd)
      · cases hd : shortEscape d with
        | some letter' =>
            simp only [hc, hd, hctl, if_false, List.cons_append, List.cons.injEq] at heq
            exact absurd heq.1 (ne_backslash_of_shortEscape_none hc)
        | none =>
            by_cases hctl' : d.toNat < 32
            · simp only [hc, hd, hctl, hctl', if_true, if_false, List.cons_append,
                List.cons.injEq] at heq
              exact absurd heq.1 (ne_backslash_of_shortEscape_none hc)
            · simpa only [hc, hd, hctl, hctl', if_false, List.cons_append,
                List.nil_append, List.cons.injEq] using heq

theorem escapeChar_head_ne_quote (c : Char) (s t : List Char) :
    escapeChar c ++ s ≠ '"' :: t := by
  rw [escapeChar]
  cases hc : shortEscape c with
  | some letter => simp
  | none =>
      by_cases hctl : c.toNat < 32
      · simp [hctl]
      · simp only [hctl, if_false, List.cons_append, ne_eq, List.cons.injEq, not_and]
        exact fun heq => absurd heq (ne_quote_of_shortEscape_none hc)

/-- String literals are uniquely decodable: the closing quote never occurs
inside the escaped text. -/
theorem escape_decodable {cs ds : List Char} (heq : escape cs ++ '"' :: s = escape ds ++ '"' :: t) :
    cs = ds ∧ s = t := by
  induction cs generalizing ds with
  | nil =>
      cases ds with
      | nil => simpa [escape] using heq
      | cons d ds =>
          rw [escape, escape, List.nil_append, List.append_assoc] at heq
          exact absurd heq.symm (escapeChar_head_ne_quote d _ _)
  | cons c cs ih =>
      cases ds with
      | nil =>
          rw [escape, escape, List.nil_append, List.append_assoc] at heq
          exact absurd heq (escapeChar_head_ne_quote c _ _)
      | cons d ds =>
          rw [escape, escape, List.append_assoc, List.append_assoc] at heq
          obtain ⟨rfl, hrest⟩ := escapeChar_decodable heq
          obtain ⟨rfl, rfl⟩ := ih hrest
          exact ⟨rfl, rfl⟩

theorem quote_decodable {left right : String} (heq : quote left ++ s = quote right ++ t) :
    left = right ∧ s = t := by
  simp only [quote, List.cons_append, List.append_assoc, List.nil_append,
    List.cons.injEq, true_and] at heq
  obtain ⟨hchars, hrest⟩ := escape_decodable heq
  exact ⟨String.toList_inj.mp hchars, hrest⟩

theorem not_isNumberChar_of_delimiter {c : Char}
    (hc : c = ',' ∨ c = ']' ∨ c = '}') : isNumberChar c = false := by
  rcases hc with rfl | rfl | rfl <;> decide

theorem takeWhile_number (value : NumberText) {rest : List Char}
    (hrest : Delimited rest) :
    (value.chars ++ rest).takeWhile isNumberChar = value.chars := by
  rw [List.takeWhile_append_of_pos value.valid]
  suffices h : rest.takeWhile isNumberChar = [] by simp [h]
  cases rest with
  | nil => rfl
  | cons c rest =>
      rw [List.takeWhile_cons_of_neg]
      simp [not_isNumberChar_of_delimiter (hrest c rfl)]

theorem number_decodable {left right : NumberText} (hs : Delimited s) (ht : Delimited t)
    (heq : left.chars ++ s = right.chars ++ t) : left = right ∧ s = t := by
  have hchars : left.chars = right.chars := by
    rw [← takeWhile_number left hs, heq, takeWhile_number right ht]
  obtain ⟨leftChars, _, _⟩ := left
  obtain ⟨rightChars, _, _⟩ := right
  obtain rfl : leftChars = rightChars := hchars
  exact ⟨rfl, List.append_cancel_left heq⟩

def kind : Json → Fin 6
  | null => 0
  | bool _ => 1
  | num _ => 2
  | str _ => 3
  | arr _ => 4
  | obj _ => 5

/-- The constructor announced by the first character of a text. -/
def kindOfChar (c : Char) : Fin 6 :=
  if c = 'n' then 0
  else if c = 't' ∨ c = 'f' then 1
  else if c = '"' then 3
  else if c = '[' then 4
  else if c = '{' then 5
  else 2

theorem kindOfChar_number (hc : isNumberChar c = true) : kindOfChar c = 2 := by
  rw [kindOfChar]
  split_ifs with h1 h2 h3 h4 h5
  · subst h1; exact absurd hc (by decide)
  · rcases h2 with rfl | rfl <;> exact absurd hc (by decide)
  · subst h3; exact absurd hc (by decide)
  · subst h4; exact absurd hc (by decide)
  · subst h5; exact absurd hc (by decide)
  · rfl

theorem kind_of_head (value : Json) (rest : List Char) :
    (chars value ++ rest).head?.map kindOfChar = some value.kind := by
  cases value with
  | null => simp [chars]; decide
  | bool b => cases b <;> (simp [chars]; decide)
  | num number =>
      obtain ⟨digits, hne, hvalid⟩ := number
      cases digits with
      | nil => exact absurd rfl hne
      | cons c digits => simp [chars, kind, kindOfChar_number (hvalid c (by simp))]
  | str text => simp [chars, quote, kind, kindOfChar]
  | arr items => cases items <;> simp [chars, kind, kindOfChar]
  | obj members => cases members <;> simp [chars, kind, kindOfChar]

theorem kind_eq_of_chars {b : Json} (heq : chars a ++ s = chars b ++ t) : a.kind = b.kind := by
  have h := kind_of_head a s
  rw [heq, kind_of_head b t] at h
  exact (Option.some.inj h).symm

/-- No value starts with a closing bracket or brace. -/
theorem chars_ne_closing (value : Json) (s t : List Char) {c : Char}
    (hc : c = ']' ∨ c = '}') : chars value ++ s ≠ c :: t := by
  intro heq
  have hkind := kind_of_head value s
  rw [heq] at hkind
  have hnum : value.kind = 2 := by
    rcases hc with rfl | rfl <;> exact (Option.some.inj hkind).symm
  cases value with
  | num number =>
      obtain ⟨digits, hne, hvalid⟩ := number
      cases digits with
      | nil => exact absurd rfl hne
      | cons d digits =>
          simp only [chars, List.cons_append, List.cons.injEq] at heq
          have hd := hvalid d (by simp)
          rw [heq.1] at hd
          rcases hc with rfl | rfl <;> exact absurd hd (by decide)
  | null | bool b | str text | arr items | obj members => simp [kind] at hnum

theorem eq_null_of_kind (h : a.kind = 0) : a = null := by
  cases a <;> simp_all [kind]

theorem eq_bool_of_kind (h : a.kind = 1) : ∃ b, a = bool b := by
  cases a <;> simp_all [kind]

theorem eq_num_of_kind (h : a.kind = 2) : ∃ number, a = num number := by
  cases a <;> simp_all [kind]

theorem eq_str_of_kind (h : a.kind = 3) : ∃ text, a = str text := by
  cases a <;> simp_all [kind]

theorem eq_arr_of_kind (h : a.kind = 4) : ∃ items, a = arr items := by
  cases a <;> simp_all [kind]

theorem eq_obj_of_kind (h : a.kind = 5) : ∃ members, a = obj members := by
  cases a <;> simp_all [kind]

mutual

/-- Serialized values are uniquely decodable. -/
theorem chars_decodable : ∀ (a b : Json) (s t : List Char), Delimited s → Delimited t →
    chars a ++ s = chars b ++ t → a = b ∧ s = t
  | null, b, s, t, _, _, heq => by
      obtain rfl := eq_null_of_kind (kind_eq_of_chars heq).symm
      simpa [chars] using heq
  | bool left, b, s, t, _, _, heq => by
      obtain ⟨right, rfl⟩ := eq_bool_of_kind (kind_eq_of_chars heq).symm
      cases left <;> cases right <;> simp_all [chars]
  | num left, b, s, t, hs, ht, heq => by
      obtain ⟨right, rfl⟩ := eq_num_of_kind (kind_eq_of_chars heq).symm
      obtain ⟨rfl, rfl⟩ := number_decodable hs ht heq
      exact ⟨rfl, rfl⟩
  | str left, b, s, t, _, _, heq => by
      obtain ⟨right, rfl⟩ := eq_str_of_kind (kind_eq_of_chars heq).symm
      obtain ⟨rfl, rfl⟩ := quote_decodable heq
      exact ⟨rfl, rfl⟩
  | arr [], b, s, t, _, _, heq => by
      obtain ⟨items, rfl⟩ := eq_arr_of_kind (kind_eq_of_chars heq).symm
      cases items with
      | nil => simpa [chars] using heq
      | cons y ys =>
          simp only [chars, List.cons_append, List.append_assoc, List.cons.injEq,
            true_and] at heq
          exact absurd heq.symm (chars_ne_closing y _ _ (Or.inl rfl))
  | arr (x :: xs), b, s, t, _, _, heq => by
      obtain ⟨items, rfl⟩ := eq_arr_of_kind (kind_eq_of_chars heq).symm
      cases items with
      | nil =>
          simp only [chars, List.cons_append, List.append_assoc, List.cons.injEq,
            true_and] at heq
          exact absurd heq (chars_ne_closing x _ _ (Or.inl rfl))
      | cons y ys =>
          simp only [chars, List.cons_append, List.append_assoc, List.cons.injEq,
            true_and] at heq
          obtain ⟨rfl, hrest⟩ := chars_decodable x y _ _ (delimited_itemChars xs s)
            (delimited_itemChars ys t) heq
          obtain ⟨rfl, rfl⟩ := itemChars_decodable xs ys s t hrest
          exact ⟨rfl, rfl⟩
  | obj [], b, s, t, _, _, heq => by
      obtain ⟨members, rfl⟩ := eq_obj_of_kind (kind_eq_of_chars heq).symm
      cases members with
      | nil => simpa [chars] using heq
      | cons y ys => simp [chars, quote] at heq
  | obj ((m, x) :: xs), b, s, t, _, _, heq => by
      obtain ⟨members, rfl⟩ := eq_obj_of_kind (kind_eq_of_chars heq).symm
      cases members with
      | nil => simp [chars, quote] at heq
      | cons y ys =>
          obtain ⟨n, y⟩ := y
          simp only [chars, List.cons_append, List.append_assoc, List.cons.injEq,
            true_and] at heq
          obtain ⟨rfl, hvalue⟩ := quote_decodable heq
          obtain ⟨rfl, hrest⟩ := chars_decodable x y _ _ (delimited_memberChars xs s)
            (delimited_memberChars ys t) (List.cons.inj hvalue).2
          obtain ⟨rfl, rfl⟩ := memberChars_decodable xs ys s t hrest
          exact ⟨rfl, rfl⟩

theorem itemChars_decodable : ∀ (xs ys : List Json) (s t : List Char),
    itemChars xs ++ s = itemChars ys ++ t → xs = ys ∧ s = t
  | [], [], s, t, heq => by simpa [itemChars] using heq
  | [], y :: ys, s, t, heq => by simp [itemChars] at heq
  | x :: xs, [], s, t, heq => by simp [itemChars] at heq
  | x :: xs, y :: ys, s, t, heq => by
      simp only [itemChars, List.cons_append, List.append_assoc, List.cons.injEq,
        true_and] at heq
      obtain ⟨rfl, hrest⟩ := chars_decodable x y _ _ (delimited_itemChars xs s)
        (delimited_itemChars ys t) heq
      obtain ⟨rfl, rfl⟩ := itemChars_decodable xs ys s t hrest
      exact ⟨rfl, rfl⟩

theorem memberChars_decodable : ∀ (xs ys : List (String × Json)) (s t : List Char),
    memberChars xs ++ s = memberChars ys ++ t → xs = ys ∧ s = t
  | [], [], s, t, heq => by simpa [memberChars] using heq
  | [], (n, y) :: ys, s, t, heq => by simp [memberChars] at heq
  | (m, x) :: xs, [], s, t, heq => by simp [memberChars] at heq
  | (m, x) :: xs, (n, y) :: ys, s, t, heq => by
      simp only [memberChars, List.cons_append, List.append_assoc, List.cons.injEq,
        true_and] at heq
      obtain ⟨rfl, hvalue⟩ := quote_decodable heq
      obtain ⟨rfl, hrest⟩ := chars_decodable x y _ _ (delimited_memberChars xs s)
        (delimited_memberChars ys t) (List.cons.inj hvalue).2
      obtain ⟨rfl, rfl⟩ := memberChars_decodable xs ys s t hrest
      exact ⟨rfl, rfl⟩

end

/-- Two values with one serialized text are the same value. -/
theorem stringify_injective : Function.Injective stringify := by
  intro a b heq
  have hchars : chars a = chars b := String.ofList_injective heq
  exact (chars_decodable a b [] [] delimited_nil delimited_nil (by simp [hchars])).1

end Json

end X402Facilitator
