import X402Facilitator.Library.JsText
import X402Facilitator.Library.Regex

/-!
# Origin patterns

An entry of the allowlist is a regular expression without flags.  Letters, escapes, the dot,
groups, alternatives and repetitions are read here; what an engine makes of any other pattern
is a parameter.
-/

namespace X402Facilitator.Cors

open JsString

inductive Token where
  | letter (unit : UInt16)
  | colon
  | any
  | opens
  | closes
  | bar
  | star
  | plus
  | mark
  deriving DecidableEq

/-- Where the scanner is: after a backslash, or in the digits of a code unit. -/
inductive ScanMode where
  | plain
  | escaped
  | digits (left : ℕ) (value : ℕ)

def unitBackslash : UInt16 := 0x5C
def unitColon : UInt16 := 0x3A

/-- The characters with a meaning of their own: `^ $ \ . * + ? ( ) [ ] { } |`. -/
def isSyntax (unit : UInt16) : Bool := (js "^$\\.*+?()[]{}|").contains unit

def isAlphanumeric (unit : UInt16) : Bool :=
  (0x30 ≤ unit && unit ≤ 0x39) || (0x41 ≤ unit && unit ≤ 0x5A) || (0x61 ≤ unit && unit ≤ 0x7A)

def hexValue (unit : UInt16) : Option ℕ :=
  if 0x30 ≤ unit && unit ≤ 0x39 then some (unit.toNat - 0x30)
  else if 0x41 ≤ unit && unit ≤ 0x46 then some (unit.toNat - 0x41 + 10)
  else if 0x61 ≤ unit && unit ≤ 0x66 then some (unit.toNat - 0x61 + 10)
  else none

/-- The token of a character that is not escaped, none for one that is not read. -/
def plainToken (unit : UInt16) : Option Token :=
  if unit = 0x2E then some .any
  else if unit = 0x28 then some .opens
  else if unit = 0x29 then some .closes
  else if unit = 0x7C then some .bar
  else if unit = 0x2A then some .star
  else if unit = 0x2B then some .plus
  else if unit = 0x3F then some .mark
  else if unit = unitColon then some .colon
  else if isSyntax unit then none
  else some (.letter unit)

/-- What an escaped letter stands for, where it is one character. -/
def controlEscape (unit : UInt16) : Option UInt16 :=
  if unit = 0x74 then some 9
  else if unit = 0x6E then some 10
  else if unit = 0x76 then some 11
  else if unit = 0x66 then some 12
  else if unit = 0x72 then some 13
  else none

/-- The tokens of a pattern, none where it has what is not read. -/
def scan : ScanMode → JsString → Option (List Token)
  | .plain, [] => some []
  | .escaped, [] => none
  | .digits _ _, [] => none
  | .plain, unit :: rest =>
      if unit = unitBackslash then scan .escaped rest
      else match plainToken unit with
        | none => none
        | some token => (scan .plain rest).map (token :: ·)
  | .escaped, unit :: rest =>
      if unit = 0x78 then scan (.digits 2 0) rest
      else if unit = 0x75 then scan (.digits 4 0) rest
      else if isAlphanumeric unit then
        match controlEscape unit with
        | none => none
        | some control => (scan .plain rest).map (.letter control :: ·)
      else (scan .plain rest).map (.letter unit :: ·)
  | .digits left value, unit :: rest =>
      match hexValue unit with
      | none => none
      | some digit =>
          let value := value * 16 + digit
          if left ≤ 1 then (scan .plain rest).map (.letter (UInt16.ofNat value) :: ·)
          else scan (.digits (left - 1) value) rest

/-- A group that is being read: its finished alternatives, and the parts of the one at hand with
the last first. -/
structure Group where
  choices : List (Regex UInt16)
  parts : List (Regex UInt16)

/-- What may come next: anything, what is after an opening parenthesis or its question mark,
or nothing that repeats. -/
inductive ParseMode where
  | started
  | opened
  | marked
  | repeatable
  | repeated
  deriving DecidableEq

namespace Group

def empty : Group := ⟨[], []⟩

def push (group : Group) (part : Regex UInt16) : Group :=
  { group with parts := part :: group.parts }

def bar (group : Group) : Group := ⟨group.choices ++ [Regex.concat group.parts.reverse], []⟩

def close (group : Group) : Regex UInt16 :=
  Regex.oneOf (group.choices ++ [Regex.concat group.parts.reverse])

def again (group : Group) (how : Regex UInt16 → Regex UInt16) : Group :=
  match group.parts with
  | [] => group
  | last :: parts => { group with parts := how last :: parts }

end Group

/-- `.` without flags: no end of a line. -/
def isDotUnit (unit : UInt16) : Bool :=
  unit != 10 && unit != 13 && unit != 0x2028 && unit != 0x2029

def unitRegex (unit : UInt16) : Regex UInt16 := .letter fun other => decide (other = unit)

/-- The expression of the tokens, within the groups that are open. -/
def parse : List Group → Group → ParseMode → List Token → Option (Regex UInt16)
  | outer, group, mode, [] => if outer = [] ∧ mode ≠ .marked then some group.close else none
  | outer, group, .marked, token :: rest =>
      if token = .colon then parse outer group .started rest else none
  | outer, group, mode, token :: rest =>
      match token with
      | .letter unit => parse outer (group.push (unitRegex unit)) .repeatable rest
      | .colon => parse outer (group.push (unitRegex unitColon)) .repeatable rest
      | .any => parse outer (group.push (.letter isDotUnit)) .repeatable rest
      | .opens => parse (group :: outer) .empty .opened rest
      | .closes =>
          match outer with
          | [] => none
          | parent :: outer => parse outer (parent.push group.close) .repeatable rest
      | .bar => parse outer group.bar .started rest
      | .star =>
          if mode = .repeatable then parse outer (group.again .many) .repeated rest else none
      | .plus =>
          if mode = .repeatable then
            parse outer (group.again fun part => .append part (.many part)) .repeated rest
          else none
      | .mark =>
          match mode with
          | .opened => parse outer group .marked rest
          | .repeatable => parse outer (group.again fun part => .either part .empty) .repeated rest
          | .repeated => parse outer group .started rest
          | _ => none

/-- `new RegExp(pattern)`, where the pattern is read. -/
def readPattern (pattern : JsString) : Option (Regex UInt16) :=
  (scan .plain pattern).bind (parse [] .empty .started)

def Token.unit? : Token → Option UInt16
  | letter unit => some unit
  | colon => some unitColon
  | _ => none

/-- A pattern of letters and escapes alone, for the characters of a text in turn. -/
def Spells (pattern text : JsString) : Prop :=
  ∃ tokens, scan .plain pattern = some tokens ∧ tokens.map Token.unit? = text.map some

def escapeRegExp (text : JsString) : JsString :=
  text.flatMap fun unit => if isSyntax unit then [unitBackslash, unit] else [unit]

section Spelling

variable {pattern text string : JsString}

/-- Letters are put behind the parts that are there. -/
theorem parse_letters {tokens : List Token} (htokens : tokens.map Token.unit? = text.map some)
    (group : Group) {mode : ParseMode} (hmode : mode ≠ .marked) :
    parse [] group mode tokens =
      some ({ group with parts := (text.map unitRegex).reverse ++ group.parts } : Group).close := by
  induction tokens generalizing text group mode with
  | nil =>
      obtain rfl : text = [] := List.map_eq_nil_iff.mp htokens.symm
      rw [parse, if_pos ⟨rfl, hmode⟩]
      rfl
  | cons token tokens ih =>
      cases text with
      | nil => cases htokens
      | cons unit text =>
          obtain ⟨hunit, hrest⟩ := List.cons.inj htokens
          have hpush : ({ group with
                parts := ((unit :: text).map unitRegex).reverse ++ group.parts } : Group) =
              { (group.push (unitRegex unit)) with
                parts := (text.map unitRegex).reverse ++
                  (group.push (unitRegex unit)).parts } := by
            simp [Group.push]
          have hnext : parse [] (group.push (unitRegex unit)) .repeatable tokens = _ :=
            ih hrest (group.push (unitRegex unit)) (by decide)
          cases token with
          | letter letter =>
              obtain rfl : letter = unit := Option.some.inj hunit
              rw [hpush, ← hnext]
              cases mode <;> first | exact absurd rfl hmode | rfl
          | colon =>
              obtain rfl : unitColon = unit := Option.some.inj hunit
              rw [hpush, ← hnext]
              cases mode <;> first | exact absurd rfl hmode | rfl
          | _ => cases hunit

/-- A pattern that spells a text matches this text alone. -/
theorem accepts_of_spells (hspells : Spells pattern text) : ∃ regex,
    readPattern pattern = some regex ∧
      ∀ string, regex.accepts string = true ↔ string = text := by
  obtain ⟨tokens, hscan, htokens⟩ := hspells
  have hread : readPattern pattern = some
      ({ Group.empty with parts := (text.map unitRegex).reverse ++ Group.empty.parts } :
        Group).close := by
    rw [readPattern, hscan, Option.bind_some]
    exact parse_letters htokens .empty (by decide)
  refine ⟨_, hread, fun string => ?_⟩
  rw [Regex.accepts_iff_matches, Group.close, Regex.matches_oneOf_iff]
  simp only [Group.empty, List.append_nil, List.nil_append, List.mem_singleton, exists_eq_left,
    List.reverse_reverse]
  exact Regex.matches_concat_letters_iff

theorem plainToken_of_notSyntax {unit : UInt16} (hunit : isSyntax unit = false) :
    ∃ token, plainToken unit = some token ∧ token.unit? = some unit := by
  have hne : ∀ other, isSyntax other = true → unit ≠ other := by
    rintro other hother rfl
    rw [hunit] at hother
    cases hother
  rw [plainToken, if_neg (hne _ (by decide)), if_neg (hne _ (by decide)),
    if_neg (hne _ (by decide)), if_neg (hne _ (by decide)), if_neg (hne _ (by decide)),
    if_neg (hne _ (by decide)), if_neg (hne _ (by decide))]
  by_cases hcolon : unit = unitColon
  · rw [if_pos hcolon]
    exact ⟨.colon, rfl, congrArg some hcolon.symm⟩
  · rw [if_neg hcolon, hunit]
    exact ⟨.letter unit, rfl, rfl⟩

theorem scan_escaped {unit : UInt16} (hunit : isSyntax unit = true) (rest : JsString) :
    scan .escaped (unit :: rest) = (scan .plain rest).map (.letter unit :: ·) := by
  have hall : ((js "^$\\.*+?()[]{}|").all fun unit => !isAlphanumeric unit) = true := by decide
  have hplain : isAlphanumeric unit = false := by
    simpa using List.all_eq_true.mp hall unit (List.contains_iff_mem.mp hunit)
  have hne : ∀ other, isAlphanumeric other = true → unit ≠ other := by
    rintro other hother rfl
    rw [hplain] at hother
    cases hother
  rw [scan, if_neg (hne _ (by decide)), if_neg (hne _ (by decide)), hplain]
  rfl

/-- An escaped text is spelled by its escape. -/
theorem spells_escapeRegExp (text : JsString) : Spells (escapeRegExp text) text := by
  induction text with
  | nil => exact ⟨[], rfl, rfl⟩
  | cons unit text ih =>
      obtain ⟨tokens, hscan, htokens⟩ := ih
      rw [escapeRegExp, List.flatMap_cons, ← escapeRegExp]
      cases hunit : isSyntax unit with
      | true =>
          refine ⟨.letter unit :: tokens, ?_, congrArg (some unit :: ·) htokens⟩
          rw [if_pos rfl, List.cons_append, scan, if_pos rfl, List.singleton_append,
            scan_escaped hunit, hscan]
          rfl
      | false =>
          obtain ⟨token, htoken, hself⟩ := plainToken_of_notSyntax hunit
          have hplain : unit ≠ unitBackslash := by
            rintro rfl
            exact absurd hunit (by decide)
          refine ⟨token :: tokens, ?_, ?_⟩
          · rw [if_neg Bool.false_ne_true, List.singleton_append, scan, if_neg hplain, htoken,
              hscan]
            rfl
          · rw [List.map_cons, List.map_cons, hself, htokens]

end Spelling

end X402Facilitator.Cors
