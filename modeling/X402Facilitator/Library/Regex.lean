import Mathlib.Data.List.Basic

/-!
# Regular expressions

Expressions over an alphabet, with sets of letters as their atoms.  What a word has to be for
an expression to match it as a whole is said by `Matches`, and tested by derivatives.
-/

namespace X402Facilitator

inductive Regex (A : Type*) where
  | never
  | empty
  | letter (among : A → Bool)
  | append (first second : Regex A)
  | either (first second : Regex A)
  | many (inner : Regex A)

namespace Regex

variable {A : Type*}

inductive Matches : Regex A → List A → Prop where
  | empty : Matches .empty []
  | letter {among : A → Bool} {a : A} (ha : among a = true) : Matches (.letter among) [a]
  | append {first second : Regex A} {x y : List A} (hfirst : Matches first x)
      (hsecond : Matches second y) : Matches (.append first second) (x ++ y)
  | left {first second : Regex A} {x : List A} (hfirst : Matches first x) :
      Matches (.either first second) x
  | right {first second : Regex A} {x : List A} (hsecond : Matches second x) :
      Matches (.either first second) x
  | stop {inner : Regex A} : Matches (.many inner) []
  | more {inner : Regex A} {x y : List A} (hinner : Matches inner x)
      (hmany : Matches (.many inner) y) : Matches (.many inner) (x ++ y)

def nullable : Regex A → Bool
  | never => false
  | empty => true
  | letter _ => false
  | append first second => first.nullable && second.nullable
  | either first second => first.nullable || second.nullable
  | many _ => true

def derive (a : A) : Regex A → Regex A
  | never => never
  | empty => never
  | letter among => if among a then empty else never
  | append first second =>
      if first.nullable then either (append (first.derive a) second) (second.derive a)
      else append (first.derive a) second
  | either first second => either (first.derive a) (second.derive a)
  | many inner => append (inner.derive a) (many inner)

def accepts (regex : Regex A) (word : List A) : Bool :=
  (word.foldl (fun left a => left.derive a) regex).nullable

def concat (parts : List (Regex A)) : Regex A := parts.foldr append empty

def oneOf (choices : List (Regex A)) : Regex A := choices.foldr either never

section Matching

variable {regex first second inner : Regex A} {a : A} {word : List A}

@[simp]
theorem not_matches_never : ¬ (never : Regex A).Matches word := by
  rintro ⟨⟩

@[simp]
theorem matches_empty_iff : (empty : Regex A).Matches word ↔ word = [] := by
  constructor
  · rintro ⟨⟩
    rfl
  · rintro rfl
    exact .empty

@[simp]
theorem matches_letter_iff {among : A → Bool} :
    (letter among).Matches word ↔ ∃ a, among a = true ∧ word = [a] := by
  constructor
  · rintro (_ | ha)
    exact ⟨_, ha, rfl⟩
  · rintro ⟨a, ha, rfl⟩
    exact .letter ha

@[simp]
theorem matches_either_iff :
    (either first second).Matches word ↔ first.Matches word ∨ second.Matches word := by
  constructor
  · intro hword
    cases hword with
    | left hfirst => exact .inl hfirst
    | right hsecond => exact .inr hsecond
  · exact fun hword => hword.elim .left .right

theorem matches_append_iff : (append first second).Matches word ↔
    ∃ x y, first.Matches x ∧ second.Matches y ∧ word = x ++ y := by
  constructor
  · intro hword
    cases hword with
    | append hfirst hsecond => exact ⟨_, _, hfirst, hsecond, rfl⟩
  · rintro ⟨x, y, hfirst, hsecond, rfl⟩
    exact .append hfirst hsecond

/-- A word of a repetition that is not empty begins with a word that is not empty. -/
theorem matches_many_cons_iff : (many inner).Matches (a :: word) ↔
    ∃ x y, inner.Matches (a :: x) ∧ (many inner).Matches y ∧ word = x ++ y := by
  constructor
  · intro hword
    generalize hregex : many inner = whole at hword
    generalize hletters : a :: word = letters at hword
    induction hword with
    | stop => cases hletters
    | @more inner' x y hinner hmany _ ih =>
        obtain rfl : inner = inner' := Regex.many.inj hregex
        cases x with
        | nil => exact ih rfl hletters
        | cons b x =>
            obtain ⟨rfl, rfl⟩ := List.cons.inj hletters
            exact ⟨x, y, hinner, hmany, rfl⟩
    | _ => cases hregex
  · rintro ⟨x, y, hinner, hmany, rfl⟩
    exact .more hinner hmany

theorem nullable_iff : regex.nullable = true ↔ regex.Matches [] := by
  induction regex with
  | never => simp [nullable]
  | empty => simp [nullable]
  | letter among => simp [nullable]
  | append first second ihfirst ihsecond =>
      rw [nullable, Bool.and_eq_true, ihfirst, ihsecond, matches_append_iff]
      constructor
      · exact fun hboth => ⟨[], [], hboth.1, hboth.2, rfl⟩
      · rintro ⟨x, y, hfirst, hsecond, heq⟩
        obtain ⟨rfl, rfl⟩ := List.nil_eq_append_iff.mp heq
        exact ⟨hfirst, hsecond⟩
  | either first second ihfirst ihsecond =>
      rw [nullable, Bool.or_eq_true, ihfirst, ihsecond, matches_either_iff]
  | many inner ih => exact iff_of_true rfl .stop

/-- The derivative matches what is left of the words that begin with the letter. -/
theorem derive_matches_iff : (regex.derive a).Matches word ↔ regex.Matches (a :: word) := by
  induction regex generalizing word with
  | never => simp [derive]
  | empty => simp [derive]
  | letter among =>
      rw [derive, matches_letter_iff]
      split
      · next ha =>
          rw [matches_empty_iff]
          constructor
          · rintro rfl
            exact ⟨a, ha, rfl⟩
          · rintro ⟨b, -, hword⟩
            exact (List.cons.inj hword).2
      · next ha =>
          refine iff_of_false not_matches_never ?_
          rintro ⟨b, hb, hword⟩
          exact ha ((List.cons.inj hword).1 ▸ hb)
  | append first second ihfirst ihsecond =>
      have hsplit : (append first second).Matches (a :: word) ↔
          (append (first.derive a) second).Matches word ∨
            first.Matches [] ∧ second.Matches (a :: word) := by
        rw [matches_append_iff, matches_append_iff]
        constructor
        · rintro ⟨x, y, hfirst, hsecond, heq⟩
          cases x with
          | nil => exact .inr ⟨hfirst, heq ▸ hsecond⟩
          | cons b x =>
              obtain ⟨rfl, rfl⟩ := List.cons.inj heq
              exact .inl ⟨x, y, ihfirst.mpr hfirst, hsecond, rfl⟩
        · rintro (⟨x, y, hfirst, hsecond, rfl⟩ | ⟨hfirst, hsecond⟩)
          · exact ⟨a :: x, y, ihfirst.mp hfirst, hsecond, rfl⟩
          · exact ⟨[], a :: word, hfirst, hsecond, rfl⟩
      rw [derive, hsplit, ← nullable_iff]
      split
      · next hnull => rw [matches_either_iff, ihsecond, and_iff_right hnull]
      · next hnull => exact (or_iff_left fun hsecond => hnull hsecond.1).symm
  | either first second ihfirst ihsecond =>
      rw [derive, matches_either_iff, matches_either_iff, ihfirst, ihsecond]
  | many inner ih =>
      rw [derive, matches_append_iff, matches_many_cons_iff]
      constructor
      · rintro ⟨x, y, hinner, hmany, rfl⟩
        exact ⟨x, y, ih.mp hinner, hmany, rfl⟩
      · rintro ⟨x, y, hinner, hmany, rfl⟩
        exact ⟨x, y, ih.mpr hinner, hmany, rfl⟩

theorem accepts_iff_matches : regex.accepts word = true ↔ regex.Matches word := by
  induction word generalizing regex with
  | nil => exact nullable_iff
  | cons a word ih => exact ih.trans derive_matches_iff

end Matching

section Words

variable {word : List A}

@[simp]
theorem matches_oneOf_iff {choices : List (Regex A)} :
    (oneOf choices).Matches word ↔ ∃ choice ∈ choices, choice.Matches word := by
  induction choices with
  | nil => simp [oneOf]
  | cons choice choices ih =>
      rw [oneOf, List.foldr_cons, ← oneOf, matches_either_iff, ih, List.exists_mem_cons_iff]

/-- The single letters of a word, one after another, match this word alone. -/
theorem matches_concat_letters_iff [DecidableEq A] {letters : List A} :
    (concat (letters.map fun a => letter fun b => decide (b = a))).Matches word ↔
      word = letters := by
  induction letters generalizing word with
  | nil => exact matches_empty_iff
  | cons a letters ih =>
      rw [List.map_cons, concat, List.foldr_cons, ← concat, matches_append_iff]
      constructor
      · rintro ⟨x, y, hfirst, hrest, rfl⟩
        obtain ⟨b, hb, rfl⟩ := matches_letter_iff.mp hfirst
        rw [ih.mp hrest, of_decide_eq_true hb]
        rfl
      · rintro rfl
        exact ⟨[a], letters, .letter (decide_eq_true rfl), ih.mpr rfl, rfl⟩

end Words

end Regex

end X402Facilitator
