import Mathlib.Data.List.Forall2

/-!
# Lists that are cut

A list is cut into slices of one length, at a separator, at elements that a function respects, or
at a separator that is written twice.
-/

namespace X402Facilitator

section Slices

variable {A : Type*}

variable {limit : ℕ} {items : List A}

end Slices

theorem splitOn_cons {A : Type*} [DecidableEq A] (separator first : A) (rest : List A) :
    (first :: rest).splitOn separator =
      if first = separator then [] :: rest.splitOn separator
      else (rest.splitOn separator).modifyHead (first :: ·) := by
  rw [List.splitOn, List.splitOn, List.splitOnP_cons_eq_if_modifyHead]
  simp only [beq_iff_eq]

section Respects

variable {A : Type*}

structure RespectsCuts (cut : A → Bool) (f : List A → List A) : Prop where
  append : ∀ {c}, cut c = true → ∀ x y, f (x ++ c :: y) = f x ++ c :: f y
  mem : ∀ {c entries}, cut c = true → c ∈ f entries → c ∈ entries

namespace RespectsCuts

variable {cut : A → Bool} {f : List A → List A}

theorem mem_iff (hf : RespectsCuts cut f) {c : A} (hc : cut c = true) (entries : List A) :
    c ∈ f entries ↔ c ∈ entries := by
  refine ⟨hf.mem hc, fun hmem => ?_⟩
  obtain ⟨x, y, rfl⟩ := List.append_of_mem hmem
  rw [hf.append hc]
  exact List.mem_append_right _ List.mem_cons_self

/-- A cut of what the function gives comes from a cut of what it was given. -/
theorem exists_of_eq_append (hf : RespectsCuts cut f) {c : A} (hc : cut c = true)
    (entries : List A) {before after : List A} (heq : f entries = before ++ c :: after) :
    ∃ x y, entries = x ++ c :: y ∧ f x = before ∧ f y = after := by
  have hmem : c ∈ entries := hf.mem hc (heq ▸ List.mem_append_right _ List.mem_cons_self)
  obtain ⟨x, y, rfl⟩ := List.append_of_mem hmem
  rw [hf.append hc] at heq
  rcases List.append_eq_append_iff.mp heq with ⟨middle, hbefore, hrest⟩ | ⟨middle, hx, hrest⟩
  · cases middle with
    | nil =>
        rw [List.append_nil] at hbefore
        exact ⟨x, y, rfl, hbefore.symm, (List.cons.inj hrest).2⟩
    | cons first middle =>
        obtain ⟨rfl, hy⟩ := List.cons.inj hrest
        obtain ⟨x', y', rfl, hx', hy'⟩ := exists_of_eq_append hf hc y hy
        refine ⟨x ++ c :: x', y', by rw [List.append_assoc, List.cons_append], ?_, hy'⟩
        rw [hf.append hc, hx', hbefore]
  · cases middle with
    | nil =>
        rw [List.append_nil] at hx
        exact ⟨x, y, rfl, hx, (List.cons.inj hrest).2.symm⟩
    | cons first middle =>
        obtain ⟨rfl, hafter⟩ := List.cons.inj hrest
        obtain ⟨x', y', rfl, hx', hy'⟩ := exists_of_eq_append hf hc x hx
        refine ⟨x', y' ++ c :: y, by rw [List.append_assoc, List.cons_append], hx', ?_⟩
        rw [hf.append hc, hy', hafter]
        rfl
termination_by entries.length
decreasing_by
  all_goals
    subst_vars
    rw [List.length_append, List.length_cons]
    omega

end RespectsCuts

end Respects

/-! A pair that is joined by a separator written twice can be read back, but for parts that the
separator straddles: it may be shifted by one, or occur in the first part of one pair and in
the second of the other. -/

namespace Separator

variable {A : Type*}

def joined (separator : A) (left right : List A) : List A :=
  left ++ separator :: separator :: right

/-- The second pair is cut at a later place of one joined list. -/
def Straddles (separator : A) (left right left' right' : List A) : Prop :=
  (left' = left ++ [separator] ∧ right = separator :: right') ∨
    ∃ middle, left' = left ++ separator :: separator :: middle ∧
      right = middle ++ separator :: separator :: right'

variable {separator : A} {left right left' right' : List A}

/-- What lies between two cuts of one list. -/
theorem rest_cases {between : List A}
    (hrest : separator :: separator :: right = between ++ separator :: separator :: right') :
    (between = [] ∧ right = right') ∨ (between = [separator] ∧ right = separator :: right') ∨
      ∃ middle, between = separator :: separator :: middle ∧
        right = middle ++ separator :: separator :: right' := by
  cases between with
  | nil => exact .inl ⟨rfl, (List.cons.inj (List.cons.inj hrest).2).2⟩
  | cons first between =>
      rw [List.cons_append, List.cons.injEq] at hrest
      obtain ⟨rfl, htail⟩ := hrest
      cases between with
      | nil => exact .inr (.inl ⟨rfl, (List.cons.inj htail).2⟩)
      | cons second middle =>
          rw [List.cons_append, List.cons.injEq] at htail
          obtain ⟨rfl, hright⟩ := htail
          exact .inr (.inr ⟨middle, rfl, hright⟩)

theorem straddles_of_rest {between : List A} (hleft : left' = left ++ between)
    (hrest : separator :: separator :: right = between ++ separator :: separator :: right') :
    (left = left' ∧ right = right') ∨ Straddles separator left right left' right' := by
  rcases rest_cases hrest with ⟨rfl, hright⟩ | ⟨rfl, hright⟩ | ⟨middle, rfl, hright⟩
  · rw [List.append_nil] at hleft
    exact .inl ⟨hleft.symm, hright⟩
  · exact .inr (.inl ⟨hleft, hright⟩)
  · exact .inr (.inr ⟨middle, hleft, hright⟩)

theorem joined_eq_of_straddles (hstraddles : Straddles separator left right left' right') :
    joined separator left right = joined separator left' right' := by
  rcases hstraddles with ⟨rfl, rfl⟩ | ⟨middle, rfl, rfl⟩
  · simp [joined]
  · simp [joined]

/-- Joined parts are equal for equal parts, and where one pair straddles the other. -/
theorem joined_eq_iff :
    joined separator left right = joined separator left' right' ↔
      (left = left' ∧ right = right') ∨ Straddles separator left right left' right' ∨
        Straddles separator left' right' left right := by
  constructor
  · intro hjoined
    rcases List.append_eq_append_iff.mp hjoined with ⟨between, hleft, hrest⟩ |
      ⟨between, hleft, hrest⟩
    · rcases straddles_of_rest hleft hrest with hsame | hstraddles
      · exact .inl hsame
      · exact .inr (.inl hstraddles)
    · rcases straddles_of_rest hleft hrest with ⟨hleft, hright⟩ | hstraddles
      · exact .inl ⟨hleft.symm, hright.symm⟩
      · exact .inr (.inr hstraddles)
  · rintro (⟨rfl, rfl⟩ | hstraddles | hstraddles)
    · rfl
    · exact joined_eq_of_straddles hstraddles
    · exact (joined_eq_of_straddles hstraddles).symm

/-- A pair does not straddle itself. -/
theorem ne_of_straddles (hstraddles : Straddles separator left right left' right') :
    left' ≠ left := by
  rintro rfl
  rcases hstraddles with ⟨hleft, -⟩ | ⟨middle, hleft, -⟩
  · simp at hleft
  · simp at hleft

end Separator

end X402Facilitator
