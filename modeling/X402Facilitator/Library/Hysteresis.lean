import Mathlib.Data.List.Induction

/-!
# Hysteresis

A history of reports is good or bad.  It is tripped by so many bad reports in a row, and
stays so until as many good reports follow in a row as clear it.
-/

namespace X402Facilitator.Hysteresis

section Streaks

variable {A : Type*} [DecidableEq A]

def streak (report : A) (history : List A) : ℕ :=
  (history.reverse.takeWhile fun other => decide (other = report)).length

@[simp] theorem streak_nil (report : A) : streak report [] = 0 := rfl

@[simp] theorem streak_concat (report last : A) (history : List A) :
    streak report (history ++ [last]) = if last = report then streak report history + 1 else 0 := by
  rw [streak, List.reverse_append, List.reverse_singleton, List.singleton_append,
    List.takeWhile_cons]
  by_cases hlast : last = report
  · simp [hlast, streak]
  · simp [hlast]

/-- A history ends with a block of equal reports exactly where its streak is as long. -/
theorem replicate_isSuffix_iff (report : A) (count : ℕ) (history : List A) :
    List.replicate count report <:+ history ↔ count ≤ streak report history := by
  induction history using List.reverseRecOn generalizing count with
  | nil => simp
  | append_singleton history last ih =>
      rw [streak_concat]
      cases count with
      | zero => simp
      | succ count =>
          rw [List.replicate_succ', List.suffix_concat_iff]
          constructor
          · rintro (hnil | ⟨block, hblock, hsuffix⟩)
            · exact absurd hnil (by simp)
            · obtain ⟨rfl, hsame⟩ := List.append_inj' hblock rfl
              rw [if_pos (List.singleton_inj.mp hsame).symm]
              exact Nat.succ_le_succ ((ih count).mp hsuffix)
          · intro hle
            by_cases hlast : last = report
            · rw [if_pos hlast] at hle
              exact .inr ⟨_, by rw [hlast], (ih count).mpr (Nat.le_of_succ_le_succ hle)⟩
            · rw [if_neg hlast] at hle
              exact absurd hle (Nat.not_succ_le_zero count)

end Streaks

def Tripped (trip clear : ℕ) (history : List Bool) : Prop :=
  ∃ before after, history = before ++ List.replicate trip false ++ after ∧
    ¬ List.replicate clear true <:+: after

variable {trip clear : ℕ}

theorem not_tripped_nil (htrip : 0 < trip) : ¬ Tripped trip clear [] := by
  rintro ⟨before, after, hhistory, -⟩
  have hlength := congrArg List.length hhistory
  rw [List.length_append, List.length_append, List.length_replicate, List.length_nil] at hlength
  omega

/-- A block of the other reports does not end with this one. -/
theorem not_replicate_isSuffix_concat {count : ℕ} (hcount : 0 < count) (report : Bool)
    (history : List Bool) : ¬ List.replicate count (!report) <:+ history ++ [report] := by
  intro hsuffix
  have hle := (replicate_isSuffix_iff (!report) count _).mp hsuffix
  rw [streak_concat, if_neg (Bool.eq_not_self report).mp] at hle
  omega

/-- A bad report keeps a history tripped, or trips it. -/
theorem tripped_concat_false (hclear : 0 < clear) (trip : ℕ) (history : List Bool) :
    Tripped trip clear (history ++ [false]) ↔
      Tripped trip clear history ∨ trip ≤ streak false (history ++ [false]) := by
  constructor
  · rintro ⟨before, after, hhistory, hclean⟩
    cases after using List.reverseRecOn with
    | nil =>
        rw [List.append_nil] at hhistory
        exact .inr ((replicate_isSuffix_iff _ _ _).mp ⟨before, hhistory.symm⟩)
    | append_singleton after last =>
        rw [← List.append_assoc] at hhistory
        obtain ⟨rfl, -⟩ := List.append_inj' hhistory rfl
        refine .inl ⟨before, after, rfl, fun hblock => hclean ?_⟩
        exact hblock.trans (List.prefix_append after [last]).isInfix
  · rintro (⟨before, after, rfl, hclean⟩ | hstreak)
    · refine ⟨before, after ++ [false], List.append_assoc _ _ _, ?_⟩
      rw [List.infix_concat_iff]
      rintro (hsuffix | hblock)
      · exact not_replicate_isSuffix_concat hclear false after hsuffix
      · exact hclean hblock
    · obtain ⟨before, hbefore⟩ := (replicate_isSuffix_iff false trip _).mpr hstreak
      refine ⟨before, [], by rw [List.append_nil, hbefore], fun hblock => ?_⟩
      have hlength := hblock.length_le
      rw [List.length_replicate, List.length_nil] at hlength
      omega

/-- Good reports are counted from the last bad one on. -/
theorem streak_true_append (htrip : 0 < trip) (before after : List Bool) :
    streak true (before ++ List.replicate trip false ++ after) = streak true after := by
  induction after using List.reverseRecOn with
  | nil =>
      obtain ⟨count, rfl⟩ := Nat.exists_eq_succ_of_ne_zero (Nat.ne_of_gt htrip)
      rw [List.append_nil, List.replicate_succ', ← List.append_assoc, streak_concat]
      rfl
  | append_singleton after last ih =>
      rw [← List.append_assoc, streak_concat, streak_concat, ih]

/-- A good report keeps a history tripped, except where it clears it. -/
theorem tripped_concat_true (htrip : 0 < trip) (clear : ℕ) (history : List Bool) :
    Tripped trip clear (history ++ [true]) ↔
      Tripped trip clear history ∧ streak true (history ++ [true]) < clear := by
  constructor
  · rintro ⟨before, after, hhistory, hclean⟩
    have hshort : streak true (history ++ [true]) < clear := by
      rw [hhistory, streak_true_append htrip]
      exact Nat.not_le.mp fun hle =>
        hclean ((replicate_isSuffix_iff true clear after).mpr hle).isInfix
    cases after using List.reverseRecOn with
    | nil =>
        rw [List.append_nil] at hhistory
        exact absurd ⟨before, hhistory.symm⟩ (not_replicate_isSuffix_concat htrip true history)
    | append_singleton after last =>
        rw [← List.append_assoc] at hhistory
        obtain ⟨rfl, -⟩ := List.append_inj' hhistory rfl
        refine ⟨⟨before, after, rfl, fun hblock => hclean ?_⟩, hshort⟩
        exact hblock.trans (List.prefix_append after [last]).isInfix
  · rintro ⟨⟨before, after, rfl, hclean⟩, hshort⟩
    refine ⟨before, after ++ [true], List.append_assoc _ _ _, ?_⟩
    rw [List.append_assoc, streak_true_append htrip] at hshort
    rw [List.infix_concat_iff]
    rintro (hsuffix | hblock)
    · exact Nat.not_le.mpr hshort ((replicate_isSuffix_iff true clear _).mp hsuffix)
    · exact hclean hblock

end X402Facilitator.Hysteresis
