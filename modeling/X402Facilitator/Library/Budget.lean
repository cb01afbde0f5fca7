import Mathlib.Data.Finsupp.Weight

/-!
# Budgets with reservations

A budget knows what has been spent and what each holder has reserved.  A
reservation is made only while everything committed still fits, and a charge
spends at most the reservation of its holder, which it releases.
-/

namespace X402Facilitator

structure Budget (Holder : Type*) where
  spent : ℕ
  held : Holder →₀ ℕ

namespace Budget

variable {Holder : Type*} {fits : ℕ → Prop} {budget budget' : Budget Holder}

def empty : Budget Holder := ⟨0, 0⟩

noncomputable def committed (budget : Budget Holder) : ℕ :=
  budget.spent + budget.held.degree

noncomputable def reserve (budget : Budget Holder) (holder : Holder) (amount : ℕ) :
    Budget Holder :=
  { budget with held := budget.held + Finsupp.single holder amount }

noncomputable def charge (budget : Budget Holder) (holder : Holder) (amount : ℕ) :
    Budget Holder where
  spent := budget.spent + amount
  held := budget.held.erase holder

def Within (fits : ℕ → Prop) (budget : Budget Holder) : Prop :=
  budget.committed = 0 ∨ fits budget.committed

theorem within_empty : (empty : Budget Holder).Within fits :=
  Or.inl (by simp [committed, empty])

theorem committed_reserve (holder : Holder) (amount : ℕ) :
    (budget.reserve holder amount).committed = budget.committed + amount := by
  calc
    budget.spent + (budget.held + Finsupp.single holder amount).degree =
        budget.spent + (budget.held.degree + amount) := by
      rw [map_add, Finsupp.degree_single]
    _ = budget.committed + amount := by rw [committed, Nat.add_assoc]

theorem Within.reserve (holder : Holder) {amount : ℕ}
    (hfits : fits (budget.committed + amount)) : (budget.reserve holder amount).Within fits := by
  right
  rw [committed_reserve]
  exact hfits

/-- A charge within the reservation commits nothing more. -/
theorem committed_charge_le {holder : Holder} {amount : ℕ} (hheld : amount ≤ budget.held holder) :
    (budget.charge holder amount).committed ≤ budget.committed := by
  have hsplit := congrArg Finsupp.degree (Finsupp.single_add_erase holder budget.held)
  rw [map_add, Finsupp.degree_single] at hsplit
  calc
    budget.spent + amount + (budget.held.erase holder).degree ≤
        budget.spent + (budget.held holder + (budget.held.erase holder).degree) := by omega
    _ = budget.committed := by rw [hsplit, committed]

/-- Smaller commitments fit as well. -/
theorem Within.charge (hmono : ∀ {m n}, m ≤ n → fits n → fits m) (hwithin : budget.Within fits)
    {holder : Holder} {amount : ℕ} (hheld : amount ≤ budget.held holder) :
    (budget.charge holder amount).Within fits := by
  have hle := committed_charge_le hheld
  rcases hwithin with hzero | hfits
  · left
    omega
  · right
    exact hmono hle hfits

/-- Something spent fits. -/
theorem Within.spent (hmono : ∀ {m n}, m ≤ n → fits n → fits m) (hwithin : budget.Within fits)
    (hspent : 0 < budget.spent) : fits budget.spent := by
  have hle : budget.spent ≤ budget.committed := Nat.le_add_right _ _
  rcases hwithin with hzero | hfits
  · omega
  · exact hmono hle hfits

/-- The reservations of a family of holders. -/
theorem degree_eq_finsum {held : Holder →₀ ℕ} {family : Holder → ℕ}
    (hheld : ∀ holder, held holder = family holder) :
    held.degree = ∑ᶠ holder, family holder := by
  have hfamily : family = held := funext fun holder => (hheld holder).symm
  rw [hfamily, Finsupp.degree_apply]
  exact (finsum_eq_sum_of_support_subset held (by simp)).symm

end Budget

end X402Facilitator
