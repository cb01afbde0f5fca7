import Mathlib.Data.List.Sort
import Mathlib.Order.Defs.LinearOrder

/-!
# Sorting by a key

Entries are sorted by a number of theirs, and equal ones keep their order.
-/

namespace X402Facilitator

/-- Comparisons that agree on the entries sort them alike. -/
theorem mergeSort_congr {A : Type*} {le le' : A → A → Bool} {entries : List A}
    (hsame : ∀ a ∈ entries, ∀ b ∈ entries, le a b = le' a b) :
    entries.mergeSort le = entries.mergeSort le' := by
  have hmap : (entries.mergeSort le).map id = (entries.map id).mergeSort le' :=
    List.map_mergeSort hsame
  rw [List.map_id, List.map_id] at hmap
  exact hmap

variable {A K : Type*} [LinearOrder K] (key : A → K)

/-- The entries in the order of their keys, the least first. -/
def sortBy (entries : List A) : List A := entries.mergeSort fun a b => decide (key a ≤ key b)

theorem sortBy_perm (entries : List A) : (sortBy key entries).Perm entries :=
  List.mergeSort_perm entries _

theorem keyOrder_trans (a b c : A) (hab : decide (key a ≤ key b) = true)
    (hbc : decide (key b ≤ key c) = true) : decide (key a ≤ key c) = true :=
  decide_eq_true ((of_decide_eq_true hab).trans (of_decide_eq_true hbc))

theorem keyOrder_total (a b : A) : (decide (key a ≤ key b) || decide (key b ≤ key a)) = true := by
  rw [Bool.or_eq_true, decide_eq_true_eq, decide_eq_true_eq]
  exact le_total (key a) (key b)

theorem pairwise_sortBy (entries : List A) :
    (sortBy key entries).Pairwise fun a b => key a ≤ key b := by
  apply (List.pairwise_mergeSort (keyOrder_trans key) (keyOrder_total key) entries).imp
  exact fun hle => of_decide_eq_true hle

/-- Entries with one key keep their order. -/
theorem filter_sortBy (entries : List A) (k : K) :
    (sortBy key entries).filter (fun entry => decide (key entry = k)) =
      entries.filter fun entry => decide (key entry = k) := by
  have hequal : (entries.filter fun entry => decide (key entry = k)).Pairwise
      fun a b => decide (key a ≤ key b) = true := by
    apply List.pairwise_of_forall_mem_list
    intro a ha b hb
    have hka := of_decide_eq_true (List.mem_filter.mp ha).2
    have hkb := of_decide_eq_true (List.mem_filter.mp hb).2
    exact decide_eq_true (hka.trans hkb.symm).le
  have hsublist := (List.sublist_mergeSort (keyOrder_trans key) (keyOrder_total key) hequal
    List.filter_sublist).filter fun entry => decide (key entry = k)
  rw [List.filter_filter] at hsublist
  simp only [Bool.and_self] at hsublist
  exact (hsublist.eq_of_length ((sortBy_perm key entries).filter _).length_eq.symm).symm

/-- The first entry has the least key. -/
theorem le_of_head?_sortBy {entries : List A} {first : A}
    (hfirst : (sortBy key entries).head? = some first) :
    first ∈ entries ∧ ∀ other ∈ entries, key first ≤ key other := by
  obtain ⟨rest, hsorted⟩ := List.head?_eq_some_iff.mp hfirst
  have hpairwise := pairwise_sortBy key entries
  rw [hsorted] at hpairwise
  have hmem : ∀ {other}, other ∈ entries ↔ other ∈ first :: rest := by
    intro other
    rw [← hsorted]
    exact (sortBy_perm key entries).mem_iff.symm
  refine ⟨hmem.mpr List.mem_cons_self, fun other hother => ?_⟩
  cases hmem.mp hother with
  | head => exact le_rfl
  | tail _ hrest => exact List.rel_of_pairwise_cons hpairwise hrest

def leastOf (first : A) (others : List A) : A :=
  others.foldl (fun least other => if key other < key least then other else least) first

theorem leastOf_mem (first : A) (others : List A) : leastOf key first others ∈ first :: others := by
  induction others generalizing first with
  | nil => exact List.mem_singleton_self first
  | cons second others ih =>
      rw [leastOf, List.foldl_cons]
      split
      · exact List.mem_cons_of_mem _ (ih second)
      · rcases List.mem_cons.mp (ih first) with hfirst | hlater
        · exact List.mem_cons.mpr (.inl hfirst)
        · exact List.mem_cons_of_mem _ (List.mem_cons_of_mem _ hlater)

/-- An entry is put first only where no later one has a lesser key. -/
theorem head?_sortBy_cons (first : A) (others : List A) :
    (sortBy key (first :: others)).head? =
      if ∀ other ∈ others, key first ≤ key other then some first
      else (sortBy key others).head? := by
  obtain ⟨before, after, hwhole, hrest, hbefore⟩ :=
    List.mergeSort_cons (keyOrder_trans key) (keyOrder_total key) first others
  change sortBy key (first :: others) = _ at hwhole
  change sortBy key others = _ at hrest
  cases before with
  | nil =>
      have hhead : (sortBy key (first :: others)).head? = some first := by
        rw [hwhole]
        rfl
      have hleast := (le_of_head?_sortBy key hhead).2
      rw [hhead, if_pos fun other hother => hleast other (List.mem_cons_of_mem _ hother)]
  | cons least before =>
      have hless : key least < key first := by
        simpa using hbefore least List.mem_cons_self
      have hmem : least ∈ others :=
        (sortBy_perm key others).mem_iff.mp (hrest ▸ List.mem_cons_self)
      rw [if_neg fun hall => (hall least hmem).not_gt hless, hwhole, hrest]
      rfl

/-- Sorted entries begin with the first of those with the least key. -/
theorem head?_sortBy (first : A) (others : List A) :
    (sortBy key (first :: others)).head? = some (leastOf key first others) := by
  induction others generalizing first with
  | nil =>
      rw [head?_sortBy_cons, if_pos fun other hother => absurd hother List.not_mem_nil]
      rfl
  | cons second others ih =>
      rw [leastOf, List.foldl_cons, ← leastOf, ← ih, head?_sortBy_cons]
      by_cases hless : key second < key first
      · rw [if_pos hless, if_neg fun hall => (hall second List.mem_cons_self).not_gt hless]
      · rw [if_neg hless, head?_sortBy_cons, head?_sortBy_cons key first]
        have hle : key first ≤ key second := not_lt.mp hless
        by_cases hall : ∀ other ∈ others, key first ≤ key other
        · have hcons : ∀ other ∈ second :: others, key first ≤ key other :=
            fun other hother => (List.mem_cons.mp hother).elim (fun heq => heq ▸ hle) (hall other)
          rw [if_pos hall, if_pos hcons]
        · rw [if_neg hall, if_neg fun hcons => hall fun other hother =>
              hcons other (List.mem_cons_of_mem _ hother),
            if_neg fun hsecond => hall fun other hother => hle.trans (hsecond other hother)]

theorem leastOf_map {B : Type*} (f : B → A) (first : B) (others : List B) :
    leastOf key (f first) (others.map f) = f (leastOf (fun b => key (f b)) first others) := by
  induction others generalizing first with
  | nil => rfl
  | cons second others ih =>
      rw [leastOf, leastOf, List.map_cons, List.foldl_cons, List.foldl_cons, ← apply_ite f]
      exact ih _

theorem leastOf_le (first : A) (others : List A) {other : A} (hother : other ∈ first :: others) :
    key (leastOf key first others) ≤ key other :=
  (le_of_head?_sortBy key (head?_sortBy key first others)).2 other hother

end X402Facilitator
