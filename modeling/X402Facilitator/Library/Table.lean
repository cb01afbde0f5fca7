import Mathlib.Algebra.Order.Ring.Nat
import Mathlib.Data.List.Basic

/-!
# Tables whose ids are places

A table is the list of its rows, and the id of a row is its place.  Rows are added
at the end; an update changes one row, or all those whose id a condition selects.
-/

namespace X402Facilitator.Table

variable {A B : Type*} {rows : List A} {id other : ℕ}

theorem getElem?_modify_self (rows : List A) (id : ℕ) (change : A → A) :
    (rows.modify id change)[id]? = rows[id]?.map change := by
  rw [List.getElem?_modify]
  simp

variable {change : A → A} {row after : A} {column : A → B}

theorem getElem?_modify_of_ne (hother : id ≠ other) :
    (rows.modify id change)[other]? = rows[other]? := by
  rw [List.getElem?_modify]
  simp [hother]

/-- A row after an update is the changed one, or one of another place. -/
theorem getElem?_modify_cases (hrow : (rows.modify id change)[other]? = some row) :
    (other = id ∧ ∃ before, rows[id]? = some before ∧ change before = row) ∨
      (other ≠ id ∧ rows[other]? = some row) := by
  by_cases hother : id = other
  · subst hother
    rw [getElem?_modify_self] at hrow
    exact Or.inl ⟨rfl, Option.map_eq_some_iff.mp hrow⟩
  · rw [getElem?_modify_of_ne hother] at hrow
    exact Or.inr ⟨Ne.symm hother, hrow⟩

theorem mem_modify_cases (hrow : row ∈ rows.modify id change) :
    (∃ before ∈ rows, change before = row) ∨ row ∈ rows := by
  obtain ⟨other, hother⟩ := List.mem_iff_getElem?.mp hrow
  rcases getElem?_modify_cases hother with ⟨-, before, hbefore, hchanged⟩ | ⟨-, hold⟩
  · exact .inl ⟨before, List.mem_of_getElem? hbefore, hchanged⟩
  · exact .inr (List.mem_of_getElem? hold)

/-- An update that keeps a column. -/
theorem map_modify (rows : List A) (id : ℕ) (hkeeps : ∀ row, column (change row) = column row) :
    (rows.modify id change).map column = rows.map column := by
  refine List.ext_getElem? fun index => ?_
  rw [List.getElem?_map, List.getElem?_map]
  by_cases hindex : id = index
  · rw [← hindex, getElem?_modify_self, Option.map_map]
    exact congrArg (fun f => rows[id]?.map f) (funext hkeeps)
  · rw [getElem?_modify_of_ne hindex]

/-- The update of the rows that `selected` holds of. -/
def updateWhere (selected : ℕ → Prop) [DecidablePred selected] (change : A → A) (rows : List A) :
    List A :=
  rows.mapIdx fun id row => if selected id then change row else row

theorem getElem?_updateWhere (selected : ℕ → Prop) [DecidablePred selected] (change : A → A)
    (rows : List A) (id : ℕ) :
    (updateWhere selected change rows)[id]? =
      if selected id then rows[id]?.map change else rows[id]? := by
  rw [updateWhere, List.getElem?_mapIdx]
  split
  · rfl
  · cases rows[id]? <;> rfl

theorem map_updateWhere (selected : ℕ → Prop) [DecidablePred selected] (rows : List A)
    (hkeeps : ∀ row, column (change row) = column row) :
    (updateWhere selected change rows).map column = rows.map column := by
  refine List.ext_getElem? fun index => ?_
  rw [List.getElem?_map, List.getElem?_map, getElem?_updateWhere]
  split
  · rw [Option.map_map]
    exact congrArg (fun f => rows[index]?.map f) (funext hkeeps)
  · rfl

/-- A row is added behind the others. -/
theorem getElem?_concat_of_ne (last : A) (hid : id ≠ rows.length) :
    (rows ++ [last])[id]? = rows[id]? := by
  rcases Nat.lt_or_gt_of_ne hid with hlt | hgt
  · exact List.getElem?_append_left hlt
  · rw [List.getElem?_eq_none (Nat.le_of_lt hgt), List.getElem?_eq_none]
    rw [List.length_append]
    exact hgt

theorem getElem?_concat_of_some (last : A) (hrow : rows[id]? = some row) :
    (rows ++ [last])[id]? = some row := by
  rw [List.getElem?_append_left (List.getElem?_eq_some_iff.mp hrow).1]
  exact hrow

/-- A row of the longer table is an old one, or the last. -/
theorem getElem?_concat_cases {last : A} (hrow : (rows ++ [last])[id]? = some row) :
    rows[id]? = some row ∨ (id = rows.length ∧ row = last) := by
  by_cases hid : id = rows.length
  · rw [hid, List.getElem?_concat_length] at hrow
    exact Or.inr ⟨hid, (Option.some.inj hrow).symm⟩
  · rw [getElem?_concat_of_ne last hid] at hrow
    exact Or.inl hrow

/-- A column of numbers after a row has been replaced. -/
theorem sum_map_set {before : A} (column : A → ℕ) (hrow : rows[id]? = some before) :
    ((rows.set id after).map column).sum + column before =
      (rows.map column).sum + column after := by
  induction rows generalizing id with
  | nil => cases hrow
  | cons first rest ih =>
      cases id with
      | zero =>
          obtain rfl : first = before := Option.some.inj hrow
          simp only [List.set_cons_zero, List.map_cons, List.sum_cons]
          omega
      | succ id =>
          have hrest := @ih id hrow
          simp only [List.set_cons_succ, List.map_cons, List.sum_cons]
          omega

/-- A row after one has been replaced is the new one, or one of another place. -/
theorem getElem?_set_cases (hrow : (rows.set id after)[other]? = some row) :
    (other = id ∧ row = after) ∨ (other ≠ id ∧ rows[other]? = some row) := by
  by_cases hother : id = other
  · subst hother
    rw [List.getElem?_set_self'] at hrow
    obtain ⟨-, -, rfl⟩ := Option.map_eq_some_iff.mp hrow
    exact Or.inl ⟨rfl, rfl⟩
  · rw [List.getElem?_set_ne hother] at hrow
    exact Or.inr ⟨Ne.symm hother, hrow⟩

end X402Facilitator.Table
