import Mathlib.Data.List.Basic

/-!
# All or none

A list is mapped by a function that can fail; the result is there where no call fails, and
then it has a value for every entry.  Code that returns early is a computation of `Except`, and a
result of a sequence of checks is one of every check in it.
-/

namespace X402Facilitator

section Options

variable {A B : Type} {value : A → Option B} {entries : List A} {found : List B}

theorem length_of_mapM (hfound : entries.mapM value = some found) :
    found.length = entries.length := by
  induction entries generalizing found with
  | nil =>
      cases hfound
      rfl
  | cons entry entries ih =>
      rw [List.mapM_cons] at hfound
      obtain ⟨first, -, htail⟩ := Option.bind_eq_some_iff.mp hfound
      obtain ⟨rest, hrest, hcons⟩ := Option.bind_eq_some_iff.mp htail
      rw [← Option.some.inj hcons, List.length_cons, List.length_cons, ih hrest]

theorem mapM_of_forall (hall : ∀ entry ∈ entries, (value entry).isSome = true) :
    ∃ found, entries.mapM value = some found := by
  induction entries with
  | nil => exact ⟨[], rfl⟩
  | cons entry entries ih =>
      obtain ⟨first, hfirst⟩ := Option.isSome_iff_exists.mp (hall entry List.mem_cons_self)
      obtain ⟨rest, hrest⟩ := ih fun other hother => hall other (List.mem_cons_of_mem _ hother)
      refine ⟨first :: rest, ?_⟩
      rw [List.mapM_cons, hfirst, hrest]
      rfl

theorem isSome_of_mapM (hfound : entries.mapM value = some found) :
    ∀ entry ∈ entries, (value entry).isSome = true := by
  induction entries generalizing found with
  | nil => exact fun entry hentry => (List.not_mem_nil hentry).elim
  | cons entry entries ih =>
      rw [List.mapM_cons] at hfound
      obtain ⟨first, hfirst, htail⟩ := Option.bind_eq_some_iff.mp hfound
      obtain ⟨rest, hrest, -⟩ := Option.bind_eq_some_iff.mp htail
      intro other hother
      rcases List.mem_cons.mp hother with rfl | hlater
      · exact Option.isSome_iff_exists.mpr ⟨first, hfirst⟩
      · exact ih hrest other hlater

/-- The values, with a default that is not used. -/
theorem mapM_eq_map (default : B) (hall : ∀ entry ∈ entries, (value entry).isSome = true) :
    entries.mapM value = some (entries.map fun entry => (value entry).getD default) := by
  induction entries with
  | nil => rfl
  | cons entry entries ih =>
      obtain ⟨first, hfirst⟩ := Option.isSome_iff_exists.mp (hall entry List.mem_cons_self)
      rw [List.mapM_cons, hfirst, ih fun other hother => hall other (List.mem_cons_of_mem _ hother),
        List.map_cons, hfirst]
      rfl

/-- What a mapping that does not fail gives comes from the list. -/
theorem exists_of_mapM_ok {E : Type} {f : A → Except E B} {xs : List A} {ys : List B}
    (hmap : xs.mapM f = .ok ys) : ∀ y ∈ ys, ∃ x ∈ xs, f x = .ok y := by
  induction xs generalizing ys with
  | nil =>
      rw [List.mapM_nil] at hmap
      cases hmap
      exact fun y hy => absurd hy List.not_mem_nil
  | cons x xs ih =>
      rw [List.mapM_cons] at hmap
      cases hx : f x with
      | error failure =>
          rw [hx] at hmap
          cases hmap
      | ok first =>
          cases hxs : xs.mapM f with
          | error failure =>
              rw [hx, hxs] at hmap
              cases hmap
          | ok rest =>
              rw [hx, hxs] at hmap
              cases hmap
              intro y hy
              rcases List.mem_cons.mp hy with rfl | hinside
              · exact ⟨x, List.mem_cons_self, hx⟩
              · obtain ⟨other, hother, hy⟩ := ih hxs y hinside
                exact ⟨other, List.mem_cons_of_mem x hother, hy⟩

end Options

namespace Checks

variable {E A B : Type}

theorem ok_of_bind {first : Except E A} {rest : A → Except E B} {value : B}
    (hok : (first >>= rest) = .ok value) : ∃ found, first = .ok found ∧ rest found = .ok value := by
  cases first with
  | error err => cases hok
  | ok found => exact ⟨found, rfl, hok⟩

theorem ok_of_map {first : Except E A} {change : A → B} {value : B}
    (hok : first.map change = .ok value) : ∃ found, first = .ok found ∧ change found = value := by
  cases first with
  | error err => cases hok
  | ok found =>
      cases hok
      exact ⟨found, rfl, rfl⟩

/-- What comes of a list of checks comes of one of them. -/
theorem mem_of_mapM {Item Value Error : Type*} {f : Item → Except Error Value} {items : List Item}
    {values : List Value} (hmap : items.mapM f = .ok values) :
    ∀ value ∈ values, ∃ item ∈ items, f item = .ok value := by
  induction items generalizing values with
  | nil =>
      obtain rfl := Except.ok.inj hmap
      exact fun value hvalue => absurd hvalue List.not_mem_nil
  | cons item rest ih =>
      rw [List.mapM_cons] at hmap
      cases hitem : f item with
      | error error =>
          rw [hitem] at hmap
          cases hmap
      | ok first =>
          rw [hitem] at hmap
          cases hrest : rest.mapM f with
          | error error =>
              change (rest.mapM f).bind _ = _ at hmap
              rw [hrest] at hmap
              cases hmap
          | ok others =>
              change (rest.mapM f).bind _ = _ at hmap
              rw [hrest] at hmap
              obtain rfl := Except.ok.inj hmap
              intro value hvalue
              rcases List.mem_cons.mp hvalue with rfl | hin
              · exact ⟨item, List.mem_cons_self, hitem⟩
              · obtain ⟨other, hother, hok⟩ := ih hrest value hin
                exact ⟨other, List.mem_cons_of_mem item hother, hok⟩

end Checks

end X402Facilitator
