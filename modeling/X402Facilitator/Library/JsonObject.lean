import Mathlib.Data.List.Perm.Basic
import X402Facilitator.Library.Json

/-!
# Members of objects

An object is built member by member: assigning to a name that is there keeps its
place, any other name comes last.  Spreading one object into another assigns its
members in turn.
-/

namespace X402Facilitator.Json

variable {A B : Type} [BEq A] [LawfulBEq A] [DecidableEq A]

def assign (members : List (A × B)) (name : A) (value : B) :
    List (A × B) :=
  if name ∈ members.map Prod.fst then
    members.map fun entry => if entry.1 = name then (name, value) else entry
  else members ++ [(name, value)]

def spread (target source : List (A × B)) : List (A × B) :=
  source.foldl (fun members entry => assign members entry.1 entry.2) target

variable {name other : A} {members : List (A × B)} {v : B}

theorem lookup_cons_of_ne (members : List (A × B)) (value : B) (hother : other ≠ name) :
    ((name, value) :: members).lookup other = members.lookup other := by
  have hne : (other == name) = false := by simpa using hother
  simp [List.lookup_cons, hne]

theorem mem_iff_lookup (hnodup : (members.map Prod.fst).Nodup) :
    (name, v) ∈ members ↔ members.lookup name = some v := by
  induction members with
  | nil => simp
  | cons entry members ih =>
      obtain ⟨other, found⟩ := entry
      rw [List.map_cons, List.nodup_cons] at hnodup
      by_cases hname : name = other
      · subst hname
        rw [List.lookup_cons_self, List.mem_cons, Prod.mk.injEq, eq_self, true_and,
          Option.some.injEq, eq_comm (a := found)]
        exact or_iff_left fun hmem => hnodup.1 (List.mem_map.mpr ⟨(name, v), hmem, rfl⟩)
      · rw [lookup_cons_of_ne _ _ hname, List.mem_cons, Prod.mk.injEq, ← ih hnodup.2]
        exact or_iff_right fun heq => hname heq.1

/-- The members of an object in another order have the same values. -/
theorem lookup_of_perm {ms ns : List (A × B)} (hnodup : (ms.map Prod.fst).Nodup)
    (hperm : ms.Perm ns) : ms.lookup name = ns.lookup name := by
  apply Option.ext
  intro v
  rw [← mem_iff_lookup hnodup, ← mem_iff_lookup ((hperm.map Prod.fst).nodup_iff.mp hnodup)]
  exact hperm.mem_iff

theorem spread_append_of_nodup {target source : List (A × B)}
    (hnodup : ((target ++ source).map Prod.fst).Nodup) :
    spread target source = target ++ source := by
  induction source generalizing target with
  | nil => exact (List.append_nil target).symm
  | cons entry source ih =>
      have hnew : entry.1 ∉ target.map Prod.fst := by
        rw [List.map_append, List.map_cons, List.nodup_append] at hnodup
        exact fun hmem => hnodup.2.2 entry.1 hmem entry.1 List.mem_cons_self rfl
      have hmore : target ++ entry :: source = (target ++ [entry]) ++ source := by
        rw [List.append_assoc, List.singleton_append]
      rw [spread, List.foldl_cons, assign, if_neg hnew, hmore]
      rw [hmore] at hnodup
      exact ih hnodup

/-- Members of distinct names are those of the object that is built from them. -/
theorem spread_nil_of_nodup (hnodup : (members.map Prod.fst).Nodup) : spread [] members = members :=
  spread_append_of_nodup hnodup

theorem lookup_filter_ne (members : List (A × B)) (hother : other ≠ name) :
    (members.filter fun entry => entry.1 ≠ name).lookup other = members.lookup other := by
  induction members with
  | nil => rfl
  | cons entry members ih =>
      obtain ⟨key, value⟩ := entry
      by_cases hkey : key = name
      · subst hkey
        rw [List.filter_cons_of_neg (by simp), lookup_cons_of_ne _ _ hother, ih]
      · rw [List.filter_cons_of_pos (by simpa using hkey), List.lookup_cons, List.lookup_cons, ih]

end X402Facilitator.Json
