import Mathlib.Data.List.Dedup
import Mathlib.Data.List.Perm.Subperm
import Mathlib.Data.List.Infix

/-!
# Recency

A log of what has been done with keys, the last event first.  A list of keys in the order of
their last uses stays one when a key is used, and what is dropped from its front has been used
least recently.
-/

namespace X402Facilitator.Recency

inductive Event (Key : Type*) where
  | used (key : Key)
  | deleted (key : Key)
  | cleared
  deriving DecidableEq

variable {Key : Type*} [DecidableEq Key]

omit [DecidableEq Key] in
def Event.usedKey : Event Key → Option Key
  | used key => some key
  | _ => none

def since (key : Key) (log : List (Event Key)) : List (Event Key) :=
  log.takeWhile (· ≠ .used key)

/-- The keys that have been used after the last use of a key. -/
def usedSince (key : Key) (log : List (Event Key)) : List Key :=
  ((since key log).filterMap Event.usedKey).dedup

/-- A key was used after the last use of another one. -/
def UsedAfter (log : List (Event Key)) (key other : Key) : Prop := other ∈ usedSince key log

def Ordered (log : List (Event Key)) (keys : List Key) : Prop := keys.Pairwise (UsedAfter log)

section Logs

variable {key other : Key} {event : Event Key} {log : List (Event Key)} {keys : List Key}

omit [DecidableEq Key] in
theorem mem_filterMap_usedKey {events : List (Event Key)} :
    key ∈ events.filterMap Event.usedKey ↔ .used key ∈ events := by
  rw [List.mem_filterMap]
  constructor
  · rintro ⟨event, hmem, hkey⟩
    cases event with
    | used other =>
        obtain rfl := Option.some.inj hkey
        exact hmem
    | deleted other => cases hkey
    | cleared => cases hkey
  · intro hmem
    exact ⟨.used key, hmem, rfl⟩

theorem usedAfter_iff : UsedAfter log key other ↔ .used other ∈ since key log := by
  rw [UsedAfter, usedSince, List.mem_dedup, mem_filterMap_usedKey]

theorem since_cons_of_ne (hne : event ≠ .used key) :
    since key (event :: log) = event :: since key log := by
  rw [since, List.takeWhile_cons_of_pos (by simpa using hne), since]

/-- What happened since the last use is not forgotten before the next one. -/
theorem since_subset_cons (hne : event ≠ .used key) : since key log ⊆ since key (event :: log) := by
  rw [since_cons_of_ne hne]
  exact List.subset_cons_self event _

theorem length_usedSince_le_cons (hne : event ≠ .used key) :
    (usedSince key log).length ≤ (usedSince key (event :: log)).length := by
  have hsubset : usedSince key log ⊆ usedSince key (event :: log) := by
    intro other hother
    exact usedAfter_iff.mpr (since_subset_cons hne (usedAfter_iff.mp hother))
  exact ((List.nodup_dedup _).subperm hsubset).length_le

theorem UsedAfter.cons (hafter : UsedAfter log key other) (hne : event ≠ .used key) :
    UsedAfter (event :: log) key other :=
  usedAfter_iff.mpr (since_subset_cons hne (usedAfter_iff.mp hafter))

theorem usedAfter_cons_self (hne : other ≠ key) : UsedAfter (.used other :: log) key other := by
  rw [usedAfter_iff, since_cons_of_ne (by simpa using hne)]
  exact List.mem_cons_self

omit [DecidableEq Key] in
theorem Ordered.sublist [DecidableEq Key] {fewer : List Key} (hordered : Ordered log keys)
    (hsublist : fewer.Sublist keys) : Ordered log fewer :=
  List.Pairwise.sublist hsublist hordered

/-- An event that uses no key of the list. -/
theorem Ordered.cons (hordered : Ordered log keys) (hunused : ∀ key ∈ keys, event ≠ .used key) :
    Ordered (event :: log) keys :=
  List.Pairwise.imp_of_mem (fun hkey _ hafter => hafter.cons (hunused _ hkey)) hordered

/-- A key that is used goes to the end. -/
theorem Ordered.use (hordered : Ordered log keys) (hfresh : key ∉ keys) :
    Ordered (.used key :: log) (keys ++ [key]) := by
  have hne : ∀ other ∈ keys, key ≠ other := by
    rintro other hother rfl
    exact hfresh hother
  refine List.pairwise_append.mpr ⟨hordered.cons fun other hother => ?_,
    List.pairwise_singleton _ _, fun other hother last hlast => ?_⟩
  · simpa using hne other hother
  · rw [List.mem_singleton.mp hlast]
    exact usedAfter_cons_self (hne other hother)

/-- What is dropped from the front was used before everything that is kept, which is as much as
there is room for. -/
theorem Ordered.of_dropped {capacity : ℕ} (hordered : Ordered log keys) (hnodup : keys.Nodup)
    (hkey : key ∈ keys) (hdropped : key ∉ keys.drop (keys.length - capacity)) :
    capacity ≤ (usedSince key log).length ∧
      ∀ other ∈ keys.drop (keys.length - capacity), UsedAfter log key other := by
  have hsplit := List.take_append_drop (keys.length - capacity) keys
  have hfront : key ∈ keys.take (keys.length - capacity) := by
    rw [← hsplit] at hkey
    exact (List.mem_append.mp hkey).resolve_right hdropped
  have hafter : ∀ other ∈ keys.drop (keys.length - capacity), UsedAfter log key other := by
    rw [Ordered, ← hsplit, List.pairwise_append] at hordered
    exact hordered.2.2 key hfront
  have hlength : capacity ≤ (keys.drop (keys.length - capacity)).length := by
    have hpositive := List.length_pos_of_mem hfront
    rw [List.length_take] at hpositive
    rw [List.length_drop]
    omega
  have hsubperm := (hnodup.sublist (List.drop_sublist _ _)).subperm hafter
  exact ⟨hlength.trans hsubperm.length_le, hafter⟩

end Logs

end X402Facilitator.Recency
