import Mathlib.Data.List.Nodup
import Mathlib.Data.List.Basic

/-!
# Maps that remember insertion order

The semantics of a language-level ordered map: a key occurs at most once,
overwriting a key keeps its position, and a new key is appended at the end.
-/

namespace X402Facilitator

/-- Key/value pairs in insertion order, one for each key. -/
structure InsertionMap (Key Value : Type*) where
  entries : List (Key × Value)
  keysNodup : (entries.map Prod.fst).Nodup

namespace InsertionMap

variable {Key Value : Type*} [DecidableEq Key]

omit [DecidableEq Key] in
def empty : InsertionMap Key Value := ⟨[], List.nodup_nil⟩

/-- The value paired with `key` in a list of entries. -/
def lookup (key : Key) : List (Key × Value) → Option Value
  | [] => none
  | entry :: rest => if entry.1 = key then some entry.2 else lookup key rest

/-- The value stored under `key`. -/
def get (map : InsertionMap Key Value) (key : Key) : Option Value :=
  lookup key map.entries

def setEntries (key : Key) (value : Value) : List (Key × Value) → List (Key × Value)
  | [] => [(key, value)]
  | entry :: rest =>
      if entry.1 = key then (key, value) :: rest
      else entry :: setEntries key value rest

attribute [local simp] lookup setEntries

theorem mem_keys_setEntries (key : Key) (value : Value)
    (entries : List (Key × Value)) (other : Key) :
    other ∈ (setEntries key value entries).map Prod.fst ↔
      other = key ∨ other ∈ entries.map Prod.fst := by
  induction entries with
  | nil => simp [setEntries]
  | cons entry rest ih =>
      by_cases hkey : entry.1 = key
      · simp only [setEntries, hkey, if_true, List.map_cons, List.mem_cons]
        tauto
      · simp only [setEntries, hkey, if_false, List.map_cons, List.mem_cons, ih]
        tauto

theorem nodup_setEntries (key : Key) (value : Value)
    (entries : List (Key × Value)) (hnodup : (entries.map Prod.fst).Nodup) :
    ((setEntries key value entries).map Prod.fst).Nodup := by
  induction entries with
  | nil => simp [setEntries]
  | cons entry rest ih =>
      obtain ⟨hfresh, hrest⟩ := List.nodup_cons.mp hnodup
      by_cases hkey : entry.1 = key
      · subst hkey
        simpa [setEntries] using hnodup
      · rw [setEntries, if_neg hkey, List.map_cons, List.nodup_cons]
        refine ⟨fun hmem => ?_, ih hrest⟩
        rcases (mem_keys_setEntries key value rest entry.1).mp hmem with heq | hold
        · exact hkey heq
        · exact hfresh hold

theorem lookup_setEntries (key other : Key) (value : Value)
    (entries : List (Key × Value)) :
    lookup other (setEntries key value entries) =
      if other = key then some value else lookup other entries := by
  induction entries with
  | nil => simp [setEntries, lookup, eq_comm]
  | cons entry rest ih =>
      by_cases hkey : entry.1 = key
      · by_cases h : other = key
        · simp [setEntries, lookup, hkey, h]
        · simp [setEntries, lookup, hkey, h, Ne.symm h]
      · by_cases h : entry.1 = other
        · have hne : other ≠ key := fun heq => hkey (h.trans heq)
          simp [setEntries, lookup, h, hne]
        · simp [setEntries, lookup, hkey, h, ih]

variable {entries : List (Key × Value)} {key other : Key} {value : Value}
  {map : InsertionMap Key Value} {Key' Value' : Type*}

theorem mem_of_lookup (hlookup : lookup key entries = some value) : (key, value) ∈ entries := by
  induction entries with
  | nil => cases hlookup
  | cons entry rest ih =>
      rw [lookup] at hlookup
      split at hlookup
      · next hkey =>
          cases hlookup
          rw [← hkey]
          exact List.mem_cons_self
      · exact List.mem_cons_of_mem entry (ih hlookup)

/-- An entry after a `set` is the new one or an old one. -/
theorem mem_setEntries {entry : Key × Value} (hentry : entry ∈ setEntries key value entries) :
    entry = (key, value) ∨ entry ∈ entries := by
  induction entries with
  | nil => exact Or.inl (List.mem_singleton.mp hentry)
  | cons first rest ih =>
      rw [setEntries] at hentry
      split at hentry
      · rcases List.mem_cons.mp hentry with rfl | hrest
        · exact Or.inl rfl
        · exact Or.inr (List.mem_cons_of_mem first hrest)
      · rcases List.mem_cons.mp hentry with rfl | hrest
        · exact Or.inr List.mem_cons_self
        · exact (ih hrest).imp_right (List.mem_cons_of_mem first)

/-- Store `value` under `key`. -/
def set (map : InsertionMap Key Value) (key : Key) (value : Value) :
    InsertionMap Key Value :=
  ⟨setEntries key value map.entries, nodup_setEntries key value _ map.keysNodup⟩

/-- Remove `key`. -/
def erase (map : InsertionMap Key Value) (key : Key) : InsertionMap Key Value :=
  ⟨map.entries.filter fun entry => entry.1 ≠ key,
    map.keysNodup.sublist (List.filter_sublist.map Prod.fst)⟩

section

omit [DecidableEq Key]

def keepLast (count : ℕ) (map : InsertionMap Key Value) : InsertionMap Key Value :=
  ⟨map.entries.drop (map.entries.length - count),
    map.keysNodup.sublist ((List.drop_sublist _ _).map Prod.fst)⟩

def keys (map : InsertionMap Key Value) : List Key := map.entries.map Prod.fst

theorem eq_empty_of_entries (hentries : map.entries = []) : map = empty := by
  cases map
  cases hentries
  rfl

end

@[simp]
theorem get_empty (key : Key) : (empty : InsertionMap Key Value).get key = none := rfl

theorem get_set (map : InsertionMap Key Value) (key other : Key) (value : Value) :
    (map.set key value).get other = if other = key then some value else map.get other :=
  lookup_setEntries key other value map.entries

@[simp]
theorem get_set_self (map : InsertionMap Key Value) (key : Key) (value : Value) :
    (map.set key value).get key = some value := by
  simp [get_set]

theorem get_set_of_ne (map : InsertionMap Key Value) (value : Value) (hne : other ≠ key) :
    (map.set key value).get other = map.get other := by
  simp [get_set, hne]

/-- After a `set`, a key holds the new value or what it held before. -/
theorem get_set_cases {found : Value} (hfound : (map.set key value).get other = some found) :
    (other = key ∧ found = value) ∨ (other ≠ key ∧ map.get other = some found) := by
  rw [get_set] at hfound
  split at hfound
  · next hkey => exact Or.inl ⟨hkey, (Option.some.inj hfound).symm⟩
  · next hkey => exact Or.inr ⟨hkey, hfound⟩

theorem lookup_filter_ne (key other : Key) (entries : List (Key × Value)) :
    lookup other (entries.filter fun entry => entry.1 ≠ key) =
      if other = key then none else lookup other entries := by
  induction entries with
  | nil => simp [lookup]
  | cons entry rest ih =>
      by_cases hkey : entry.1 = key
      · rw [List.filter_cons_of_neg (by simp [hkey]), ih]
        by_cases h : other = key
        · simp [h]
        · simp [lookup, h, hkey, Ne.symm h]
      · rw [List.filter_cons_of_pos (by simp [hkey])]
        by_cases h : entry.1 = other
        · have hne : other ≠ key := fun heq => hkey (h.trans heq)
          simp [lookup, h, hne]
        · rw [lookup, lookup, if_neg h, if_neg h, ih]

theorem get_erase (map : InsertionMap Key Value) (key other : Key) :
    (map.erase key).get other = if other = key then none else map.get other :=
  lookup_filter_ne key other map.entries

@[simp]
theorem get_erase_self (map : InsertionMap Key Value) (key : Key) :
    (map.erase key).get key = none := by
  simp [get_erase]

theorem get_erase_of_ne (map : InsertionMap Key Value) (hne : other ≠ key) :
    (map.erase key).get other = map.get other := by
  simp [get_erase, hne]

theorem mem_keys_iff_lookup (key : Key) (entries : List (Key × Value)) :
    key ∈ entries.map Prod.fst ↔ (lookup key entries).isSome := by
  induction entries with
  | nil => simp [lookup]
  | cons entry rest ih =>
      by_cases h : entry.1 = key
      · simp [lookup, h]
      · rw [List.map_cons, List.mem_cons, ih, lookup, if_neg h]
        simp [Ne.symm h]

theorem lookup_map {Other : Type*} (f : Value → Other) (key : Key)
    (entries : List (Key × Value)) :
    lookup key (entries.map fun entry => (entry.1, f entry.2)) = (lookup key entries).map f := by
  induction entries with
  | nil => rfl
  | cons entry rest ih =>
      rw [List.map_cons, lookup, lookup, ih]
      split <;> rfl

/-- Setting a key in renamed entries, where the names tell the key apart from the others. -/
theorem map_setEntries [DecidableEq Key'] (f : Key × Value → Key' × Value')
    (hkeys : ∀ entry ∈ entries, entry.1 = key ↔ (f entry).1 = (f (key, value)).1) :
    (setEntries key value entries).map f =
      setEntries (f (key, value)).1 (f (key, value)).2 (entries.map f) := by
  induction entries with
  | nil => rfl
  | cons entry rest ih =>
      have hentry := hkeys entry List.mem_cons_self
      rw [setEntries, List.map_cons, setEntries]
      by_cases hkey : entry.1 = key
      · rw [if_pos hkey, if_pos (hentry.mp hkey)]
        rfl
      · rw [if_neg hkey, if_neg (hentry.not.mp hkey), List.map_cons,
          ih fun other hother => hkeys other (List.mem_cons_of_mem _ hother)]

theorem lookup_rename [DecidableEq Key'] (f : Key × Value → Key' × Value') {key' : Key'}
    (hkeys : ∀ entry ∈ entries, entry.1 = key ↔ (f entry).1 = key') :
    lookup key' (entries.map f) = (lookup key entries).map fun value => (f (key, value)).2 := by
  induction entries with
  | nil => rfl
  | cons entry rest ih =>
      have hentry := hkeys entry List.mem_cons_self
      rw [List.map_cons, lookup, lookup]
      by_cases hkey : entry.1 = key
      · subst hkey
        rw [if_pos rfl, if_pos (hentry.mp rfl)]
        rfl
      · rw [if_neg hkey, if_neg (hentry.not.mp hkey),
          ih fun other hother => hkeys other (List.mem_cons_of_mem _ hother)]

/-- The listed keys are exactly the ones that hold a value. -/
theorem mem_keys_iff (map : InsertionMap Key Value) (key : Key) :
    key ∈ map.keys ↔ (map.get key).isSome :=
  mem_keys_iff_lookup key map.entries

end InsertionMap

end X402Facilitator
