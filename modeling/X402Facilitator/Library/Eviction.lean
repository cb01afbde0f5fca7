import Mathlib.Data.List.Sort
import X402Facilitator.Library.InsertionMap
import Mathlib.Algebra.Order.Ring.Nat

/-!
# Shedding the entries of lowest rank

A capped map sorts its entries by rank, the sort being stable, and removes the
first ones until the cap is met.  With one entry too many the removed one is
the first entry among those of lowest rank.  How many entries satisfy a condition
is counted through the operations of the map.
-/

namespace X402Facilitator.InsertionMap

variable {Key Value : Type*}

def size (map : InsertionMap Key Value) : ℕ := map.entries.length

section Filter

/-- Keep the entries whose value satisfies `keep`. -/
def filter (keep : Value → Bool) (map : InsertionMap Key Value) : InsertionMap Key Value :=
  ⟨map.entries.filter fun entry => keep entry.2,
    map.keysNodup.sublist (List.filter_sublist.map Prod.fst)⟩

variable [DecidableEq Key]

variable {entries : List (Key × Value)}

theorem lookup_eq_none_of_notMem {key : Key} (hfresh : key ∉ entries.map Prod.fst) :
    lookup key entries = none := by
  rw [mem_keys_iff_lookup] at hfresh
  simpa using hfresh

theorem lookup_filter (keep : Value → Bool) (key : Key) (hnodup : (entries.map Prod.fst).Nodup) :
    lookup key (entries.filter fun entry => keep entry.2) =
      (lookup key entries).filter keep := by
  induction entries with
  | nil => rfl
  | cons entry rest ih =>
      obtain ⟨hfresh, hrest⟩ := List.nodup_cons.mp hnodup
      by_cases hkey : entry.1 = key
      · by_cases hkeep : keep entry.2 = true
        · rw [List.filter_cons_of_pos (by simp [hkeep]), lookup, lookup, if_pos hkey, if_pos hkey]
          simp [Option.filter, hkeep]
        · have habsent : lookup key rest = none := lookup_eq_none_of_notMem (hkey ▸ hfresh)
          rw [List.filter_cons_of_neg (by simp [hkeep]), ih hrest, habsent, lookup, if_pos hkey]
          simp [Option.filter, hkeep]
      · rw [lookup, if_neg hkey, ← ih hrest]
        by_cases hkeep : keep entry.2 = true
        · rw [List.filter_cons_of_pos (by simp [hkeep]), lookup, if_neg hkey]
        · rw [List.filter_cons_of_neg (by simp [hkeep])]

theorem lookup_of_mem {key : Key} {value : Value} (hnodup : (entries.map Prod.fst).Nodup)
    (hmem : (key, value) ∈ entries) : lookup key entries = some value := by
  induction entries with
  | nil => cases hmem
  | cons entry rest ih =>
      obtain ⟨hfresh, hrest⟩ := List.nodup_cons.mp hnodup
      rcases List.mem_cons.mp hmem with rfl | hin
      · rw [lookup, if_pos rfl]
      · have hkey : entry.1 ≠ key := fun heq =>
          hfresh (heq ▸ List.mem_map_of_mem (f := Prod.fst) hin)
        rw [lookup, if_neg hkey, ih hrest hin]

theorem get_of_mem (map : InsertionMap Key Value) {entry : Key × Value}
    (hmem : entry ∈ map.entries) : map.get entry.1 = some entry.2 :=
  lookup_of_mem map.keysNodup hmem

/-- What is kept is as it was. -/
theorem get_of_keepLast {map : InsertionMap Key Value} {count : ℕ} {key : Key} {value : Value}
    (hget : (map.keepLast count).get key = some value) : map.get key = some value :=
  get_of_mem map (List.mem_of_mem_drop (mem_of_lookup hget))

theorem get_filter (keep : Value → Bool) (map : InsertionMap Key Value) (key : Key) :
    (map.filter keep).get key = (map.get key).filter keep :=
  lookup_filter keep key map.keysNodup

/-- Neither an overwritten entry nor a new one that is not kept changes what is kept. -/
theorem filter_setEntries (keep : Value → Bool) {key : Key} {value : Value}
    (hnew : keep value = false)
    (hold : ∀ found, lookup key entries = some found → keep found = false) :
    (setEntries key value entries).filter (fun entry => keep entry.2) =
      entries.filter fun entry => keep entry.2 := by
  induction entries with
  | nil => exact List.filter_cons_of_neg (by simp [hnew])
  | cons entry rest ih =>
      rw [setEntries]
      split
      · next hkey =>
          have hentry : keep entry.2 = false := hold entry.2 (if_pos hkey)
          rw [List.filter_cons_of_neg (by simp [hnew]), List.filter_cons_of_neg (by simp [hentry])]
      · next hkey =>
          have hrest := ih fun found hfound => hold found (by rw [lookup, if_neg hkey, hfound])
          rw [List.filter_cons, List.filter_cons, hrest]

end Filter

section Size

variable [DecidableEq Key]

variable {entries : List (Key × Value)}

theorem setEntries_of_notMem {key : Key} (value : Value) (hfresh : key ∉ entries.map Prod.fst) :
    setEntries key value entries = entries ++ [(key, value)] := by
  induction entries with
  | nil => rfl
  | cons entry rest ih =>
      simp only [List.map_cons, List.mem_cons, not_or] at hfresh
      rw [setEntries, if_neg (Ne.symm hfresh.1), ih hfresh.2, List.cons_append]

theorem notMem_of_get_eq_none {map : InsertionMap Key Value} {key : Key}
    (habsent : map.get key = none) : key ∉ map.entries.map Prod.fst := by
  rw [mem_keys_iff_lookup]
  change ¬ (map.get key).isSome = true
  simp [habsent]

/-- A new key is appended. -/
theorem entries_set_of_absent {map : InsertionMap Key Value} {key : Key} (value : Value)
    (habsent : map.get key = none) :
    (map.set key value).entries = map.entries ++ [(key, value)] :=
  setEntries_of_notMem value (notMem_of_get_eq_none habsent)

theorem keys_setEntries_of_mem {key : Key} (value : Value) (hmem : key ∈ entries.map Prod.fst) :
    (setEntries key value entries).map Prod.fst = entries.map Prod.fst := by
  induction entries with
  | nil => simp at hmem
  | cons entry rest ih =>
      rw [setEntries]
      split
      · next hkey => rw [List.map_cons, List.map_cons, hkey]
      · next hkey =>
          have hrest := (List.mem_cons.mp hmem).resolve_left (Ne.symm hkey)
          rw [List.map_cons, ih hrest, List.map_cons]

/-- Overwriting a key keeps the keys. -/
theorem keys_set_of_present (map : InsertionMap Key Value) {key : Key} (value : Value)
    {found : Value} (hpresent : map.get key = some found) :
    (map.set key value).keys = map.keys := by
  apply keys_setEntries_of_mem
  change key ∈ map.keys
  rw [mem_keys_iff, hpresent]
  rfl

omit [DecidableEq Key] in
theorem size_eq_length_keys (map : InsertionMap Key Value) : map.size = map.keys.length := by
  rw [size, keys, List.length_map]

theorem size_set_of_present {map : InsertionMap Key Value} {key : Key} (value : Value)
    {found : Value} (hpresent : map.get key = some found) :
    (map.set key value).size = map.size := by
  rw [size_eq_length_keys, size_eq_length_keys, map.keys_set_of_present value hpresent]

theorem size_set_of_absent {map : InsertionMap Key Value} {key : Key} (value : Value)
    (habsent : map.get key = none) : (map.set key value).size = map.size + 1 := by
  rw [size, entries_set_of_absent value habsent, List.length_append]
  rfl

theorem size_set_le (map : InsertionMap Key Value) (key : Key) (value : Value) :
    (map.set key value).size ≤ map.size + 1 := by
  cases hget : map.get key with
  | none => exact (size_set_of_absent value hget).le
  | some found => exact (size_set_of_present value hget).le.trans (Nat.le_succ _)

theorem size_erase_lt {map : InsertionMap Key Value} {entry : Key × Value}
    (hmem : entry ∈ map.entries) : (map.erase entry.1).size < map.size := by
  apply List.length_filter_lt_length_iff_exists.mpr
  exact ⟨entry, hmem, by simp⟩

/-- A pair that is found is one of the entries, and the others stay. -/
theorem entries_perm_erase {map : InsertionMap Key Value} {key : Key}
    {value : Value} (hfound : map.get key = some value) :
    map.entries.Perm ((key, value) :: (map.erase key).entries) := by
  have hnodup : map.entries.Nodup := List.Nodup.of_map Prod.fst map.keysNodup
  have hfresh : (key, value) ∉ (map.erase key).entries := by simp [erase]
  apply (List.perm_ext_iff_of_nodup hnodup
    (List.nodup_cons.mpr ⟨hfresh, hnodup.filter _⟩)).mpr
  intro entry
  simp only [List.mem_cons, erase, List.mem_filter, decide_eq_true_eq]
  constructor
  · intro hentry
    by_cases hkey : entry.1 = key
    · left
      have hvalue := get_of_mem map hentry
      rw [hkey, hfound] at hvalue
      exact Prod.ext hkey (Option.some.inj hvalue).symm
    · exact Or.inr ⟨hentry, hkey⟩
  · rintro (rfl | ⟨hentry, -⟩)
    · exact mem_of_lookup hfound
    · exact hentry

end Size

section Shed

variable {Rank : Type*} [LinearOrder Rank]

/-- The entries by ascending rank; entries of one rank keep their order. -/
def byRank (rank : Value → Rank) (entries : List (Key × Value)) : List (Key × Value) :=
  entries.insertionSort fun first second => rank first.2 ≤ rank second.2

/-- `key` has the first entry among those of lowest rank. -/
def GoesFirst (rank : Value → Rank) (entries : List (Key × Value)) (key : Key) : Prop :=
  ∃ front value back, entries = front ++ (key, value) :: back ∧
    (∀ entry ∈ front, rank value < rank entry.2) ∧
    ∀ entry ∈ back, rank value ≤ rank entry.2

variable {rank : Value → Rank}

variable {entries : List (Key × Value)} {entry : Key × Value} {maxSize : ℕ}

theorem GoesFirst.mem {key : Key} (hfirst : GoesFirst rank entries key) :
    key ∈ entries.map Prod.fst := by
  obtain ⟨front, value, back, hsplit, -, -⟩ := hfirst
  simp [hsplit]

/-- The sort's head, one entry at a time. -/
theorem head?_byRank_cons (entry : Key × Value) (rest : List (Key × Value)) :
    (byRank rank (entry :: rest)).head? =
      match (byRank rank rest).head? with
      | none => some entry
      | some first => if rank entry.2 ≤ rank first.2 then some entry else some first := by
  rw [byRank, List.insertionSort_cons]
  change (List.orderedInsert _ entry (byRank rank rest)).head? = _
  cases hsorted : byRank rank rest with
  | nil => rfl
  | cons first others =>
      rw [List.orderedInsert]
      split
      · next hle => simp [hle]
      · next hle => simp [hle]

theorem byRank_ne_nil (rank : Value → Rank) (hne : entries ≠ []) : byRank rank entries ≠ [] := by
  intro hnil
  have hlength := List.length_insertionSort
    (fun first second => rank first.2 ≤ rank second.2) entries
  change (byRank rank entries).length = entries.length at hlength
  rw [hnil] at hlength
  exact hne (List.length_eq_zero_iff.mp hlength.symm)

theorem mem_byRank : entry ∈ byRank rank entries ↔ entry ∈ entries :=
  List.mem_insertionSort _

/-- The head of the sort goes first. -/
theorem goesFirst_of_head? (hhead : (byRank rank entries).head? = some entry) :
    GoesFirst rank entries entry.1 ∧
      ∀ other ∈ entries, rank entry.2 ≤ rank other.2 := by
  induction entries generalizing entry with
  | nil => simp [byRank] at hhead
  | cons first rest ih =>
      rw [head?_byRank_cons] at hhead
      cases hrest : (byRank rank rest).head? with
      | none =>
          rw [hrest] at hhead
          obtain rfl : first = entry := Option.some.inj hhead
          have hnil : rest = [] := by
            by_contra hne
            exact byRank_ne_nil rank hne (List.head?_eq_none_iff.mp hrest)
          subst hnil
          exact ⟨⟨[], first.2, [], rfl, by simp, by simp⟩, by simp⟩
      | some lowest =>
          obtain ⟨⟨front, value, back, hsplit, hfront, hback⟩, hall⟩ := ih hrest
          rw [hrest] at hhead
          simp only at hhead
          split at hhead
          · next hle =>
              obtain rfl : first = entry := Option.some.inj hhead
              have hrests : ∀ other ∈ rest, rank first.2 ≤ rank other.2 :=
                fun other hother => hle.trans (hall other hother)
              refine ⟨⟨[], first.2, rest, rfl, by simp, hrests⟩, fun other hother => ?_⟩
              rcases List.mem_cons.mp hother with rfl | hmem
              · exact le_rfl
              · exact hrests other hmem
          · next hlt =>
              obtain rfl : lowest = entry := Option.some.inj hhead
              have hmem : (lowest.1, value) ∈ rest := by simp [hsplit]
              have hle : rank lowest.2 ≤ rank value := hall _ hmem
              have hlow : lowest ∈ rest := mem_byRank.mp (List.mem_of_mem_head? hrest)
              have hge : rank value ≤ rank lowest.2 := by
                rw [hsplit, List.mem_append, List.mem_cons] at hlow
                rcases hlow with hin | heq | hin
                · exact (hfront _ hin).le
                · rw [heq]
                · exact hback _ hin
              have hvalue : rank value = rank lowest.2 := le_antisymm hge hle
              constructor
              · refine ⟨first :: front, value, back, by simp [hsplit], ?_, hback⟩
                intro other hother
                rcases List.mem_cons.mp hother with rfl | hin
                · rw [hvalue]
                  exact not_le.mp hlt
                · exact hfront other hin
              · intro other hother
                rcases List.mem_cons.mp hother with rfl | hin
                · exact (not_le.mp hlt).le
                · exact hall other hin

/-- At most one key goes first. -/
theorem GoesFirst.unique {first second : Key} (hfirst : GoesFirst rank entries first)
    (hsecond : GoesFirst rank entries second) : first = second := by
  obtain ⟨front, value, back, hsplit, hfront, hback⟩ := hfirst
  obtain ⟨front', value', back', hsplit', hfront', hback'⟩ := hsecond
  rw [hsplit] at hsplit'
  rcases List.append_eq_append_iff.mp hsplit' with ⟨mid, hmid, htail⟩ | ⟨mid, hmid, htail⟩
  · cases mid with
    | nil => exact congrArg Prod.fst (List.cons.inj htail).1
    | cons entry mid =>
        obtain ⟨rfl, hrest⟩ := List.cons.inj htail
        have hlt : rank value' < rank value := hfront' (first, value) (by simp [hmid])
        have hle : rank value ≤ rank value' := by
          apply hback (second, value')
          rw [hrest]
          exact List.mem_append_right mid List.mem_cons_self
        exact absurd hlt (not_lt.mpr hle)
  · cases mid with
    | nil => exact (congrArg Prod.fst (List.cons.inj htail).1).symm
    | cons entry mid =>
        obtain ⟨rfl, hrest⟩ := List.cons.inj htail
        have hlt : rank value < rank value' := hfront (second, value') (by simp [hmid])
        have hle : rank value' ≤ rank value := by
          apply hback' (first, value)
          rw [hrest]
          exact List.mem_append_right mid List.mem_cons_self
        exact absurd hlt (not_lt.mpr hle)

variable [DecidableEq Key]

/-- Remove the entries of lowest rank that are beyond `maxSize`. -/
def shed (rank : Value → Rank) (maxSize : ℕ) (map : InsertionMap Key Value) :
    InsertionMap Key Value :=
  if maxSize < map.size then
    ((byRank rank map.entries).take (map.size - maxSize)).foldl
      (fun map entry => map.erase entry.1) map
  else map

def victims (rank : Value → Rank) (maxSize : ℕ) (map : InsertionMap Key Value) : List Key :=
  ((byRank rank map.entries).take (map.size - maxSize)).map Prod.fst

theorem get_foldl_erase (entries : List (Key × Value)) (map : InsertionMap Key Value)
    (key : Key) : (entries.foldl (fun map entry => map.erase entry.1) map).get key =
      if key ∈ entries.map Prod.fst then none else map.get key := by
  induction entries generalizing map with
  | nil => simp
  | cons entry rest ih =>
      rw [List.foldl_cons, ih, get_erase, List.map_cons]
      by_cases hkey : key = entry.1
      · simp [hkey]
      · simp only [List.mem_cons, hkey, false_or, if_false]

theorem get_shed (map : InsertionMap Key Value) (maxSize : ℕ) (key : Key) :
    (map.shed rank maxSize).get key =
      if key ∈ map.victims rank maxSize then none else map.get key := by
  rw [shed, victims]
  split
  · exact get_foldl_erase _ map key
  · next hle => simp [Nat.sub_eq_zero_of_le (not_lt.mp hle)]

theorem shed_of_le {map : InsertionMap Key Value} (hle : map.size ≤ maxSize) :
    map.shed rank maxSize = map :=
  if_neg (not_lt.mpr hle)

/-- With one entry too many, the one that goes first is removed. -/
theorem shed_of_succ (rank : Value → Rank) {map : InsertionMap Key Value}
    (hsize : map.size = maxSize + 1) : ∃ entry ∈ map.entries,
      GoesFirst rank map.entries entry.1 ∧ (∀ other ∈ map.entries, rank entry.2 ≤ rank other.2) ∧
      map.shed rank maxSize = map.erase entry.1 := by
  have hne : map.entries ≠ [] := by
    intro hnil
    rw [size, hnil] at hsize
    simp at hsize
  obtain ⟨entry, others, hsorted⟩ := List.exists_cons_of_ne_nil (byRank_ne_nil rank hne)
  have hhead : (byRank rank map.entries).head? = some entry := by rw [hsorted]; rfl
  obtain ⟨hfirst, hlowest⟩ := goesFirst_of_head? hhead
  refine ⟨entry, mem_byRank.mp (List.mem_of_mem_head? hhead), hfirst, hlowest, ?_⟩
  rw [shed, if_pos (by omega), hsize, Nat.add_sub_cancel_left, hsorted]
  rfl

theorem size_shed_le {map : InsertionMap Key Value} (hsize : map.size ≤ maxSize + 1) :
    (map.shed rank maxSize).size ≤ maxSize := by
  rcases Nat.lt_or_ge maxSize map.size with hlt | hle
  · obtain ⟨entry, hmem, -, -, hshed⟩ := shed_of_succ rank
      (show map.size = maxSize + 1 by omega)
    have herase := size_erase_lt hmem
    rw [hshed]
    omega
  · rw [shed_of_le hle]
    exact hle

/-- Storing `value` under `key` makes a full map shed `victim`. -/
def Sheds (rank : Value → Rank) (maxSize : ℕ) (map : InsertionMap Key Value) (key : Key)
    (value : Value) (victim : Key) : Prop :=
  map.get key = none ∧ map.size = maxSize ∧
    GoesFirst rank (map.entries ++ [(key, value)]) victim

/-- What a key holds after a `set` that is followed by the shedding. -/
theorem get_shed_set (rank : Value → Rank) {map : InsertionMap Key Value}
    (hcapped : map.size ≤ maxSize) (key : Key) (value : Value) (other : Key) :
    (Sheds rank maxSize map key value other ∧
      ((map.set key value).shed rank maxSize).get other = none) ∨
    (¬ Sheds rank maxSize map key value other ∧
      ((map.set key value).shed rank maxSize).get other =
        if other = key then some value else map.get other) := by
  cases hget : map.get key with
  | some found =>
      have hsize := size_set_of_present value hget
      rw [shed_of_le (by omega), get_set]
      exact Or.inr ⟨fun hsheds => by simpa [hget] using hsheds.1, rfl⟩
  | none =>
      have hsize := size_set_of_absent value hget
      rcases Nat.lt_or_ge map.size maxSize with hlt | hge
      · rw [shed_of_le (by omega), get_set]
        exact Or.inr ⟨fun hsheds => hlt.ne hsheds.2.1, rfl⟩
      · have hfull : map.size = maxSize := le_antisymm hcapped hge
        obtain ⟨entry, -, hfirst, -, hshed⟩ := shed_of_succ rank
          (show (map.set key value).size = maxSize + 1 by omega)
        rw [entries_set_of_absent value hget] at hfirst
        rw [hshed]
        by_cases hother : other = entry.1
        · exact Or.inl ⟨⟨hget, hfull, hother ▸ hfirst⟩, by rw [hother, get_erase_self]⟩
        · rw [get_erase_of_ne _ hother, get_set]
          exact Or.inr ⟨fun hsheds => hother (hsheds.2.2.unique hfirst), rfl⟩

end Shed

variable {Key Value : Type*} [DecidableEq Key] {map : InsertionMap Key Value} {key : Key}
  {value found : Value}

def unit (holds : Bool) : ℕ := if holds then 1 else 0

omit [DecidableEq Key] in
def count (holds : Value → Bool) (map : InsertionMap Key Value) : ℕ :=
  map.entries.countP fun entry => holds entry.2

omit [DecidableEq Key] in
theorem count_true (map : InsertionMap Key Value) : map.count (fun _ => true) = map.size := by
  rw [count, size, List.countP_true]

theorem count_set_of_absent (holds : Value → Bool) (value : Value) (habsent : map.get key = none) :
    (map.set key value).count holds = map.count holds + unit (holds value) := by
  rw [count, entries_set_of_absent value habsent, List.countP_append, List.countP_singleton]
  rfl

variable {entries : List (Key × Value)}

theorem countP_setEntries (holds : Value → Bool) (value : Value)
    (hfound : lookup key entries = some found) :
    (setEntries key value entries).countP (fun entry => holds entry.2) + unit (holds found) =
      entries.countP (fun entry => holds entry.2) + unit (holds value) := by
  induction entries with
  | nil => cases hfound
  | cons entry rest ih =>
      rw [lookup] at hfound
      rw [setEntries]
      by_cases hkey : entry.1 = key
      · rw [if_pos hkey] at hfound ⊢
        obtain rfl := Option.some.inj hfound
        rw [List.countP_cons, List.countP_cons, unit, unit]
        simp only
        omega
      · rw [if_neg hkey] at hfound ⊢
        rw [List.countP_cons, List.countP_cons]
        have hrest := ih hfound
        omega

theorem count_set_of_present (holds : Value → Bool) (value : Value)
    (hfound : map.get key = some found) :
    (map.set key value).count holds + unit (holds found) =
      map.count holds + unit (holds value) :=
  countP_setEntries holds value hfound

theorem countP_filter_ne (holds : Value → Bool) (hnodup : (entries.map Prod.fst).Nodup)
    (hfound : lookup key entries = some found) :
    (entries.filter fun entry => entry.1 ≠ key).countP (fun entry => holds entry.2) +
      unit (holds found) = entries.countP (fun entry => holds entry.2) := by
  induction entries with
  | nil => cases hfound
  | cons entry rest ih =>
      obtain ⟨hfresh, hrest⟩ := List.nodup_cons.mp hnodup
      rw [lookup] at hfound
      by_cases hkey : entry.1 = key
      · rw [if_pos hkey] at hfound
        obtain rfl := Option.some.inj hfound
        have hall : rest.filter (fun entry => entry.1 ≠ key) = rest := by
          rw [List.filter_eq_self]
          intro other hother
          have hne : other.1 ≠ key := fun heq =>
            hfresh (hkey ▸ heq ▸ List.mem_map_of_mem hother)
          exact decide_eq_true hne
        rw [List.filter_cons_of_neg (by simp [hkey]), hall, List.countP_cons]
        rfl
      · rw [if_neg hkey] at hfound
        rw [List.filter_cons_of_pos (by simp [hkey]), List.countP_cons, List.countP_cons]
        have hcount := ih hrest hfound
        omega

theorem count_erase (holds : Value → Bool) (hfound : map.get key = some found) :
    (map.erase key).count holds + unit (holds found) = map.count holds :=
  countP_filter_ne holds map.keysNodup hfound

theorem size_erase_of_present (hfound : map.get key = some found) :
    (map.erase key).size + 1 = map.size := by
  rw [← count_true, ← count_true]
  exact count_erase (fun _ => true) hfound

end X402Facilitator.InsertionMap
