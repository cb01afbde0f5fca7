import X402Facilitator.Catalog.SearchCache
import X402Facilitator.Library.Recency

/-!
# The least recently used cache

The cache is an ordered map whose entries expire.  A hit and a `set` put their key at the end, and
what exceeds the capacity goes from the front.
-/

namespace X402Facilitator.LruTtlCache

open Execution Recency

structure Entry (Time Value : Type*) where
  value : Value
  expiresAt : Time

section Operations

variable {Time Key Value : Type*} [LinearOrder Time] [Add Time] [DecidableEq Key]

abbrev Entries (Time Key Value : Type*) := InsertionMap Key (Entry Time Value)

omit [Add Time] in
def get (entries : Entries Time Key Value) (now : Time) (key : Key) :
    Option Value × Entries Time Key Value :=
  match InsertionMap.get entries key with
  | none => (none, entries)
  | some entry =>
      if entry.expiresAt ≤ now then (none, entries.erase key)
      else (some entry.value, (entries.erase key).set key entry)

section

omit [LinearOrder Time] [Add Time] [DecidableEq Key]

/-- The loop that deletes the first key while the map is too large. -/
def shedEntries (maxEntries : ℕ) :
    List (Key × Entry Time Value) → List (Key × Entry Time Value)
  | [] => []
  | coldest :: rest =>
      if maxEntries < (coldest :: rest).length then shedEntries maxEntries rest
      else coldest :: rest

theorem shedEntries_eq_drop (maxEntries : ℕ) (entries : List (Key × Entry Time Value)) :
    shedEntries maxEntries entries = entries.drop (entries.length - maxEntries) := by
  induction entries with
  | nil => rw [List.drop_nil, shedEntries]
  | cons coldest rest ih =>
      rw [shedEntries]
      split
      · next hlarge =>
          have hcount : (coldest :: rest).length - maxEntries = rest.length - maxEntries + 1 := by
            rw [List.length_cons] at hlarge ⊢
            omega
          rw [ih, hcount, List.drop_succ_cons]
      · next hsmall => rw [Nat.sub_eq_zero_of_le (not_lt.mp hsmall), List.drop_zero]

def shed (maxEntries : ℕ) (entries : Entries Time Key Value) : Entries Time Key Value :=
  ⟨shedEntries maxEntries entries.entries, entries.keysNodup.sublist (by
    rw [shedEntries_eq_drop]
    exact (List.drop_sublist _ _).map Prod.fst)⟩

end

omit [LinearOrder Time] in
def set (maxEntries : ℕ) (ttlMs : Time) (entries : Entries Time Key Value) (now : Time) (key : Key)
    (value : Value) : Entries Time Key Value :=
  shed maxEntries ((entries.erase key).set key ⟨value, now + ttlMs⟩)

end Operations

inductive Operation (Key Value : Type*) where
  | get (key : Key)
  | set (key : Key) (value : Value)
  | delete (key : Key)
  | clear

/-- The cache with its history: the last reading of the clock, the log of its keys and the last
value that each key was set to, with the time. -/
structure State (Time Key Value : Type*) where
  entries : Entries Time Key Value
  clock : Option Time
  log : List (Event Key)
  latest : Key → Option (Time × Value)

section Histories

variable {Time Key Value : Type*} [LinearOrder Time] [Add Time] [DecidableEq Key]

omit [LinearOrder Time] [Add Time] [DecidableEq Key] in
def State.init : State Time Key Value := ⟨InsertionMap.empty, none, [], fun _ => none⟩

def apply (maxEntries : ℕ) (ttlMs : Time) (s : State Time Key Value) (now : Time) :
    Operation Key Value → State Time Key Value
  | .get key =>
      { s with
        entries := (get s.entries now key).2
        clock := some now
        log := if (get s.entries now key).1.isSome then .used key :: s.log else s.log }
  | .set key value =>
      { entries := set maxEntries ttlMs s.entries now key value
        clock := some now
        log := .used key :: s.log
        latest := Function.update s.latest key (some (now, value)) }
  | .delete key =>
      { s with entries := s.entries.erase key, clock := some now, log := .deleted key :: s.log }
  | .clear =>
      { s with entries := InsertionMap.empty, clock := some now, log := .cleared :: s.log }

def step (maxEntries : ℕ) (ttlMs : Time) (s : State Time Key Value)
    (action : Time × Operation Key Value) : Option (State Time Key Value) :=
  if s.clock.all (· ≤ action.1) then some (apply maxEntries ttlMs s action.1 action.2) else none

inductive Gone (maxEntries : ℕ) (ttlMs : Time) (s : State Time Key Value) (key : Key) : Prop where
  | expired {setAt now : Time} {value : Value} (hlatest : s.latest key = some (setAt, value))
      (hclock : s.clock = some now) (hexpired : setAt + ttlMs ≤ now)
  | deleted (hdeleted : .deleted key ∈ since key s.log)
  | cleared (hcleared : .cleared ∈ since key s.log)
  | displaced (hothers : maxEntries ≤ (usedSince key s.log).length)

structure Refines (maxEntries : ℕ) (ttlMs : Time) (s : State Time Key Value) : Prop where
  size : s.entries.size ≤ maxEntries
  get : ∀ now, (∀ last ∈ s.clock, last ≤ now) → ∀ key value,
    (get s.entries now key).1 = some value ↔
      key ∈ s.entries.keys ∧
        ∃ setAt, s.latest key = some (setAt, value) ∧ now < setAt + ttlMs
  evicts : ∀ now key value victim, victim ∈ s.entries.keys ∨ victim = key →
    victim ∉ (set maxEntries ttlMs s.entries now key value).keys →
      ∀ other ∈ (set maxEntries ttlMs s.entries now key value).keys,
        UsedAfter (.used key :: s.log) victim other
  gone : ∀ key, (s.latest key).isSome = true → key ∉ s.entries.keys →
    Gone maxEntries ttlMs s key

structure Sound (maxEntries : ℕ) (ttlMs : Time) (s : State Time Key Value) : Prop where
  size : s.entries.size ≤ maxEntries
  ordered : Ordered s.log s.entries.keys
  held : ∀ key entry, InsertionMap.get s.entries key = some entry →
    ∃ setAt, s.latest key = some (setAt, entry.value) ∧ entry.expiresAt = setAt + ttlMs
  gone : ∀ key, (s.latest key).isSome = true → key ∉ s.entries.keys →
    Gone maxEntries ttlMs s key

end Histories

section Maps

variable {Time Key Value : Type*} [LinearOrder Time] [DecidableEq Key]
variable {entries : Entries Time Key Value} {key other : Key} {entry : Entry Time Value}

section

omit [LinearOrder Time]

theorem keys_erase : (entries.erase key).keys = entries.keys.filter (· ≠ key) := by
  rw [InsertionMap.keys, InsertionMap.keys, InsertionMap.erase, List.filter_map]
  rfl

/-- A key that is put back is the last one. -/
theorem keys_set_erase : ((entries.erase key).set key entry).keys =
    entries.keys.filter (· ≠ key) ++ [key] := by
  have habsent : InsertionMap.get (entries.erase key) key = none :=
    InsertionMap.get_erase_self entries key
  rw [InsertionMap.keys, InsertionMap.entries_set_of_absent entry habsent, List.map_append,
    ← keys_erase]
  rfl

theorem get_set_erase : InsertionMap.get ((entries.erase key).set key entry) other =
    if other = key then some entry else InsertionMap.get entries other := by
  rw [InsertionMap.get_set, InsertionMap.get_erase]
  split
  · rfl
  · rfl

end

section

omit [LinearOrder Time] [DecidableEq Key]

theorem shed_eq_keepLast (maxEntries : ℕ) : shed maxEntries entries =
    entries.keepLast maxEntries := by
  rw [shed, InsertionMap.keepLast]
  congr 1
  exact shedEntries_eq_drop maxEntries entries.entries

theorem keys_shed (maxEntries : ℕ) : (shed maxEntries entries).keys =
    entries.keys.drop (entries.keys.length - maxEntries) := by
  rw [shed_eq_keepLast, InsertionMap.keys, InsertionMap.keepLast, InsertionMap.keys, List.map_drop,
    List.length_map]

theorem size_shed_le (maxEntries : ℕ) : (shed maxEntries entries).size ≤ maxEntries := by
  rw [InsertionMap.size_eq_length_keys, keys_shed, List.length_drop]
  omega

end

end Maps

section Steps

variable {Time Key Value : Type*} [LinearOrder Time] [Add Time] [DecidableEq Key]
variable {maxEntries : ℕ} {ttlMs now : Time} {s : State Time Key Value} {key : Key} {value : Value}
variable {event : Event Key}

omit [Add Time] in
/-- What a `get` does, in three cases. -/
theorem get_cases (entries : Entries Time Key Value) (now : Time) (key : Key) :
    (InsertionMap.get entries key = none ∧ get entries now key = (none, entries)) ∨
      (∃ entry, InsertionMap.get entries key = some entry ∧ entry.expiresAt ≤ now ∧
        get entries now key = (none, entries.erase key)) ∨
      ∃ entry, InsertionMap.get entries key = some entry ∧ now < entry.expiresAt ∧
        get entries now key = (some entry.value, (entries.erase key).set key entry) := by
  rw [get]
  cases hget : InsertionMap.get entries key with
  | none => exact .inl ⟨rfl, rfl⟩
  | some entry =>
      by_cases hexpired : entry.expiresAt ≤ now
      · exact .inr (.inl ⟨entry, rfl, hexpired, if_pos hexpired⟩)
      · exact .inr (.inr ⟨entry, rfl, not_le.mp hexpired, if_neg hexpired⟩)

/-- A key stays away through an event that does not use it. -/
theorem Gone.cons {t : State Time Key Value} (hgone : Gone maxEntries ttlMs s key)
    (hlatest : t.latest key = s.latest key)
    (hclock : ∀ last ∈ s.clock, ∃ now ∈ t.clock, last ≤ now)
    (hlog : t.log = s.log ∨ ∃ event, event ≠ .used key ∧ t.log = event :: s.log) :
    Gone maxEntries ttlMs t key := by
  have hsince : since key s.log ⊆ since key t.log := by
    rcases hlog with hsame | ⟨event, hne, hcons⟩
    · exact hsame ▸ List.Subset.refl _
    · rw [hcons]
      exact since_subset_cons hne
  cases hgone with
  | expired hset hlast hexpired =>
      obtain ⟨now, hnow, hle⟩ := hclock _ hlast
      exact .expired (hlatest.trans hset) hnow (hexpired.trans hle)
  | deleted hdeleted => exact .deleted (hsince hdeleted)
  | cleared hcleared => exact .cleared (hsince hcleared)
  | displaced hothers =>
      refine .displaced (hothers.trans ?_)
      rcases hlog with hsame | ⟨event, hne, hcons⟩
      · rw [hsame]
      · rw [hcons]
        exact length_usedSince_le_cons hne

omit [Add Time] [DecidableEq Key] in
theorem clock_le (hclock : s.clock.all (· ≤ now) = true) (last : Time) (hlast : last ∈ s.clock) :
    ∃ later ∈ some now, last ≤ later := by
  refine ⟨now, rfl, ?_⟩
  rw [Option.mem_def.mp hlast] at hclock
  exact of_decide_eq_true hclock

omit [LinearOrder Time] [Add Time] in
theorem mem_keys_of_mem_erase {entries : Entries Time Key Value} {other : Key}
    (hmem : other ∈ entries.keys) (hne : other ≠ key) : other ∈ (entries.erase key).keys := by
  rw [keys_erase, List.mem_filter, decide_eq_true_eq]
  exact ⟨hmem, hne⟩

/-- A key is taken out of the map. -/
theorem Sound.erase {t : State Time Key Value} (hsound : Sound maxEntries ttlMs s)
    (hentries : t.entries = s.entries.erase key) (hlatest : t.latest = s.latest)
    (hclock : ∀ last ∈ s.clock, ∃ now ∈ t.clock, last ≤ now)
    (hlog : t.log = s.log ∨ t.log = .deleted key :: s.log)
    (hkey : (s.latest key).isSome = true → Gone maxEntries ttlMs t key) :
    Sound maxEntries ttlMs t := by
  constructor
  · rw [hentries, InsertionMap.size_eq_length_keys, keys_erase]
    have hbefore : s.entries.keys.length ≤ maxEntries := by
      rw [← InsertionMap.size_eq_length_keys]
      exact hsound.size
    exact (List.length_filter_le _ _).trans hbefore
  · have hfewer : Ordered s.log t.entries.keys := by
      rw [hentries, keys_erase]
      exact hsound.ordered.sublist List.filter_sublist
    rcases hlog with hsame | hdeleted
    · rw [hsame]
      exact hfewer
    · rw [hdeleted]
      exact hfewer.cons fun other _ => by simp
  · intro other entry hget
    rw [hentries, InsertionMap.get_erase] at hget
    split at hget
    · cases hget
    · rw [hlatest]
      exact hsound.held other entry hget
  · intro other hset habsent
    rw [hlatest] at hset
    by_cases hother : other = key
    · subst hother
      exact hkey hset
    · rw [hentries] at habsent
      have hbefore : other ∉ s.entries.keys := fun hmem =>
        habsent (mem_keys_of_mem_erase hmem hother)
      refine (hsound.gone other hset hbefore).cons (by rw [hlatest]) hclock ?_
      exact hlog.imp_right fun hdeleted => ⟨_, by simp, hdeleted⟩

/-- The keys after a use are in the order of their last uses. -/
theorem Sound.ordered_use (hsound : Sound maxEntries ttlMs s) (key : Key) :
    Ordered (.used key :: s.log) (s.entries.keys.filter (· ≠ key) ++ [key]) :=
  (hsound.ordered.sublist List.filter_sublist).use (by simp)

/-- A hit puts its key at the end. -/
theorem Sound.hit {entry : Entry Time Value} (hsound : Sound maxEntries ttlMs s)
    (hget : InsertionMap.get s.entries key = some entry) (hclock : s.clock.all (· ≤ now) = true) :
    Sound maxEntries ttlMs
      ⟨(s.entries.erase key).set key entry, some now, .used key :: s.log, s.latest⟩ := by
  have hmem : key ∈ s.entries.keys := by
    rw [InsertionMap.mem_keys_iff, hget]
    rfl
  constructor
  · have hbefore : s.entries.keys.length ≤ maxEntries := by
      rw [← InsertionMap.size_eq_length_keys]
      exact hsound.size
    have hfewer : (s.entries.keys.filter (· ≠ key)).length < s.entries.keys.length :=
      List.length_filter_lt_length_iff_exists.mpr ⟨key, hmem, by simp⟩
    rw [InsertionMap.size_eq_length_keys, keys_set_erase, List.length_append, List.length_singleton]
    omega
  · rw [keys_set_erase]
    exact hsound.ordered_use key
  · intro other found hfound
    rw [get_set_erase] at hfound
    split at hfound
    · next hother =>
        obtain rfl := Option.some.inj hfound
        rw [hother]
        exact hsound.held key entry hget
    · exact hsound.held other found hfound
  · intro other hset habsent
    rw [keys_set_erase, List.mem_append, List.mem_filter, List.mem_singleton, decide_eq_true_eq]
      at habsent
    have hother : other ≠ key := fun heq => habsent (.inr heq)
    have hbefore : other ∉ s.entries.keys := fun hin => habsent (.inl ⟨hin, hother⟩)
    exact (hsound.gone other hset hbefore).cons rfl (clock_le hclock)
      (.inr ⟨.used key, by simpa using hother.symm, rfl⟩)

omit [LinearOrder Time] in
/-- What a `set` leaves of the keys in the order of their uses. -/
theorem keys_set (maxEntries : ℕ) (ttlMs : Time) (entries : Entries Time Key Value) (now : Time)
    (key : Key) (value : Value) : (set maxEntries ttlMs entries now key value).keys =
      (entries.keys.filter (· ≠ key) ++ [key]).drop
        ((entries.keys.filter (· ≠ key) ++ [key]).length - maxEntries) := by
  rw [set, keys_shed, keys_set_erase]

/-- A `set` evicts the keys that were used least recently, when there are enough others. -/
theorem Sound.evicts (hsound : Sound maxEntries ttlMs s) {victim : Key}
    (hvictim : victim ∈ s.entries.keys ∨ victim = key)
    (habsent : victim ∉ (set maxEntries ttlMs s.entries now key value).keys) :
    maxEntries ≤ (usedSince victim (.used key :: s.log)).length ∧
      ∀ other ∈ (set maxEntries ttlMs s.entries now key value).keys,
        UsedAfter (.used key :: s.log) victim other := by
  rw [keys_set] at habsent ⊢
  refine (hsound.ordered_use key).of_dropped ?_ ?_ habsent
  · have hnodup := ((s.entries.erase key).set key ⟨value, now⟩).keysNodup
    rwa [← InsertionMap.keys, keys_set_erase] at hnodup
  · rw [List.mem_append, List.mem_filter, List.mem_singleton, decide_eq_true_eq]
    by_cases hkey : victim = key
    · exact .inr hkey
    · exact .inl ⟨hvictim.resolve_right hkey, hkey⟩

theorem Sound.set (hsound : Sound maxEntries ttlMs s) (hclock : s.clock.all (· ≤ now) = true) :
    Sound maxEntries ttlMs (apply maxEntries ttlMs s now (.set key value)) := by
  constructor
  · exact size_shed_le maxEntries
  · change Ordered _ (LruTtlCache.set maxEntries ttlMs s.entries now key value).keys
    rw [keys_set]
    exact (hsound.ordered_use key).sublist (List.drop_sublist _ _)
  · intro other entry hget
    change InsertionMap.get (shed maxEntries _) other = some entry at hget
    rw [shed_eq_keepLast] at hget
    have hset := InsertionMap.get_of_keepLast hget
    change ∃ setAt, Function.update s.latest key (some (now, value)) other = _ ∧ _
    rw [get_set_erase] at hset
    by_cases hother : other = key
    · rw [if_pos hother] at hset
      obtain rfl := Option.some.inj hset
      rw [hother, Function.update_self]
      exact ⟨now, rfl, rfl⟩
    · rw [if_neg hother] at hset
      rw [Function.update_of_ne hother]
      exact hsound.held other entry hset
  · intro other hset habsent
    by_cases hthere : other ∈ s.entries.keys ∨ other = key
    · exact .displaced (hsound.evicts hthere habsent).1
    · obtain ⟨hbefore, hother⟩ := not_or.mp hthere
      have hlatest : (apply maxEntries ttlMs s now (.set key value)).latest other =
          s.latest other := Function.update_of_ne hother _ _
      rw [hlatest] at hset
      exact (hsound.gone other hset hbefore).cons hlatest (clock_le hclock)
        (.inr ⟨.used key, by simpa using Ne.symm hother, rfl⟩)

theorem sound_clear : Sound maxEntries ttlMs (apply maxEntries ttlMs s now .clear) := by
  constructor
  · exact Nat.zero_le maxEntries
  · exact List.Pairwise.nil
  · intro other entry hget
    cases hget
  · intro other hset habsent
    refine .cleared ?_
    change .cleared ∈ since other (.cleared :: s.log)
    rw [since_cons_of_ne (by simp)]
    exact List.mem_cons_self

theorem Sound.get (hsound : Sound maxEntries ttlMs s) (hclock : s.clock.all (· ≤ now) = true) :
    Sound maxEntries ttlMs (apply maxEntries ttlMs s now (.get key)) := by
  rw [apply]
  rcases get_cases s.entries now key with
    ⟨habsent, hmiss⟩ | ⟨entry, hfound, hexpired, hmiss⟩ | ⟨entry, hfound, -, hhit⟩
  · rw [hmiss]
    exact ⟨hsound.size, hsound.ordered, hsound.held, fun other hset hother =>
      (hsound.gone other hset hother).cons rfl (clock_le hclock) (.inl rfl)⟩
  · rw [hmiss]
    refine hsound.erase rfl rfl (clock_le hclock) (.inl rfl) fun hset => ?_
    obtain ⟨setAt, hlatest, hexpires⟩ := hsound.held key entry hfound
    exact .expired hlatest rfl (hexpires ▸ hexpired)
  · rw [hhit]
    exact hsound.hit hfound hclock

/-- What one operation preserves. -/
theorem Sound.step {t : State Time Key Value} {action : Time × Operation Key Value}
    (hsound : Sound maxEntries ttlMs s)
    (hstep : LruTtlCache.step maxEntries ttlMs s action = some t) :
    Sound maxEntries ttlMs t := by
  rw [LruTtlCache.step] at hstep
  split at hstep
  · next hclock =>
      obtain rfl := Option.some.inj hstep
      cases action.2 with
      | get key => exact hsound.get hclock
      | set key value => exact hsound.set hclock
      | delete key =>
          refine hsound.erase rfl rfl (clock_le hclock) (.inr rfl) fun _ => .deleted ?_
          change .deleted key ∈ since key (.deleted key :: s.log)
          rw [since_cons_of_ne (by simp)]
          exact List.mem_cons_self
      | clear => exact sound_clear
  · cases hstep

omit [LinearOrder Time] [DecidableEq Key] in
theorem sound_init [LinearOrder Time] [DecidableEq Key] :
    Sound maxEntries ttlMs (State.init : State Time Key Value) := by
  constructor
  · exact Nat.zero_le maxEntries
  · exact List.Pairwise.nil
  · intro key entry hget
    cases hget
  · intro key hset
    cases hset

/-- What a `get` answers. -/
theorem Sound.get_eq_some (hsound : Sound maxEntries ttlMs s) :
    (LruTtlCache.get s.entries now key).1 = some value ↔ key ∈ s.entries.keys ∧
      ∃ setAt, s.latest key = some (setAt, value) ∧ now < setAt + ttlMs := by
  rw [InsertionMap.mem_keys_iff]
  rcases get_cases s.entries now key with
    ⟨habsent, hmiss⟩ | ⟨entry, hfound, hexpired, hmiss⟩ | ⟨entry, hfound, hyoung, hhit⟩
  · rw [hmiss, habsent]
    simp
  · obtain ⟨setAt, hlatest, hexpires⟩ := hsound.held key entry hfound
    rw [hexpires] at hexpired
    rw [hmiss, hlatest]
    constructor
    · intro hnone
      cases hnone
    · rintro ⟨-, at', hset, hyoung⟩
      obtain ⟨rfl, -⟩ := Prod.mk.inj (Option.some.inj hset)
      exact absurd hyoung (not_lt.mpr hexpired)
  · obtain ⟨setAt, hlatest, hexpires⟩ := hsound.held key entry hfound
    rw [hexpires] at hyoung
    rw [hhit, hlatest, hfound]
    constructor
    · intro hvalue
      obtain rfl := Option.some.inj hvalue
      exact ⟨rfl, setAt, rfl, hyoung⟩
    · rintro ⟨-, at', hset, -⟩
      rw [(Prod.mk.inj (Option.some.inj hset)).2]

theorem Sound.refines (hsound : Sound maxEntries ttlMs s) : Refines maxEntries ttlMs s where
  size := hsound.size
  get := fun _ _ _ _ => hsound.get_eq_some
  evicts := fun _ _ _ _ hvictim habsent => (hsound.evicts hvictim habsent).2
  gone := hsound.gone

/-- The cache keeps its promises through every sequence of calls. -/
theorem cache_refines {actions : List (Time × Operation Key Value)}
    (hrun : run (LruTtlCache.step maxEntries ttlMs) .init actions = some s) :
    Refines maxEntries ttlMs s :=
  ((reaches_of_run hrun).preserves (fun _ _ _ hsound _ hstep => hsound.step hstep)
    sound_init).refines

end Steps

/-- A capacity of two: the third key displaces the one that was not hit. -/
theorem cache_refines_two : Refines 2 5 (State.mk
    (⟨[(1, ⟨10, 5⟩), (3, ⟨30, 8⟩)], by decide⟩ : Entries ℕ ℕ ℕ) (some 3)
    [.used 3, .used 1, .used 2, .used 1]
    (Function.update (Function.update (Function.update (fun _ => none) 1 (some (0, 10)))
      2 (some (1, 20))) 3 (some (3, 30)))) := by
  have hrun : run (step 2 5) .init [(0, .set 1 10), (1, .set 2 20), (2, .get 1), (3, .set 3 30)] =
      some _ := rfl
  exact cache_refines hrun

section FirstTier

variable {Value : Type} (cache : Catalog.LruTtlCache Value)

def entriesOf : Entries ℕ String Value :=
  ⟨cache.entries.map fun entry => (entry.1, ⟨entry.2.value, entry.2.expiresAt⟩), by
    rw [List.map_map]
    exact cache.keysNodup⟩

theorem get_entriesOf (key : String) : InsertionMap.get (entriesOf cache) key =
    (InsertionMap.get cache key).map fun timed => ⟨timed.value, timed.expiresAt⟩ :=
  InsertionMap.lookup_map (fun timed : Catalog.Timed Value =>
    (⟨timed.value, timed.expiresAt⟩ : Entry ℕ Value)) key cache.entries

theorem entriesOf_erase (key : String) :
    entriesOf (InsertionMap.erase cache key) = (entriesOf cache).erase key := by
  rw [entriesOf, InsertionMap.erase, entriesOf, InsertionMap.erase]
  congr 1
  rw [List.filter_map]
  rfl

theorem entriesOf_set (key : String) (timed : Catalog.Timed Value) :
    entriesOf (InsertionMap.set cache key timed) =
      (entriesOf cache).set key ⟨timed.value, timed.expiresAt⟩ := by
  rw [entriesOf, InsertionMap.set, entriesOf, InsertionMap.set]
  congr 1
  exact InsertionMap.map_setEntries _ fun _ _ => Iff.rfl

/-- Reading the first tier is a `get`. -/
theorem get_entriesOf_eq_read (now : ℕ) (key : String) : get (entriesOf cache) now key =
    ((cache.read now key).1, entriesOf (cache.read now key).2) := by
  rw [get, Catalog.LruTtlCache.read, get_entriesOf]
  cases InsertionMap.get cache key with
  | none => rfl
  | some timed =>
      simp only [Option.map_some]
      by_cases hexpired : timed.expiresAt ≤ now
      · rw [if_pos hexpired, if_pos hexpired, entriesOf_erase]
      · rw [if_neg hexpired, if_neg hexpired, entriesOf_set, entriesOf_erase]

/-- Writing the first tier is a `set`. -/
theorem set_entriesOf_eq_write (config : Catalog.CacheConfig) (now : ℕ) (key : String)
    (value : Value) : set config.maxEntries config.l1TtlMs (entriesOf cache) now key value =
      entriesOf (cache.write config now key value) := by
  rw [set, shed_eq_keepLast, ← entriesOf_erase]
  rw [← entriesOf_set _ key ⟨value, now + config.l1TtlMs⟩, Catalog.LruTtlCache.write]
  rw [entriesOf, InsertionMap.keepLast, entriesOf, InsertionMap.keepLast]
  congr 1
  rw [List.length_map, List.map_drop]

end FirstTier

end X402Facilitator.LruTtlCache
