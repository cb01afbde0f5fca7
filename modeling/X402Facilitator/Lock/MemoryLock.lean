import Mathlib.Algebra.Order.BigOperators.Group.List
import Mathlib.Algebra.Order.Ring.Nat
import Mathlib.Data.List.Sort
import X402Facilitator.Library.Execution

/-!
# The lock of a process

`acquire` chains its caller behind the `done` promise of the last one for the key and leaves its
own in the map, both at once.  A callback of `prev.then` runs at any later time.
-/

namespace X402Facilitator.MemoryLock

open Execution

inductive Use where
  | acquire
  | withLock
  deriving DecidableEq

/-- `threw` is whether the function of `withLock` did. -/
inductive Stage where
  | waiting
  | granted
  | running
  | released (threw : Bool)
  deriving DecidableEq

def Stage.isReleased : Stage → Bool
  | released _ => true
  | _ => false

/-- `prev` is the promise that the acquirer is chained behind, if there is one in the map. -/
structure Acquirer (Key : Type*) where
  key : Key
  use : Use
  prev : Option ℕ
  stage : Stage

/-- The acquirers are numbered in the order of their calls, and a `done` promise has the number
of its acquirer.  `grants` are the acquirers in the order in which the lock was granted. -/
structure System (Key : Type*) where
  tails : Key → Option ℕ
  resolved : ℕ → Bool
  acquirers : List (Acquirer Key)
  grants : List ℕ

/-- The calls, the callback of `prev.then`, the start of the function of `withLock`, the call of
`release`, and the end of the function, which releases in the `finally` block. -/
inductive Action (Key : Type*) where
  | acquire (key : Key)
  | withLock (key : Key)
  | grant (id : ℕ)
  | invoke (id : ℕ)
  | release (id : ℕ)
  | finish (id : ℕ) (threw : Bool)

namespace System

variable {Key : Type*}

def init : System Key := ⟨fun _ => none, fun _ => false, [], []⟩

def acquire [DecidableEq Key] (s : System Key) (key : Key) (use : Use) : System Key :=
  { s with
    tails := Function.update s.tails key (some s.acquirers.length)
    acquirers := s.acquirers ++ [⟨key, use, s.tails key, .waiting⟩] }

def setStage (s : System Key) (id : ℕ) (acquirer : Acquirer Key) (stage : Stage) : System Key :=
  { s with acquirers := s.acquirers.set id { acquirer with stage := stage } }

/-- The promise behind which nothing is chained has been resolved. -/
def isResolved (s : System Key) (prev : Option ℕ) : Bool := prev.all s.resolved

/-- `release`: the `done` promise is resolved. -/
def release (s : System Key) (id : ℕ) (acquirer : Acquirer Key) (threw : Bool) : System Key :=
  { s.setStage id acquirer (.released threw) with resolved := Function.update s.resolved id true }

end System

variable {Key : Type*} [DecidableEq Key]

def step (s : System Key) : Action Key → Option (System Key)
  | .acquire key => some (s.acquire key .acquire)
  | .withLock key => some (s.acquire key .withLock)
  | .grant id => s.acquirers[id]?.bind fun acquirer =>
      if acquirer.stage = .waiting ∧ s.isResolved acquirer.prev then
        some { s.setStage id acquirer .granted with grants := s.grants ++ [id] }
      else none
  | .invoke id => s.acquirers[id]?.bind fun acquirer =>
      if acquirer.stage = .granted ∧ acquirer.use = .withLock then
        some (s.setStage id acquirer .running)
      else none
  | .release id => s.acquirers[id]?.bind fun acquirer =>
      if acquirer.stage = .granted ∧ acquirer.use = .acquire then
        some (s.release id acquirer false)
      else none
  | .finish id threw => s.acquirers[id]?.bind fun acquirer =>
      if acquirer.stage = .running then some (s.release id acquirer threw) else none

def Stage.Holds (stage : Stage) : Prop := stage = .granted ∨ stage = .running

omit [DecidableEq Key] in
def System.keyOf (s : System Key) (id : ℕ) : Option Key := s.acquirers[id]?.map Acquirer.key

/-- The acquirers of a key in the order of their calls. -/
def System.callsOf (s : System Key) (key : Key) : List ℕ :=
  (List.range s.acquirers.length).filter fun id => s.keyOf id = some key

/-- The acquirers of a key in the order of their grants. -/
def System.grantsOf (s : System Key) (key : Key) : List ℕ :=
  s.grants.filter fun id => s.keyOf id = some key

omit [DecidableEq Key] in
def Action.Joins : Action Key → Prop
  | acquire _ | withLock _ => True
  | _ => False

def Quiet (s : System Key) : Prop := ∀ id, step s (.grant id) = none ∧ step s (.invoke id) = none

structure FairMutex (s : System Key) : Prop where
  exclusive : ∀ (first second : ℕ) (one other : Acquirer Key),
    s.acquirers[first]? = some one → s.acquirers[second]? = some other → one.key = other.key →
      one.stage.Holds → other.stage.Holds → first = second
  fair : ∀ key, s.grantsOf key <+: s.callsOf key
  independent : ∀ (id : ℕ) (acquirer : Acquirer Key), s.acquirers[id]? = some acquirer →
    acquirer.stage = .waiting →
      ((step s (.grant id)).isSome = true ↔
        ∀ (earlier : ℕ) (other : Acquirer Key), earlier < id →
          s.acquirers[earlier]? = some other → other.key = acquirer.key →
            other.stage.isReleased = true)
  complete : Quiet s → (∀ acquirer ∈ s.acquirers, ¬ acquirer.stage.Holds) →
    ∀ acquirer ∈ s.acquirers, acquirer.stage.isReleased = true
  bounded : ∀ actions t, (∀ action ∈ actions, ¬ action.Joins) → run step s actions = some t →
    actions.length ≤ 3 * s.acquirers.length

omit [DecidableEq Key] in
def LastBelow (keyOf : ℕ → Option Key) (key : Key) (bound : ℕ) : Option ℕ → Prop
  | none => ∀ id < bound, keyOf id ≠ some key
  | some prev => prev < bound ∧ keyOf prev = some key ∧
      ∀ id, prev < id → id < bound → keyOf id ≠ some key

variable {bound id first second : ℕ} {key : Key} {prev : Option ℕ}
  {acquirer one other : Acquirer Key} {s t : System Key} {stage : Stage} {action : Action Key}

section

omit [DecidableEq Key]

theorem LastBelow.congr {keyOf keyOf' : ℕ → Option Key} (hlast : LastBelow keyOf key bound prev)
    (hsame : ∀ id < bound, keyOf' id = keyOf id) : LastBelow keyOf' key bound prev := by
  cases prev with
  | none =>
      intro id hid
      rw [hsame id hid]
      exact hlast id hid
  | some prev =>
      refine ⟨hlast.1, (hsame prev hlast.1).trans hlast.2.1, fun id hprev hid => ?_⟩
      rw [hsame id hid]
      exact hlast.2.2 id hprev hid

/-- One more number, which does not have the key. -/
theorem LastBelow.succ {keyOf : ℕ → Option Key} (hlast : LastBelow keyOf key bound prev)
    (hother : keyOf bound ≠ some key) : LastBelow keyOf key (bound + 1) prev := by
  cases prev with
  | none =>
      intro id hid
      rcases Nat.lt_succ_iff_lt_or_eq.mp hid with hlt | rfl
      · exact hlast id hlt
      · exact hother
  | some prev =>
      refine ⟨hlast.1.trans (Nat.lt_succ_self bound), hlast.2.1, fun id hprev hid => ?_⟩
      rcases Nat.lt_succ_iff_lt_or_eq.mp hid with hlt | rfl
      · exact hlast.2.2 id hprev hlt
      · exact hother

/-- One more number, which has the key. -/
theorem lastBelow_succ_self {keyOf : ℕ → Option Key} (hkey : keyOf bound = some key) :
    LastBelow keyOf key (bound + 1) (some bound) :=
  ⟨Nat.lt_succ_self bound, hkey, fun _ hbound hid _ => by omega⟩

end

/-! ## The invariant -/

structure Sound (s : System Key) : Prop where
  tails : ∀ key, LastBelow s.keyOf key s.acquirers.length (s.tails key)
  prev : ∀ (id : ℕ) (acquirer : Acquirer Key), s.acquirers[id]? = some acquirer →
    LastBelow s.keyOf acquirer.key id acquirer.prev
  resolved : ∀ id, s.resolved id = true ↔
    ∃ acquirer : Acquirer Key, s.acquirers[id]? = some acquirer ∧
      acquirer.stage.isReleased = true
  past : ∀ (id : ℕ) (acquirer : Acquirer Key), s.acquirers[id]? = some acquirer →
    acquirer.stage ≠ .waiting → s.isResolved acquirer.prev = true
  granted : ∀ id, id ∈ s.grants ↔
    ∃ acquirer : Acquirer Key, s.acquirers[id]? = some acquirer ∧ acquirer.stage ≠ .waiting
  fair : ∀ key, s.grantsOf key <+: s.callsOf key

omit [DecidableEq Key] in
theorem keyOf_of_acquirer (hfound : s.acquirers[id]? = some acquirer) :
    s.keyOf id = some acquirer.key := by
  rw [System.keyOf, hfound]
  rfl

omit [DecidableEq Key] in
theorem exists_acquirer_of_keyOf (hkey : s.keyOf id = some key) :
    ∃ acquirer, s.acquirers[id]? = some acquirer ∧ acquirer.key = key :=
  Option.map_eq_some_iff.mp hkey

/-- The promise of an acquirer is resolved when it has released the lock. -/
theorem Sound.resolved_eq (hsound : Sound s) (hfound : s.acquirers[id]? = some acquirer) :
    s.resolved id = acquirer.stage.isReleased := by
  rw [Bool.eq_iff_iff, hsound.resolved]
  constructor
  · rintro ⟨other, hother, hreleased⟩
    obtain rfl := Option.some.inj (hfound.symm.trans hother)
    exact hreleased
  · exact fun hreleased => ⟨acquirer, hfound, hreleased⟩

/-- An acquirer is among the grants when it does not wait. -/
theorem Sound.mem_grants_iff (hsound : Sound s) (hfound : s.acquirers[id]? = some acquirer) :
    id ∈ s.grants ↔ acquirer.stage ≠ .waiting := by
  rw [hsound.granted]
  constructor
  · rintro ⟨other, hother, hnot⟩
    obtain rfl := Option.some.inj (hfound.symm.trans hother)
    exact hnot
  · exact fun hnot => ⟨acquirer, hfound, hnot⟩

theorem Stage.ne_waiting_of_isReleased (hreleased : stage.isReleased = true) :
    stage ≠ .waiting := by
  rintro rfl
  cases hreleased

/-- Who is chained behind a resolved promise finds every earlier acquirer of the key gone: the
induction goes down the chain. -/
theorem Sound.earlier_released (hsound : Sound s) (id : ℕ) :
    ∀ acquirer : Acquirer Key, s.acquirers[id]? = some acquirer →
      s.isResolved acquirer.prev = true →
        ∀ (earlier : ℕ) (other : Acquirer Key), earlier < id →
          s.acquirers[earlier]? = some other → other.key = acquirer.key →
            other.stage.isReleased = true := by
  induction id using Nat.strong_induction_on with
  | _ id ih =>
      intro acquirer hfound hresolved earlier other hearlier hother hkey
      have hlast := hsound.prev id acquirer hfound
      have hotherKey : s.keyOf earlier = some acquirer.key := hkey ▸ keyOf_of_acquirer hother
      cases hprev : acquirer.prev with
      | none =>
          rw [hprev] at hlast
          exact absurd hotherKey (hlast earlier hearlier)
      | some prev =>
          rw [hprev] at hlast hresolved
          obtain ⟨before, hbefore, hreleased⟩ := (hsound.resolved prev).mp hresolved
          rcases Nat.lt_trichotomy earlier prev with hlt | rfl | hgt
          · have hsame : other.key = before.key := by
              have hkeys := (keyOf_of_acquirer hbefore).symm.trans hlast.2.1
              exact hkey.trans (Option.some.inj hkeys).symm
            have hpast := hsound.past prev before hbefore
              (Stage.ne_waiting_of_isReleased hreleased)
            exact ih prev hlast.1 before hbefore hpast earlier other hlt hother hsame
          · obtain rfl := Option.some.inj (hother.symm.trans hbefore)
            exact hreleased
          · exact absurd hotherKey (hlast.2.2 earlier hgt hearlier)

theorem Sound.isResolved_iff (hsound : Sound s) (hfound : s.acquirers[id]? = some acquirer) :
    s.isResolved acquirer.prev = true ↔
      ∀ (earlier : ℕ) (other : Acquirer Key), earlier < id →
        s.acquirers[earlier]? = some other → other.key = acquirer.key →
          other.stage.isReleased = true := by
  constructor
  · exact hsound.earlier_released id acquirer hfound
  · intro hreleased
    have hlast := hsound.prev id acquirer hfound
    cases hprev : acquirer.prev with
    | none => rfl
    | some prev =>
        rw [hprev] at hlast
        obtain ⟨before, hbefore, hkey⟩ := exists_acquirer_of_keyOf hlast.2.1
        have hdone := hreleased prev before hlast.1 hbefore hkey
        exact (hsound.resolved prev).mpr ⟨before, hbefore, hdone⟩

inductive Change (s : System Key) (action : Action Key) : System Key → Prop where
  | joins (hjoins : action.Joins) (key : Key) (use : Use) : Change s action (s.acquire key use)
  | grants {id : ℕ} {acquirer : Acquirer Key} (hfound : s.acquirers[id]? = some acquirer)
      (hwaiting : acquirer.stage = .waiting) (hresolved : s.isResolved acquirer.prev = true) :
      Change s action { s.setStage id acquirer .granted with grants := s.grants ++ [id] }
  | starts {id : ℕ} {acquirer : Acquirer Key} (hfound : s.acquirers[id]? = some acquirer)
      (hgranted : acquirer.stage = .granted) : Change s action (s.setStage id acquirer .running)
  | releases {id : ℕ} {acquirer : Acquirer Key} (hfound : s.acquirers[id]? = some acquirer)
      (hholds : acquirer.stage.Holds) (threw : Bool) : Change s action (s.release id acquirer threw)

theorem change_of_step (hstep : step s action = some t) : Change s action t := by
  cases action with
  | acquire key =>
      obtain rfl := Option.some.inj hstep
      have hjoins : (Action.acquire key).Joins := trivial
      exact .joins hjoins key .acquire
  | withLock key =>
      obtain rfl := Option.some.inj hstep
      have hjoins : (Action.withLock key).Joins := trivial
      exact .joins hjoins key .withLock
  | grant id =>
      obtain ⟨acquirer, hfound, hthen⟩ := Option.bind_eq_some_iff.mp hstep
      rw [Option.ite_none_right_eq_some] at hthen
      obtain ⟨⟨hwaiting, hresolved⟩, heq⟩ := hthen
      obtain rfl := Option.some.inj heq
      exact .grants hfound hwaiting hresolved
  | invoke id =>
      obtain ⟨acquirer, hfound, hthen⟩ := Option.bind_eq_some_iff.mp hstep
      rw [Option.ite_none_right_eq_some] at hthen
      obtain ⟨⟨hgranted, -⟩, heq⟩ := hthen
      obtain rfl := Option.some.inj heq
      exact .starts hfound hgranted
  | release id =>
      obtain ⟨acquirer, hfound, hthen⟩ := Option.bind_eq_some_iff.mp hstep
      rw [Option.ite_none_right_eq_some] at hthen
      obtain ⟨⟨hgranted, -⟩, heq⟩ := hthen
      obtain rfl := Option.some.inj heq
      exact .releases hfound (.inl hgranted) false
  | finish id threw =>
      obtain ⟨acquirer, hfound, hthen⟩ := Option.bind_eq_some_iff.mp hstep
      rw [Option.ite_none_right_eq_some] at hthen
      obtain ⟨hrunning, heq⟩ := hthen
      obtain rfl := Option.some.inj heq
      exact .releases hfound (.inr hrunning) threw

omit [DecidableEq Key] in
/-- The acquirers when one of them has moved. -/
theorem getElem?_moved (hfound : s.acquirers[id]? = some acquirer)
    (hmoved : t.acquirers = s.acquirers.set id { acquirer with stage := stage }) (other : ℕ) : 
    t.acquirers[other]? =
      if other = id then some { acquirer with stage := stage } else s.acquirers[other]? := by
  obtain ⟨hid, -⟩ := List.getElem?_eq_some_iff.mp hfound
  rw [hmoved]
  by_cases hother : other = id
  · rw [if_pos hother, hother, List.getElem?_set_self hid]
  · rw [if_neg hother, List.getElem?_set_ne (Ne.symm hother)]

omit [DecidableEq Key] in
theorem keyOf_moved (hfound : s.acquirers[id]? = some acquirer)
    (hmoved : t.acquirers = s.acquirers.set id { acquirer with stage := stage }) : 
    t.keyOf = s.keyOf := by
  funext other
  rw [System.keyOf, System.keyOf, getElem?_moved hfound hmoved]
  split
  · next hother =>
      rw [hother, hfound]
      rfl
  · rfl

theorem callsOf_moved (hfound : s.acquirers[id]? = some acquirer)
    (hmoved : t.acquirers = s.acquirers.set id { acquirer with stage := stage }) (key : Key) : 
    t.callsOf key = s.callsOf key := by
  rw [System.callsOf, System.callsOf, keyOf_moved hfound hmoved, hmoved, List.length_set]

/-- An acquirer that has been chained behind a resolved promise moves on. -/
theorem Sound.move {s t : System Key} (hsound : Sound s) {id : ℕ} {acquirer : Acquirer Key}
    {stage : Stage} (hfound : s.acquirers[id]? = some acquirer)
    (hpast : s.isResolved acquirer.prev = true) (hbefore : acquirer.stage.isReleased = false)
    (hstage : stage ≠ .waiting) (htails : t.tails = s.tails)
    (hmoved : t.acquirers = s.acquirers.set id { acquirer with stage := stage })
    (hresolved : t.resolved = Function.update s.resolved id stage.isReleased)
    (hgrants : ∀ other, other ∈ t.grants ↔ other = id ∨ other ∈ s.grants)
    (hfair : ∀ key, t.grantsOf key <+: s.callsOf key) : Sound t := by
  have hkeys := keyOf_moved hfound hmoved
  have hacquirers := getElem?_moved hfound hmoved
  have hunresolved : s.resolved id = false := (hsound.resolved_eq hfound).trans hbefore
  have hmore : ∀ prev, s.isResolved prev = true → t.isResolved prev = true := by
    intro prev hprev
    cases prev with
    | none => rfl
    | some prev =>
        change t.resolved prev = true
        have hne : prev ≠ id := by
          rintro rfl
          exact absurd hprev (by simpa [System.isResolved] using hunresolved)
        rw [hresolved, Function.update_of_ne hne]
        exact hprev
  constructor
  · intro key
    rw [hkeys, htails, hmoved, List.length_set]
    exact hsound.tails key
  · intro other found hother
    rw [hacquirers] at hother
    rw [hkeys]
    split at hother
    · next heq =>
        obtain rfl := Option.some.inj hother
        rw [heq]
        exact hsound.prev id acquirer hfound
    · exact hsound.prev other found hother
  · intro other
    rw [hresolved, hacquirers]
    by_cases hother : other = id
    · rw [hother, Function.update_self, if_pos rfl]
      constructor
      · intro hreleased
        exact ⟨_, rfl, hreleased⟩
      · rintro ⟨found, heq, hreleased⟩
        obtain rfl := Option.some.inj heq
        exact hreleased
    · rw [Function.update_of_ne hother, if_neg hother]
      exact hsound.resolved other
  · intro other found hother hnot
    apply hmore
    rw [hacquirers] at hother
    split at hother
    · obtain rfl := Option.some.inj hother
      exact hpast
    · exact hsound.past other found hother hnot
  · intro other
    rw [hgrants, hacquirers, hsound.granted]
    by_cases hother : other = id
    · rw [if_pos hother]
      exact iff_of_true (.inl hother) ⟨_, rfl, hstage⟩
    · rw [if_neg hother]
      exact ⟨fun hor => hor.resolve_left hother, .inr⟩
  · intro key
    rw [callsOf_moved hfound hmoved]
    exact hfair key

theorem mem_callsOf : id ∈ s.callsOf key ↔ s.keyOf id = some key := by
  rw [System.callsOf, List.mem_filter, List.mem_range, decide_eq_true_eq]
  constructor
  · exact And.right
  · intro hkey
    obtain ⟨acquirer, hfound, -⟩ := exists_acquirer_of_keyOf hkey
    exact ⟨(List.getElem?_eq_some_iff.mp hfound).1, hkey⟩

theorem pairwise_callsOf (s : System Key) (key : Key) : (s.callsOf key).Pairwise (· < ·) :=
  List.pairwise_lt_range.sublist List.filter_sublist

/-- The acquirer that is granted a key is the first one that is left. -/
theorem Sound.grantsOf_concat (hsound : Sound s) (hfound : s.acquirers[id]? = some acquirer)
    (hwaiting : acquirer.stage = .waiting) (hresolved : s.isResolved acquirer.prev = true) :
    s.grantsOf acquirer.key ++ [id] <+: s.callsOf acquirer.key := by
  have hid : id ∈ s.callsOf acquirer.key := mem_callsOf.mpr (keyOf_of_acquirer hfound)
  have hsorted := pairwise_callsOf s acquirer.key
  obtain ⟨rest, hrest⟩ := hsound.fair acquirer.key
  rw [← hrest] at hid hsorted
  have hnot : id ∉ s.grantsOf acquirer.key := fun hmem =>
    (hsound.mem_grants_iff hfound).mp (List.mem_filter.mp hmem).1 hwaiting
  have hmem := (List.mem_append.mp hid).resolve_left hnot
  cases rest with
  | nil => cases hmem
  | cons next others =>
      rcases List.mem_cons.mp hmem with rfl | hlater
      · rw [← hrest]
        exact ⟨others, by rw [List.append_assoc, List.singleton_append]⟩
      · -- The first one that is left called before and has been granted the lock.
        have hnext : next ∈ s.callsOf acquirer.key := by
          rw [← hrest]
          exact List.mem_append_right _ List.mem_cons_self
        obtain ⟨other, hother, hkey⟩ := exists_acquirer_of_keyOf (mem_callsOf.mp hnext)
        have hlt : next < id :=
          List.rel_of_pairwise_cons (List.pairwise_append.mp hsorted).2.1 hlater
        have hreleased := hsound.earlier_released id acquirer hfound hresolved next other hlt
          hother hkey
        have hgranted : next ∈ s.grants := (hsound.mem_grants_iff hother).mpr
          (Stage.ne_waiting_of_isReleased hreleased)
        have hthere : next ∈ s.grantsOf acquirer.key :=
          List.mem_filter.mpr ⟨hgranted, by simpa using mem_callsOf.mp hnext⟩
        have hself := (List.pairwise_append.mp hsorted).2.2 next hthere next List.mem_cons_self
        exact absurd hself (lt_irrefl next)

theorem getElem?_acquire {use : Use} (hfound : (s.acquire key use).acquirers[id]? = some acquirer) :
    s.acquirers[id]? = some acquirer ∨
      id = s.acquirers.length ∧ acquirer = ⟨key, use, s.tails key, .waiting⟩ := by
  change (s.acquirers ++ [_])[id]? = some acquirer at hfound
  rcases Nat.lt_or_ge id s.acquirers.length with hold | hnew
  · rw [List.getElem?_append_left hold] at hfound
    exact .inl hfound
  · rw [List.getElem?_append_right hnew] at hfound
    obtain ⟨hzero, heq⟩ := List.getElem?_eq_some_iff.mp hfound
    rw [List.length_singleton, Nat.lt_one_iff] at hzero
    refine .inr ⟨le_antisymm (Nat.sub_eq_zero_iff_le.mp hzero) hnew, ?_⟩
    rw [← heq, List.getElem_singleton]

theorem getElem?_acquire_of_some (hfound : s.acquirers[id]? = some acquirer) (key : Key) (use : Use) :
    (s.acquire key use).acquirers[id]? = some acquirer := by
  change (s.acquirers ++ [_])[id]? = some acquirer
  rw [List.getElem?_append_left (List.getElem?_eq_some_iff.mp hfound).1, hfound]

theorem keyOf_acquire_self (s : System Key) (key : Key) (use : Use) :
    (s.acquire key use).keyOf s.acquirers.length = some key := by
  rw [System.keyOf]
  change Option.map _ (s.acquirers ++ [_])[s.acquirers.length]? = some key
  rw [List.getElem?_concat_length]
  rfl

theorem keyOf_acquire_of_lt (s : System Key) (key : Key) (use : Use) (hid : id < s.acquirers.length) :
    (s.acquire key use).keyOf id = s.keyOf id := by
  rw [System.keyOf, System.keyOf]
  change Option.map _ (s.acquirers ++ [_])[id]? = _
  rw [List.getElem?_append_left hid]

theorem Sound.lt_length_of_mem_grants (hsound : Sound s) (hid : id ∈ s.grants) :
    id < s.acquirers.length := by
  obtain ⟨acquirer, hfound, -⟩ := (hsound.granted id).mp hid
  exact (List.getElem?_eq_some_iff.mp hfound).1

/-- A new acquirer only comes behind the others of its key. -/
theorem callsOf_acquire (s : System Key) (key other : Key) (use : Use) :
    s.callsOf other <+: (s.acquire key use).callsOf other := by
  have hlength : (s.acquire key use).acquirers.length = s.acquirers.length + 1 := by
    rw [System.acquire, List.length_append, List.length_singleton]
  have hsame : (List.range s.acquirers.length).filter
      (fun id => (s.acquire key use).keyOf id = some other) = s.callsOf other := by
    rw [System.callsOf]
    refine List.filter_congr fun id hid => ?_
    rw [keyOf_acquire_of_lt s key use (List.mem_range.mp hid)]
  rw [System.callsOf.eq_1 (s.acquire key use), hlength, List.range_succ, List.filter_append, hsame]
  exact List.prefix_append _ _

theorem Sound.acquire (hsound : Sound s) (key : Key) (use : Use) : Sound (s.acquire key use) := by
  have hlength : (s.acquire key use).acquirers.length = s.acquirers.length + 1 := by
    rw [System.acquire, List.length_append, List.length_singleton]
  have hkeys : ∀ id < s.acquirers.length, (s.acquire key use).keyOf id = s.keyOf id :=
    fun id hid => keyOf_acquire_of_lt s key use hid
  have hself := keyOf_acquire_self s key use
  constructor
  · intro other
    rw [hlength]
    by_cases hother : other = key
    · rw [hother]
      change LastBelow _ key _ (Function.update s.tails key _ key)
      rw [Function.update_self]
      exact lastBelow_succ_self hself
    · change LastBelow _ other _ (Function.update s.tails key _ other)
      rw [Function.update_of_ne hother]
      refine ((hsound.tails other).congr hkeys).succ ?_
      rw [hself]
      exact fun heq => hother (Option.some.inj heq).symm
  · intro id acquirer hfound
    rcases getElem?_acquire hfound with hold | ⟨rfl, rfl⟩
    · have hid := (List.getElem?_eq_some_iff.mp hold).1
      exact (hsound.prev id acquirer hold).congr fun other hother => hkeys other (hother.trans hid)
    · exact (hsound.tails key).congr hkeys
  · intro id
    change s.resolved id = true ↔ _
    rw [hsound.resolved]
    constructor
    · rintro ⟨acquirer, hfound, hreleased⟩
      exact ⟨acquirer, getElem?_acquire_of_some hfound key use, hreleased⟩
    · rintro ⟨acquirer, hfound, hreleased⟩
      rcases getElem?_acquire hfound with hold | ⟨-, rfl⟩
      · exact ⟨acquirer, hold, hreleased⟩
      · cases hreleased
  · intro id acquirer hfound hnot
    rcases getElem?_acquire hfound with hold | ⟨-, rfl⟩
    · exact hsound.past id acquirer hold hnot
    · exact absurd rfl hnot
  · intro id
    change id ∈ s.grants ↔ _
    rw [hsound.granted]
    constructor
    · rintro ⟨acquirer, hfound, hnot⟩
      exact ⟨acquirer, getElem?_acquire_of_some hfound key use, hnot⟩
    · rintro ⟨acquirer, hfound, hnot⟩
      rcases getElem?_acquire hfound with hold | ⟨-, rfl⟩
      · exact ⟨acquirer, hold, hnot⟩
      · exact absurd rfl hnot
  · intro other
    have hgrants : (s.acquire key use).grantsOf other = s.grantsOf other := by
      refine List.filter_congr fun id hid => ?_
      rw [hkeys id (hsound.lt_length_of_mem_grants hid)]
    rw [hgrants]
    exact (hsound.fair other).trans (callsOf_acquire s key other use)

/-! ### The whole step -/

theorem Stage.Holds.isReleased (hholds : stage.Holds) : stage.isReleased = false := by
  rcases hholds with rfl | rfl
  · rfl
  · rfl

theorem Stage.Holds.ne_waiting (hholds : stage.Holds) : stage ≠ .waiting := by
  rcases hholds with rfl | rfl
  · exact Stage.noConfusion
  · exact Stage.noConfusion

theorem Sound.resolved_eq_update (hsound : Sound s) (hfound : s.acquirers[id]? = some acquirer)
    (hbefore : acquirer.stage.isReleased = false) :
    s.resolved = Function.update s.resolved id false := by
  rw [eq_comm, Function.update_eq_self_iff, hsound.resolved_eq hfound, hbefore]

/-- A move of an acquirer that holds the lock, which is granted to nobody else by it. -/
theorem Sound.move_holder {s t : System Key} (hsound : Sound s) {id : ℕ}
    {acquirer : Acquirer Key} {stage : Stage} (hfound : s.acquirers[id]? = some acquirer)
    (hholds : acquirer.stage.Holds) (hstage : stage ≠ .waiting) (htails : t.tails = s.tails)
    (hmoved : t.acquirers = s.acquirers.set id { acquirer with stage := stage })
    (hresolved : t.resolved = Function.update s.resolved id stage.isReleased)
    (hgrants : t.grants = s.grants) : Sound t := by
  have hpast := hsound.past id acquirer hfound hholds.ne_waiting
  have hgranted : id ∈ s.grants := (hsound.mem_grants_iff hfound).mpr hholds.ne_waiting
  refine hsound.move hfound hpast hholds.isReleased hstage htails hmoved hresolved ?_ ?_
  · intro other
    rw [hgrants]
    exact ⟨.inr, fun hor => hor.elim (fun heq => heq ▸ hgranted) fun hmem => hmem⟩
  · intro key
    rw [System.grantsOf, hgrants, keyOf_moved hfound hmoved]
    exact hsound.fair key

theorem Sound.change (hsound : Sound s) (hchange : Change s action t) : Sound t := by
  cases hchange with
  | joins _ key use => exact hsound.acquire key use
  | @grants id acquirer hfound hwaiting hresolved =>
      have hbefore : acquirer.stage.isReleased = false := by rw [hwaiting]; rfl
      have hgranted : Stage.granted ≠ .waiting := Stage.noConfusion
      refine hsound.move hfound hresolved hbefore hgranted rfl rfl
        (hsound.resolved_eq_update hfound hbefore) ?_ ?_
      · intro other
        change other ∈ s.grants ++ [id] ↔ _
        rw [List.mem_append, List.mem_singleton, or_comm]
      · intro key
        have hkeys := keyOf_moved (t := s.setStage id acquirer .granted) hfound rfl
        change (s.grants ++ [id]).filter
          (fun other => (s.setStage id acquirer .granted).keyOf other = some key) <+: _
        rw [hkeys, List.filter_append]
        change s.grantsOf key ++ _ <+: _
        by_cases hkey : acquirer.key = key
        · subst hkey
          rw [List.filter_singleton, keyOf_of_acquirer hfound, decide_eq_true rfl]
          exact hsound.grantsOf_concat hfound hwaiting hresolved
        · have hother : s.keyOf id ≠ some key := by
            rw [keyOf_of_acquirer hfound]
            exact fun heq => hkey (Option.some.inj heq)
          rw [List.filter_singleton, decide_eq_false hother]
          exact (List.append_nil _).symm ▸ hsound.fair key
  | starts hfound hgranted =>
      have hholds : Stage.Holds _ := .inl hgranted
      exact hsound.move_holder hfound hholds Stage.noConfusion rfl rfl
        (hsound.resolved_eq_update hfound hholds.isReleased) rfl
  | releases hfound hholds threw =>
      exact hsound.move_holder hfound hholds Stage.noConfusion rfl rfl rfl rfl

theorem sound_init : Sound (System.init : System Key) := by
  constructor
  · intro key id hid
    exact absurd hid (Nat.not_lt_zero id)
  · intro id acquirer hfound
    cases hfound
  · intro id
    refine iff_of_false Bool.false_ne_true ?_
    rintro ⟨acquirer, hfound, -⟩
    cases hfound
  · intro id acquirer hfound
    cases hfound
  · intro id
    refine iff_of_false List.not_mem_nil ?_
    rintro ⟨acquirer, hfound, -⟩
    cases hfound
  · intro key
    exact List.nil_prefix

theorem sound_of_reaches (hreach : Reaches step anyStep .init s) : Sound s :=
  hreach.preserves (fun _ _ _ hsound _ hstep => hsound.change (change_of_step hstep)) sound_init

theorem Sound.isSome_grant_iff (hsound : Sound s) (hfound : s.acquirers[id]? = some acquirer)
    (hwaiting : acquirer.stage = .waiting) : (step s (.grant id)).isSome = true ↔
      ∀ (earlier : ℕ) (other : Acquirer Key), earlier < id →
        s.acquirers[earlier]? = some other → other.key = acquirer.key →
          other.stage.isReleased = true := by
  rw [← hsound.isResolved_iff hfound, step, hfound, Option.bind_some]
  by_cases hresolved : s.isResolved acquirer.prev = true
  · rw [if_pos ⟨hwaiting, hresolved⟩]
    exact iff_of_true rfl hresolved
  · rw [if_neg fun hboth => hresolved hboth.2]
    exact iff_of_false Bool.false_ne_true hresolved

/-- Whoever holds a key, all that called before it for the key have released. -/
theorem Sound.earlier_of_holds (hsound : Sound s) (hone : s.acquirers[first]? = some one)
    (hother : s.acquirers[second]? = some other) (hkey : one.key = other.key)
    (hholds : other.stage.Holds) (hlt : first < second) : one.stage.isReleased = true :=
  hsound.earlier_released second other hother
    (hsound.past second other hother hholds.ne_waiting) first one hlt hone hkey

theorem Sound.exclusive (hsound : Sound s) (hone : s.acquirers[first]? = some one)
    (hother : s.acquirers[second]? = some other) (hkey : one.key = other.key)
    (hholds : one.stage.Holds) (hholds' : other.stage.Holds) : first = second := by
  rcases Nat.lt_trichotomy first second with hlt | heq | hgt
  · have hreleased := hsound.earlier_of_holds hone hother hkey hholds' hlt
    rw [hholds.isReleased] at hreleased
    cases hreleased
  · exact heq
  · have hreleased := hsound.earlier_of_holds hother hone hkey.symm hholds hgt
    rw [hholds'.isReleased] at hreleased
    cases hreleased

/-- Nobody waits when there is nothing to run and nobody holds a lock: the first one that did
would be granted it. -/
theorem Sound.complete (hsound : Sound s) (hquiet : Quiet s)
    (hfree : ∀ acquirer ∈ s.acquirers, ¬ acquirer.stage.Holds) (id : ℕ) :
    ∀ acquirer : Acquirer Key, s.acquirers[id]? = some acquirer →
      acquirer.stage.isReleased = true := by
  induction id using Nat.strong_induction_on with
  | _ id ih =>
      intro acquirer hfound
      have hnot := hfree acquirer (List.mem_of_getElem? hfound)
      cases hstage : acquirer.stage with
      | waiting =>
          have henabled := (hsound.isSome_grant_iff hfound hstage).mpr
            fun earlier other hlt hother _ => ih earlier hlt other hother
          rw [(hquiet id).1] at henabled
          cases henabled
      | granted => exact absurd (.inl hstage) hnot
      | running => exact absurd (.inr hstage) hnot
      | released threw => rfl

def Stage.remaining : Stage → ℕ
  | waiting => 3
  | granted => 2
  | running => 1
  | released _ => 0

theorem Stage.remaining_le (stage : Stage) : stage.remaining ≤ 3 := by
  cases stage with
  | waiting => exact le_rfl
  | granted => exact Nat.le_succ 2
  | running => exact Nat.le_add_right 1 2
  | released threw => exact Nat.zero_le 3

omit [DecidableEq Key] in
def System.remaining (s : System Key) : ℕ :=
  (s.acquirers.map fun acquirer => acquirer.stage.remaining).sum

omit [DecidableEq Key] in
theorem remaining_le (s : System Key) : s.remaining ≤ 3 * s.acquirers.length := by
  have hle := List.sum_le_card_nsmul (s.acquirers.map fun acquirer => acquirer.stage.remaining) 3
    fun count hcount => by
      obtain ⟨acquirer, -, rfl⟩ := List.mem_map.mp hcount
      exact acquirer.stage.remaining_le
  rwa [List.length_map, nsmul_eq_mul, Nat.cast_id, Nat.mul_comm] at hle

theorem sum_map_set_lt {Item : Type*} (size : Item → ℕ) {items : List Item} {index : ℕ}
    {before after : Item} (hfound : items[index]? = some before) (hlt : size after < size before) :
    ((items.set index after).map size).sum < (items.map size).sum := by
  induction items generalizing index with
  | nil => cases hfound
  | cons item rest ih =>
      cases index with
      | zero =>
          obtain rfl := Option.some.inj hfound
          rw [List.set_cons_zero, List.map_cons, List.map_cons, List.sum_cons, List.sum_cons]
          exact Nat.add_lt_add_right hlt _
      | succ index =>
          rw [List.set_cons_succ, List.map_cons, List.map_cons, List.sum_cons, List.sum_cons]
          exact Nat.add_lt_add_left (ih hfound) _

theorem Stage.Holds.one_le_remaining (hholds : stage.Holds) : 1 ≤ stage.remaining := by
  rcases hholds with rfl | rfl
  · exact Nat.le_succ 1
  · exact le_rfl

theorem remaining_lt (hnot : ¬ action.Joins) (hstep : step s action = some t) :
    t.remaining < s.remaining := by
  cases change_of_step hstep with
  | joins hjoins => exact absurd hjoins hnot
  | grants hfound hwaiting hresolved =>
      refine sum_map_set_lt _ hfound ?_
      rw [hwaiting]
      exact Nat.lt_succ_self 2
  | starts hfound hgranted =>
      refine sum_map_set_lt _ hfound ?_
      rw [hgranted]
      exact Nat.lt_succ_self 1
  | releases hfound hholds threw => exact sum_map_set_lt _ hfound hholds.one_le_remaining

/-- Without new calls, a schedule takes as many steps from what is left as it is long. -/
theorem length_add_remaining_le {actions : List (Action Key)}
    (hnot : ∀ action ∈ actions, ¬ action.Joins) (hrun : run step s actions = some t) :
    actions.length + t.remaining ≤ s.remaining := by
  induction actions generalizing s with
  | nil =>
      obtain rfl := Option.some.inj hrun
      rw [List.length_nil, Nat.zero_add]
  | cons action actions ih =>
      obtain ⟨next, hstep, hrest⟩ := Option.bind_eq_some_iff.mp hrun
      have hlt := remaining_lt (hnot action List.mem_cons_self) hstep
      have hle := ih (fun other hother => hnot other (List.mem_cons_of_mem action hother)) hrest
      rw [List.length_cons]
      omega

/-- The lock is a fair mutex after every schedule. -/
theorem fairMutex {s : System Key} {actions : List (Action Key)}
    (hrun : run step .init actions = some s) : FairMutex s := by
  have hsound := sound_of_reaches (reaches_of_run hrun)
  constructor
  · intro first second one other hone hother hkey
    exact hsound.exclusive hone hother hkey
  · exact hsound.fair
  · intro id acquirer hfound hwaiting
    exact hsound.isSome_grant_iff hfound hwaiting
  · intro hquiet hfree acquirer hmem
    obtain ⟨id, hfound⟩ := List.mem_iff_getElem?.mp hmem
    exact hsound.complete hquiet hfree id acquirer hfound
  · intro actions t hnot hmore
    exact (Nat.le_add_right _ _).trans ((length_add_remaining_le hnot hmore).trans (remaining_le s))

/-- Two callers of one key: the second one is granted the lock when the function of the first one
has thrown. -/
theorem fairMutex_thrown : FairMutex (System.mk
    (Function.update (Function.update (fun _ => none) () (some 0)) () (some 1))
    (Function.update (fun _ => false) 0 true)
    [⟨(), .withLock, none, .released true⟩, ⟨(), .acquire, some 0, .granted⟩] [0, 1]) := by
  have hrun : run step .init [.withLock (), .acquire (), .grant 0, .invoke 0, .finish 0 true,
      .grant 1] = some _ := rfl
  exact fairMutex hrun

end X402Facilitator.MemoryLock
