import X402Facilitator.Lock.Distributed

/-!
# One function at a time

The two locks exclude each other's holders only among themselves.  A function that runs under a
Redlock lock while the process degrades is not seen by those that come after the switch, and one
whose extension has failed goes on unless it heeds its signal.  Apart from that, functions for
one key run one at a time.
-/

namespace X402Facilitator.DistributedLock

open Execution

variable {Key : Type*} [DecidableEq Key]

section Statement

/-- The function of the call runs.  Of those whose signal has been aborted this holds where
`heedless` says so. -/
def Stage.runs (heedless : Bool) : Stage → Bool
  | .runningRedlock cancelled => heedless || !cancelled
  | .runningMemory _ => true
  | _ => false

/-- The place of a call in the lock of the process, which it waits for or holds. -/
def Stage.place : Stage → Option ℕ
  | .queued place | .runningMemory place => some place
  | _ => none

omit [DecidableEq Key] in
def HoldsLock (s : System Key) (id : ℕ) (key : Key) : Prop :=
  ∃ grant, s.locks key = some grant ∧ grant.holder = some id ∧ s.now < grant.expiresAt

/-- No two functions run for one key, each is invoked once, and a call that has ended
holds neither lock. -/
structure Serialised (heedless : Bool) (s : System Key) : Prop where
  exclusive : ∀ id id' call call', s.calls id = some call → s.calls id' = some call' →
    call.key = call'.key → call.stage.runs heedless = true → call'.stage.runs heedless = true →
      id = id'
  once : ∀ id call, s.calls id = some call → call.invoked ≤ 1
  leaves : ∀ (place : ℕ) (acquirer : MemoryLock.Acquirer Key),
    s.mutex.acquirers[place]? = some acquirer → acquirer.stage.isReleased = false →
      ∃ id call, s.calls id = some call ∧ call.key = acquirer.key ∧
        call.stage.place = some place
  released : ∀ id call key, s.calls id = some call → call.stage = .ended → ¬ HoldsLock s id key

def AlwaysSerialised (options : Options) (heedless : Bool)
    (meets : System Key → Action Key → Prop) : Prop :=
  ∀ s, Reaches (step options) meets .init s → Serialised heedless s

def Drained (heedless : Bool) (s : System Key) : Prop :=
  ∀ id call cancelled, s.calls id = some call → call.stage = .runningRedlock cancelled →
    call.stage.runs heedless = false

/-- The process degrades while no function runs under a Redlock lock, and none is granted one
from then on; an extension succeeds, or fails and aborts the signal, before the lock expires; a
release is not rejected before that; and no function throws a lock timeout of its own while no
node is reachable.  Where a function counts after it has been cancelled, it ends before the lock
expires and before the process degrades. -/
def SwitchesClean (heedless : Bool) (s : System Key) : Action Key → Prop
  | .granted _ _ => s.degraded = false
  | .rejected id reachable => ∀ call ∈ s.calls id, ∀ deadline, call.stage = .acquiring deadline →
      deadline ≤ s.now → reachable = false → Drained heedless s
  | .wait ms => ∀ id call, s.calls id = some call → call.stage.runs heedless = true →
      ∀ grant ∈ s.locks call.key, grant.holder = some id → s.now + ms < grant.expiresAt
  | .released id succeeds reachable => ∀ call ∈ s.calls id,
      (succeeds = true ∨ ¬ HoldsLock s id call.key) ∧
        (call.stage = .releasing .timedOut → reachable = true)
  | _ => True

end Statement

variable {options : Options} {heedless : Bool} {s s' : System Key} {action : Action Key} {id : ℕ}
variable {call found : Call Key} {key : Key}

def Stage.locking : Stage → Bool
  | .runningRedlock _ | .releasing _ => true
  | _ => false

def Stage.invocations : Stage → ℕ
  | .acquiring _ | .sleeping _ _ | .queued _ => 0
  | _ => 1

omit [DecidableEq Key] in
def Switched (options : Options) (s : System Key) : Prop :=
  options.urls = [] ∨ s.degraded = true

structure Placed (s : System Key) : Prop where
  mutex : Reaches MemoryLock.step anyStep .init s.mutex
  acquirer : ∀ id call place, s.calls id = some call → call.stage.place = some place →
    ∃ acquirer : MemoryLock.Acquirer Key, s.mutex.acquirers[place]? = some acquirer ∧
      acquirer.key = call.key ∧
        (call.stage = .runningMemory place → acquirer.stage = .running)
  alone : ∀ id id' call call' place, s.calls id = some call → s.calls id' = some call' →
    call.stage.place = some place → call'.stage.place = some place → id = id'
  owner : ∀ (place : ℕ) (acquirer : MemoryLock.Acquirer Key),
    s.mutex.acquirers[place]? = some acquirer → acquirer.stage.isReleased = false →
      ∃ id call, s.calls id = some call ∧ call.key = acquirer.key ∧
        call.stage.place = some place

structure Locked (options : Options) (heedless : Bool) (s : System Key) : Prop where
  held : ∀ id call cancelled, s.calls id = some call → call.stage = .runningRedlock cancelled →
    call.stage.runs heedless = true → HoldsLock s id call.key
  locking : ∀ id key, HoldsLock s id key → ∃ call, s.calls id = some call ∧ call.key = key ∧
    call.stage.locking = true
  joined : s.mutex.acquirers ≠ [] → Switched options s
  drained : Switched options s → Drained heedless s
  plain : options.urls = [] → ∀ id call, s.calls id = some call →
    call.stage.place.isSome = true ∨ call.stage = .ended
  invoked : ∀ id call, s.calls id = some call → call.invoked ≤ call.stage.invocations

section

omit [DecidableEq Key]

theorem HoldsLock.holder_unique {id' : ℕ} (hid : HoldsLock s id key) (hid' : HoldsLock s id' key) :
    id = id' := by
  obtain ⟨grant, hgrant, hholder, -⟩ := hid
  obtain ⟨grant', hgrant', hholder', -⟩ := hid'
  obtain rfl := Option.some.inj (hgrant.symm.trans hgrant')
  exact Option.some.inj (hholder.symm.trans hholder')

theorem HoldsLock.not_free (hid : HoldsLock s id key) : ¬ Free s.locks s.now key := by
  obtain ⟨grant, hgrant, -, hlive⟩ := hid
  intro hfree
  exact absurd (hfree grant hgrant) (Nat.not_le.mpr hlive)

theorem calls_setCall_cases {other : ℕ} (hfound : (s.setCall id call).calls other = some found) :
    (other = id ∧ found = call) ∨ (other ≠ id ∧ s.calls other = some found) := by
  rcases update_cases hfound with ⟨rfl, hcall⟩ | hrest
  · exact Or.inl ⟨rfl, (Option.some.inj hcall).symm⟩
  · exact Or.inr hrest

end

theorem Placed.sound (hs : Placed s) : MemoryLock.Sound s.mutex :=
  MemoryLock.sound_of_reaches hs.mutex

/-- A call moves on outside of the lock of the process. -/
theorem Placed.setCall (hs : Placed s) (hplace : call.stage.place = none)
    (hbefore : ∀ old, s.calls id = some old → old.stage.place = none) :
    Placed (s.setCall id call) where
  mutex := hs.mutex
  acquirer := by
    intro other found place hfound hat
    rcases calls_setCall_cases hfound with ⟨rfl, rfl⟩ | ⟨-, hold⟩
    · cases hplace.symm.trans hat
    · exact hs.acquirer other found place hold hat
  alone := by
    intro other other' found found' place hfound hfound' hat hat'
    rcases calls_setCall_cases hfound with ⟨rfl, rfl⟩ | ⟨-, hold⟩
    · cases hplace.symm.trans hat
    · rcases calls_setCall_cases hfound' with ⟨rfl, rfl⟩ | ⟨-, hold'⟩
      · cases hplace.symm.trans hat'
      · exact hs.alone other other' found found' place hold hold' hat hat'
  owner := by
    intro place acquirer hacquirer hreleased
    obtain ⟨other, found, hfound, hkey, hat⟩ := hs.owner place acquirer hacquirer hreleased
    have hne : other ≠ id := by
      rintro rfl
      cases (hbefore found hfound).symm.trans hat
    exact ⟨other, found, (Function.update_of_ne hne ..).trans hfound, hkey, hat⟩

/-- A call joins the lock of the process behind all others. -/
theorem Placed.acquireMemory (hs : Placed s)
    (hbefore : ∀ old, s.calls id = some old → old.stage.place = none) :
    Placed (s.acquireMemory id call) where
  mutex := by
    have hjoins : MemoryLock.step s.mutex (.withLock call.key) =
        some (s.mutex.acquire call.key .withLock) := rfl
    exact hs.mutex.tail trivial hjoins
  acquirer := by
    intro other found place hfound hat
    rcases calls_setCall_cases hfound with ⟨rfl, rfl⟩ | ⟨-, hold⟩
    · cases hat
      refine ⟨⟨call.key, .withLock, s.mutex.tails call.key, .waiting⟩, ?_, rfl, nofun⟩
      exact List.getElem?_concat_length
    · obtain ⟨acquirer, hacquirer, hkey, hrunning⟩ := hs.acquirer other found place hold hat
      exact ⟨acquirer, MemoryLock.getElem?_acquire_of_some hacquirer _ _, hkey, hrunning⟩
  alone := by
    -- the place of the new call is beyond those of the others
    have hfresh : ∀ other found, s.calls other = some found →
        found.stage.place ≠ some s.mutex.acquirers.length := by
      intro other found hfound hat
      obtain ⟨acquirer, hacquirer, -⟩ := hs.acquirer other found _ hfound hat
      exact absurd (List.getElem?_eq_some_iff.mp hacquirer).1 (Nat.lt_irrefl _)
    intro other other' found found' place hfound hfound' hat hat'
    rcases calls_setCall_cases hfound with ⟨rfl, rfl⟩ | ⟨-, hold⟩ <;>
      rcases calls_setCall_cases hfound' with ⟨rfl, rfl⟩ | ⟨-, hold'⟩
    · rfl
    · cases hat
      exact absurd hat' (hfresh other' found' hold')
    · cases hat'
      exact absurd hat (hfresh other found hold)
    · exact hs.alone other other' found found' place hold hold' hat hat'
  owner := by
    intro place acquirer hacquirer hreleased
    rcases MemoryLock.getElem?_acquire hacquirer with hold | ⟨rfl, rfl⟩
    · obtain ⟨other, found, hfound, hkey, hat⟩ := hs.owner place acquirer hold hreleased
      have hne : other ≠ id := by
        rintro rfl
        cases (hbefore found hfound).symm.trans hat
      exact ⟨other, found, (Function.update_of_ne hne ..).trans hfound, hkey, hat⟩
    · exact ⟨id, _, Function.update_self .., rfl, rfl⟩

/-- The call at a place moves on in the lock of the process, or leaves it. -/
theorem Placed.move (hs : Placed s) (hcall : s.calls id = some found) {place : ℕ}
    (hat : found.stage.place = some place) {mutex : MemoryLock.System Key}
    (hreach : Reaches MemoryLock.step anyStep .init mutex)
    {acquirer : MemoryLock.Acquirer Key} {stage : MemoryLock.Stage}
    (hacquirer : s.mutex.acquirers[place]? = some acquirer)
    (hmoved : mutex.acquirers = s.mutex.acquirers.set place { acquirer with stage := stage })
    (hkey : call.key = found.key)
    (hstays : call.stage.place = some place ∨ call.stage.place = none ∧ stage.isReleased = true)
    (hrunning : call.stage = .runningMemory place → stage = .running) :
    Placed { s.setCall id call with mutex := mutex } where
  mutex := hreach
  acquirer := by
    intro other found' place' hfound hat'
    rcases calls_setCall_cases hfound with ⟨rfl, rfl⟩ | ⟨hne, hold⟩
    · rcases hstays with hstays | ⟨hleaves, -⟩
      · obtain rfl := Option.some.inj (hstays.symm.trans hat')
        refine ⟨_, (MemoryLock.getElem?_moved hacquirer hmoved place).trans (if_pos rfl), ?_,
          hrunning⟩
        obtain ⟨acquirer', hacquirer', hkey', -⟩ := hs.acquirer other found place hcall hat
        obtain rfl := Option.some.inj (hacquirer.symm.trans hacquirer')
        exact hkey'.trans hkey.symm
      · cases hleaves.symm.trans hat'
    · have hplace : place' ≠ place := by
        rintro rfl
        exact hne (hs.alone other id found' found place' hold hcall hat' hat)
      obtain ⟨acquirer', hacquirer', hkey', hrunning'⟩ :=
        hs.acquirer other found' place' hold hat'
      refine ⟨acquirer', ?_, hkey', hrunning'⟩
      exact (MemoryLock.getElem?_moved hacquirer hmoved place').trans
        ((if_neg hplace).trans hacquirer')
  alone := by
    have hfresh : ∀ other found', other ≠ id → s.calls other = some found' →
        ∀ place', call.stage.place = some place' → found'.stage.place ≠ some place' := by
      intro other found' hne hfound place' hat' hother
      rcases hstays with hstays | ⟨hleaves, -⟩
      · obtain rfl := Option.some.inj (hstays.symm.trans hat')
        exact hne (hs.alone other id found' found place hfound hcall hother hat)
      · cases hleaves.symm.trans hat'
    intro other other' found₁ found₂ place' hfound hfound' hat₁ hat₂
    rcases calls_setCall_cases hfound with ⟨rfl, rfl⟩ | ⟨hne, hold⟩ <;>
      rcases calls_setCall_cases hfound' with ⟨rfl, rfl⟩ | ⟨hne', hold'⟩
    · rfl
    · exact absurd hat₂ (hfresh other' found₂ hne' hold' place' hat₁)
    · exact absurd hat₁ (hfresh other found₁ hne hold place' hat₂)
    · exact hs.alone other other' found₁ found₂ place' hold hold' hat₁ hat₂
  owner := by
    intro place' acquirer' hacquirer' hreleased
    rw [MemoryLock.getElem?_moved hacquirer hmoved] at hacquirer'
    split at hacquirer'
    · next hplace =>
        subst hplace
        obtain rfl := Option.some.inj hacquirer'
        rcases hstays with hstays | ⟨-, hleft⟩
        · obtain ⟨acquirer', hacquirer', hkey', -⟩ := hs.acquirer id found place' hcall hat
          obtain rfl := Option.some.inj (hacquirer.symm.trans hacquirer')
          exact ⟨id, call, Function.update_self .., hkey.trans hkey'.symm, hstays⟩
        · cases hleft.symm.trans hreleased
    · next hplace =>
        obtain ⟨other, found', hfound, hkey', hat'⟩ :=
          hs.owner place' acquirer' hacquirer' hreleased
        have hne : other ≠ id := by
          rintro rfl
          obtain rfl := Option.some.inj (hcall.symm.trans hfound)
          exact hplace (Option.some.inj (hat'.symm.trans hat))
        exact ⟨other, found', (Function.update_of_ne hne ..).trans hfound, hkey', hat'⟩

section

omit [DecidableEq Key]

/-- A call is new or moves on, and holds what its stage says. -/
theorem Locked.setCall (hs : Locked options heedless s)
    (hheld : ∀ cancelled, call.stage = .runningRedlock cancelled →
      call.stage.runs heedless = true → HoldsLock s id call.key ∧ ¬ Switched options s)
    (hlocking : ∀ key, HoldsLock s id key → call.key = key ∧ call.stage.locking = true)
    (hplain : options.urls = [] → call.stage.place.isSome = true ∨ call.stage = .ended)
    (hinvoked : call.invoked ≤ call.stage.invocations) :
    Locked options heedless (s.setCall id call) where
  held := by
    intro other found cancelled hfound hstage hruns
    rcases calls_setCall_cases hfound with ⟨rfl, rfl⟩ | ⟨-, hold⟩
    · exact (hheld cancelled hstage hruns).1
    · exact hs.held other found cancelled hold hstage hruns
  locking := by
    intro other key hholds
    by_cases hother : other = id
    · subst hother
      exact ⟨call, Function.update_self .., hlocking key hholds⟩
    · obtain ⟨found, hfound, hkey, hstage⟩ := hs.locking other key hholds
      exact ⟨found, (Function.update_of_ne hother ..).trans hfound, hkey, hstage⟩
  joined := hs.joined
  drained := by
    intro hswitched other found cancelled hfound hstage
    rcases calls_setCall_cases hfound with ⟨rfl, rfl⟩ | ⟨-, hold⟩
    · by_contra hruns
      rw [Bool.not_eq_false] at hruns
      exact (hheld cancelled hstage hruns).2 hswitched
    · exact hs.drained hswitched other found cancelled hold hstage
  plain := by
    intro hurls other found hfound
    rcases calls_setCall_cases hfound with ⟨rfl, rfl⟩ | ⟨-, hold⟩
    · exact hplain hurls
    · exact hs.plain hurls other found hold
  invoked := by
    intro other found hfound
    rcases calls_setCall_cases hfound with ⟨rfl, rfl⟩ | ⟨-, hold⟩
    · exact hinvoked
    · exact hs.invoked other found hold

/-- The lock of the process changes, and with it the mode of the distributed one. -/
theorem Locked.setMutex (hs : Locked options heedless s) {mutex : MemoryLock.System Key}
    {degraded : Bool}
    (hjoined : mutex.acquirers ≠ [] → options.urls = [] ∨ degraded = true)
    (hdrained : options.urls = [] ∨ degraded = true → Drained heedless s) :
    Locked options heedless { s with mutex := mutex, degraded := degraded } :=
  ⟨hs.held, hs.locking, hjoined, hdrained, hs.plain, hs.invoked⟩

/-- A call that has been granted nothing is not the holder of a lock. -/
theorem Locked.not_holds (hs : Locked options heedless s) (hcall : s.calls id = some call)
    (hlocking : call.stage.locking = false) : ¬ HoldsLock s id key := by
  intro hholds
  obtain ⟨found, hfound, -, hstage⟩ := hs.locking id key hholds
  obtain rfl := Option.some.inj (hcall.symm.trans hfound)
  cases hlocking.symm.trans hstage

theorem Locked.not_holds_new (hs : Locked options heedless s) (hnew : s.calls id = none) :
    ¬ HoldsLock s id key := by
  intro hholds
  obtain ⟨found, hfound, -⟩ := hs.locking id key hholds
  cases hnew.symm.trans hfound

/-- A call goes on that holds no lock and runs nothing. -/
theorem Locked.setIdle (hs : Locked options heedless s) (hnot : ∀ key, ¬ HoldsLock s id key)
    (hidle : call.stage.locking = false)
    (hplain : options.urls = [] → call.stage.place.isSome = true ∨ call.stage = .ended)
    (hinvoked : call.invoked ≤ call.stage.invocations) :
    Locked options heedless (s.setCall id call) := by
  refine hs.setCall (fun cancelled hstage => ?_) (fun key hholds => absurd hholds (hnot key))
    hplain hinvoked
  rw [hstage] at hidle
  cases hidle

end

/-- A lock changes that no running function relies on: whoever holds it afterwards has
held it before. -/
theorem Locked.setLock (hs : Locked options heedless s) {grant : Option Grant}
    (hunused : ∀ other found cancelled, s.calls other = some found → found.key = key →
      found.stage = .runningRedlock cancelled → found.stage.runs heedless = true →
      HoldsLock (s.setLock key grant) other key)
    (hholders : ∀ other, HoldsLock (s.setLock key grant) other key → HoldsLock s other key) :
    Locked options heedless (s.setLock key grant) where
  held := by
    intro other found cancelled hfound hstage hruns
    by_cases hkey : found.key = key
    · rw [hkey]
      exact hunused other found cancelled hfound hkey hstage hruns
    · obtain ⟨held, hheld, hholder, hlive⟩ := hs.held other found cancelled hfound hstage hruns
      exact ⟨held, (Function.update_of_ne hkey ..).trans hheld, hholder, hlive⟩
  locking := by
    intro other key' hholds
    by_cases hkey : key' = key
    · subst hkey
      exact hs.locking other key' (hholders other hholds)
    · obtain ⟨held, hheld, hholder, hlive⟩ := hholds
      exact hs.locking other key'
        ⟨held, (Function.update_of_ne hkey ..).symm.trans hheld, hholder, hlive⟩
  joined := hs.joined
  drained := hs.drained
  plain := hs.plain
  invoked := hs.invoked

/-- The lock of a key that no unexpired lock is held of is granted. -/
theorem Locked.grant (hs : Locked options heedless s) (hcall : s.calls id = some call)
    {deadline validity : ℕ} (hstage : call.stage = .acquiring deadline)
    (hfree : Free s.locks s.now call.key) (hvalid : 0 < validity)
    (hconnected : ¬ Switched options s) :
    Locked options heedless ((s.invoke id call (.runningRedlock false)).setLock call.key
      (some ⟨some id, s.now + validity⟩)) := by
  have hunheld : ∀ other, ¬ HoldsLock s other call.key := fun other hholds =>
    hholds.not_free hfree
  have hone := hs.invoked id call hcall
  rw [hstage] at hone
  constructor
  · intro other found cancelled hfound hredlock hruns
    rcases calls_setCall_cases hfound with ⟨rfl, rfl⟩ | ⟨-, hold⟩
    · exact ⟨_, Function.update_self .., rfl, Nat.lt_add_of_pos_right hvalid⟩
    · have hholds := hs.held other found cancelled hold hredlock hruns
      have hkey : found.key ≠ call.key := fun hkey => hunheld other (hkey ▸ hholds)
      obtain ⟨grant, hgrant, hholder, hlive⟩ := hholds
      exact ⟨grant, (Function.update_of_ne hkey ..).trans hgrant, hholder, hlive⟩
  · rintro other key ⟨grant, hgrant, hholder, hlive⟩
    change Function.update s.locks call.key _ key = some grant at hgrant
    by_cases hkey : key = call.key
    · subst hkey
      rw [Function.update_self] at hgrant
      cases hgrant
      obtain rfl := Option.some.inj hholder
      exact ⟨_, Function.update_self .., rfl, rfl⟩
    · rw [Function.update_of_ne hkey] at hgrant
      obtain ⟨found, hfound, hto, hlocking⟩ := hs.locking other key ⟨grant, hgrant, hholder, hlive⟩
      have hne : other ≠ id := by
        rintro rfl
        obtain rfl := Option.some.inj (hcall.symm.trans hfound)
        rw [hstage] at hlocking
        cases hlocking
      exact ⟨found, (Function.update_of_ne hne ..).trans hfound, hto, hlocking⟩
  · exact hs.joined
  · exact fun hswitched => absurd hswitched hconnected
  · exact fun hurls => absurd (.inl hurls) hconnected
  · intro other found hfound
    rcases calls_setCall_cases hfound with ⟨rfl, rfl⟩ | ⟨-, hold⟩
    · exact Nat.succ_le_succ hone
    · exact hs.invoked other found hold

/-- The holder of a lock has it extended. -/
theorem Locked.extend (hs : Locked options heedless s) (hholds : HoldsLock s id key)
    {validity : ℕ} (hvalid : 0 < validity) :
    Locked options heedless (s.setLock key (some ⟨some id, s.now + validity⟩)) := by
  have hself : HoldsLock (s.setLock key (some ⟨some id, s.now + validity⟩)) id key :=
    ⟨_, Function.update_self .., rfl, Nat.lt_add_of_pos_right hvalid⟩
  refine hs.setLock (fun other found cancelled hfound hkey hstage hruns => ?_) fun other hother => ?_
  · have hheld := hs.held other found cancelled hfound hstage hruns
    rw [hkey] at hheld
    rw [hheld.holder_unique hholds]
    exact hself
  · rw [hother.holder_unique hself]
    exact hholds

/-- `lock.release()` has been answered: the lock is no longer held, whether it has been
removed or has expired. -/
theorem Locked.release (hs : Locked options heedless s) (hcall : s.calls id = some call)
    {result : Result} (hstage : call.stage = .releasing result) {succeeds : Bool}
    (hfreed : succeeds = true ∨ ¬ HoldsLock s id call.key) {freed : System Key}
    (hfreeing : freed = if succeeds ∧ (s.locks call.key).bind Grant.holder = some id then
      s.setLock call.key none else s) : Locked options heedless (freed.setStage id call .ended) := by
  have hlocked : Locked options heedless freed := by
    rw [hfreeing]
    split
    · next hholder =>
        refine hs.setLock (fun other found cancelled hfound hkey hredlock hruns => ?_) ?_
        · obtain ⟨grant, hgrant, hheld, hlive⟩ :=
            hs.held other found cancelled hfound hredlock hruns
          rw [hkey] at hgrant
          rw [hgrant, Option.bind_some, hheld] at hholder
          obtain rfl := Option.some.inj hholder.2
          obtain rfl := Option.some.inj (hcall.symm.trans hfound)
          cases hstage.symm.trans hredlock
        · rintro other ⟨grant, hgrant, -⟩
          cases (Function.update_self (f := s.locks) ..).symm.trans hgrant
    · exact hs
  have hcall' : freed.calls id = some call := by
    rw [hfreeing]
    split <;> exact hcall
  have hnot : ∀ key, ¬ HoldsLock freed id key := by
    rintro key hholds
    obtain ⟨found, hfound, hkey, -⟩ := hlocked.locking id key hholds
    obtain rfl := Option.some.inj (hcall'.symm.trans hfound)
    subst hkey
    rw [hfreeing] at hholds
    split at hholds
    · obtain ⟨grant, hgrant, -⟩ := hholds
      cases (Function.update_self (f := s.locks) ..).symm.trans hgrant
    · next hnotFreed =>
        rcases hfreed with hsucceeds | hlost
        · obtain ⟨grant, hgrant, hholder, -⟩ := hholds
          refine hnotFreed ⟨hsucceeds, ?_⟩
          rw [hgrant, Option.bind_some, hholder]
        · exact hlost hholds
  have hone := hlocked.invoked id call hcall'
  rw [hstage] at hone
  exact hlocked.setIdle hnot rfl (fun _ => .inr rfl) hone

structure Sound (options : Options) (heedless : Bool) (s : System Key) : Prop where
  placed : Placed s
  locked : Locked options heedless s

theorem Placed.setLock (hs : Placed s) (grant : Option Grant) : Placed (s.setLock key grant) :=
  ⟨hs.mutex, hs.acquirer, hs.alone, hs.owner⟩

/-- A call that holds nothing turns to the lock of the process, which may be in use already or
come into use because the process degrades. -/
theorem Sound.acquireMemory (hs : Sound options heedless s)
    (hplace : ∀ old, s.calls id = some old → old.stage.place = none)
    (hnot : ∀ key, ¬ HoldsLock s id key) {degraded : Bool}
    (hswitched : options.urls = [] ∨ degraded = true) (hdrained : Drained heedless s)
    (hinvoked : call.invoked = 0) :
    Sound options heedless { s.acquireMemory id call with degraded := degraded } := by
  have hplaced : Placed (s.acquireMemory id call) := hs.placed.acquireMemory hplace
  refine ⟨⟨hplaced.mutex, hplaced.acquirer, hplaced.alone, hplaced.owner⟩, ?_⟩
  have hlocked : Locked options heedless
      { s with mutex := s.mutex.acquire call.key .withLock, degraded := degraded } :=
    hs.locked.setMutex (fun _ => hswitched) fun _ => hdrained
  exact hlocked.setIdle hnot rfl (fun _ => .inl rfl) (Nat.le_of_eq hinvoked)

/-- A call moves on outside of the lock of the process and holds no lock. -/
theorem Sound.setIdle (hs : Sound options heedless s) (hplace : call.stage.place = none)
    (hbefore : ∀ old, s.calls id = some old → old.stage.place = none)
    (hnot : ∀ key, ¬ HoldsLock s id key) (hidle : call.stage.locking = false)
    (hplain : options.urls = [] → call.stage = .ended)
    (hinvoked : call.invoked ≤ call.stage.invocations) :
    Sound options heedless (s.setCall id call) :=
  ⟨hs.placed.setCall hplace hbefore,
    hs.locked.setIdle hnot hidle (fun hurls => .inr (hplain hurls)) hinvoked⟩

/-- A call that is neither at a place nor over has gone to Redis. -/
theorem Sound.urls_ne_nil (hs : Sound options heedless s) (hcall : s.calls id = some call)
    (hplace : call.stage.place = none) (hended : call.stage ≠ .ended) : options.urls ≠ [] := by
  intro hurls
  rcases hs.locked.plain hurls id call hcall with hat | hover
  · rw [hplace] at hat
    cases hat
  · exact hended hover

omit [DecidableEq Key] in
theorem place_of_calls {place : Option ℕ} (hcall : s.calls id = some call)
    (hplace : call.stage.place = place) :
    ∀ old, s.calls id = some old → old.stage.place = place := by
  intro old hold
  obtain rfl := Option.some.inj (hcall.symm.trans hold)
  exact hplace

/-- The catch block. -/
theorem Sound.timedOut (hs : Sound options heedless s) (hcall : s.calls id = some call)
    (hplace : call.stage.place = none) (hlocking : call.stage.locking = false)
    (hinvoked : call.invoked = 0) {reachable : Bool}
    (hdrained : reachable = false → Drained heedless s) :
    Sound options heedless (s.timedOut id call reachable) := by
  have hnot : ∀ key, ¬ HoldsLock s id key := fun _ => hs.locked.not_holds hcall hlocking
  have hbefore := place_of_calls hcall hplace
  rw [System.timedOut]
  split
  · exact hs.setIdle rfl hbefore hnot rfl (fun _ => rfl) (hinvoked.trans_le (Nat.zero_le _))
  · next hunreachable =>
      exact hs.acquireMemory hbefore hnot (.inr rfl)
        (hdrained (Bool.eq_false_of_not_eq_true hunreachable)) hinvoked

/-- The call at a place moves on. -/
theorem Sound.move (hs : Sound options heedless s) (hcall : s.calls id = some found) {place : ℕ}
    (hat : found.stage.place = some place) {mutex : MemoryLock.System Key}
    {turn : MemoryLock.Action Key} (hturn : MemoryLock.step s.mutex turn = some mutex)
    {acquirer : MemoryLock.Acquirer Key} {stage : MemoryLock.Stage}
    (hacquirer : s.mutex.acquirers[place]? = some acquirer)
    (hmoved : mutex.acquirers = s.mutex.acquirers.set place { acquirer with stage := stage })
    (hkey : call.key = found.key)
    (hstays : call.stage.place = some place ∨ call.stage = .ended ∧ stage.isReleased = true)
    (hrunning : call.stage = .runningMemory place → stage = .running)
    (hinvoked : call.invoked ≤ call.stage.invocations) :
    Sound options heedless { s.setCall id call with mutex := mutex } := by
  have hreach := hs.placed.mutex.tail trivial hturn
  have hidle : ∀ stage : Stage, stage.place.isSome = true → stage.locking = false := by
    intro stage hsome
    cases stage <;> first | rfl | cases hsome
  have hnot : ∀ key, ¬ HoldsLock s id key :=
    fun _ => hs.locked.not_holds hcall (hidle found.stage (by rw [hat]; rfl))
  have hjoined : Switched options s := by
    refine hs.locked.joined fun hnil => ?_
    rw [hnil] at hacquirer
    cases hacquirer
  constructor
  · refine hs.placed.move hcall hat hreach hacquirer hmoved hkey ?_ hrunning
    exact hstays.imp_right fun hleaves => ⟨by rw [hleaves.1]; rfl, hleaves.2⟩
  · have hlocked : Locked options heedless { s with mutex := mutex } :=
      hs.locked.setMutex (fun _ => hjoined) fun hswitched => hs.locked.drained hswitched
    refine hlocked.setIdle hnot ?_ (fun _ => ?_) hinvoked
    · rcases hstays with hstays | ⟨hleaves, -⟩
      · exact hidle call.stage (by rw [hstays]; rfl)
      · rw [hleaves]
        rfl
    · rcases hstays with hstays | ⟨hleaves, -⟩
      · exact .inl (by rw [hstays]; rfl)
      · exact .inr hleaves

/-- A call outside of the lock of the process that is not over. -/
theorem Sound.outside (hs : Sound options heedless s) (hcall : s.calls id = some call)
    {stage : Stage} (hstage : call.stage = stage) (hplace : stage.place = none)
    (hgoes : stage ≠ .ended) :
    (∀ old, s.calls id = some old → old.stage.place = none) ∧ options.urls ≠ [] ∧
      call.invoked ≤ stage.invocations := by
  subst hstage
  exact ⟨place_of_calls hcall hplace, hs.urls_ne_nil hcall hplace hgoes,
    hs.locked.invoked id call hcall⟩

/-- A call goes on and keeps the lock that it may hold. -/
theorem Sound.keep (hs : Sound options heedless s) (hcall : s.calls id = some call)
    {cancelled : Bool} (hstage : call.stage = .runningRedlock cancelled) {next : Stage}
    (hnext : next.place = none) (hlocking : next.locking = true) (hone : next.invocations = 1)
    (hruns : ∀ cancelled', next = .runningRedlock cancelled' → next.runs heedless = true →
      call.stage.runs heedless = true) :
    Sound options heedless (s.setStage id call next) := by
  obtain ⟨hbefore, hurls, hinvoked⟩ := hs.outside hcall hstage rfl fun h => by cases h
  refine ⟨hs.placed.setCall hnext hbefore, hs.locked.setCall ?_ ?_
    (fun hempty => absurd hempty hurls) (hinvoked.trans_eq hone.symm)⟩
  · intro cancelled' hredlock hnextRuns
    have hrunning := hruns cancelled' hredlock hnextRuns
    refine ⟨hs.locked.held id call cancelled hcall hstage hrunning, fun hswitched => ?_⟩
    cases hrunning.symm.trans (hs.locked.drained hswitched id call cancelled hcall hstage)
  · intro key hholds
    obtain ⟨found, hfound, hkey, -⟩ := hs.locked.locking id key hholds
    obtain rfl := Option.some.inj (hcall.symm.trans hfound)
    exact ⟨hkey, hlocking⟩

theorem Sound.withLock (hs : Sound options heedless s)
    (hstep : step options s (.withLock id key) = some s') : Sound options heedless s' := by
  simp only [step] at hstep
  split at hstep
  · cases hstep
  · next hnew =>
      have hbefore : ∀ old, s.calls id = some old → old.stage.place = none := by
        intro old hold
        cases hnew.symm.trans hold
      have hnot : ∀ key, ¬ HoldsLock s id key := fun _ => hs.locked.not_holds_new hnew
      split at hstep
      · next hswitched =>
          cases hstep
          exact hs.acquireMemory hbefore hnot hswitched (hs.locked.drained hswitched) rfl
      · next hconnected =>
          cases hstep
          exact hs.setIdle rfl hbefore hnot rfl
            (fun hurls => absurd (.inl hurls) hconnected) (Nat.zero_le _)

theorem Sound.granted (hs : Sound options heedless s) {validity : ℕ} (hconnected : s.degraded = false)
    (hstep : step options s (.granted id validity) = some s') : Sound options heedless s' := by
  simp only [step] at hstep
  split at hstep
  · next call hcall =>
      split at hstep
      · next deadline hstage =>
          obtain ⟨hgrants, hsame⟩ := Option.ite_none_right_eq_some.mp hstep
          cases hsame
          obtain ⟨hbefore, hurls, -⟩ := hs.outside hcall hstage rfl fun h => by cases h
          have hnot : ¬ Switched options s := by
            rintro (hempty | hdegraded)
            · exact hurls hempty
            · cases hconnected.symm.trans hdegraded
          refine ⟨?_, hs.locked.grant hcall hstage hgrants.1 hgrants.2.1 hnot⟩
          have hplaced : Placed (s.invoke id call (.runningRedlock false)) :=
            hs.placed.setCall rfl hbefore
          exact hplaced.setLock _
      · cases hstep
  · cases hstep

theorem Sound.rejected (hs : Sound options heedless s) {reachable : Bool}
    (hdrained : ∀ call ∈ s.calls id, ∀ deadline, call.stage = .acquiring deadline →
      deadline ≤ s.now → reachable = false → Drained heedless s)
    (hstep : step options s (.rejected id reachable) = some s') : Sound options heedless s' := by
  simp only [step] at hstep
  split at hstep
  · next call hcall =>
      split at hstep
      · next deadline hstage =>
          obtain ⟨hbefore, hurls, hnone⟩ := hs.outside hcall hstage rfl fun h => by cases h
          have hlocking : call.stage.locking = false := by rw [hstage]; rfl
          split at hstep
          · next hdeadline =>
              cases hstep
              exact hs.timedOut hcall (hbefore call hcall) hlocking (Nat.le_zero.mp hnone)
                (hdrained call hcall deadline hstage hdeadline)
          · cases hstep
            exact hs.setIdle rfl hbefore (fun _ => hs.locked.not_holds hcall hlocking) rfl
              (fun hempty => absurd hempty hurls) hnone
      · cases hstep
  · cases hstep

theorem Sound.retries (hs : Sound options heedless s)
    (hstep : step options s (.retries id) = some s') : Sound options heedless s' := by
  simp only [step] at hstep
  split at hstep
  · next call hcall =>
      split at hstep
      · next hstage =>
          obtain ⟨-, hsame⟩ := Option.ite_none_right_eq_some.mp hstep
          cases hsame
          obtain ⟨hbefore, hurls, hnone⟩ := hs.outside hcall hstage rfl fun h => by cases h
          exact hs.setIdle rfl hbefore
            (fun _ => hs.locked.not_holds hcall (by rw [hstage]; rfl)) rfl
            (fun hempty => absurd hempty hurls) hnone
      · cases hstep
  · cases hstep

theorem Sound.reached (hs : Sound options heedless s)
    (hstep : step options s (.reached id) = some s') : Sound options heedless s' := by
  simp only [step] at hstep
  split at hstep
  · next call hcall =>
      split at hstep
      · next place hstage =>
          obtain ⟨mutex, hturn, rfl⟩ := Option.map_eq_some_iff.mp hstep
          obtain ⟨acquirer, hacquirer, hthen⟩ := Option.bind_eq_some_iff.mp hturn
          obtain ⟨-, hsame⟩ := Option.ite_none_right_eq_some.mp hthen
          cases hsame
          have hat : call.stage.place = some place := by rw [hstage]; rfl
          have hmoved : Sound options heedless { s.setCall id call with mutex := _ } :=
            hs.move hcall hat hturn hacquirer rfl rfl (.inl hat) (by rw [hstage]; intro h; cases h)
              (hs.locked.invoked id call hcall)
          have hself : Function.update s.calls id (some call) = s.calls := by
            rw [← hcall, Function.update_eq_self]
          rw [System.setCall, hself] at hmoved
          exact hmoved
      · cases hstep
  · cases hstep

theorem Sound.entered (hs : Sound options heedless s)
    (hstep : step options s (.entered id) = some s') : Sound options heedless s' := by
  simp only [step] at hstep
  split at hstep
  · next call hcall =>
      split at hstep
      · next place hstage =>
          obtain ⟨mutex, hturn, rfl⟩ := Option.map_eq_some_iff.mp hstep
          obtain ⟨acquirer, hacquirer, hthen⟩ := Option.bind_eq_some_iff.mp hturn
          obtain ⟨-, hsame⟩ := Option.ite_none_right_eq_some.mp hthen
          cases hsame
          have hnone := hs.locked.invoked id call hcall
          rw [hstage] at hnone
          exact hs.move hcall (by rw [hstage]; rfl) hturn hacquirer rfl rfl (.inl rfl)
            (fun _ => rfl) (Nat.succ_le_succ hnone)
      · cases hstep
  · cases hstep

theorem Sound.extended (hs : Sound options heedless s) {validity : Option ℕ}
    (hstep : step options s (.extended id validity) = some s') : Sound options heedless s' := by
  simp only [step] at hstep
  split at hstep
  · next call hcall =>
      split at hstep
      · next cancelled hstage =>
          split at hstep
          · next validity =>
              obtain ⟨⟨hlive, hholder, hvalid, -⟩, hsame⟩ := Option.ite_none_right_eq_some.mp hstep
              cases hsame
              obtain ⟨grant, hgrant, hheld⟩ := Option.bind_eq_some_iff.mp hholder
              have hholds : HoldsLock s id call.key := by
                refine ⟨grant, hgrant, hheld, Nat.not_le.mp fun hexpired => hlive ?_⟩
                intro other hother
                obtain rfl := Option.some.inj (hgrant.symm.trans hother)
                exact hexpired
              exact ⟨hs.placed.setLock _, hs.locked.extend hholds hvalid⟩
          · cases hstep
            refine hs.keep hcall hstage rfl rfl rfl fun cancelled' _ hruns => ?_
            -- a function that counts after its signal has been aborted did so before
            have hheedless : heedless = true := by simpa [Stage.runs] using hruns
            rw [hstage, Stage.runs, hheedless, Bool.true_or]
      · cases hstep
  · cases hstep

theorem Sound.finishes (hs : Sound options heedless s) {result : Result}
    (hstep : step options s (.finishes id result) = some s') : Sound options heedless s' := by
  simp only [step] at hstep
  split at hstep
  · next call hcall =>
      split at hstep
      · next cancelled hstage =>
          cases hstep
          exact hs.keep hcall hstage rfl rfl rfl fun _ h => by cases h
      · next place hstage =>
          obtain ⟨mutex, hturn, rfl⟩ := Option.map_eq_some_iff.mp hstep
          obtain ⟨acquirer, hacquirer, hthen⟩ := Option.bind_eq_some_iff.mp hturn
          obtain ⟨-, hsame⟩ := Option.ite_none_right_eq_some.mp hthen
          cases hsame
          have hone := hs.locked.invoked id call hcall
          rw [hstage] at hone
          exact hs.move hcall (by rw [hstage]; rfl) hturn hacquirer rfl rfl
            (.inr ⟨rfl, rfl⟩) (fun h => by cases h) hone
      · cases hstep
  · cases hstep

theorem Sound.released (hs : Sound options heedless s) {succeeds reachable : Bool}
    (hfreed : ∀ call ∈ s.calls id, (succeeds = true ∨ ¬ HoldsLock s id call.key) ∧
      (call.stage = .releasing .timedOut → reachable = true))
    (hstep : step options s (.released id succeeds reachable) = some s') :
    Sound options heedless s' := by
  simp only [step] at hstep
  split at hstep
  · next call hcall =>
      split at hstep
      · next result hstage =>
          obtain ⟨hfreed, hown⟩ := hfreed call hcall
          obtain ⟨hbefore, -⟩ := hs.outside hcall hstage rfl fun h => by cases h
          have hreleased := hs.locked.release hcall hstage hfreed rfl
          have hplaced : Placed ((if succeeds = true ∧
              (s.locks call.key).bind Grant.holder = some id then
                s.setLock call.key none else s).setStage id call .ended) := by
            split
            · exact (hs.placed.setLock none).setCall rfl hbefore
            · exact hs.placed.setCall rfl hbefore
          split at hstep
          · cases hstep
            rw [System.timedOut, if_pos (hown hstage)]
            exact ⟨hplaced, hreleased⟩
          · cases hstep
            exact ⟨hplaced, hreleased⟩
      · cases hstep
  · cases hstep

theorem Sound.takenElsewhere (hs : Sound options heedless s) {validity : ℕ}
    (hstep : step options s (.takenElsewhere key validity) = some s') :
    Sound options heedless s' := by
  obtain ⟨hfree, hsame⟩ := Option.ite_none_right_eq_some.mp hstep
  cases hsame
  refine ⟨hs.placed.setLock _,
    hs.locked.setLock (fun other found cancelled hfound hkey hredlock hruns => ?_) ?_⟩
  · have hholds := hs.locked.held other found cancelled hfound hredlock hruns
    exact absurd hfree (hkey ▸ hholds).not_free
  · rintro other ⟨grant, hgrant, hholder, -⟩
    obtain rfl := Option.some.inj ((Function.update_self (f := s.locks) ..).symm.trans hgrant)
    cases hholder

/-- Time goes on, but not beyond the lock of a function that runs. -/
theorem Sound.wait (hs : Sound options heedless s) {ms : ℕ}
    (hlive : ∀ id call, s.calls id = some call → call.stage.runs heedless = true →
      ∀ grant ∈ s.locks call.key, grant.holder = some id → s.now + ms < grant.expiresAt) :
    Sound options heedless { s with now := s.now + ms } := by
  have hheld : ∀ other key, HoldsLock { s with now := s.now + ms } other key →
      HoldsLock s other key := by
    rintro other key ⟨grant, hgrant, hholder, hlive⟩
    exact ⟨grant, hgrant, hholder, Nat.lt_of_le_of_lt (Nat.le_add_right _ _) hlive⟩
  refine ⟨⟨hs.placed.mutex, hs.placed.acquirer, hs.placed.alone, hs.placed.owner⟩, ?_,
    fun other key hholds => hs.locked.locking other key (hheld other key hholds),
    hs.locked.joined, hs.locked.drained, hs.locked.plain, hs.locked.invoked⟩
  intro other found cancelled hfound hstage hruns
  obtain ⟨grant, hgrant, hholder, -⟩ := hs.locked.held other found cancelled hfound hstage hruns
  exact ⟨grant, hgrant, hholder, hlive other found hfound hruns grant hgrant hholder⟩

theorem sound_step (hs : Sound options heedless s) (hmeets : SwitchesClean heedless s action)
    (hstep : step options s action = some s') : Sound options heedless s' := by
  cases action with
  | withLock id key => exact hs.withLock hstep
  | granted id validity => exact hs.granted hmeets hstep
  | rejected id reachable => exact hs.rejected hmeets hstep
  | retries id => exact hs.retries hstep
  | reached id => exact hs.reached hstep
  | entered id => exact hs.entered hstep
  | extended id validity => exact hs.extended hstep
  | finishes id result => exact hs.finishes hstep
  | released id succeeds reachable => exact hs.released hmeets hstep
  | takenElsewhere key validity => exact hs.takenElsewhere hstep
  | wait ms =>
      cases hstep
      exact hs.wait hmeets

theorem sound_init : Sound options heedless (System.init : System Key) where
  placed :=
    { mutex := .refl _
      acquirer := fun _ _ _ hcall => by cases hcall
      alone := fun _ _ _ _ _ hcall => by cases hcall
      owner := fun _ _ hacquirer => by cases hacquirer }
  locked :=
    { held := fun _ _ _ hcall => by cases hcall
      locking := by
        rintro id key ⟨grant, hgrant, -⟩
        cases hgrant
      joined := fun hjoined => absurd rfl hjoined
      drained := fun _ _ _ _ hcall => by cases hcall
      plain := fun _ _ _ hcall => by cases hcall
      invoked := fun _ _ hcall => by cases hcall }

/-- A function runs under one of the two locks. -/
theorem runs_cases {stage : Stage} (hruns : stage.runs heedless = true) :
    (∃ cancelled, stage = .runningRedlock cancelled) ∨ ∃ place, stage = .runningMemory place := by
  cases stage with
  | runningRedlock cancelled => exact .inl ⟨cancelled, rfl⟩
  | runningMemory place => exact .inr ⟨place, rfl⟩
  | acquiring | sleeping | queued | releasing | ended => cases hruns

/-- Once a function has run under the lock of the process, none runs under a Redlock lock. -/
theorem Sound.not_apart (hs : Sound options heedless s) {place : ℕ} {cancelled : Bool}
    (hcall : s.calls id = some call) (hmemory : call.stage = .runningMemory place) {other : ℕ}
    (hfound : s.calls other = some found) (hredlock : found.stage = .runningRedlock cancelled) :
    found.stage.runs heedless = false := by
  obtain ⟨acquirer, hacquirer, -⟩ :=
    hs.placed.acquirer id call place hcall (by rw [hmemory]; rfl)
  have hswitched : Switched options s := by
    refine hs.locked.joined fun hnil => ?_
    rw [hnil] at hacquirer
    cases hacquirer
  exact hs.locked.drained hswitched other found cancelled hfound hredlock

theorem Sound.serialised (hs : Sound options heedless s) : Serialised heedless s where
  exclusive := by
    intro id id' call call' hcall hcall' hkey hruns hruns'
    rcases runs_cases hruns with ⟨cancelled, hstage⟩ | ⟨place, hstage⟩ <;>
      rcases runs_cases hruns' with ⟨cancelled', hstage'⟩ | ⟨place', hstage'⟩
    · have hheld := hs.locked.held id call cancelled hcall hstage hruns
      have hheld' := hs.locked.held id' call' cancelled' hcall' hstage' hruns'
      rw [← hkey] at hheld'
      exact hheld.holder_unique hheld'
    · cases hruns.symm.trans (hs.not_apart hcall' hstage' hcall hstage)
    · cases hruns'.symm.trans (hs.not_apart hcall hstage hcall' hstage')
    · -- the lock of the process excludes its holders
      have hat : call.stage.place = some place := by rw [hstage]; rfl
      have hat' : call'.stage.place = some place' := by rw [hstage']; rfl
      obtain ⟨acquirer, hacquirer, hto, hrunning⟩ :=
        hs.placed.acquirer id call place hcall hat
      obtain ⟨acquirer', hacquirer', hto', hrunning'⟩ :=
        hs.placed.acquirer id' call' place' hcall' hat'
      obtain rfl := hs.placed.sound.exclusive hacquirer hacquirer'
        ((hto.trans hkey).trans hto'.symm) (.inr (hrunning hstage)) (.inr (hrunning' hstage'))
      exact hs.placed.alone id id' call call' place hcall hcall' hat hat'
  once := by
    intro id call hcall
    refine Nat.le_trans (hs.locked.invoked id call hcall) ?_
    cases call.stage <;> simp [Stage.invocations]
  leaves := hs.placed.owner
  released := by
    intro id call key hcall hended
    exact hs.locked.not_holds hcall (by rw [hended]; rfl)

/-- Where the process degrades while nothing runs under a Redlock lock, and the locks in Redis
outlive their functions, the functions for a key run one at a time, each once, and every lock is
released.  Where functions that have been cancelled are left out of the condition, they are
cancelled before another one runs. -/
theorem alwaysSerialised_switchesClean (options : Options) (heedless : Bool) :
    AlwaysSerialised options heedless
      (SwitchesClean heedless : System Key → Action Key → Prop) := by
  intro s hreach
  have hs : Sound options heedless s :=
    hreach.preserves (fun _ _ _ hs hmeets hstep => sound_step hs hmeets hstep) sound_init
  exact hs.serialised

def threeNodes : Options where
  nodes := ["redis://a", "redis://b", "redis://c"]
  ttlMs := 30000
  acquireTimeoutMs := 15000
  retryDelayMs := 200

def degrades : List (Action Unit) :=
  [.withLock 0 (), .granted 0 30000, .withLock 1 (), .wait 15000, .rejected 1 false,
    .reached 1, .entered 1]

/-- After the switch to the lock of the process a second function runs beside the first one,
which has not been cancelled. -/
theorem not_alwaysSerialised_anyStep :
    ¬ ∀ options, AlwaysSerialised options false
      (anyStep : System Unit → Action Unit → Prop) := by
  intro hserialised
  have hrun : (run (step threeNodes) .init degrades).map (fun s =>
      ((s.calls 0).map Call.stage, (s.calls 1).map Call.stage)) =
      some (some (.runningRedlock false), some (.runningMemory 0)) := by decide
  obtain ⟨s, hreach, hstages⟩ := exists_reaches_of_run hrun
  simp only [Prod.mk.injEq] at hstages
  obtain ⟨call, hcall, hstage⟩ := Option.map_eq_some_iff.mp hstages.1
  obtain ⟨call', hcall', hstage'⟩ := Option.map_eq_some_iff.mp hstages.2
  have hsame := (hserialised threeNodes s hreach).exclusive 0 1 call call' hcall hcall' rfl
    (by rw [hstage]; rfl) (by rw [hstage']; rfl)
  cases hsame

end X402Facilitator.DistributedLock
