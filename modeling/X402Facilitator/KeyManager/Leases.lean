import X402Facilitator.KeyManager.Refreshes
import Mathlib.Data.List.Basic

/-!
# Leases of generations

An entry counts the snapshots it is in, but a release is not tied to its snapshot: called
again, it takes the lease of another one.  The snapshots of the facilitator are never
released.
-/

namespace X402Facilitator.KeyManager

open Execution

variable {Signer : Type*}

/-- What the facilitator registers a scheme with, of one network. -/
structure Registering (Registry : Type*) where
  empty : Registry
  register : Registry → String → ℕ → Registry
  isRegistered : Registry → ℕ → Bool
  hasPact : Bool

/-- `retired` has every generation that has been replaced, with the time. -/
structure Facilitator (Signer Registry : Type*) where
  manager : System Signer
  registry : Registry
  retired : List (ℕ × ℤ)

section Statement

variable {Registry : Type*} (options : Options Signer) (registering : Registering Registry)

/-- The schemes with the signers of a snapshot are registered. -/
def Registering.registerSchemes (registry : Registry) (generation : ℕ) : Registry :=
  let registered := registering.register registry "exact" generation
  if registering.hasPact then registering.register registered "pact" generation else registered

/-- `buildFacilitator`, of one network. -/
def buildFacilitator (now : ℤ) (keys : Keys) : Facilitator Signer Registry :=
  let manager : System Signer := .init options now keys
  { manager := manager.snapshot
    registry := registering.registerSchemes registering.empty manager.currentGeneration
    retired := [] }

/-- The keys of the source arrive; the schemes are built again after an installation. -/
def Facilitator.receive (f : Facilitator Signer Registry) (manager : System Signer) :
    Facilitator Signer Registry :=
  match manager.refreshPromise with
  | some (.installed _) =>
      { manager := manager.snapshot
        registry := registering.registerSchemes f.registry manager.currentGeneration
        retired := f.retired ++ [(f.manager.currentGeneration, f.manager.now)] }
  | _ => { f with manager := manager }

/-- Nobody but the facilitator takes snapshots, and it does not release them. -/
def Facilitator.step (f : Facilitator Signer Registry) :
    Action → Option (Facilitator Signer Registry)
  | .snapshot | .release _ => none
  | .loads answer =>
      (KeyManager.step options f.manager (.loads answer)).map (f.receive registering)
  | action => (KeyManager.step options f.manager action).map ({ f with manager := · })

def System.numbers (s : System Signer) : List ℕ := s.generations.map Generation.number

/-- The generation of a snapshot that has not been released stays, and so does the
current one. -/
def LeasesKept (meets : System Signer → Action → Prop) : Prop :=
  ∀ (now : ℤ) (initial : Keys) (s : System Signer),
    Reaches (step options) meets (.init options now initial) s →
      (∀ lease ∈ s.leases, lease.released = false → lease.generation ∈ s.numbers) ∧
        s.currentGeneration ∈ s.numbers

/-- A release is called again only while no snapshot of its generation is held. -/
def ReleasedOnce (s : System Signer) : Action → Prop
  | .release id => ∀ lease ∈ s.leases[id]?, lease.released = true →
      ∀ other ∈ s.leases, other.generation = lease.generation → other.released = true
  | _ => True

/-- Exactly in the states in which `holds`, a purge removes every generation that has
been retired for the grace period and whose signers are no longer registered. -/
def SecretsDropped (holds : Facilitator Signer Registry → Prop) : Prop :=
  ∀ (now : ℤ) (initial : Keys) (f : Facilitator Signer Registry),
    Reaches (Facilitator.step options registering) anyStep
        (buildFacilitator options registering now initial) f →
      ((∀ retired ∈ f.retired, registering.isRegistered f.registry retired.1 = false →
          retired.2 + options.retirementGraceMs ≤ f.manager.now →
            retired.1 ∉ (f.manager.purgeRetired options).numbers) ↔ holds f)

/-- Every generation that has been retired is still registered or in its grace period. -/
def NothingToDrop (f : Facilitator Signer Registry) : Prop :=
  ∀ retired ∈ f.retired, registering.isRegistered f.registry retired.1 = true ∨
    f.manager.now < retired.2 + options.retirementGraceMs

end Statement

variable {options : Options Signer} {s s' : System Signer} {action : Action} {keys : Keys}

def outstanding (leases : List Lease) (number : ℕ) : ℕ :=
  leases.countP fun lease => !lease.released && decide (lease.generation = number)

variable {lease : Lease} {leases : List Lease} {number id : ℕ} {now : ℤ} {initial : Keys}
  {manager : System Signer}

theorem outstanding_pos (hlease : lease ∈ leases) (hheld : lease.released = false) :
    0 < outstanding leases lease.generation := by
  refine List.countP_pos_iff.mpr ⟨lease, hlease, ?_⟩
  rw [hheld]
  exact decide_eq_true rfl

theorem outstanding_eq_zero
    (hnone : ∀ lease ∈ leases, lease.generation = number → lease.released = true) :
    outstanding leases number = 0 := by
  refine List.countP_eq_zero.mpr fun lease hlease hheld => ?_
  obtain ⟨hreleased, hnumber⟩ := Bool.and_eq_true_iff.mp hheld
  rw [hnone lease hlease (of_decide_eq_true hnumber)] at hreleased
  cases hreleased

structure Counted (s : System Signer) : Prop where
  nonempty : ∀ generation ∈ s.generations, generation.entries ≠ []
  counted : ∀ generation ∈ s.generations, ∀ entry ∈ generation.entries,
    entry.leases = outstanding s.leases generation.number
  held : ∀ lease ∈ s.leases, lease.released = false → lease.generation ∈ s.numbers
  taken : ∀ lease ∈ s.leases, lease.generation ≤ s.currentGeneration

/-- A generation that is held is not purged. -/
theorem Counted.purgeRetired (hs : Counted s) : Counted (s.purgeRetired options) where
  nonempty := fun generation hkept => hs.nonempty generation (List.mem_filter.mp hkept).1
  counted := fun generation hkept => hs.counted generation (List.mem_filter.mp hkept).1
  taken := hs.taken
  held := by
    intro lease hlease hheld
    obtain ⟨generation, hgeneration, hnumber⟩ := List.mem_map.mp (hs.held lease hlease hheld)
    refine List.mem_map.mpr ⟨generation, List.mem_filter.mpr ⟨hgeneration, ?_⟩, hnumber⟩
    obtain ⟨entry, hentry⟩ := List.exists_mem_of_ne_nil _ (hs.nonempty generation hgeneration)
    have hleased : entry.leases ≠ 0 := by
      rw [hs.counted generation hgeneration entry hentry, hnumber]
      exact Nat.pos_iff_ne_zero.mp (outstanding_pos hlease hheld)
    have hall : generation.entries.all (fun entry => decide (entry.leases = 0)) = false :=
      List.all_eq_false.mpr ⟨entry, hentry, by simpa using hleased⟩
    rw [System.purges, hall, Bool.and_false]
    rfl

theorem entries_retire (current : ℕ) (now : ℤ) (generation : Generation Signer) :
    (generation.retire current now).entries = generation.entries := by
  rw [Generation.retire]
  split <;> rfl

theorem Counted.install (hs : Counted s) (options : Options Signer) (keys : Keys) :
    Counted (s.install options keys) := by
  refine Counted.purgeRetired ⟨?_, ?_, ?_, ?_⟩
  · intro generation hgeneration
    obtain ⟨before, hbefore, rfl⟩ := List.mem_map.mp hgeneration
    rw [entries_retire]
    rcases List.mem_append.mp hbefore with hold | hnew
    · exact hs.nonempty before hold
    · rw [List.mem_singleton.mp hnew]
      exact fun hempty => keys.nonempty (List.map_eq_nil_iff.mp hempty)
  · intro generation hgeneration entry hentry
    obtain ⟨before, hbefore, rfl⟩ := List.mem_map.mp hgeneration
    rw [entries_retire] at hentry
    rw [number_retire]
    rcases List.mem_append.mp hbefore with hold | hnew
    · exact hs.counted before hold entry hentry
    · obtain rfl := List.mem_singleton.mp hnew
      obtain ⟨key, -, rfl⟩ := List.mem_map.mp hentry
      refine (outstanding_eq_zero fun lease hlease hnumber => ?_).symm
      -- no snapshot has been taken of a generation that comes
      have hle := hs.taken lease hlease
      change lease.generation = s.currentGeneration + 1 at hnumber
      omega
  · intro lease hlease hheld
    change lease.generation ∈ List.map Generation.number (List.map _ _)
    rw [map_number (number_retire _ _), List.map_append]
    exact List.mem_append_left _ (hs.held lease hlease hheld)
  · exact fun lease hlease => Nat.le_succ_of_le (hs.taken lease hlease)

theorem numbers_changeLeases (s : System Signer) (number : ℕ) (change : ℕ → ℕ) :
    (s.changeLeases number change).numbers = s.numbers := by
  refine map_number (fun generation => ?_) s.generations
  split <;> rfl

/-- The leases of a generation change as the snapshots of it that are held. -/
theorem Counted.changeLeases (hs : Counted s) {change : ℕ → ℕ}
    (hsame : outstanding leases number = change (outstanding s.leases number))
    (hothers : ∀ other, other ≠ number → outstanding leases other = outstanding s.leases other)
    (hheld : ∀ lease ∈ leases, lease.released = false → lease.generation ∈ s.numbers)
    (htaken : ∀ lease ∈ leases, lease.generation ≤ s.currentGeneration) :
    Counted { s.changeLeases number change with leases := leases } where
  nonempty := by
    intro generation hgeneration
    obtain ⟨before, hbefore, rfl⟩ := List.mem_map.mp hgeneration
    have hnonempty := hs.nonempty before hbefore
    split
    · exact fun hempty => hnonempty (List.map_eq_nil_iff.mp hempty)
    · exact hnonempty
  counted := by
    intro generation hgeneration entry hentry
    obtain ⟨before, hbefore, rfl⟩ := List.mem_map.mp hgeneration
    by_cases hnumber : before.number = number
    · rw [if_pos hnumber] at hentry ⊢
      obtain ⟨old, hold, rfl⟩ := List.mem_map.mp hentry
      change change old.leases = outstanding leases before.number
      rw [hs.counted before hbefore old hold, hnumber, hsame]
    · rw [if_neg hnumber] at hentry ⊢
      rw [hs.counted before hbefore entry hentry]
      exact (hothers before.number hnumber).symm
  held := by
    intro lease hlease hunreleased
    change lease.generation ∈ (s.changeLeases number change).numbers
    rw [numbers_changeLeases]
    exact hheld lease hlease hunreleased
  taken := htaken

theorem Counted.snapshot (hs : Counted s) (hcurrent : s.currentGeneration ∈ s.numbers) :
    Counted s.snapshot := by
  refine hs.changeLeases ?_ ?_ ?_ ?_
  · rw [outstanding, outstanding, List.countP_append]
    simp
  · intro other hother
    rw [outstanding, outstanding, List.countP_append]
    simp [hother.symm]
  · intro lease hlease hheld
    rcases List.mem_append.mp hlease with hold | hnew
    · exact hs.held lease hold hheld
    · rw [List.mem_singleton.mp hnew]
      exact hcurrent
  · intro lease hlease
    rcases List.mem_append.mp hlease with hold | hnew
    · exact hs.taken lease hold
    · cases List.mem_singleton.mp hnew
      exact Nat.le_refl _

theorem outstanding_set (hlease : leases[id]? = some lease) (hheld : lease.released = false)
    (number : ℕ) : outstanding (leases.set id { lease with released := true }) number =
      outstanding leases number - if lease.generation = number then 1 else 0 := by
  obtain ⟨hid, rfl⟩ := List.getElem?_eq_some_iff.mp hlease
  rw [outstanding, outstanding, List.countP_set hid]
  simp [hheld]

theorem set_of_released (hlease : leases[id]? = some lease) (hreleased : lease.released = true) :
    leases.set id { lease with released := true } = leases := by
  obtain ⟨hid, rfl⟩ := List.getElem?_eq_some_iff.mp hlease
  rw [← hreleased]
  exact List.set_getElem_self hid

/-- The first release of a snapshot gives its lease back, and another one has none to take. -/
theorem Counted.release (hs : Counted s) (hlease : s.leases[id]? = some lease)
    (hguard : ReleasedOnce s (.release id)) : Counted (s.release options id lease) := by
  have hmem := List.mem_of_getElem? hlease
  refine Counted.purgeRetired (hs.changeLeases ?_ ?_ ?_ ?_)
  · cases hreleased : lease.released with
    | false =>
        rw [outstanding_set hlease hreleased, if_pos rfl]
    | true =>
        have hnone := outstanding_eq_zero (hguard lease hlease hreleased)
        rw [set_of_released hlease hreleased, hnone]
  · intro other hother
    cases hreleased : lease.released with
    | false => rw [outstanding_set hlease hreleased, if_neg (Ne.symm hother), Nat.sub_zero]
    | true => rw [set_of_released hlease hreleased]
  · intro other hother hheld
    rcases List.mem_or_eq_of_mem_set hother with hold | rfl
    · exact hs.held other hold hheld
    · cases hheld
  · intro other hother
    rcases List.mem_or_eq_of_mem_set hother with hold | rfl
    · exact hs.taken other hold
    · exact hs.taken lease hmem

theorem Counted.congr (hs : Counted s) {phase : Option Phase} :
    Counted { s with refreshPromise := phase, now := now } :=
  ⟨hs.nonempty, hs.counted, hs.held, hs.taken⟩

theorem Counted.receive (hs : Counted s) (answer : Except String (Option (List KeySource))) :
    Counted (s.receive options answer) := by
  rw [System.receive]
  split
  · exact hs.congr
  · split
    · exact hs.congr
    · exact (hs.install options _).congr

theorem counted_step (hsound : Sound options s) (hs : Counted s) (hguard : ReleasedOnce s action)
    (hstep : step options s action = some s') : Counted s' := by
  cases steps_of_step hstep with
  | joins => exact hs
  | refresh => exact hs.congr
  | loads answer => exact hs.receive answer
  | refreshed => exact hs.congr
  | snapshot => exact hs.snapshot hsound.current
  | release id lease hlease => exact hs.release hlease hguard
  | purge => exact hs.purgeRetired
  | tick now => exact hs.congr

theorem counted_init (options : Options Signer) (now : ℤ) (keys : Keys) :
    Counted (.init options now keys) := by
  have hempty : Counted (⟨now, [], 0, none, []⟩ : System Signer) :=
    ⟨List.forall_mem_nil _, List.forall_mem_nil _, List.forall_mem_nil _, List.forall_mem_nil _⟩
  exact hempty.install options keys

theorem counted_reached (hreach : Reaches (step options) ReleasedOnce (.init options now initial) s) :
    Sound options s ∧ Counted s := by
  have hstart : Sound options (.init options now initial) ∧ Counted (.init options now initial) :=
    ⟨sound_init now initial, counted_init options now initial⟩
  induction hreach with
  | refl => exact hstart
  | tail _ hlast ih =>
      obtain ⟨action, hguard, hstep⟩ := hlast
      exact ⟨sound_step ih.1 hstep, counted_step ih.1 ih.2 hguard hstep⟩

variable {Registry : Type*} {registering : Registering Registry}
variable {f f' : Facilitator Signer Registry}

/-- The manager of a facilitator has run, every generation is held by a snapshot of the
facilitator, and those that have been retired came before the current one. -/
structure Holds (options : Options Signer) (now : ℤ) (initial : Keys)
    (f : Facilitator Signer Registry) : Prop where
  reached : Reaches (step options) ReleasedOnce (.init options now initial) f.manager
  positive : 1 ≤ f.manager.currentGeneration
  unreleased : ∀ lease ∈ f.manager.leases, lease.released = false
  snapshots : ∀ number, 1 ≤ number → number ≤ f.manager.currentGeneration →
    ∃ lease ∈ f.manager.leases, lease.generation = number
  retired : ∀ retired ∈ f.retired, 1 ≤ retired.1 ∧ retired.1 ≤ f.manager.currentGeneration

theorem receive_cases (options : Options Signer) (s : System Signer)
    (answer : Except String (Option (List KeySource))) :
    s.receive options answer = { s with refreshPromise := none } ∨
      ∃ keys, s.receive options answer =
        { s.install options keys with refreshPromise := some (.installed keys) } := by
  rw [System.receive]
  split
  · exact .inl rfl
  · split
    · exact .inl rfl
    · exact .inr ⟨_, rfl⟩

/-- A snapshot of the generation that has come holds it. -/
theorem Holds.snapshot {registry : Registry} {retired : List (ℕ × ℤ)}
    (hreach : Reaches (step options) ReleasedOnce (.init options now initial) manager)
    (hpositive : 1 ≤ manager.currentGeneration)
    (hunreleased : ∀ lease ∈ manager.leases, lease.released = false)
    (hsnapshots : ∀ number, 1 ≤ number → number < manager.currentGeneration →
      ∃ lease ∈ manager.leases, lease.generation = number)
    (hretired : ∀ entry ∈ retired, 1 ≤ entry.1 ∧ entry.1 ≤ manager.currentGeneration) :
    Holds options now initial ⟨manager.snapshot, registry, retired⟩ where
  reached := hreach.tail (show ReleasedOnce manager .snapshot from trivial) rfl
  positive := hpositive
  unreleased := by
    intro lease hlease
    rcases List.mem_append.mp hlease with hold | hnew
    · exact hunreleased lease hold
    · rw [List.mem_singleton.mp hnew]
  snapshots := by
    intro number hpos hle
    rcases Nat.lt_or_eq_of_le hle with hlt | rfl
    · obtain ⟨lease, hlease, hnumber⟩ := hsnapshots number hpos hlt
      exact ⟨lease, List.mem_append_left _ hlease, hnumber⟩
    · exact ⟨_, List.mem_append_right _ List.mem_cons_self, rfl⟩
  retired := hretired

theorem holds_build (options : Options Signer) (registering : Registering Registry) (now : ℤ)
    (initial : Keys) :
    Holds options now initial (buildFacilitator options registering now initial) := by
  refine Holds.snapshot (Reaches.refl _) (Nat.le_refl 1) (List.forall_mem_nil _) ?_
    (List.forall_mem_nil _)
  intro number hpos hlt
  change number < 1 at hlt
  omega

def Action.manages : Action → Bool
  | .refresh | .refreshed _ | .purge | .tick _ => true
  | .loads _ | .snapshot | .release _ => false

theorem step_of_manages (hmanages : action.manages = true) :
    f.step options registering action =
      (step options f.manager action).map ({ f with manager := · }) := by
  cases action with
  | loads answer | snapshot | release id => cases hmanages
  | refresh | refreshed succeeds | purge | tick time => rfl

theorem manages_keeps (hmanages : action.manages = true)
    (hstep : step options s action = some s') :
    ReleasedOnce s action ∧ s'.leases = s.leases ∧ s'.currentGeneration = s.currentGeneration := by
  cases steps_of_step hstep with
  | loads | snapshot | release => cases hmanages
  | joins | refresh | refreshed | purge | tick => exact ⟨trivial, rfl, rfl⟩

theorem Holds.keep (hf : Holds options now initial f) (hguard : ReleasedOnce f.manager action)
    (hstep : step options f.manager action = some manager)
    (hleases : manager.leases = f.manager.leases)
    (hcurrent : manager.currentGeneration = f.manager.currentGeneration) :
    Holds options now initial { f with manager := manager } where
  reached := hf.reached.tail hguard hstep
  positive := hcurrent ▸ hf.positive
  unreleased := hleases ▸ hf.unreleased
  snapshots := by
    rw [hleases, hcurrent]
    exact hf.snapshots
  retired := by
    rw [hcurrent]
    exact hf.retired

theorem Holds.receive (hf : Holds options now initial f)
    {answer : Except String (Option (List KeySource))}
    (hstep : step options f.manager (.loads answer) = some manager) :
    Holds options now initial (f.receive registering manager) := by
  have hguard : ReleasedOnce f.manager (.loads answer) := trivial
  have hmanager := step_loads hstep
  rcases receive_cases options f.manager answer with hkept | ⟨keys, hinstalled⟩
  · rw [hkept] at hmanager
    subst hmanager
    exact hf.keep hguard hstep rfl rfl
  · rw [hinstalled] at hmanager
    subst hmanager
    refine Holds.snapshot (hf.reached.tail hguard hstep) (Nat.le_succ_of_le hf.positive)
      hf.unreleased ?_ ?_
    · intro number hpos hlt
      exact hf.snapshots number hpos (Nat.le_of_lt_succ hlt)
    · intro entry hentry
      rcases List.mem_append.mp hentry with hold | hnew
      · obtain ⟨hpos, hle⟩ := hf.retired entry hold
        exact ⟨hpos, Nat.le_succ_of_le hle⟩
      · rw [List.mem_singleton.mp hnew]
        exact ⟨hf.positive, Nat.le_succ _⟩

theorem holds_step (hf : Holds options now initial f)
    (hstep : f.step options registering action = some f') : Holds options now initial f' := by
  cases hmanages : action.manages with
  | true =>
      rw [step_of_manages hmanages] at hstep
      obtain ⟨manager, hmanager, rfl⟩ := Option.map_eq_some_iff.mp hstep
      obtain ⟨hguard, hleases, hcurrent⟩ := manages_keeps hmanages hmanager
      exact hf.keep hguard hmanager hleases hcurrent
  | false =>
      cases action with
      | refresh | refreshed succeeds | purge | tick time => cases hmanages
      | snapshot | release id => cases hstep
      | loads answer =>
          obtain ⟨manager, hmanager, rfl⟩ := Option.map_eq_some_iff.mp hstep
          exact hf.receive hmanager

theorem holds_reached (hreach : Reaches (Facilitator.step options registering) anyStep
      (buildFacilitator options registering now initial) f) : Holds options now initial f :=
  hreach.preserves (fun _ _ _ hf _ hstep => holds_step hf hstep)
    (holds_build options registering now initial)

theorem leasesKept_releasedOnce (options : Options Signer) : LeasesKept options ReleasedOnce := by
  intro now initial s hreach
  obtain ⟨hsound, hcounted⟩ := counted_reached hreach
  exact ⟨hcounted.held, hsound.current⟩

/-- A purge leaves a facilitator every generation it has had. -/
theorem Holds.kept (hf : Holds options now initial f) (hpos : 1 ≤ number)
    (hle : number ≤ f.manager.currentGeneration) :
    number ∈ (f.manager.purgeRetired options).numbers := by
  have hreach : Reaches (step options) ReleasedOnce (.init options now initial)
      (f.manager.purgeRetired options) :=
    hf.reached.tail (show ReleasedOnce f.manager .purge from trivial) rfl
  obtain ⟨lease, hlease, rfl⟩ := hf.snapshots number hpos hle
  exact (leasesKept_releasedOnce options now initial _ hreach).1 lease hlease
    (hf.unreleased lease hlease)

theorem secretsDropped_nothingToDrop (options : Options Signer)
    (registering : Registering Registry) :
    SecretsDropped options registering (NothingToDrop options registering) := by
  intro now initial f hreach
  have hf := holds_reached hreach
  constructor
  · intro hdropped retired hretired
    obtain ⟨hpos, hle⟩ := hf.retired retired hretired
    by_contra hnothing
    rw [not_or, Bool.not_eq_true, Int.not_lt] at hnothing
    exact hdropped retired hretired hnothing.1 hnothing.2 (hf.kept hpos hle)
  · intro hnothing retired hretired hunregistered hgrace
    rcases hnothing retired hretired with hregistered | hearly
    · rw [hunregistered] at hregistered
      cases hregistered
    · omega

/-- A generation is kept while a snapshot of it is held, as long as no release is called
again; in a facilitator nothing is ever purged. -/
theorem leaseLaw (options : Options Signer) (registering : Registering Registry) :
    LeasesKept options ReleasedOnce ∧
      SecretsDropped options registering (NothingToDrop options registering) :=
  ⟨leasesKept_releasedOnce options, secretsDropped_nothingToDrop options registering⟩

def another : Except String (Option (List KeySource)) := .ok (some [⟨some "second", none⟩])

def releasedTwice : List Action :=
  [.snapshot, .snapshot, .refresh, .loads another, .tick 60001, .release 0, .release 0]

/-- A facilitator in which a scheme takes the place of the one that was registered. -/
def replacing : Registering ℕ := ⟨0, fun _ _ generation => generation, Nat.beq, false⟩

def rotatedKeys : List Action := [.refresh, .loads another, .tick 60001]

theorem not_leasesKept_releasedTwice : ¬ LeasesKept anySecret anyStep := by
  intro hkept
  have hrun : (run (step anySecret) (.init anySecret 1 (keysOf "first")) releasedTwice).map
      (fun s => (s.leases.map fun lease => (lease.generation, lease.released), s.numbers)) =
        some ([(1, true), (1, false)], [2]) := by
    decide
  obtain ⟨s, hreach, hobserved⟩ := exists_reaches_of_run hrun
  obtain ⟨hleases, hnumbers⟩ := Prod.mk.inj hobserved
  have hmem : (1, false) ∈ s.leases.map fun lease => (lease.generation, lease.released) := by
    rw [hleases]
    decide
  obtain ⟨lease, hlease, hpair⟩ := List.mem_map.mp hmem
  obtain ⟨hgeneration, hheld⟩ := Prod.mk.inj hpair
  have hin := (hkept 1 (keysOf "first") s hreach).1 lease hlease hheld
  rw [hgeneration, hnumbers] at hin
  exact absurd hin (by decide)

theorem not_secretsDropped_rotatedKeys :
    ¬ SecretsDropped anySecret replacing fun _ => True := by
  intro hdropped
  have hrun : (run (Facilitator.step anySecret replacing)
      (buildFacilitator anySecret replacing 1 (keysOf "first")) rotatedKeys).map
      (fun f => (f.retired, f.registry, f.manager.now,
        (f.manager.purgeRetired anySecret).numbers)) = some ([(1, 1)], 2, 60001, [1, 2]) := by
    decide
  obtain ⟨f, hreach, hobserved⟩ := exists_reaches_of_run hrun
  simp only [Prod.mk.injEq] at hobserved
  obtain ⟨hretired, hregistry, hnow, hnumbers⟩ := hobserved
  refine (hdropped 1 (keysOf "first") f hreach).mpr trivial (1, 1) ?_ ?_ ?_ ?_
  · rw [hretired]
    exact List.mem_cons_self
  · rw [hregistry]
    rfl
  · rw [hnow]
    decide
  · rw [hnumbers]
    decide

/-- Neither half of the law holds of every run. -/
theorem not_leaseLaw_always :
    ¬ LeasesKept anySecret anyStep ∧ ¬ SecretsDropped anySecret replacing fun _ => True :=
  ⟨not_leasesKept_releasedTwice, not_secretsDropped_rotatedKeys⟩

end X402Facilitator.KeyManager
