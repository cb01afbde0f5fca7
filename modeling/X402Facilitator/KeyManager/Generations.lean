import X402Facilitator.Library.Execution
import Mathlib.Data.Int.Notation
import Mathlib.Data.List.Nodup

/-!
# Generations of signing keys

A key manager keeps the keys of its source in generations.  The last one installed is
current; an older one stays while it is leased, and for a grace period after it has
been retired.
-/

namespace X402Facilitator.KeyManager

open Execution

/-- An entry of the key source, a bare secret being one without a kid.  A secret that is
no string counts as absent, and so does what is falsy. -/
structure KeySource where
  secret : Option String
  kid : Option String

structure Key where
  kid : String
  secret : String
  deriving DecidableEq, Repr

/-- Keys as `normaliseKeys` returns them. -/
structure Keys where
  keys : List Key
  nonempty : keys ≠ []
  kidsNodup : (keys.map Key.kid).Nodup

/-- The functions of the libraries, and the options of the constructor. -/
structure Options (Signer : Type*) where
  network : String
  keyId : String → String
  isValidSecretSeed : String → Bool
  createSigner : String → String → Signer
  hasSource : Bool
  retirementGraceMs : ℤ

variable {Signer : Type*}

def notAnArray : String := "Key source must return a non-empty keys array."

def invalidSecret : String := "Key source returned an invalid Stellar secret key."

def duplicateKid (kid : String) : String := "Key source returned duplicate kid: " ++ kid

/-- The entries of a list, after the kids that have been seen. -/
def normaliseEntries (options : Options Signer) (seen : List String) :
    List KeySource → Except String (List Key)
  | [] => .ok []
  | entry :: rest =>
      match entry.secret with
      | none => .error invalidSecret
      | some secret =>
          if options.isValidSecretSeed secret then
            let kid := entry.kid.getD (options.keyId secret)
            if kid ∈ seen then .error (duplicateKid kid)
            else (normaliseEntries options (kid :: seen) rest).map (⟨kid, secret⟩ :: ·)
          else .error invalidSecret

variable {options : Options Signer}

theorem normaliseEntries_spec {seen : List String} {entries : List KeySource} {keys : List Key}
    (hkeys : normaliseEntries options seen entries = .ok keys) :
    keys.length = entries.length ∧ (keys.map Key.kid).Nodup ∧ ∀ key ∈ keys, key.kid ∉ seen := by
  induction entries generalizing seen keys with
  | nil =>
      cases hkeys
      exact ⟨rfl, List.nodup_nil, fun _ hkey => by cases hkey⟩
  | cons entry rest ih =>
      rw [normaliseEntries] at hkeys
      split at hkeys
      · cases hkeys
      · next secret _ =>
          split at hkeys
          · simp only at hkeys
            split at hkeys
            · cases hkeys
            · next hfresh =>
                cases hrest : normaliseEntries options
                    (entry.kid.getD (options.keyId secret) :: seen) rest with
                | error message =>
                    rw [hrest] at hkeys
                    cases hkeys
                | ok others =>
                    rw [hrest] at hkeys
                    cases hkeys
                    obtain ⟨hlength, hnodup, hothers⟩ := ih hrest
                    refine ⟨congrArg (· + 1) hlength, ?_, ?_⟩
                    · rw [List.map_cons, List.nodup_cons]
                      refine ⟨fun hmem => ?_, hnodup⟩
                      obtain ⟨key, hkey, hsame⟩ := List.mem_map.mp hmem
                      exact hothers key hkey (hsame ▸ List.mem_cons_self)
                    · intro key hkey
                      rcases List.mem_cons.mp hkey with rfl | hother
                      · exact hfresh
                      · exact fun hseen => hothers key hother (List.mem_cons_of_mem _ hseen)
          · cases hkeys

/-- `normaliseKeys`; none is what is no array. -/
def normaliseKeys (options : Options Signer) : Option (List KeySource) → Except String Keys
  | none | some [] => .error notAnArray
  | some (entry :: rest) =>
      match hkeys : normaliseEntries options [] (entry :: rest) with
      | .error message => .error message
      | .ok keys => .ok
          { keys := keys
            nonempty := by
              intro hempty
              rw [hempty] at hkeys
              cases (normaliseEntries_spec hkeys).1
            kidsNodup := (normaliseEntries_spec hkeys).2.1 }

structure Entry (Signer : Type*) where
  kid : String
  secret : String
  signer : Signer
  leases : ℕ

structure Generation (Signer : Type*) where
  number : ℕ
  entries : List (Entry Signer)
  retiredAt : Option ℤ

/-- A snapshot that has been taken, and whether its release has been called. -/
structure Lease where
  generation : ℕ
  released : Bool

/-- What a refresh is waiting for: its keys, or `onRefresh`. -/
inductive Phase where
  | loading
  | installed (keys : Keys)

/-- Generations are found by their numbers.  Callers of a refresh that is under way share
its promise. -/
structure System (Signer : Type*) where
  now : ℤ
  generations : List (Generation Signer)
  currentGeneration : ℕ
  refreshPromise : Option Phase
  leases : List Lease

def Entry.changeLeases (change : ℕ → ℕ) (entry : Entry Signer) : Entry Signer :=
  { entry with leases := change entry.leases }

def Generation.changeLeases (change : ℕ → ℕ) (generation : Generation Signer) :
    Generation Signer :=
  { generation with entries := generation.entries.map (Entry.changeLeases change) }

def newEntry (options : Options Signer) (key : Key) : Entry Signer :=
  ⟨key.kid, key.secret, options.createSigner key.secret options.network, 0⟩

/-- A generation that is not current is retired, once.  A time of zero counts as none. -/
def Generation.retire (current : ℕ) (now : ℤ) (generation : Generation Signer) :
    Generation Signer :=
  if generation.number ≠ current ∧ generation.retiredAt.getD 0 = 0 then
    { generation with retiredAt := some now }
  else generation

namespace System

/-- The condition under which `_purgeRetired` deletes a generation. -/
def purges (options : Options Signer) (s : System Signer) (generation : Generation Signer) : Bool :=
  decide (generation.number ≠ s.currentGeneration) &&
    decide (generation.retiredAt.getD 0 + options.retirementGraceMs ≤ s.now) &&
    generation.entries.all fun entry => entry.leases = 0

def purgeRetired (options : Options Signer) (s : System Signer) : System Signer :=
  { s with generations := s.generations.filter fun generation => !s.purges options generation }

def install (options : Options Signer) (s : System Signer) (keys : Keys) : System Signer :=
  let generation := s.currentGeneration + 1
  let added : Generation Signer := ⟨generation, keys.keys.map (newEntry options), none⟩
  purgeRetired options { s with
    currentGeneration := generation
    generations := (s.generations ++ [added]).map (Generation.retire generation s.now) }

def getCurrent (s : System Signer) : Option (Generation Signer) :=
  s.generations.find? fun generation => generation.number = s.currentGeneration

def changeLeases (s : System Signer) (number : ℕ) (change : ℕ → ℕ) : System Signer :=
  { s with generations := s.generations.map fun generation =>
      if generation.number = number then generation.changeLeases change else generation }

def snapshot (s : System Signer) : System Signer :=
  { s.changeLeases s.currentGeneration (· + 1) with
    leases := s.leases ++ [⟨s.currentGeneration, false⟩] }

/-- A call of the release of a snapshot, the first one or another. -/
def release (options : Options Signer) (s : System Signer) (id : ℕ) (lease : Lease) :
    System Signer :=
  purgeRetired options { s.changeLeases lease.generation (· - 1) with
    leases := s.leases.set id { lease with released := true } }

/-- Whether a list names the kids of the current generation. -/
def sameKids (s : System Signer) (keys : Keys) : Bool :=
  match s.getCurrent with
  | none => false
  | some current => decide (keys.keys.length = current.entries.length) &&
      keys.keys.all fun key => current.entries.any fun entry => entry.kid = key.kid

/-- What the source has answered arrives; `onRefresh` is called after an installation. -/
def receive (options : Options Signer) (s : System Signer)
    (answer : Except String (Option (List KeySource))) : System Signer :=
  match answer.bind (normaliseKeys options) with
  | .error _ => { s with refreshPromise := none }
  | .ok keys =>
      if s.sameKids keys then { s with refreshPromise := none }
      else { s.install options keys with refreshPromise := some (.installed keys) }

end System

/-- The manager that has been built with the keys of its configuration. -/
def System.init (options : Options Signer) (now : ℤ) (keys : Keys) : System Signer :=
  System.install options ⟨now, [], 0, none, []⟩ keys

/-- `refreshed` is the end of `onRefresh`, `purge` a timer, and `tick` a reading of the
clock. -/
inductive Action where
  | refresh
  | loads (answer : Except String (Option (List KeySource)))
  | refreshed (succeeds : Bool)
  | snapshot
  | release (id : ℕ)
  | purge
  | tick (now : ℤ)

def step (options : Options Signer) (s : System Signer) : Action → Option (System Signer)
  | .refresh =>
      match s.refreshPromise with
      | some _ => some s
      | none => some (if options.hasSource then { s with refreshPromise := some .loading } else s)
  | .loads answer =>
      match s.refreshPromise with
      | some .loading => some (s.receive options answer)
      | _ => none
  | .refreshed _ =>
      match s.refreshPromise with
      | some (.installed _) => some { s with refreshPromise := none }
      | _ => none
  | .snapshot => some s.snapshot
  | .release id =>
      match s.leases[id]? with
      | some lease => some (s.release options id lease)
      | none => none
  | .purge => some (s.purgeRetired options)
  | .tick now => some { s with now := now }

section Steps

variable {options : Options Signer} {s s' : System Signer} {action : Action}

inductive Steps (options : Options Signer) (s : System Signer) : Action → System Signer → Prop where
  | joins : Steps options s .refresh s
  | refresh (hnone : s.refreshPromise = none) (hsource : options.hasSource = true) :
      Steps options s .refresh { s with refreshPromise := some .loading }
  | loads (answer : Except String (Option (List KeySource)))
      (hphase : s.refreshPromise = some .loading) :
      Steps options s (.loads answer) (s.receive options answer)
  | refreshed (succeeds : Bool) (keys : Keys) (hphase : s.refreshPromise = some (.installed keys)) :
      Steps options s (.refreshed succeeds) { s with refreshPromise := none }
  | snapshot : Steps options s .snapshot s.snapshot
  | release (id : ℕ) (lease : Lease) (hlease : s.leases[id]? = some lease) :
      Steps options s (.release id) (s.release options id lease)
  | purge : Steps options s .purge (s.purgeRetired options)
  | tick (now : ℤ) : Steps options s (.tick now) { s with now := now }

theorem steps_of_step (hstep : step options s action = some s') : Steps options s action s' := by
  cases action with
  | refresh =>
      simp only [step] at hstep
      split at hstep
      · cases hstep
        exact .joins
      · next hnone =>
          cases hstep
          split
          · next hsource => exact .refresh hnone hsource
          · exact .joins
  | loads answer =>
      simp only [step] at hstep
      split at hstep
      · next hphase =>
          cases hstep
          exact .loads answer hphase
      · cases hstep
  | refreshed succeeds =>
      simp only [step] at hstep
      split at hstep
      · next keys hphase =>
          cases hstep
          exact .refreshed succeeds keys hphase
      · cases hstep
  | snapshot =>
      cases hstep
      exact .snapshot
  | release id =>
      simp only [step] at hstep
      split at hstep
      · next lease hlease =>
          cases hstep
          exact .release id lease hlease
      · cases hstep
  | purge =>
      cases hstep
      exact .purge
  | tick now =>
      cases hstep
      exact .tick now

end Steps

end X402Facilitator.KeyManager
