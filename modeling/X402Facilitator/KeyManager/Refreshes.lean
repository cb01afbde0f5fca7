import X402Facilitator.KeyManager.Generations
import Mathlib.Data.List.Perm.Subperm

/-!
# Refreshes of the keys

A refresh installs what it has loaded unless the kids are those of the current
generation.  The secrets under the kids are not compared.
-/

namespace X402Facilitator.KeyManager

open Execution

variable {Signer : Type*}

section Statement

variable (options : Options Signer)

def Entry.key (entry : Entry Signer) : Key := ⟨entry.kid, entry.secret⟩

/-- The current generation maps kids to secrets as the keys do, and each of its signers
is made of the secret it stands for. -/
structure TakesEffect (s : System Signer) (keys : Keys) : Prop where
  sameKeys : ∃ current, s.getCurrent = some current ∧
    ∀ key, key ∈ current.entries.map Entry.key ↔ key ∈ keys.keys
  signers : ∀ current ∈ s.getCurrent, ∀ entry ∈ current.entries,
    entry.signer = options.createSigner entry.secret options.network

/-- The action with which a refresh resolves, and the keys it has loaded. -/
inductive Resolves (s : System Signer) : Action → Keys → Prop where
  | unchanged {answer : Except String (Option (List KeySource))} {keys : Keys}
      (hanswer : answer.bind (normaliseKeys options) = .ok keys)
      (hsame : s.sameKids keys = true) : Resolves s (.loads answer) keys
  | installed {keys : Keys} (hphase : s.refreshPromise = some (.installed keys)) :
      Resolves s (.refreshed true) keys

/-- From every state reached, a refresh that resolves has taken effect exactly when
`holds` of the state and its keys, and one that has failed has changed nothing. -/
def RefreshLaw (holds : System Signer → Keys → Prop) : Prop :=
  ∀ (now : ℤ) (initial : Keys) (s : System Signer),
    Reaches (step options) anyStep (.init options now initial) s →
      (∀ action s' keys, step options s action = some s' → Resolves options s action keys →
        (TakesEffect options s' keys ↔ holds s keys)) ∧
      ∀ answer message s', answer.bind (normaliseKeys options) = .error message →
        step options s (.loads answer) = some s' →
          s'.generations = s.generations ∧ s'.currentGeneration = s.currentGeneration

/-- No kid that a list shares with the current generation stands for another secret,
unless the kids differ otherwise. -/
def SecretsKept (s : System Signer) (keys : Keys) : Prop :=
  s.sameKids keys = true → ∀ current ∈ s.getCurrent, ∀ entry ∈ current.entries,
    ∀ key ∈ keys.keys, key.kid = entry.kid → key.secret = entry.secret

end Statement

variable {options : Options Signer} {s s' : System Signer} {action : Action} {keys : Keys}
variable {generation current : Generation Signer}

def Generation.Of (options : Options Signer) (generation : Generation Signer) (keys : Keys) :
    Prop :=
  generation.entries.map (fun entry => (entry.key, entry.signer)) =
    keys.keys.map fun key => (key, options.createSigner key.secret options.network)

theorem Generation.Of.keys_eq (hof : generation.Of options keys) :
    generation.entries.map Entry.key = keys.keys := by
  have hfirst := congrArg (List.map Prod.fst) hof
  rw [List.map_map, List.map_map] at hfirst
  exact hfirst.trans (List.map_id _)

theorem Generation.Of.signer_eq (hof : generation.Of options keys) {entry : Entry Signer}
    (hentry : entry ∈ generation.entries) :
    entry.signer = options.createSigner entry.secret options.network := by
  have hmem : (entry.key, entry.signer) ∈
      keys.keys.map fun key => (key, options.createSigner key.secret options.network) := by
    rw [← hof]
    exact List.mem_map.mpr ⟨entry, hentry, rfl⟩
  obtain ⟨key, -, hpair⟩ := List.mem_map.mp hmem
  obtain ⟨hkey, hsigner⟩ := Prod.mk.inj hpair
  rw [← hsigner, hkey]
  rfl

theorem Generation.Of.changeLeases (hof : generation.Of options keys) (change : ℕ → ℕ) :
    (generation.changeLeases change).Of options keys := by
  rw [Generation.Of, Generation.changeLeases, List.map_map]
  exact hof

theorem of_newEntry (options : Options Signer) (number : ℕ) (keys : Keys)
    (retiredAt : Option ℤ) :
    (⟨number, keys.keys.map (newEntry options), retiredAt⟩ : Generation Signer).Of
      options keys := by
  rw [Generation.Of, List.map_map]
  rfl

/-- The current generation is there, every generation is made of keys, and what a refresh
has installed is current until it resolves. -/
structure Sound (options : Options Signer) (s : System Signer) : Prop where
  numbersNodup : (s.generations.map Generation.number).Nodup
  bounded : ∀ generation ∈ s.generations, generation.number ≤ s.currentGeneration
  current : s.currentGeneration ∈ s.generations.map Generation.number
  made : ∀ generation ∈ s.generations, ∃ keys, generation.Of options keys
  refreshing : ∀ keys, s.refreshPromise = some (.installed keys) →
    ∀ generation ∈ s.generations, generation.number = s.currentGeneration →
      generation.Of options keys

variable {change : Generation Signer → Generation Signer} {held : Keys}
  {answer : Except String (Option (List KeySource))}

theorem map_number (hnumber : ∀ generation, (change generation).number = generation.number)
    (generations : List (Generation Signer)) :
    (generations.map change).map Generation.number = generations.map Generation.number := by
  rw [List.map_map]
  exact List.map_congr_left fun generation _ => hnumber generation

/-- A change of the generations that keeps their numbers and what they are made of. -/
theorem Sound.map (hs : Sound options s)
    (hnumber : ∀ generation, (change generation).number = generation.number)
    (hof : ∀ generation keys, generation.Of options keys → (change generation).Of options keys) :
    Sound options { s with generations := s.generations.map change } where
  numbersNodup := by
    rw [map_number hnumber]
    exact hs.numbersNodup
  bounded := by
    intro generation hgeneration
    obtain ⟨before, hbefore, rfl⟩ := List.mem_map.mp hgeneration
    rw [hnumber]
    exact hs.bounded before hbefore
  current := by
    rw [map_number hnumber]
    exact hs.current
  made := by
    intro generation hgeneration
    obtain ⟨before, hbefore, rfl⟩ := List.mem_map.mp hgeneration
    obtain ⟨keys, hkeys⟩ := hs.made before hbefore
    exact ⟨keys, hof before keys hkeys⟩
  refreshing := by
    intro keys hphase generation hgeneration hcurrent
    obtain ⟨before, hbefore, rfl⟩ := List.mem_map.mp hgeneration
    exact hof before keys (hs.refreshing keys hphase before hbefore ((hnumber before) ▸ hcurrent))

/-- A purge spares the current generation. -/
theorem Sound.purgeRetired (hs : Sound options s) : Sound options (s.purgeRetired options) where
  numbersNodup := hs.numbersNodup.sublist (List.filter_sublist.map _)
  bounded := fun generation hgeneration => hs.bounded generation (List.mem_filter.mp hgeneration).1
  current := by
    obtain ⟨generation, hgeneration, hcurrent⟩ := List.mem_map.mp hs.current
    refine List.mem_map.mpr ⟨generation, List.mem_filter.mpr ⟨hgeneration, ?_⟩, hcurrent⟩
    rw [System.purges, hcurrent]
    simp
  made := fun generation hgeneration => hs.made generation (List.mem_filter.mp hgeneration).1
  refreshing := fun keys hphase generation hgeneration =>
    hs.refreshing keys hphase generation (List.mem_filter.mp hgeneration).1

theorem number_retire (current : ℕ) (now : ℤ) (generation : Generation Signer) :
    (generation.retire current now).number = generation.number := by
  rw [Generation.retire]
  split <;> rfl

theorem Generation.Of.retire (hof : generation.Of options keys) (current : ℕ) (now : ℤ) :
    (generation.retire current now).Of options keys := by
  rw [Generation.retire]
  split
  · exact hof
  · exact hof

/-- What an installation adds, before older generations are retired and purged. -/
theorem Sound.append (hnumbers : (s.generations.map Generation.number).Nodup)
    (hbounded : ∀ generation ∈ s.generations, generation.number ≤ s.currentGeneration)
    (hmade : ∀ generation ∈ s.generations, ∃ keys, generation.Of options keys) (keys : Keys) :
    Sound options { s with
      currentGeneration := s.currentGeneration + 1
      generations := s.generations ++
        [⟨s.currentGeneration + 1, keys.keys.map (newEntry options), none⟩]
      refreshPromise := some (.installed keys) } where
  numbersNodup := by
    rw [List.map_append, List.nodup_append]
    refine ⟨hnumbers, List.nodup_singleton _, ?_⟩
    rintro number hnumber _ hnew rfl
    obtain ⟨generation, hgeneration, rfl⟩ := List.mem_map.mp hnumber
    have hle := hbounded generation hgeneration
    have hsame : generation.number = s.currentGeneration + 1 := List.mem_singleton.mp hnew
    omega
  bounded := by
    intro generation hgeneration
    rcases List.mem_append.mp hgeneration with hold | hnew
    · exact Nat.le_succ_of_le (hbounded generation hold)
    · cases List.mem_singleton.mp hnew
      exact Nat.le_refl _
  current := by
    rw [List.map_append]
    exact List.mem_append_right _ List.mem_cons_self
  made := by
    intro generation hgeneration
    rcases List.mem_append.mp hgeneration with hold | hnew
    · exact hmade generation hold
    · rw [List.mem_singleton.mp hnew]
      exact ⟨keys, of_newEntry options _ keys none⟩
  refreshing := by
    intro others hphase generation hgeneration hcurrent
    cases hphase
    rcases List.mem_append.mp hgeneration with hold | hnew
    · have hle := hbounded generation hold
      change generation.number = s.currentGeneration + 1 at hcurrent
      omega
    · rw [List.mem_singleton.mp hnew]
      exact of_newEntry options _ keys none

theorem sound_install (hnumbers : (s.generations.map Generation.number).Nodup)
    (hbounded : ∀ generation ∈ s.generations, generation.number ≤ s.currentGeneration)
    (hmade : ∀ generation ∈ s.generations, ∃ keys, generation.Of options keys) (keys : Keys) :
    Sound options { s.install options keys with refreshPromise := some (.installed keys) } :=
  ((Sound.append hnumbers hbounded hmade keys).map (number_retire _ _)
    fun _ _ hof => hof.retire _ s.now).purgeRetired

/-- Without a refresh under way there is less to know. -/
theorem Sound.resolved (hs : Sound options s) {phase : Option Phase}
    (hphase : ∀ keys, phase ≠ some (.installed keys)) :
    Sound options { s with refreshPromise := phase } :=
  ⟨hs.numbersNodup, hs.bounded, hs.current, hs.made, fun keys hsame => absurd hsame (hphase keys)⟩

theorem sound_init (now : ℤ) (keys : Keys) : Sound options (.init options now keys) := by
  let empty : System Signer := ⟨now, [], 0, none, []⟩
  have hnone : ∀ generation, generation ∉ empty.generations := fun _ => List.not_mem_nil
  have hnumbers : (empty.generations.map Generation.number).Nodup := List.nodup_nil
  have hinstalled :
      Sound options { empty.install options keys with refreshPromise := some (.installed keys) } :=
    sound_install hnumbers (fun _ hgeneration => absurd hgeneration (hnone _))
      (fun _ hgeneration => absurd hgeneration (hnone _)) keys
  exact hinstalled.resolved fun _ hphase => by cases hphase

theorem Sound.changeLeases (hs : Sound options s) (number : ℕ) (change : ℕ → ℕ) :
    Sound options (s.changeLeases number change) := by
  refine hs.map (fun generation => ?_) fun generation keys hof => ?_
  · split <;> rfl
  · split
    · exact hof.changeLeases change
    · exact hof

theorem Sound.receive (hs : Sound options s) (answer : Except String (Option (List KeySource))) :
    Sound options (s.receive options answer) := by
  have hnone : Sound options { s with refreshPromise := none } :=
    hs.resolved fun _ hphase => by cases hphase
  rw [System.receive]
  split
  · exact hnone
  · split
    · exact hnone
    · exact sound_install hs.numbersNodup hs.bounded hs.made _

theorem sound_step (hs : Sound options s) (hstep : step options s action = some s') :
    Sound options s' := by
  cases steps_of_step hstep with
  | joins => exact hs
  | refresh => exact hs.resolved fun _ hphase => by cases hphase
  | loads answer => exact hs.receive answer
  | refreshed succeeds => exact hs.resolved fun _ hphase => by cases hphase
  | snapshot =>
      have hchanged := hs.changeLeases s.currentGeneration (· + 1)
      exact ⟨hchanged.numbersNodup, hchanged.bounded, hchanged.current, hchanged.made,
        hchanged.refreshing⟩
  | release id lease =>
      have hchanged := hs.changeLeases lease.generation (· - 1)
      exact Sound.purgeRetired ⟨hchanged.numbersNodup, hchanged.bounded, hchanged.current,
        hchanged.made, hchanged.refreshing⟩
  | purge => exact hs.purgeRetired
  | tick now => exact ⟨hs.numbersNodup, hs.bounded, hs.current, hs.made, hs.refreshing⟩

theorem sound_reached {now : ℤ} {initial : Keys}
    (hreach : Reaches (step options) anyStep (.init options now initial) s) : Sound options s :=
  hreach.preserves (fun _ _ _ hs _ hstep => sound_step hs hstep) (sound_init now initial)

theorem Keys.eq_of_kid (keys : Keys) {key other : Key} (hkey : key ∈ keys.keys)
    (hother : other ∈ keys.keys) (hkid : key.kid = other.kid) : key = other :=
  List.inj_on_of_nodup_map keys.kidsNodup hkey hother hkid

/-- Where as many kids of one list are kids of the other, the lists agree exactly when
the secrets under them do. -/
theorem agree_iff {keys : Keys} (hlength : keys.keys.length = held.keys.length)
    (hkids : ∀ key ∈ keys.keys, key.kid ∈ held.keys.map Key.kid) :
    (∀ key, key ∈ held.keys ↔ key ∈ keys.keys) ↔
      ∀ key ∈ held.keys, ∀ other ∈ keys.keys, other.kid = key.kid → other.secret = key.secret := by
  have hsubset : keys.keys.map Key.kid ⊆ held.keys.map Key.kid := by
    intro kid hkid
    obtain ⟨key, hkey, rfl⟩ := List.mem_map.mp hkid
    exact hkids key hkey
  have hperm : (keys.keys.map Key.kid).Perm (held.keys.map Key.kid) := by
    refine (List.subperm_of_subset keys.kidsNodup hsubset).perm_of_length_le ?_
    rw [List.length_map, List.length_map]
    exact Nat.le_of_eq hlength.symm
  constructor
  · intro hsame key hkey other hother hkid
    rw [keys.eq_of_kid hother ((hsame key).mp hkey) hkid]
  · intro hsecrets key
    constructor
    · intro hkey
      obtain ⟨other, hother, hkid⟩ :=
        List.mem_map.mp (hperm.mem_iff.mpr (List.mem_map_of_mem hkey))
      have hsecret := hsecrets key hkey other hother hkid
      have hsame : other = key := by
        cases other
        cases key
        exact congrArg₂ Key.mk hkid hsecret
      exact hsame ▸ hother
    · intro hkey
      obtain ⟨other, hother, hkid⟩ := List.mem_map.mp (hkids key hkey)
      have hsecret := hsecrets other hother key hkey hkid.symm
      have hsame : key = other := by
        cases other
        cases key
        exact congrArg₂ Key.mk hkid.symm hsecret
      exact hsame ▸ hother

theorem Sound.getCurrent (hs : Sound options s) : ∃ current held, s.getCurrent = some current ∧
    current ∈ s.generations ∧ current.number = s.currentGeneration ∧
    current.Of options held := by
  obtain ⟨generation, hgeneration, hnumber⟩ := List.mem_map.mp hs.current
  have hfound : (s.generations.find? fun generation =>
      generation.number = s.currentGeneration).isSome = true :=
    List.find?_isSome.mpr ⟨generation, hgeneration, decide_eq_true hnumber⟩
  obtain ⟨current, hcurrent⟩ := Option.isSome_iff_exists.mp hfound
  have hmem := List.mem_of_find?_eq_some hcurrent
  have hsame : decide (current.number = s.currentGeneration) = true :=
    (List.find?_eq_some_iff_append.mp hcurrent).1
  obtain ⟨held, hof⟩ := hs.made current hmem
  exact ⟨current, held, hcurrent, hmem, of_decide_eq_true hsame, hof⟩

theorem takesEffect_iff (hcurrent : s.getCurrent = some current) (hof : current.Of options held) :
    TakesEffect options s keys ↔ ∀ key, key ∈ held.keys ↔ key ∈ keys.keys := by
  constructor
  · rintro ⟨⟨other, hother, hsame⟩, -⟩ key
    obtain rfl := Option.some.inj (hcurrent.symm.trans hother)
    rw [← hof.keys_eq]
    exact hsame key
  · intro hsame
    refine ⟨⟨current, hcurrent, fun key => ?_⟩, fun other hother entry hentry => ?_⟩
    · rw [hof.keys_eq]
      exact hsame key
    · obtain rfl := Option.some.inj (hcurrent.symm.trans hother)
      exact hof.signer_eq hentry

/-- The kids are the same: nothing is installed. -/
theorem takesEffect_of_sameKids (hs : Sound options s) (hsame : s.sameKids keys = true) :
    TakesEffect options s keys ↔ SecretsKept s keys := by
  obtain ⟨current, held, hcurrent, -, -, hof⟩ := hs.getCurrent
  have hsameKids := hsame
  rw [System.sameKids, hcurrent] at hsame
  obtain ⟨hlength, hkids⟩ := Bool.and_eq_true_iff.mp hsame
  have hheld : held.keys.length = current.entries.length := by
    rw [← hof.keys_eq, List.length_map]
  have hmem : ∀ key ∈ keys.keys, key.kid ∈ held.keys.map Key.kid := by
    intro key hkey
    obtain ⟨entry, hentry, hkid⟩ := List.any_eq_true.mp (List.all_eq_true.mp hkids key hkey)
    rw [← hof.keys_eq, List.map_map]
    exact List.mem_map.mpr ⟨entry, hentry, of_decide_eq_true hkid⟩
  rw [takesEffect_iff hcurrent hof,
    agree_iff ((of_decide_eq_true hlength).trans hheld.symm) hmem]
  constructor
  · intro hsecrets _ other hother entry hentry key hkey hkid
    obtain rfl := Option.some.inj (hcurrent.symm.trans hother)
    refine hsecrets entry.key ?_ key hkey hkid
    rw [← hof.keys_eq]
    exact List.mem_map_of_mem hentry
  · intro hkept key hkey other hother hkid
    rw [← hof.keys_eq] at hkey
    obtain ⟨entry, hentry, rfl⟩ := List.mem_map.mp hkey
    exact hkept hsameKids current hcurrent entry hentry other hother hkid

/-- After an installation both hold. -/
theorem takesEffect_of_installed (hs : Sound options s)
    (hphase : s.refreshPromise = some (.installed keys)) :
    TakesEffect options s keys ∧ SecretsKept s keys := by
  obtain ⟨current, -, hcurrent, hmem, hnumber, -⟩ := hs.getCurrent
  have hof := hs.refreshing keys hphase current hmem hnumber
  refine ⟨(takesEffect_iff hcurrent hof).mpr fun _ => Iff.rfl, fun _ other hother => ?_⟩
  obtain rfl := Option.some.inj (hcurrent.symm.trans hother)
  intro entry hentry key hkey hkid
  have hkept : entry.key ∈ keys.keys := by
    rw [← hof.keys_eq]
    exact List.mem_map_of_mem hentry
  rw [keys.eq_of_kid hkey hkept hkid]
  rfl

theorem receive_of_error {message : String}
    (hanswer : answer.bind (normaliseKeys options) = .error message) :
    s.receive options answer = { s with refreshPromise := none } := by
  rw [System.receive, hanswer]

theorem receive_of_sameKids (hanswer : answer.bind (normaliseKeys options) = .ok keys)
    (hsame : s.sameKids keys = true) :
    s.receive options answer = { s with refreshPromise := none } := by
  rw [System.receive, hanswer]
  simp only [hsame, if_true]

theorem step_loads (hstep : step options s (.loads answer) = some s') :
    s' = s.receive options answer := by
  cases steps_of_step hstep with
  | loads => rfl

/-- A refresh takes effect exactly when no kid of an unchanged set of kids has got
another secret. -/
theorem refreshLaw_secretsKept (options : Options Signer) : RefreshLaw options SecretsKept := by
  intro now initial s hreach
  have hs := sound_reached hreach
  constructor
  · intro action s' keys hstep hresolves
    cases hresolves with
    | unchanged hanswer hsame =>
        rw [step_loads hstep, receive_of_sameKids hanswer hsame]
        refine Iff.trans ?_ (takesEffect_of_sameKids hs hsame)
        exact ⟨fun heffect => ⟨heffect.sameKeys, heffect.signers⟩,
          fun heffect => ⟨heffect.sameKeys, heffect.signers⟩⟩
    | installed hphase =>
        obtain ⟨heffect, hkept⟩ := takesEffect_of_installed hs hphase
        simp only [step, hphase] at hstep
        cases hstep
        exact iff_of_true ⟨heffect.sameKeys, heffect.signers⟩ hkept
  · intro answer message s' hanswer hstep
    rw [step_loads hstep, receive_of_error hanswer]
    exact ⟨rfl, rfl⟩

def anySecret : Options Unit := ⟨"stellar:testnet", id, fun _ => true, fun _ _ => (), true, 60000⟩

def keysOf (secret : String) : Keys :=
  ⟨[⟨"kid", secret⟩], List.cons_ne_nil _ _, List.nodup_singleton _⟩

def rotated : Except String (Option (List KeySource)) := .ok (some [⟨some "second", some "kid"⟩])

theorem loads_rotated : rotated.bind (normaliseKeys anySecret) = .ok (keysOf "second") := by
  rfl

/-- A kid whose secret the source has rotated keeps the secret it had. -/
theorem not_refreshLaw_always :
    ¬ ∀ options : Options Unit, RefreshLaw options fun _ _ => True := by
  intro hlaw
  let first : System Unit := .init anySecret 0 (keysOf "first")
  let loading : System Unit := { first with refreshPromise := some .loading }
  have hreach : Reaches (step anySecret) anyStep first loading :=
    (Reaches.refl first).tail trivial (show step anySecret first .refresh = some loading from rfl)
  have hsame : loading.sameKids (keysOf "second") = true := by decide
  have heffect : TakesEffect anySecret first (keysOf "second") :=
    ((hlaw anySecret 0 (keysOf "first") loading hreach).1 (.loads rotated) first (keysOf "second")
      rfl (.unchanged loads_rotated hsame)).mpr trivial
  obtain ⟨current, hcurrent, hkeys⟩ := heffect.sameKeys
  obtain rfl : current = ⟨1, [⟨"kid", "first", (), 0⟩], none⟩ := (Option.some.inj hcurrent).symm
  have hsecond : (⟨"kid", "second"⟩ : Key) ∈ [(⟨"kid", "first"⟩ : Key)] :=
    (hkeys ⟨"kid", "second"⟩).mpr List.mem_cons_self
  exact absurd hsecond (by decide)

end X402Facilitator.KeyManager
