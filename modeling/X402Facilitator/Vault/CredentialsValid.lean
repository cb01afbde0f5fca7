import Mathlib.Tactic.Linarith
import Mathlib.Algebra.Order.Field.Rat
import Mathlib.Algebra.Order.Floor.Defs
import Mathlib.Data.Rat.Floor
import X402Facilitator.Library.Execution

/-!
# Credentials that are valid

Credentials are fetched from the vault, which grants a lease with them.  A call for them, and
a poll every so often, fetches new ones where the lease is about to expire; what arrives is
installed in the options of the pool, whatever else is on its way.

Nothing ties the interval of the polls to the renewal window of a lease, which is a part of
it: a lease can expire between two polls.  Nor is anything compared when a fetch arrives, so
that a lease can replace one that lasts longer.  Where every lease leaves time for a poll and
a fetch in its window, and they arrive in the order in which they end, the pool has
credentials that are valid.
-/

namespace X402Facilitator.Vault

/-- A lease as the vault has granted it.  Times are in milliseconds. -/
structure Lease where
  username : String
  password : String
  leaseId : Option String
  leaseDurationSec : ℚ
  grantedAt : ℚ

def Lease.leaseDurationMs (lease : Lease) : ℚ := max 0 (lease.leaseDurationSec * 1000)

def Lease.endsAt (lease : Lease) : ℚ := lease.grantedAt + lease.leaseDurationMs

/-- `cached`; the expiry is none where the lease does not expire. -/
structure Cached where
  username : String
  password : String
  leaseId : Option String
  leaseDurationMs : ℚ
  expiresAtMs : Option ℚ

def refreshWindowMs (leaseDurationMs : ℚ) : ℚ :=
  if 0 < leaseDurationMs then max 2000 (min (leaseDurationMs * (3 / 10)) 60000) else 0

/-- The two options that a rotation sets, and the lease that they belong to. -/
structure PoolOptions where
  user : String
  password : String
  lease : Lease

/-- A fetch under way: what has been granted to it, and when it has arrived at the latest. -/
structure Fetch where
  lease : Option Lease
  due : ℚ

/-- `pool` is none until the first fetch has arrived, and so is the time of the next poll. -/
structure State where
  now : ℚ
  cached : Option Cached
  pool : Option PoolOptions
  fetches : List Fetch
  nextPoll : Option ℚ

/-- `maxLatencyMs` is what no fetch exceeds. -/
structure Config where
  pollIntervalMs : ℚ
  maxLatencyMs : ℚ
  maxLatencyMs_nonneg : 0 ≤ maxLatencyMs

def Config.pollDelay (config : Config) : ℚ :=
  if 1 ≤ config.pollIntervalMs ∧ config.pollIntervalMs ≤ 2147483647 then
    ⌊config.pollIntervalMs⌋
  else 1

inductive Action where
  | advance (time : ℚ)
  | poll (latency : ℚ)
  | getCredentials (latency : ℚ)
  /-- The vault grants a lease to a fetch. -/
  | grant (fetch : ℕ) (lease : Lease)
  | arrive (fetch : ℕ)
  | fail (fetch : ℕ)

def State.initial (config : Config) : State :=
  ⟨0, none, none, [⟨none, config.maxLatencyMs⟩], none⟩

/-- Whether `ensureFresh` fetches. -/
def State.needsFetch (state : State) : Bool :=
  match state.cached with
  | none => true
  | some cached =>
      match cached.expiresAtMs with
      | none => false
      | some expiresAtMs =>
          decide (expiresAtMs - state.now ≤ refreshWindowMs cached.leaseDurationMs)

/-- `ensureFresh`, up to the answer of the vault. -/
def State.ensureFresh (state : State) (latency : ℚ) : State :=
  if state.needsFetch then
    { state with fetches := state.fetches ++ [⟨none, state.now + latency⟩] }
  else state

/-- The rest of `fetchOnce`, and what the subscriber of the pool does, or the boot. -/
def State.install (config : Config) (state : State) (lease : Lease) : State :=
  { state with
    cached := some
      { username := lease.username
        password := lease.password
        leaseId := lease.leaseId
        leaseDurationMs := lease.leaseDurationMs
        expiresAtMs :=
          if 0 < lease.leaseDurationMs then some (state.now + lease.leaseDurationMs) else none }
    pool := some ⟨lease.username, lease.password, lease⟩
    nextPoll := state.nextPoll <|> some (state.now + config.pollDelay) }

def step (config : Config) (state : State) : Action → Option State
  | .advance time =>
      if state.now ≤ time ∧ (∀ poll ∈ state.nextPoll, time ≤ poll) ∧
          ∀ fetch ∈ state.fetches, time ≤ fetch.due then
        some { state with now := time }
      else none
  | .poll latency =>
      if state.nextPoll = some state.now ∧ 0 ≤ latency ∧ latency ≤ config.maxLatencyMs then
        some { state.ensureFresh latency with nextPoll := some (state.now + config.pollDelay) }
      else none
  | .getCredentials latency =>
      if state.pool.isSome ∧ 0 ≤ latency ∧ latency ≤ config.maxLatencyMs then
        some (state.ensureFresh latency)
      else none
  | .grant place lease =>
      match state.fetches[place]? with
      | some ⟨none, due⟩ =>
          if lease.grantedAt = state.now then
            some { state with fetches := state.fetches.set place ⟨some lease, due⟩ }
          else none
      | _ => none
  | .arrive place =>
      match state.fetches[place]? with
      | some ⟨some lease, _⟩ =>
          some (({ state with fetches := state.fetches.eraseIdx place }).install config lease)
      | _ => none
  | .fail place =>
      match state.fetches[place]? with
      | some _ => some { state with fetches := state.fetches.eraseIdx place }
      | none => none

open Execution

variable {config : Config} {state : State}

/-- The window of a lease, from when it arrives, has room for a poll and a fetch, although
its time runs from when it was granted. -/
def Config.LeavesTime (config : Config) (lease : Lease) (now : ℚ) : Prop :=
  config.pollDelay + config.maxLatencyMs + (now - lease.grantedAt) <
    min (refreshWindowMs lease.leaseDurationMs) lease.leaseDurationMs

/-- No fetch fails, and the leases have a duration and a window above all latencies. -/
def Config.Healthy (config : Config) (_ : State) : Action → Prop
  | .fail _ => False
  | .grant _ lease =>
      0 < lease.leaseDurationMs ∧ config.maxLatencyMs < refreshWindowMs lease.leaseDurationMs
  | _ => True

/-- What the vault and the network do in a step: no fetch fails, and a lease that arrives has
a duration, leaves time and ends no earlier than the one before it. -/
def Config.Timely (config : Config) (state : State) : Action → Prop
  | .fail _ => False
  | .arrive place => ∀ fetch ∈ state.fetches[place]?, ∀ lease ∈ fetch.lease,
      0 < lease.leaseDurationMs ∧ config.LeavesTime lease state.now ∧
        ∀ options ∈ state.pool, options.lease.endsAt ≤ lease.endsAt
  | _ => True

/-- The credentials of the pool are of a lease that has not expired. -/
def State.Fresh (state : State) : Prop :=
  ∀ options ∈ state.pool, options.user = options.lease.username ∧
    options.password = options.lease.password ∧ state.now < options.lease.endsAt

/-- A lease is replaced by one that ends no earlier. -/
def EndsNoEarlier (before after : State) : Prop :=
  ∀ replaced ∈ before.pool, ∀ options ∈ after.pool,
    replaced.lease.endsAt ≤ options.lease.endsAt

def renewsFrom (arrivedAt : ℚ) (lease : Lease) : ℚ :=
  max arrivedAt (arrivedAt + lease.leaseDurationMs - refreshWindowMs lease.leaseDurationMs)

/-- The pool, the cache and the polls agree on a lease, and it is renewed in time: by one of
the next polls, or by a fetch under way. -/
structure Renewed (config : Config) (state : State) (options : PoolOptions) (poll arrivedAt : ℚ) :
    Prop where
  user : options.user = options.lease.username
  password : options.password = options.lease.password
  cached : ∃ cached ∈ state.cached, cached.leaseDurationMs = options.lease.leaseDurationMs ∧
    cached.expiresAtMs = some (arrivedAt + options.lease.leaseDurationMs)
  leavesTime : config.LeavesTime options.lease arrivedAt
  arrived : arrivedAt ≤ state.now
  poll_ge : state.now ≤ poll
  poll_le : poll ≤ state.now + config.pollDelay
  inTime : poll ≤ renewsFrom arrivedAt options.lease + config.pollDelay ∨
    ∃ fetch ∈ state.fetches, fetch.due < options.lease.endsAt

structure Valid (config : Config) (state : State) : Prop where
  due : ∀ fetch ∈ state.fetches, state.now ≤ fetch.due
  boot : state.pool = none → state.nextPoll = none
  renewed : ∀ options ∈ state.pool, ∃ poll ∈ state.nextPoll, ∃ arrivedAt,
    Renewed config state options poll arrivedAt

/-- From the time it is renewed, a lease lasts for a poll and a fetch. -/
theorem renewsFrom_lt {lease : Lease} {arrivedAt : ℚ}
    (htime : config.LeavesTime lease arrivedAt) :
    renewsFrom arrivedAt lease + config.pollDelay + config.maxLatencyMs < lease.endsAt := by
  rw [Config.LeavesTime, lt_min_iff] at htime
  rw [renewsFrom, Lease.endsAt, ← max_add_add_right, ← max_add_add_right, max_lt_iff]
  constructor
  · linarith [htime.2]
  · linarith [htime.1]

theorem Renewed.fresh {options : PoolOptions} {poll arrivedAt : ℚ}
    (hrenewed : Renewed config state options poll arrivedAt)
    (hdue : ∀ fetch ∈ state.fetches, state.now ≤ fetch.due) :
    state.now < options.lease.endsAt := by
  rcases hrenewed.inTime with hpoll | ⟨fetch, hfetch, hends⟩
  · have hlasts := renewsFrom_lt hrenewed.leavesTime
    have hnonneg := config.maxLatencyMs_nonneg
    linarith [hrenewed.poll_ge]
  · exact lt_of_le_of_lt (hdue fetch hfetch) hends

theorem Valid.fresh (hvalid : Valid config state) : state.Fresh := by
  intro options hoptions
  obtain ⟨poll, -, arrivedAt, hrenewed⟩ := hvalid.renewed options hoptions
  exact ⟨hrenewed.user, hrenewed.password, hrenewed.fresh hvalid.due⟩

theorem valid_initial (config : Config) : Valid config (.initial config) where
  due fetch hfetch := by
    rw [List.mem_singleton.mp hfetch]
    exact config.maxLatencyMs_nonneg
  boot _ := rfl
  renewed options hoptions := nomatch hoptions

variable {options : PoolOptions} {poll arrivedAt latency : ℚ}

theorem mem_ensureFresh {fetch : Fetch} (hfetch : fetch ∈ (state.ensureFresh latency).fetches) :
    fetch ∈ state.fetches ∨ fetch.due = state.now + latency := by
  rw [State.ensureFresh] at hfetch
  split at hfetch
  · rcases List.mem_append.mp hfetch with hold | hnew
    · exact .inl hold
    · rw [List.mem_singleton.mp hnew]
      exact .inr rfl
  · exact .inl hfetch

theorem mem_ensureFresh_of_mem {fetch : Fetch} (latency : ℚ) (hfetch : fetch ∈ state.fetches) :
    fetch ∈ (state.ensureFresh latency).fetches := by
  rw [State.ensureFresh]
  split
  · exact List.mem_append_left _ hfetch
  · exact hfetch

/-- A check for a fresh lease starts a fetch, and changes nothing else. -/
theorem ensureFresh_eq (state : State) (latency : ℚ) :
    state.ensureFresh latency =
      { state with fetches := (state.ensureFresh latency).fetches } := by
  rw [State.ensureFresh]
  split <;> rfl

theorem valid_advance {time : ℚ} (hvalid : Valid config state) (hnow : state.now ≤ time)
    (hpoll : ∀ poll ∈ state.nextPoll, time ≤ poll)
    (hdue : ∀ fetch ∈ state.fetches, time ≤ fetch.due) :
    Valid config { state with now := time } where
  due := hdue
  boot := hvalid.boot
  renewed options hoptions := by
    obtain ⟨poll, hmem, arrivedAt, hrenewed⟩ := hvalid.renewed options hoptions
    exact ⟨poll, hmem, arrivedAt,
      { hrenewed with
        arrived := hrenewed.arrived.trans hnow
        poll_ge := hpoll poll hmem
        poll_le := by linarith [hrenewed.poll_le] }⟩

theorem Valid.due_ensureFresh (hvalid : Valid config state) (hlatency : 0 ≤ latency) :
    ∀ fetch ∈ (state.ensureFresh latency).fetches, state.now ≤ fetch.due := by
  intro fetch hfetch
  rcases mem_ensureFresh hfetch with hold | hnew
  · exact hvalid.due fetch hold
  · linarith

theorem valid_getCredentials (hvalid : Valid config state) (hlatency : 0 ≤ latency) :
    Valid config (state.ensureFresh latency) := by
  have hdue := hvalid.due_ensureFresh hlatency
  rw [ensureFresh_eq]
  refine ⟨hdue, hvalid.boot, fun options hoptions => ?_⟩
  obtain ⟨poll, hmem, arrivedAt, hrenewed⟩ := hvalid.renewed options hoptions
  refine ⟨poll, hmem, arrivedAt, { hrenewed with inTime := hrenewed.inTime.imp_right ?_ }⟩
  rintro ⟨fetch, hfetch, hends⟩
  exact ⟨fetch, mem_ensureFresh_of_mem latency hfetch, hends⟩

/-- A poll starts a fetch that arrives in time, or leaves it to the next one. -/
theorem valid_poll (hvalid : Valid config state) (hnext : state.nextPoll = some state.now)
    (hlatency : 0 ≤ latency) (hbound : latency ≤ config.maxLatencyMs)
    (hdelay : 0 ≤ config.pollDelay) :
    Valid config
      { state.ensureFresh latency with nextPoll := some (state.now + config.pollDelay) } := by
  have hdue := hvalid.due_ensureFresh hlatency
  have hpool : state.pool ≠ none := by
    intro hnone
    rw [hvalid.boot hnone] at hnext
    cases hnext
  rw [ensureFresh_eq]
  refine ⟨hdue, fun hnone => absurd hnone hpool, fun options hoptions => ?_⟩
  obtain ⟨poll, hmem, arrivedAt, hrenewed⟩ := hvalid.renewed options hoptions
  obtain rfl : poll = state.now := by
    rw [hnext] at hmem
    exact (Option.mem_some.mp hmem).symm
  refine ⟨_, rfl, arrivedAt,
    { hrenewed with
      poll_ge := by simpa using hdelay
      poll_le := le_rfl
      inTime := ?_ }⟩
  rcases hrenewed.inTime with hpoll | ⟨fetch, hfetch, hends⟩
  · obtain ⟨cached, hcached, hduration, hexpires⟩ := hrenewed.cached
    by_cases hsoon : arrivedAt + options.lease.leaseDurationMs - state.now ≤
        refreshWindowMs options.lease.leaseDurationMs
    · -- the window has come: what is fetched now arrives before the lease ends
      refine .inr ⟨⟨none, state.now + latency⟩, ?_, ?_⟩
      · have hneeds : state.needsFetch = true := by
          rw [State.needsFetch, Option.mem_def.mp hcached]
          simp only [hexpires, hduration]
          exact decide_eq_true hsoon
        rw [State.ensureFresh, if_pos hneeds]
        exact List.mem_append_right _ (List.mem_singleton.mpr rfl)
      · have hlasts := renewsFrom_lt hrenewed.leavesTime
        show state.now + latency < options.lease.endsAt
        linarith
    · -- the window comes later, and the next poll is no later than one interval after it
      refine .inl ?_
      have hlater : state.now ≤ renewsFrom arrivedAt options.lease :=
        le_max_of_le_right (by linarith)
      show state.now + config.pollDelay ≤ _
      linarith
  · exact .inr ⟨fetch, mem_ensureFresh_of_mem latency hfetch, hends⟩

theorem pollDelay_nonneg (config : Config) : 0 ≤ config.pollDelay := by
  rw [Config.pollDelay]
  split
  · next hrange =>
      have hfloor : (0 : ℤ) ≤ ⌊config.pollIntervalMs⌋ :=
        Int.floor_nonneg.mpr (by linarith [hrange.1])
      exact_mod_cast hfloor
  · exact zero_le_one

/-- A fetch that is granted a lease is due when it was. -/
theorem valid_grant {place : ℕ} {due : ℚ} {lease : Lease} (hvalid : Valid config state)
    (hplace : state.fetches[place]? = some ⟨none, due⟩) :
    Valid config { state with fetches := state.fetches.set place ⟨some lease, due⟩ } := by
  obtain ⟨hlt, hget⟩ := List.getElem?_eq_some_iff.mp hplace
  refine ⟨fun fetch hfetch => ?_, hvalid.boot, fun options hoptions => ?_⟩
  · rcases List.mem_or_eq_of_mem_set hfetch with hold | rfl
    · exact hvalid.due fetch hold
    · exact hvalid.due ⟨none, due⟩ (List.mem_of_getElem? hplace)
  · obtain ⟨poll, hmem, arrivedAt, hrenewed⟩ := hvalid.renewed options hoptions
    refine ⟨poll, hmem, arrivedAt, { hrenewed with inTime := hrenewed.inTime.imp_right ?_ }⟩
    rintro ⟨fetch, hfetch, hends⟩
    obtain ⟨other, hother⟩ := List.getElem?_of_mem hfetch
    by_cases hsame : place = other
    · subst hsame
      rw [hplace] at hother
      cases hother
      exact ⟨⟨some lease, due⟩, List.mem_set hlt _, hends⟩
    · refine ⟨fetch, List.mem_of_getElem? (i := other) ?_, hends⟩
      rw [List.getElem?_set_ne hsame, hother]

/-- A lease that arrives is renewed by one of the next polls. -/
theorem valid_arrive {lease : Lease} (hvalid : Valid config state) (place : ℕ)
    (hpositive : 0 < lease.leaseDurationMs) (htime : config.LeavesTime lease state.now) :
    Valid config
      (({ state with fetches := state.fetches.eraseIdx place }).install config lease) := by
  have hdelay := pollDelay_nonneg config
  have hnext : ∃ poll, (state.nextPoll <|> some (state.now + config.pollDelay)) = some poll ∧
      state.now ≤ poll ∧ poll ≤ state.now + config.pollDelay := by
    cases hpool : state.pool with
    | none =>
        rw [hvalid.boot hpool]
        exact ⟨_, rfl, by linarith, le_rfl⟩
    | some options =>
        obtain ⟨poll, hpoll, arrivedAt, hrenewed⟩ := hvalid.renewed options hpool
        rw [Option.mem_def.mp hpoll]
        exact ⟨poll, rfl, hrenewed.poll_ge, hrenewed.poll_le⟩
  obtain ⟨poll, hpoll, hge, hle⟩ := hnext
  refine
    { due := fun fetch hfetch => hvalid.due fetch (List.mem_of_mem_eraseIdx hfetch)
      boot := fun hnone => nomatch hnone
      renewed := fun options hoptions => ?_ }
  obtain rfl : ⟨lease.username, lease.password, lease⟩ = options := Option.some.inj hoptions
  have harrived : state.now ≤ renewsFrom state.now lease := le_max_left _ _
  exact ⟨poll, hpoll, state.now,
    { user := rfl
      password := rfl
      cached := ⟨_, rfl, rfl, if_pos hpositive⟩
      leavesTime := htime
      arrived := le_rfl
      poll_ge := hge
      poll_le := hle
      inTime := .inl (by linarith) }⟩

theorem valid_step {action : Action} {next : State} (hvalid : Valid config state)
    (htimely : config.Timely state action) (hstep : step config state action = some next) :
    Valid config next ∧ EndsNoEarlier state next := by
  have hsame : ∀ {next : State}, next.pool = state.pool → EndsNoEarlier state next := by
    intro next hpool replaced hreplaced options hoptions
    rw [hpool] at hoptions
    rw [Option.mem_unique hreplaced hoptions]
  cases action with
  | advance time =>
      obtain ⟨⟨hnow, hpoll, hdue⟩, heq⟩ := Option.ite_none_right_eq_some.mp hstep
      cases heq
      exact ⟨valid_advance hvalid hnow hpoll hdue, hsame rfl⟩
  | poll latency =>
      obtain ⟨⟨hnext, hlatency, hbound⟩, heq⟩ := Option.ite_none_right_eq_some.mp hstep
      cases heq
      refine ⟨valid_poll hvalid hnext hlatency hbound (pollDelay_nonneg config), hsame ?_⟩
      rw [ensureFresh_eq]
  | getCredentials latency =>
      obtain ⟨⟨-, hlatency, -⟩, heq⟩ := Option.ite_none_right_eq_some.mp hstep
      cases heq
      refine ⟨valid_getCredentials hvalid hlatency, hsame ?_⟩
      rw [ensureFresh_eq]
  | grant place lease =>
      rw [step] at hstep
      split at hstep
      · next due hplace =>
          obtain ⟨-, heq⟩ := Option.ite_none_right_eq_some.mp hstep
          cases heq
          exact ⟨valid_grant hvalid hplace, hsame rfl⟩
      · cases hstep
  | arrive place =>
      rw [step] at hstep
      split at hstep
      · next lease _ hplace =>
          cases hstep
          obtain ⟨hpositive, htime, hlater⟩ := htimely _ hplace lease rfl
          refine ⟨valid_arrive hvalid place hpositive htime, ?_⟩
          intro replaced hreplaced options hoptions
          rw [← Option.some.inj hoptions]
          exact hlater replaced hreplaced
      · cases hstep
  | fail place => exact htimely.elim

theorem valid_of_reaches (hreach : Reaches (step config) config.Timely (.initial config) state) :
    Valid config state :=
  hreach.preserves (fun _ _ _ hvalid htimely hstep => (valid_step hvalid htimely hstep).1)
    (valid_initial config)

/-- In a run of timely steps the credentials of the pool are always those of a lease that has
not expired, and each lease ends no earlier than the one it replaces. -/
theorem credentials_stay_valid (config : Config) {state next : State} {action : Action}
    (hreach : Reaches (step config) config.Timely (.initial config) state)
    (htimely : config.Timely state action) (hstep : step config state action = some next) :
    state.Fresh ∧ next.Fresh ∧ EndsNoEarlier state next := by
  have hvalid := valid_of_reaches hreach
  obtain ⟨hnext, hends⟩ := valid_step hvalid htimely hstep
  exact ⟨hvalid.fresh, hnext.fresh, hends⟩

section Examples

/-- Polls every ten seconds, which is the default. -/
def polled : Config := ⟨10000, 100, by decide⟩

def leased (username : String) (seconds grantedAt : ℚ) : Lease :=
  ⟨username, "secret", none, seconds, grantedAt⟩

def booting (lease : Lease) : State := ⟨0, none, none, [⟨some lease, 100⟩], none⟩

def booted (lease : Lease) : State :=
  ({ booting lease with fetches := [] }).install polled lease

theorem reaches_booted : Reaches (step polled) polled.Timely (.initial polled)
    (booted (leased "a" 60 0)) := by
  have hstart : Reaches (step polled) polled.Timely (.initial polled) (.initial polled) :=
    .refl _
  have hgrant : step polled (.initial polled) (.grant 0 (leased "a" 60 0)) =
      some (booting (leased "a" 60 0)) := rfl
  have harrive : step polled (booting (leased "a" 60 0)) (.arrive 0) =
      some (booted (leased "a" 60 0)) := rfl
  have hgranted : polled.Timely (.initial polled) (.grant 0 (leased "a" 60 0)) := trivial
  refine (hstart.tail hgranted hgrant).tail ?_ harrive
  intro fetch hfetch lease hlease
  obtain rfl : (⟨some (leased "a" 60 0), 100⟩ : Fetch) = fetch := Option.some.inj hfetch
  obtain rfl : leased "a" 60 0 = lease := Option.some.inj hlease
  refine ⟨by decide +kernel, ?_, fun options hoptions => nomatch hoptions⟩
  show (_ : ℚ) < _
  decide +kernel

def renewing : List Action :=
  [.advance 10000, .poll 100, .advance 20000, .poll 100, .advance 30000, .poll 100,
    .advance 40000, .poll 100, .advance 50000, .poll 100, .grant 0 (leased "b" 60 50000),
    .advance 50050]

/-- A lease of a minute is replaced by the next one before it ends. -/
theorem credentials_stay_valid_minute :
    ∃ state next, Reaches (step polled) polled.Timely (.initial polled) state ∧
      step polled state (.arrive 0) = some next ∧
      (state.pool.map PoolOptions.user, next.pool.map PoolOptions.user) = (some "a", some "b") ∧
      state.Fresh ∧ next.Fresh ∧ EndsNoEarlier state next := by
  have hrun : (run (step polled) (booted (leased "a" 60 0)) renewing).map (fun state =>
      (state.now, state.pool.map fun options => options.lease.endsAt,
        state.fetches.map fun fetch => fetch.lease.map fun lease =>
          (lease.leaseDurationSec, lease.grantedAt))) =
        some (50050, some 60000, [some (60, 50000)]) := by decide +kernel
  have hseen : (run (step polled) (booted (leased "a" 60 0)) renewing).map (fun state =>
      (state.pool.map PoolOptions.user,
        (step polled state (.arrive 0)).map fun next => next.pool.map PoolOptions.user)) =
        some (some "a", some (some "b")) := by decide +kernel
  obtain ⟨state, hstate, hobserved⟩ := Option.map_eq_some_iff.mp hrun
  obtain ⟨hnow, hrest⟩ := Prod.mk.inj hobserved
  obtain ⟨hpool, hfetches⟩ := Prod.mk.inj hrest
  rw [hstate] at hseen
  obtain ⟨hbefore, hafter⟩ := Prod.mk.inj (Option.some.inj hseen)
  obtain ⟨next, harrive, hnext⟩ := Option.map_eq_some_iff.mp hafter
  have hrenewing : ∀ action ∈ renewing, ∀ state, polled.Timely state action := by
    simp [renewing, Config.Timely]
  have hreach := reaches_booted.trans (reaches_of_run_of_forall hrenewing hstate)
  have htimely : polled.Timely state (.arrive 0) := by
    intro fetch hfetch lease hlease
    have hfirst := congrArg (·[0]?) hfetches
    simp only [List.getElem?_map, Option.mem_def.mp hfetch, Option.map_some,
      Option.mem_def.mp hlease, List.getElem?_cons_zero, Option.some.injEq] at hfirst
    obtain ⟨hduration, hgranted⟩ := Prod.mk.inj hfirst
    have hms : lease.leaseDurationMs = 60000 := by
      rw [Lease.leaseDurationMs, hduration]
      decide +kernel
    have hends : lease.endsAt = 110000 := by
      rw [Lease.endsAt, hms, hgranted]
      decide +kernel
    refine ⟨by rw [hms]; decide +kernel, ?_, fun options hoptions => ?_⟩
    · rw [Config.LeavesTime, hms, hgranted, hnow]
      decide +kernel
    · rw [hoptions] at hpool
      have hreplaced : options.lease.endsAt = 60000 := Option.some.inj hpool
      rw [hends, hreplaced]
      decide +kernel
  obtain ⟨hfresh, hfresh', hends⟩ := credentials_stay_valid polled hreach htimely harrive
  exact ⟨state, next, hreach, harrive, by rw [hbefore, hnext], hfresh, hfresh', hends⟩

def expiring : List Action :=
  [.grant 0 (leased "a" 30 0), .arrive 0, .advance 10000, .poll 100, .advance 20000, .poll 100,
    .advance 30000, .poll 100, .advance 30050]

def shortened : List Action :=
  [.grant 0 (leased "a" 3 0), .arrive 0, .advance 1000, .getCredentials 50,
    .grant 0 (leased "b" 1 1000)]

theorem healthy_expiring : ∀ action ∈ expiring, ∀ state, polled.Healthy state action := by
  simp only [expiring, List.forall_mem_cons]
  refine ⟨fun _ => ⟨by decide +kernel, by decide +kernel⟩, ?_⟩
  simp [Config.Healthy]

theorem healthy_shortened : ∀ action ∈ shortened, ∀ state, polled.Healthy state action := by
  simp only [shortened, List.forall_mem_cons]
  refine ⟨fun _ => ⟨by decide +kernel, by decide +kernel⟩, fun _ => trivial, fun _ => trivial,
    fun _ => trivial, fun _ => ⟨by decide +kernel, by decide +kernel⟩, ?_⟩
  simp

/-- The pool can be left with an expired lease, and with one that ends before the one that it
had. -/
theorem not_credentials_stay_valid :
    ∃ config : Config, 0 < config.pollIntervalMs ∧
      (∃ state, Reaches (step config) config.Healthy (.initial config) state ∧ ¬ state.Fresh) ∧
      ∃ state next action, Reaches (step config) config.Healthy (.initial config) state ∧
        config.Healthy state action ∧ step config state action = some next ∧
        ¬ EndsNoEarlier state next := by
  refine ⟨polled, by decide +kernel, ?_, ?_⟩
  · have hrun : (run (step polled) (.initial polled) expiring).map (fun state =>
        (state.pool.map fun options => options.lease.endsAt, state.now)) =
          some (some 30000, 30050) := by decide +kernel
    obtain ⟨state, hstate, hseen⟩ := Option.map_eq_some_iff.mp hrun
    obtain ⟨hpool, hnow⟩ := Prod.mk.inj hseen
    obtain ⟨options, hoptions, hends⟩ := Option.map_eq_some_iff.mp hpool
    refine ⟨state, reaches_of_run_of_forall healthy_expiring hstate, fun hfresh => ?_⟩
    have hlater := (hfresh options hoptions).2.2
    rw [hends, hnow] at hlater
    exact absurd hlater (by decide +kernel)
  · have hrun : (run (step polled) (.initial polled) shortened).map (fun state =>
        (state.pool.map fun options => options.lease.endsAt,
          (step polled state (.arrive 0)).map fun next =>
            next.pool.map fun options => options.lease.endsAt)) =
          some (some 3000, some (some 2000)) := by decide +kernel
    obtain ⟨state, hstate, hseen⟩ := Option.map_eq_some_iff.mp hrun
    obtain ⟨hpool, hafter⟩ := Prod.mk.inj hseen
    obtain ⟨replaced, hreplaced, hends⟩ := Option.map_eq_some_iff.mp hpool
    obtain ⟨next, hnext, hpool'⟩ := Option.map_eq_some_iff.mp hafter
    obtain ⟨options, hoptions, hends'⟩ := Option.map_eq_some_iff.mp hpool'
    refine ⟨state, next, .arrive 0, reaches_of_run_of_forall healthy_shortened hstate, trivial,
      hnext, fun hno => ?_⟩
    have hle := hno replaced hreplaced options hoptions
    rw [hends, hends'] at hle
    exact absurd hle (by decide +kernel)

end Examples

end X402Facilitator.Vault
