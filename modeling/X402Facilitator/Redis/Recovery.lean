import X402Facilitator.Redis.Connections

/-!
# Recovery from a transient failure

A client that is ready again clears the flag of its connection, and only then is the
limiter told.  The failure of one of its commands sets the limiter's flag alone.
-/

namespace X402Facilitator.Redis

open Execution

def Transient (_ : System) : Action → Prop
  | .signal _ .ended => False
  | _ => True

/-- The steps that should help: operations, and clients that are ready. -/
def Helpful (_ : System) : Action → Prop
  | .begin _ | .succeed _ | .signal _ .ready => True
  | _ => False

/-- In every state reached from the two connections as made, a feature that has a client
comes back to Redis by steps that help, and does so with the first event that its client is
ready. -/
def Recovers (meets : System → Action → Prop) (limiter cache : ConnectionOptions) : Prop :=
  ∀ s, Reaches step meets (.init limiter cache) s →
    ∀ feature, (s.connection feature).hasClient = true →
      (∃ s', Reaches step Helpful s s' ∧ s'.uses feature = true) ∧
        ∀ s', step s (.signal feature .ready) = some s' → s'.uses feature = true

/-- A command of the limiter fails only while its connection is degraded, and one of the
second tier only on a client that has not been injected. -/
def Marked (s : System) : Action → Prop
  | .fail .operation _ => s.limiter.connection.degraded = true
  | .fail .readL2 _ | .fail .writeL2 _ => s.cache.connection.external = false
  | _ => True

variable {s s' : System} {action : Action} {feature : Feature} {connection : Connection}
variable {signal : Signal} {limiter : RedisRateLimiter} {received : Connection × Option Event}

/-- A connection that can come back: its client has not ended, and has not been injected
where the connection is degraded. -/
structure Connection.Sound (connection : Connection) : Prop where
  live : connection.ended = false ∧ connection.clientEnded = false
  listened : connection.degraded = true → connection.external = false
  pending : connection.pending = true →
    connection.hasClient = false ∧ connection.external = false

theorem Connection.sound_create (options : ConnectionOptions) :
    (createRedisConnection options).Sound where
  live := ⟨rfl, rfl⟩
  listened := fun hdegraded => by cases hdegraded
  pending := by
    intro hpending
    have hclient : options.client = false := by
      have hnot := (Bool.and_eq_true_iff.mp hpending).1
      rwa [Bool.not_eq_true'] at hnot
    exact ⟨hclient, hclient⟩

theorem Connection.external_of_listens (hlistens : connection.listens = true) :
    connection.external = false := by
  have hnot := (Bool.and_eq_true_iff.mp hlistens).2
  rwa [Bool.not_eq_true'] at hnot

theorem Connection.Sound.emitDegraded (hconnection : connection.Sound)
    (hexternal : connection.external = false) (message : String) :
    (connection.emitDegraded message).1.Sound := by
  rw [Connection.emitDegraded]
  split
  · exact hconnection
  · exact ⟨hconnection.live, fun _ => hexternal, hconnection.pending⟩

theorem Connection.Sound.emitRecovered (hconnection : connection.Sound) :
    connection.emitRecovered.1.Sound := by
  rw [Connection.emitRecovered]
  split
  · exact ⟨hconnection.live, fun hdegraded => (by cases hdegraded), hconnection.pending⟩
  · exact hconnection

/-- A signal that is no end keeps a connection that can come back so. -/
theorem Connection.Sound.receive (hconnection : connection.Sound) (hsignal : signal ≠ .ended)
    (hreceived : connection.receive signal = some received) : received.1.Sound := by
  cases signal with
  | imported | unavailable message =>
      simp only [Connection.receive] at hreceived
      split at hreceived
      · cases hreceived
        exact ⟨hconnection.live, hconnection.listened, fun hagain => by cases hagain⟩
      · cases hreceived
  | error message =>
      simp only [Connection.receive] at hreceived
      split at hreceived
      · next hlistens =>
          cases hreceived
          exact hconnection.emitDegraded (external_of_listens hlistens) _
      · cases hreceived
        exact hconnection
  | ready =>
      simp only [Connection.receive] at hreceived
      split at hreceived
      · cases hreceived
        exact hconnection.emitRecovered
      · cases hreceived
        exact hconnection
  | ended => exact absurd rfl hsignal

theorem Connection.hasClient_emitRecovered (connection : Connection) :
    connection.emitRecovered.1.degraded = false ∧
      connection.emitRecovered.1.hasClient = connection.hasClient := by
  rw [Connection.emitRecovered]
  split
  · exact ⟨rfl, rfl⟩
  · next hdegraded => exact ⟨Bool.eq_false_iff.mpr hdegraded, rfl⟩

/-- After its client has become ready a connection is not degraded. -/
theorem Connection.Sound.ready (hconnection : connection.Sound)
    (hclient : connection.hasClient = true)
    (hreceived : connection.receive .ready = some received) :
    received.1.degraded = false ∧ received.1.hasClient = true := by
  simp only [Connection.receive] at hreceived
  split at hreceived
  · cases hreceived
    rw [← hclient]
    exact connection.hasClient_emitRecovered
  · next hlistens =>
      cases hreceived
      refine ⟨Bool.eq_false_iff.mpr fun hdegraded => hlistens ?_, hclient⟩
      rw [Connection.listens, hclient, hconnection.listened hdegraded]
      rfl

theorem Connection.Sound.isUsable (hconnection : connection.Sound)
    (hclient : connection.hasClient = true) (hdegraded : connection.degraded = false) :
    connection.isUsable = true := by
  rw [Connection.isUsable, hclient, hdegraded, hconnection.live.1, hconnection.live.2]
  rfl

def Synced (limiter : RedisRateLimiter) : Prop :=
  limiter.connection.hasClient = true ∨ limiter.connection.pending = true →
    limiter.degraded = limiter.connection.degraded

theorem RedisRateLimiter.degraded_degrade (limiter : RedisRateLimiter) (message : String) :
    (limiter.degrade message).degraded = true := by
  rw [RedisRateLimiter.degrade]
  split
  · assumption
  · rfl

theorem RedisRateLimiter.connection_degrade (limiter : RedisRateLimiter) (message : String) :
    (limiter.degrade message).connection = limiter.connection := by
  rw [RedisRateLimiter.degrade]
  split <;> rfl

theorem RedisRateLimiter.degraded_recover (limiter : RedisRateLimiter) :
    limiter.recover.degraded = false := by
  rw [RedisRateLimiter.recover]
  split
  · rfl
  · next hdegraded => exact Bool.eq_false_iff.mpr hdegraded

theorem RedisRateLimiter.connection_recover (limiter : RedisRateLimiter) :
    limiter.recover.connection = limiter.connection := by
  rw [RedisRateLimiter.recover]
  split <;> rfl

theorem RedisRateLimiter.connection_onEvent (limiter : RedisRateLimiter) (event : Option Event) :
    (limiter.onEvent event).connection = limiter.connection := by
  rcases event with - | ⟨- | - | -, message⟩
  · rfl
  · exact limiter.connection_degrade _
  · exact limiter.connection_recover
  · exact limiter.connection_degrade _

theorem Synced.emitDegraded (hlimiter : Synced limiter)
    (hclient : limiter.connection.hasClient = true) (message : String) :
    Synced ({ limiter with connection := (limiter.connection.emitDegraded message).1 }.onEvent
      (limiter.connection.emitDegraded message).2) := by
  intro _
  rw [RedisRateLimiter.connection_onEvent, Connection.emitDegraded]
  split
  · exact hlimiter (.inl hclient)
  · exact RedisRateLimiter.degraded_degrade _ _

theorem Synced.emitRecovered (hlimiter : Synced limiter)
    (hclient : limiter.connection.hasClient = true) :
    Synced ({ limiter with connection := limiter.connection.emitRecovered.1 }.onEvent
      limiter.connection.emitRecovered.2) := by
  intro _
  rw [RedisRateLimiter.connection_onEvent, Connection.emitRecovered]
  split
  · exact RedisRateLimiter.degraded_recover _
  · exact hlimiter (.inl hclient)

/-- The limiter is told of every change of its connection. -/
theorem Synced.receive (hlimiter : Synced limiter) (hsound : limiter.connection.Sound)
    (hsignal : signal ≠ .ended)
    (hreceived : limiter.connection.receive signal = some received) :
    Synced ({ limiter with connection := received.1 }.onEvent received.2) := by
  cases signal with
  | imported =>
      simp only [Connection.receive] at hreceived
      split at hreceived
      · next hpending =>
          cases hreceived
          exact fun _ => hlimiter (.inr hpending)
      · cases hreceived
  | unavailable message =>
      simp only [Connection.receive] at hreceived
      split at hreceived
      · next hpending =>
          cases hreceived
          rintro (hclient | hagain)
          · rw [RedisRateLimiter.connection_onEvent] at hclient
            change limiter.connection.hasClient = true at hclient
            rw [(hsound.pending hpending).1] at hclient
            cases hclient
          · rw [RedisRateLimiter.connection_onEvent] at hagain
            cases hagain
      · cases hreceived
  | error message =>
      simp only [Connection.receive] at hreceived
      split at hreceived
      · next hlistens =>
          cases hreceived
          exact hlimiter.emitDegraded (Bool.and_eq_true_iff.mp hlistens).1 _
      · cases hreceived
        exact hlimiter
  | ready =>
      simp only [Connection.receive] at hreceived
      split at hreceived
      · next hlistens =>
          cases hreceived
          exact hlimiter.emitRecovered (Bool.and_eq_true_iff.mp hlistens).1
      · cases hreceived
        exact hlimiter
  | ended => exact absurd rfl hsignal

/-- A command that fails while the connection is degraded leaves both flags up. -/
theorem synced_degrade (hdegraded : limiter.connection.degraded = true) (message : String) :
    Synced (limiter.degrade message) := by
  intro _
  rw [RedisRateLimiter.connection_degrade, hdegraded]
  exact limiter.degraded_degrade message

structure Sound (s : System) : Prop where
  limiter : s.limiter.connection.Sound
  cache : s.cache.connection.Sound
  synced : Synced s.limiter

theorem sound_init (limiter cache : ConnectionOptions) : Sound (.init limiter cache) :=
  ⟨Connection.sound_create limiter, Connection.sound_create cache, fun _ => rfl⟩

theorem CatalogSearchCache.connection_onEvent (cache : CatalogSearchCache)
    (event : Option Event) : (cache.onEvent event).connection = cache.connection := by
  rcases event with - | ⟨- | - | -, message⟩ <;> rfl

theorem Sound.deliver (hs : Sound s) (hsignal : signal ≠ .ended)
    (hreceived : (s.connection feature).receive signal = some received) :
    Sound (s.deliver received feature) := by
  cases feature with
  | limiter =>
      refine ⟨?_, hs.cache, hs.synced.receive hs.limiter hsignal hreceived⟩
      change (RedisRateLimiter.onEvent _ _).connection.Sound
      rw [RedisRateLimiter.connection_onEvent]
      exact hs.limiter.receive hsignal hreceived
  | cache =>
      refine ⟨hs.limiter, ?_, hs.synced⟩
      change (CatalogSearchCache.onEvent _ _).connection.Sound
      rw [CatalogSearchCache.connection_onEvent]
      exact hs.cache.receive hsignal hreceived

theorem Sound.onDegrade (hs : Sound s) (hexternal : s.cache.connection.external = false)
    (message : String) : Sound { s with cache := s.cache.onDegrade message } := by
  refine ⟨hs.limiter, ?_, hs.synced⟩
  change (CatalogSearchCache.onEvent _ _).connection.Sound
  rw [CatalogSearchCache.connection_onEvent]
  exact hs.cache.emitDegraded hexternal message

theorem Sound.failed (hs : Sound s) {command : Command} {message : String}
    (hmarked : Marked s (.fail command message)) : Sound (s.failed message command) := by
  cases command with
  | operation =>
      refine ⟨?_, hs.cache, synced_degrade hmarked _⟩
      change (RedisRateLimiter.degrade _ _).connection.Sound
      rw [RedisRateLimiter.connection_degrade]
      exact hs.limiter
  | readL2 | writeL2 => exact hs.onDegrade hmarked _
  | publish => exact ⟨hs.limiter, hs.cache, hs.synced⟩

theorem sound_step (hs : Sound s) (htransient : Transient s action) (hmarked : Marked s action)
    (hstep : step s action = some s') : Sound s' := by
  cases action with
  | signal feature signal =>
      obtain ⟨received, hreceived, rfl⟩ := Option.map_eq_some_iff.mp hstep
      refine hs.deliver ?_ hreceived
      rintro rfl
      exact htransient
  | begin command =>
      cases hstep
      split
      · exact ⟨hs.limiter, hs.cache, hs.synced⟩
      · exact hs
  | succeed command =>
      simp only [step] at hstep
      split at hstep
      · cases hstep
      · cases hstep
        exact ⟨hs.limiter, hs.cache, hs.synced⟩
  | fail command message =>
      simp only [step] at hstep
      split at hstep
      · cases hstep
      · cases hstep
        have hcounted : Sound (s.count command (· - 1)) := ⟨hs.limiter, hs.cache, hs.synced⟩
        refine hcounted.failed ?_
        cases command with
        | operation | readL2 | writeL2 => exact hmarked
        | publish => trivial

/-- A client that becomes ready brings its feature back. -/
theorem Sound.ready (hs : Sound s) (hclient : (s.connection feature).hasClient = true)
    (hstep : step s (.signal feature .ready) = some s') : s'.uses feature = true := by
  obtain ⟨received, hreceived, rfl⟩ := Option.map_eq_some_iff.mp hstep
  have hafter := hs.deliver (by decide) hreceived
  cases feature with
  | limiter =>
      obtain ⟨hdegraded, hkept⟩ := hs.limiter.ready hclient hreceived
      have hconnection : (s.deliver received .limiter).limiter.connection = received.1 :=
        RedisRateLimiter.connection_onEvent _ _
      have hsynced := hafter.synced (.inl (by rw [hconnection, hkept]))
      rw [hconnection, hdegraded] at hsynced
      change RedisRateLimiter.usesRedis _ = true
      rw [RedisRateLimiter.usesRedis, hsynced, hafter.limiter.live.2, hconnection, hkept]
      rfl
  | cache =>
      obtain ⟨hdegraded, hkept⟩ := hs.cache.ready hclient hreceived
      have hconnection : (s.deliver received .cache).cache.connection = received.1 :=
        CatalogSearchCache.connection_onEvent _ _
      refine hafter.cache.isUsable ?_ ?_
      · rw [hconnection, hkept]
      · rw [hconnection, hdegraded]

theorem exists_ready (s : System) (feature : Feature) :
    ∃ s', step s (.signal feature .ready) = some s' := by
  simp only [step, Connection.receive]
  split
  · exact ⟨_, rfl⟩
  · exact ⟨_, rfl⟩

/-- In the runs in which no command of the limiter fails ahead of its connection, and none
of the cache on an injected client, every feature comes back. -/
theorem recovers_marked (limiter cache : ConnectionOptions) :
    Recovers (fun s action => Transient s action ∧ Marked s action) limiter cache := by
  intro s hreach feature hclient
  have hs : Sound s := hreach.preserves
    (fun _ _ _ hs hmeets hstep => sound_step hs hmeets.1 hmeets.2 hstep) (sound_init limiter cache)
  refine ⟨?_, fun s' hstep => hs.ready hclient hstep⟩
  obtain ⟨s', hstep⟩ := exists_ready s feature
  have hhelpful : Helpful s (.signal feature .ready) := trivial
  exact ⟨s', (Reaches.refl s).tail hhelpful hstep, hs.ready hclient hstep⟩

def Stuck (s : System) : Prop :=
  s.limiter.degraded = true ∧ s.limiter.connection.degraded = false

theorem stuck_step (hs : Stuck s) (hhelpful : Helpful s action)
    (hstep : step s action = some s') : Stuck s' := by
  cases action with
  | signal feature signal =>
      cases signal with
      | imported | unavailable | error | ended => cases hhelpful
      | ready =>
          cases feature with
          | cache =>
              obtain ⟨received, -, rfl⟩ := Option.map_eq_some_iff.mp hstep
              exact hs
          | limiter =>
              -- there is nothing to recover, so the limiter is told nothing
              have hkept : (s.connection .limiter).receive .ready =
                  some (s.limiter.connection, none) := by
                simp only [System.connection, Connection.receive, Connection.emitRecovered, hs.2,
                  Bool.false_eq_true, if_false, ite_self]
              obtain ⟨received, hreceived, rfl⟩ := Option.map_eq_some_iff.mp hstep
              obtain rfl := Option.some.inj (hkept.symm.trans hreceived)
              exact hs
  | begin command =>
      cases hstep
      split
      · exact hs
      · exact hs
  | succeed command =>
      simp only [step] at hstep
      split at hstep
      · cases hstep
      · cases hstep
        exact hs
  | fail command message => cases hhelpful

/-- A limiter that is stuck stays so, whatever succeeds and however often its client is
ready. -/
theorem Stuck.uses (hs : Stuck s) (hreach : Reaches step Helpful s s') :
    s'.uses .limiter = false := by
  have hafter : Stuck s' :=
    hreach.preserves (fun _ _ _ hs hhelpful hstep => stuck_step hs hhelpful hstep) hs
  change s'.limiter.usesRedis = false
  rw [RedisRateLimiter.usesRedis, hafter.1]
  cases s'.limiter.connection.hasClient <;> rfl

def overUrl : ConnectionOptions := ⟨false, some "redis://localhost"⟩

def oneFailure : List Action :=
  [.signal .limiter .imported, .begin .operation, .fail .operation "Command timed out"]

theorem not_recovers_always :
    ¬ ∀ limiter cache : ConnectionOptions, Recovers Transient limiter cache := by
  intro hrecovers
  have hrun : (run step (.init overUrl overUrl) oneFailure).map
      (fun s => (s.limiter.connection.hasClient, s.limiter.degraded,
        s.limiter.connection.degraded)) = some (true, true, false) := by
    decide
  obtain ⟨s, hfinish, hobserved⟩ := Option.map_eq_some_iff.mp hrun
  have htransient : ∀ action ∈ oneFailure, ∀ s, Transient s action := by
    intro action haction s
    simp only [oneFailure, List.mem_cons, List.not_mem_nil, or_false] at haction
    rcases haction with rfl | rfl | rfl <;> trivial
  have hreach := reaches_of_run_of_forall htransient hfinish
  simp only [Prod.mk.injEq] at hobserved
  obtain ⟨hclient, hdegraded, hconnection⟩ := hobserved
  obtain ⟨⟨s', hhelped, huses⟩, -⟩ := hrecovers overUrl overUrl s hreach .limiter hclient
  rw [Stuck.uses ⟨hdegraded, hconnection⟩ hhelped] at huses
  cases huses

end X402Facilitator.Redis
