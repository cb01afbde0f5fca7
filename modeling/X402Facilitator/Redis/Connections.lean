import X402Facilitator.Library.Execution

/-!
# Two features over Redis

The rate limiter and the search cache make a connection each.  A connection has a flag
that its client's events set and clear, and the limiter has one of its own.
-/

namespace X402Facilitator.Redis

open Execution

inductive EventType where
  | degraded
  | recovered
  | unavailable
  deriving DecidableEq

structure Event where
  type : EventType
  message : String
  deriving DecidableEq

/-- `pending` until the import of the client has settled; `clientEnded` is a client whose
status is `end`. -/
structure Connection where
  external : Bool
  pending : Bool
  hasClient : Bool
  clientEnded : Bool
  degraded : Bool
  ended : Bool
  deriving DecidableEq

/-- What a connection is made of: whether a client has been injected, and the URL. -/
structure ConnectionOptions where
  client : Bool
  redisUrl : Option String

/-- What becomes of the import, and the events of a client. -/
inductive Signal where
  | imported
  | unavailable (message : String)
  | error (message : String)
  | ready
  | ended
  deriving DecidableEq

/-- `createRedisConnection`; an empty URL is none. -/
def createRedisConnection (options : ConnectionOptions) : Connection where
  external := options.client
  pending := !options.client && options.redisUrl.any (· ≠ "")
  hasClient := options.client
  clientEnded := false
  degraded := false
  ended := false

namespace Connection

def emitDegraded (connection : Connection) (message : String) : Connection × Option Event :=
  if connection.degraded then (connection, none)
  else ({ connection with degraded := true }, some ⟨.degraded, message⟩)

def emitRecovered (connection : Connection) : Connection × Option Event :=
  if connection.degraded then
    ({ connection with degraded := false }, some ⟨.recovered, "Redis reconnected"⟩)
  else (connection, none)

def isUsable (connection : Connection) : Bool :=
  connection.hasClient && !connection.degraded && !connection.ended && !connection.clientEnded

/-- Nobody listens to a client that has been injected. -/
def listens (connection : Connection) : Bool := connection.hasClient && !connection.external

/-- The connection after a signal, and the event for its owner. -/
def receive (connection : Connection) : Signal → Option (Connection × Option Event)
  | .imported =>
      if connection.pending then
        some ({ connection with pending := false, hasClient := true }, none)
      else none
  | .unavailable message =>
      if connection.pending then
        some ({ connection with pending := false },
          some ⟨.unavailable, "Redis unavailable (" ++ message ++ ")"⟩)
      else none
  | .error message =>
      if connection.listens then some (connection.emitDegraded ("Redis error: " ++ message))
      else some (connection, none)
  | .ready => if connection.listens then some connection.emitRecovered else some (connection, none)
  | .ended =>
      if connection.listens then
        some ({ connection with ended := true, clientEnded := true }, none)
      else some ({ connection with clientEnded := true }, none)

end Connection

structure RedisRateLimiter where
  connection : Connection
  degraded : Bool
  warnings : List String

structure CatalogSearchCache where
  connection : Connection
  warnings : List String

namespace RedisRateLimiter

def degrade (limiter : RedisRateLimiter) (message : String) : RedisRateLimiter :=
  if limiter.degraded then limiter
  else { limiter with
    degraded := true
    warnings := limiter.warnings ++
      ["[RateLimit] " ++ message ++ " — rate limits are now per-instance"] }

def recover (limiter : RedisRateLimiter) : RedisRateLimiter :=
  if limiter.degraded then
    { limiter with
      degraded := false
      warnings := limiter.warnings ++ ["[RateLimit] Redis reconnected — shared buckets restored"] }
  else limiter

def onEvent (limiter : RedisRateLimiter) : Option Event → RedisRateLimiter
  | none => limiter
  | some ⟨.unavailable, message⟩ => limiter.degrade (message ++ "; using in-memory buckets")
  | some ⟨.degraded, message⟩ => limiter.degrade message
  | some ⟨.recovered, _⟩ => limiter.recover

/-- The condition under which `_withRedis` does not fall back at once. -/
def usesRedis (limiter : RedisRateLimiter) : Bool :=
  limiter.connection.hasClient && !limiter.degraded && !limiter.connection.clientEnded

end RedisRateLimiter

namespace CatalogSearchCache

def warn (cache : CatalogSearchCache) (message : String) : CatalogSearchCache :=
  { cache with warnings := cache.warnings ++ ["[CatalogCache] " ++ message] }

def onEvent (cache : CatalogSearchCache) : Option Event → CatalogSearchCache
  | none => cache
  | some ⟨.unavailable, message⟩ | some ⟨.degraded, message⟩ =>
      cache.warn (message ++ "; searching the store directly")
  | some ⟨.recovered, _⟩ => cache.warn "Redis reconnected — shared cache entries available again"

def onDegrade (cache : CatalogSearchCache) (message : String) : CatalogSearchCache :=
  let emitted := cache.connection.emitDegraded message
  { cache with connection := emitted.1 }.onEvent emitted.2

end CatalogSearchCache

inductive Feature where
  | limiter
  | cache
  deriving DecidableEq

/-- The commands in flight: what `_withRedis` and `getUsage` run, `_readL2`, `_writeL2`, and
the publication of an invalidation. -/
inductive Command where
  | operation
  | readL2
  | writeL2
  | publish
  deriving DecidableEq

def Command.feature : Command → Feature
  | .operation => .limiter
  | .readL2 | .writeL2 | .publish => .cache

structure System where
  limiter : RedisRateLimiter
  cache : CatalogSearchCache
  inFlight : Command → ℕ

inductive Action where
  | signal (feature : Feature) (signal : Signal)
  | begin (command : Command)
  | succeed (command : Command)
  | fail (command : Command) (message : String)

namespace System

def init (limiter cache : ConnectionOptions) : System where
  limiter := ⟨createRedisConnection limiter, false, []⟩
  cache := ⟨createRedisConnection cache, []⟩
  inFlight := fun _ => 0

def connection (s : System) : Feature → Connection
  | .limiter => s.limiter.connection
  | .cache => s.cache.connection

/-- Whether an operation of the feature goes to Redis. -/
def uses (s : System) : Feature → Bool
  | .limiter => s.limiter.usesRedis
  | .cache => s.cache.connection.isUsable

def deliver (s : System) (received : Connection × Option Event) : Feature → System
  | .limiter =>
      { s with limiter := { s.limiter with connection := received.1 }.onEvent received.2 }
  | .cache => { s with cache := { s.cache with connection := received.1 }.onEvent received.2 }

/-- What the feature does about a command that fails. -/
def failed (s : System) (message : String) : Command → System
  | .operation =>
      { s with limiter := s.limiter.degrade ("Redis operation failed: " ++ message) }
  | .readL2 => { s with cache := s.cache.onDegrade ("L2 read failed: " ++ message) }
  | .writeL2 => { s with cache := s.cache.onDegrade ("L2 write failed: " ++ message) }
  | .publish => { s with cache := s.cache.warn ("could not publish invalidation: " ++ message) }

def count (s : System) (command : Command) (change : ℕ → ℕ) : System :=
  { s with inFlight := Function.update s.inFlight command (change (s.inFlight command)) }

end System

/-- An operation of a feature that does not use Redis falls back. -/
def step (s : System) : Action → Option System
  | .signal feature signal =>
      ((s.connection feature).receive signal).map fun received => s.deliver received feature
  | .begin command => some (if s.uses command.feature then s.count command (· + 1) else s)
  | .succeed command =>
      if s.inFlight command = 0 then none else some (s.count command (· - 1))
  | .fail command message =>
      if s.inFlight command = 0 then none
      else some ((s.count command (· - 1)).failed message command)

end X402Facilitator.Redis
