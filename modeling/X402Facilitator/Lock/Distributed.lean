import X402Facilitator.Lock.MemoryLock

/-!
# The distributed lock

`withLock` runs its function under a Redlock lock, and under the lock of the process
once no Redis node has been reachable.  Redlock is taken as it is documented: it
grants a key only while no unexpired lock of it is held.  A lock expires by itself
unless it is extended, and a failed extension only raises a signal.
-/

namespace X402Facilitator.DistributedLock

open Execution

structure Options where
  nodes : List String
  ttlMs : ℕ
  acquireTimeoutMs : ℕ
  retryDelayMs : ℕ

def Options.urls (options : Options) : List String := options.nodes.filter (· ≠ "")

/-- What became of the function; `timedOut` is a `LockAcquireTimeoutError` that it
threw itself. -/
inductive Result where
  | returned
  | threw
  | timedOut
  deriving DecidableEq, Repr

/-- How far a call of `withLock` has got; `place` is its number among the acquirers of the lock
of the process.  `releasing` awaits `lock.release()`. -/
inductive Stage where
  | acquiring (deadline : ℕ)
  | sleeping (deadline wakesAt : ℕ)
  | queued (place : ℕ)
  | runningRedlock (cancelled : Bool)
  | runningMemory (place : ℕ)
  | releasing (result : Result)
  | ended
  deriving DecidableEq, Repr

/-- `invoked` counts the runs of the function. -/
structure Call (Key : Type*) where
  key : Key
  stage : Stage
  invoked : ℕ

/-- A lock in Redis: the call of this process that holds it, if one does, and when it
expires. -/
structure Grant where
  holder : Option ℕ
  expiresAt : ℕ

/-- `mutex` is `memoryFallback`, or the lock itself where there are no nodes. -/
structure System (Key : Type*) where
  degraded : Bool
  calls : ℕ → Option (Call Key)
  locks : Key → Option Grant
  mutex : MemoryLock.System Key
  now : ℕ

variable {Key : Type*} [DecidableEq Key]

omit [DecidableEq Key] in
def System.init : System Key where
  degraded := false
  calls := fun _ => none
  locks := fun _ => none
  mutex := .init
  now := 0

/-- `granted` and `rejected` are the outcomes of `redlock.acquire`, `extended` and
`released` those of `lock.extend` and `lock.release`; a lock is granted and extended for at most
its TTL, less the drift.  `reachable` is whether a client is ready.  The lock of the process is
handed over by `reached`, and `entered` runs the function.  Another replica may take a free
lock. -/
inductive Action (Key : Type*) where
  | withLock (id : ℕ) (key : Key)
  | granted (id validity : ℕ)
  | rejected (id : ℕ) (reachable : Bool)
  | retries (id : ℕ)
  | reached (id : ℕ)
  | entered (id : ℕ)
  | extended (id : ℕ) (validity : Option ℕ)
  | finishes (id : ℕ) (result : Result)
  | released (id : ℕ) (succeeds reachable : Bool)
  | takenElsewhere (key : Key) (validity : ℕ)
  | wait (ms : ℕ)

/-- Nobody holds the key, or the lock on it has expired. -/
def Free (locks : Key → Option Grant) (now : ℕ) (key : Key) : Prop :=
  ∀ grant ∈ locks key, grant.expiresAt ≤ now

omit [DecidableEq Key] in
theorem free_iff (locks : Key → Option Grant) (now : ℕ) (key : Key) :
    Free locks now key ↔ ((locks key).all fun grant => grant.expiresAt ≤ now) = true := by
  rw [Free]
  cases locks key <;> simp

instance (locks : Key → Option Grant) (now : ℕ) (key : Key) : Decidable (Free locks now key) :=
  decidable_of_iff _ (free_iff locks now key).symm

namespace System

section

omit [DecidableEq Key]

def setCall (s : System Key) (id : ℕ) (call : Call Key) : System Key :=
  { s with calls := Function.update s.calls id (some call) }

def setStage (s : System Key) (id : ℕ) (call : Call Key) (stage : Stage) : System Key :=
  s.setCall id { call with stage := stage }

def invoke (s : System Key) (id : ℕ) (call : Call Key) (stage : Stage) : System Key :=
  s.setCall id { call with stage := stage, invoked := call.invoked + 1 }

end

def setLock (s : System Key) (key : Key) (grant : Option Grant) : System Key :=
  { s with locks := Function.update s.locks key grant }

/-- `memoryFallback.withLock(key, fn)` -/
def acquireMemory (s : System Key) (id : ℕ) (call : Call Key) : System Key :=
  { s.setStage id call (.queued s.mutex.acquirers.length) with
    mutex := s.mutex.acquire call.key .withLock }

/-- The catch block of `withLock`, after a `LockAcquireTimeoutError`. -/
def timedOut (s : System Key) (id : ℕ) (call : Call Key) (reachable : Bool) : System Key :=
  if reachable then s.setStage id call .ended
  else { s.acquireMemory id call with degraded := true }

end System

def step (options : Options) (s : System Key) : Action Key → Option (System Key)
  | .withLock id key =>
      match s.calls id with
      | some _ => none
      | none =>
          let call : Call Key := ⟨key, .acquiring (s.now + options.acquireTimeoutMs), 0⟩
          if options.urls = [] ∨ s.degraded then some (s.acquireMemory id call)
          else some (s.setCall id call)
  | .granted id validity =>
      match s.calls id with
      | some call =>
          match call.stage with
          | .acquiring _ =>
              if Free s.locks s.now call.key ∧ 0 < validity ∧ validity ≤ options.ttlMs then
                some ((s.invoke id call (.runningRedlock false)).setLock call.key
                  (some ⟨some id, s.now + validity⟩))
              else none
          | _ => none
      | none => none
  | .rejected id reachable =>
      match s.calls id with
      | some call =>
          match call.stage with
          | .acquiring deadline =>
              if deadline ≤ s.now then some (s.timedOut id call reachable)
              else some (s.setStage id call (.sleeping deadline (s.now + options.retryDelayMs)))
          | _ => none
      | none => none
  | .retries id =>
      match s.calls id with
      | some call =>
          match call.stage with
          | .sleeping deadline wakesAt =>
              if wakesAt ≤ s.now then some (s.setStage id call (.acquiring deadline)) else none
          | _ => none
      | none => none
  | .reached id =>
      match s.calls id with
      | some call =>
          match call.stage with
          | .queued place =>
              (MemoryLock.step s.mutex (.grant place)).map fun mutex => { s with mutex := mutex }
          | _ => none
      | none => none
  | .entered id =>
      match s.calls id with
      | some call =>
          match call.stage with
          | .queued place =>
              (MemoryLock.step s.mutex (.invoke place)).map fun mutex =>
                { s.invoke id call (.runningMemory place) with mutex := mutex }
          | _ => none
      | none => none
  | .extended id validity =>
      match s.calls id with
      | some call =>
          match call.stage with
          | .runningRedlock _ =>
              match validity with
              | some validity =>
                  if ¬ Free s.locks s.now call.key ∧
                      (s.locks call.key).bind Grant.holder = some id ∧
                      0 < validity ∧ validity ≤ options.ttlMs then
                    some (s.setLock call.key (some ⟨some id, s.now + validity⟩))
                  else none
              | none => some (s.setStage id call (.runningRedlock true))
          | _ => none
      | none => none
  | .finishes id result =>
      match s.calls id with
      | some call =>
          match call.stage with
          | .runningRedlock _ => some (s.setStage id call (.releasing result))
          | .runningMemory place =>
              (MemoryLock.step s.mutex (.finish place (result ≠ .returned))).map fun mutex =>
                { s.setStage id call .ended with mutex := mutex }
          | _ => none
      | none => none
  | .released id succeeds reachable =>
      match s.calls id with
      | some call =>
          match call.stage with
          | .releasing result =>
              let freed :=
                if succeeds ∧ (s.locks call.key).bind Grant.holder = some id then
                  s.setLock call.key none
                else s
              match result with
              | .timedOut => some (freed.timedOut id call reachable)
              | _ => some (freed.setStage id call .ended)
          | _ => none
      | none => none
  | .takenElsewhere key validity =>
      if Free s.locks s.now key then
        some (s.setLock key (some ⟨none, s.now + validity⟩))
      else none
  | .wait ms => some { s with now := s.now + ms }

end X402Facilitator.DistributedLock
