import X402Facilitator.Library.Execution
import X402Facilitator.Library.Rounding
import Mathlib.Data.List.Infix

/-!
# The retrying fetch and its circuit breakers

Every call runs a loop of attempts against one host, and sleeps between them.  The
breaker of the host is asked once for a call, before its loop, and is told of
every response and of every retryable error.  Calls that send a transaction do not
ask it.
-/

namespace X402Facilitator.RpcRetry

open Execution

inductive Jitter where
  | off
  | on
  | bound (ms : ℚ)

structure BackoffOptions where
  baseDelayMs : ℚ
  maxDelayMs : ℚ
  jitter : Jitter
  maxJitterMs : ℚ
  isDouble_baseDelayMs : Number.IsDouble baseDelayMs
  isDouble_maxDelayMs : Number.IsDouble maxDelayMs

structure Options where
  attempts : ℕ
  backoff : BackoffOptions
  deadlineMs : Number
  threshold : ℕ
  cooldownMs : ℕ

def expDelay (options : BackoffOptions) (attempt : ℕ) : Number :=
  Number.min (.finite options.maxDelayMs)
    (Number.mul (.finite options.baseDelayMs) (Number.twoPow (max 1 attempt - 1)))

def jittered (options : BackoffOptions) (attempt : ℕ) (random : ℚ) (jitterBound : Number) :
    Number :=
  let jitterVal :=
    if .finite 0 < jitterBound then Number.floor (Number.mul (.finite random) jitterBound)
    else .finite 0
  Number.min (.finite options.maxDelayMs) (Number.add (expDelay options attempt) jitterVal)

def calculateBackoff (options : BackoffOptions) (attempt : ℕ) (random : ℚ) : Number :=
  match options.jitter with
  | .off => expDelay options attempt
  | .on =>
      jittered options attempt random
        (Number.min (expDelay options attempt) (.finite options.maxJitterMs))
  | .bound ms =>
      if ms = 0 then expDelay options attempt else jittered options attempt random (.finite ms)

/-- `deadlineMs` of the request takes the place of the configured one.  A deadline that is not
positive or not finite is none. -/
def deadlineOf (options : Options) (deadlineMs : Option Number) (startTime : ℚ) : Option ℚ :=
  match deadlineMs.getD options.deadlineMs with
  | .finite ms =>
      if 0 < ms then
        match Number.nearest (startTime + ms) with
        | .finite deadline => some deadline
        | _ => none
      else none
  | _ => none

/-- `now() >= deadline` -/
def pastDeadline (deadline : Option ℚ) (now : ℚ) : Bool := deadline.any (· ≤ now)

/-- `currentTime + delay > deadline` -/
def endsLate (deadline : Option ℚ) (currentTime : ℚ) (delay : Number) : Bool :=
  deadline.any fun limit => decide (.finite limit < Number.add (.finite currentTime) delay)

structure RpcError where
  causeCode : Option String
  code : Option String
  deriving DecidableEq

/-- `err?.cause?.code ?? err?.code` -/
def RpcError.retryCode (err : RpcError) : Option String := err.causeCode.or err.code

/-- `RETRYABLE` -/
def retryableCodes : List String :=
  ["ETIMEDOUT", "ECONNRESET", "ECONNREFUSED", "EAI_AGAIN", "UND_ERR_CONNECT_TIMEOUT",
    "UND_ERR_SOCKET"]

def RpcError.retryable (err : RpcError) : Bool := err.retryCode.any (· ∈ retryableCodes)

/-- The signal that a dial is given: the one of the caller, if there is one, with the request as
it came, an aborted one, or one with a timeout, alone or together with the one of the caller. -/
inductive Signal where
  | asItCame
  | aborted
  | user
  | timeout (ms : ℚ)
  | any (ms : ℚ)
  deriving DecidableEq

/-- `AbortSignal.timeout` takes a whole number of 32 bits. -/
def acceptsTimeout (ms : ℚ) : Prop := ms.den = 1 ∧ 0 ≤ ms ∧ ms ≤ 4294967295

instance (ms : ℚ) : Decidable (acceptsTimeout ms) := inferInstanceAs (Decidable (_ ∧ _))

/-- What `AbortSignal.timeout` throws. -/
def rangeError : RpcError := ⟨none, some "ERR_OUT_OF_RANGE"⟩

/-- `userSignal` is whether the signal of the caller is aborted. -/
def createDeadlineSignal (userSignal : Option Bool) (remainingMs : Number) :
    Except RpcError Signal :=
  match remainingMs with
  | .finite ms =>
      if ms ≤ 0 then .ok .aborted
      else if userSignal = some true then .ok .user
      else if ¬ acceptsTimeout ms then .error rangeError
      else if userSignal = none then .ok (.timeout ms)
      else .ok (.any ms)
  | _ => .ok .aborted

/-- The signal of an attempt that is dialled at a time. -/
def signalOf (protectedCall : Bool) (deadline : Option ℚ) (userSignal : Option Bool) (now : ℚ) :
    Except RpcError Signal :=
  match deadline with
  | none => .ok .asItCame
  | some deadline =>
      if protectedCall then .ok .asItCame
      else createDeadlineSignal userSignal (Number.nearest (deadline - now))

inductive CircuitState where
  | closed
  | opened
  | halfOpen
  deriving DecidableEq, Repr

structure Breaker where
  state : CircuitState
  consecutiveFailures : ℕ
  openedAt : ℕ
  probeInFlight : Bool
  deriving DecidableEq, Repr

def Breaker.initial : Breaker := ⟨.closed, 0, 0, false⟩

def recordFailure (threshold now : ℕ) (b : Breaker) : Breaker :=
  let failed := { b with consecutiveFailures := b.consecutiveFailures + 1 }
  if failed.state = .halfOpen ∨ threshold ≤ failed.consecutiveFailures then
    if failed.state ≠ .opened then { failed with openedAt := now, state := .opened } else failed
  else failed

def recordSuccess (b : Breaker) : Breaker :=
  { b with state := .closed, consecutiveFailures := 0, probeInFlight := false }

/-- The breaker after the call has been let through; `none` when it is refused. -/
def gate (cooldownMs now : ℕ) (b : Breaker) : Option Breaker :=
  match b.state with
  | .opened =>
      if now < b.openedAt + cooldownMs then none
      else some { b with state := .halfOpen, probeInFlight := true }
  | .halfOpen => if b.probeInFlight then none else some b
  | .closed => some b

def isSendTransaction (body : Option String) : Bool :=
  body.any fun text => "\"sendTransaction\"".toList <:+: text.toList

inductive Stage where
  | dialling (attempt : ℕ)
  | sleeping (attempt wakesAt : ℕ)
  | returned
  | threw
  | refused
  deriving DecidableEq, Repr

def Stage.inFlight : Stage → Bool
  | .dialling _ | .sleeping _ _ => true
  | _ => false

/-- A call of the wrapped `fetch`.  `admittedIn` is how often the breaker of the
host had opened when the call passed it. -/
structure Call (Host : Type*) where
  host : Host
  protectedCall : Bool
  deadline : Option ℚ
  stage : Stage
  admittedIn : ℕ
  deriving DecidableEq

/-- An attempt as it is dialled, with the time at which the breaker of the host had
last opened. -/
structure Dial where
  protectedCall : Bool
  dialledAt : ℕ
  lastOpened : Option ℕ
  deriving DecidableEq

/-- The breakers and the calls, with a history: how often each breaker opened, who
made it half-open last, and the attempts that were dialled. -/
structure System (Host : Type*) where
  breakers : Host → Breaker
  calls : ℕ → Option (Call Host)
  now : ℕ
  openings : Host → ℕ
  probe : Host → Option ℕ
  dials : List Dial

variable {Host : Type*} [DecidableEq Host]

omit [DecidableEq Host] in
def System.init : System Host where
  breakers := fun _ => .initial
  calls := fun _ => none
  now := 0
  openings := fun _ => 0
  probe := fun _ => none
  dials := []

/-- The outcome of an attempt is a response or an error; its code decides whether it
may be retried. -/
inductive Action (Host : Type*) where
  | start (id : ℕ) (host : Host) (body : Option String) (deadlineMs : Option Number)
      (userSignal : Option Bool)
  | responds (id : ℕ)
  | fails (id : ℕ) (retryable : Bool) (random : ℚ)
  | wakes (id : ℕ) (userSignal : Option Bool)
  | wait (ms : ℕ)

namespace System

omit [DecidableEq Host] in
def lastOpened (s : System Host) (host : Host) : Option ℕ :=
  if s.openings host = 0 then none else some (s.breakers host).openedAt

omit [DecidableEq Host] in
def setCall (s : System Host) (id : ℕ) (call : Call Host) : System Host :=
  { s with calls := Function.update s.calls id (some call) }

/-- The breaker of the host moves; an opening is counted. -/
def setBreaker (s : System Host) (host : Host) (b : Breaker) : System Host :=
  { s with
    breakers := Function.update s.breakers host b
    openings := Function.update s.openings host
      (if b.state = .opened ∧ (s.breakers host).state ≠ .opened then s.openings host + 1
       else s.openings host) }

omit [DecidableEq Host] in
/-- The head of the loop, at an attempt.  What `AbortSignal.timeout` throws is not retryable. -/
def loop (options : Options) (s : System Host) (id : ℕ) (call : Call Host)
    (userSignal : Option Bool) (attempt : ℕ) : System Host :=
  if options.attempts < attempt then s.setCall id { call with stage := .threw }
  else if 1 < attempt && pastDeadline call.deadline s.now then
    s.setCall id { call with stage := .threw }
  else
    match signalOf call.protectedCall call.deadline userSignal s.now with
    | .error _ => s.setCall id { call with stage := .threw }
    | .ok _ =>
        { s.setCall id { call with stage := .dialling attempt } with
          dials := s.dials ++ [⟨call.protectedCall, s.now, s.lastOpened call.host⟩] }

/-- What `setTimeout` makes of a delay. -/
def timerOf : Number → ℕ
  | .finite ms => if 1 ≤ ms ∧ ms ≤ 2147483647 then ⌊ms⌋₊ else 1
  | _ => 1

/-- The catch block after a retryable error has been recorded. -/
def afterFailure (options : Options) (now attempt : ℕ) (deadline : Option ℚ) (random : ℚ) :
    Stage :=
  if attempt = options.attempts then .threw
  else if pastDeadline deadline now then .threw
  else
    let delay := calculateBackoff options.backoff attempt random
    if endsLate deadline now delay then .threw else .sleeping attempt (now + timerOf delay)

end System

def step (options : Options) (s : System Host) : Action Host → Option (System Host)
  | .start id host body deadlineMs userSignal =>
      match s.calls id with
      | some _ => none
      | none =>
          let call : Call Host :=
            ⟨host, isSendTransaction body, deadlineOf options deadlineMs s.now, .dialling 0,
              s.openings host⟩
          if call.protectedCall then some (s.loop options id call userSignal 1)
          else
            match gate options.cooldownMs s.now (s.breakers host) with
            | none => some (s.setCall id { call with stage := .refused })
            | some b =>
                let admitted := s.setBreaker host b
                some (System.loop options
                  { admitted with
                    probe := Function.update s.probe host
                      (if (s.breakers host).state = .opened then some id else s.probe host) }
                  id call userSignal 1)
  | .responds id =>
      match s.calls id with
      | some call =>
          match call.stage with
          | .dialling _ =>
              some ((s.setBreaker call.host (recordSuccess (s.breakers call.host))).setCall id
                { call with stage := .returned })
          | _ => none
      | none => none
  | .fails id retryable random =>
      match s.calls id with
      | some call =>
          match call.stage with
          | .dialling attempt =>
              if retryable then
                some ((s.setBreaker call.host
                    (recordFailure options.threshold s.now (s.breakers call.host))).setCall id
                  { call with
                    stage := System.afterFailure options s.now attempt call.deadline random })
              else some (s.setCall id { call with stage := .threw })
          | _ => none
      | none => none
  | .wakes id userSignal =>
      match s.calls id with
      | some call =>
          match call.stage with
          | .sleeping attempt wakesAt =>
              if wakesAt ≤ s.now then some (s.loop options id call userSignal (attempt + 1))
              else none
          | _ => none
      | none => none
  | .wait ms => some { s with now := s.now + ms }

end X402Facilitator.RpcRetry
