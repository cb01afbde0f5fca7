import X402Facilitator.Library.Execution
import X402Facilitator.Library.Eviction
import X402Facilitator.Library.Table
import Mathlib.Order.Defs.LinearOrder

/-!
# The multi-signer engine

An envelope collects signatures of one transaction under an id that the caller
chooses.  A request to the co-signers captures the transaction of the envelope it
finds, and every reply is recorded under the id when it arrives.  An envelope that has
been replaced under its id stays an object that nobody finds.
-/

namespace X402Facilitator.MultiSigner

open Execution

inductive Given (A : Type*) where
  | falsy
  | text (value : A)
  | other
  deriving DecidableEq

/-- A threshold; one that is no integer is known by its text. -/
inductive Threshold where
  | integer (value : ℤ)
  | other (text : String)

inductive Status where
  | pending
  | complete
  | expired
  deriving DecidableEq, Repr

/-- A threshold below one is refused when an engine is built. -/
structure Options (Time : Type*) where
  threshold : ℕ
  coSignerEndpoints : List String
  expiresInMs : Time
  hasFetch : Bool
  positive : 1 ≤ threshold

/-- What `createEnvelope` is given.  Signers that are neither null nor an array are
refused as an empty array is. -/
structure EnvelopeInput (Signer Time : Type*) where
  id : Given String
  transactionXdr : Given String
  threshold : Option Threshold
  requiredSigners : Option (List (Given Signer))
  expiresInMs : Option Time

structure Envelope (Signer Time : Type*) where
  id : String
  transactionXdr : String
  threshold : ℕ
  requiredSigners : Option (List (Given Signer))
  signatures : InsertionMap Signer String
  createdAt : Time
  expiresAt : Time
  status : Status

structure Snapshot (Signer Time : Type*) where
  id : String
  transactionXdr : String
  threshold : ℕ
  requiredSigners : Option (List (Given Signer))
  signatures : List (Signer × String)
  collected : ℕ
  complete : Bool
  createdAt : Time
  expiresAt : Time
  status : Status

structure Assembled (Signer : Type*) where
  envelopeId : String
  transactionXdr : String
  threshold : ℕ
  signatures : List (Signer × String)

inductive RequestResult (Signer : Type*) where
  | signed (signer : Given Signer) (collected : ℕ)
  | failed (error : String)

/-- A request to one endpoint, and what became of it. -/
structure Flight (Signer : Type*) where
  envelopeId : String
  transactionXdr : String
  endpoint : String
  result : Option (RequestResult Signer)

/-- What an endpoint answers: the request fails or is aborted, the status is not that of
a success, the body cannot be read, or it can. -/
inductive Reply (Signer : Type*) where
  | rejects (message : String)
  | refuses (status : ℕ)
  | unreadable (message : String)
  | body (signer : Given Signer) (signature : Given String)

/-- `recorded` are the signatures ever recorded, each with the envelope it was recorded
for, and `submitted` what `submit` has been called with. -/
structure System (Signer Time : Type*) where
  now : Time
  envelopes : List (Envelope Signer Time)
  pending : InsertionMap String ℕ
  flights : List (Flight Signer)
  recorded : List (ℕ × Signer × String)
  submitted : List (Assembled Signer)

section Envelopes

variable {Signer Time : Type*}

def Envelope.snapshot (envelope : Envelope Signer Time) : Snapshot Signer Time where
  id := envelope.id
  transactionXdr := envelope.transactionXdr
  threshold := envelope.threshold
  requiredSigners := envelope.requiredSigners
  signatures := envelope.signatures.entries
  collected := envelope.signatures.size
  complete := decide (envelope.threshold ≤ envelope.signatures.size)
  createdAt := envelope.createdAt
  expiresAt := envelope.expiresAt
  status := envelope.status

/-- `!envelope.requiredSigners || envelope.requiredSigners.includes(signer)` -/
def Envelope.allows [DecidableEq Signer] (envelope : Envelope Signer Time) (signer : Signer) :
    Bool :=
  envelope.requiredSigners.elim true fun signers => decide (.text signer ∈ signers)

def Envelope.sign [DecidableEq Signer] (envelope : Envelope Signer Time) (signer : Signer)
    (signature : String) : Envelope Signer Time :=
  let signatures := envelope.signatures.set signer signature
  { envelope with
    signatures := signatures
    status := if envelope.threshold ≤ signatures.size then .complete else envelope.status }

/-- The collected signatures in the order of their signers. -/
def Envelope.inSignerOrder [LinearOrder Signer] (envelope : Envelope Signer Time) :
    List (Signer × String) :=
  envelope.signatures.entries.mergeSort fun a b => decide (a.1 ≤ b.1)

def Envelope.assembled [LinearOrder Signer] (envelope : Envelope Signer Time) :
    Assembled Signer where
  envelopeId := envelope.id
  transactionXdr := envelope.transactionXdr
  threshold := envelope.threshold
  signatures := envelope.inSignerOrder

def Envelope.expire (envelope : Envelope Signer Time) : Envelope Signer Time :=
  { envelope with status := .expired }

def Envelope.complete (envelope : Envelope Signer Time) : Envelope Signer Time :=
  { envelope with status := .complete }

end Envelopes

def unknownEnvelope (id : String) : String := "unknown multi-signer envelope \"" ++ id ++ "\""

def envelopeExpired (id : String) : String := "multi-signer envelope \"" ++ id ++ "\" expired"

def invalidThreshold (text : String) : String :=
  "multi-signer threshold must be a positive integer, got \"" ++ text ++ "\""

def exceedsSigners (threshold signers : ℕ) : String :=
  "multi-signer threshold " ++ toString threshold ++ " exceeds " ++ toString signers ++
    " required signers"

def notAuthorized (signer id : String) : String :=
  "signer \"" ++ signer ++ "\" is not an authorized co-signer for \"" ++ id ++ "\""

def thresholdUnmet (id : String) (collected threshold : ℕ) : String :=
  "multi-signer envelope \"" ++ id ++ "\" has " ++ toString collected ++ "/" ++
    toString threshold ++ " signatures"

/-- `Number.isInteger(t) && t >= 1` -/
def checkThreshold : Threshold → Except String ℕ
  | .integer value =>
      if value < 1 then .error (invalidThreshold (toString value)) else .ok value.toNat
  | .other text => .error (invalidThreshold text)

def checkSigners {Signer : Type*} (threshold : ℕ) :
    Option (List (Given Signer)) → Except String Unit
  | none => .ok ()
  | some signers =>
      if signers.isEmpty then
        .error "multi-signer requiredSigners must be a non-empty array or null"
      else if signers.length < threshold then .error (exceedsSigners threshold signers.length)
      else .ok ()

variable {Signer Time : Type*} [LinearOrder Signer] [ToString Signer]
variable [LinearOrder Time] [Add Time]

/-- The new envelope of `createEnvelope`. -/
def envelopeOf (options : Options Time) (now : Time) (input : EnvelopeInput Signer Time) :
    Except String (Envelope Signer Time) :=
  match input.id, input.transactionXdr with
  | .text id, .text transactionXdr =>
      match input.threshold.elim (.ok options.threshold) checkThreshold with
      | .error message => .error message
      | .ok threshold =>
          match checkSigners threshold input.requiredSigners with
          | .error message => .error message
          | .ok () => .ok
              { id := id
                transactionXdr := transactionXdr
                threshold := threshold
                requiredSigners := input.requiredSigners
                signatures := .empty
                createdAt := now
                expiresAt := now + input.expiresInMs.getD options.expiresInMs
                status := .pending }
  | .text _, _ => .error "multi-signer envelope requires transactionXdr"
  | _, _ => .error "multi-signer envelope requires a string id"

namespace System

def init (now : Time) : System Signer Time := ⟨now, [], .empty, [], [], []⟩

/-- The envelope under an id, with its place among all that have been created. -/
def find (s : System Signer Time) (id : String) : Option (ℕ × Envelope Signer Time) :=
  (s.pending.get id).bind fun ref => s.envelopes[ref]?.map fun envelope => (ref, envelope)

def modify (s : System Signer Time) (ref : ℕ)
    (change : Envelope Signer Time → Envelope Signer Time) : System Signer Time :=
  { s with envelopes := s.envelopes.modify ref change }

/-- The condition of `assertLive`. -/
def isExpired (s : System Signer Time) (envelope : Envelope Signer Time) : Bool :=
  envelope.status = .expired || decide (envelope.expiresAt < s.now)

def createEnvelope (options : Options Time) (s : System Signer Time)
    (input : EnvelopeInput Signer Time) :
    System Signer Time × Except String (Snapshot Signer Time) :=
  match envelopeOf options s.now input with
  | .error message => (s, .error message)
  | .ok envelope =>
      ({ s with
          envelopes := s.envelopes ++ [envelope]
          pending := s.pending.set envelope.id s.envelopes.length }, .ok envelope.snapshot)

def getEnvelope (s : System Signer Time) (id : String) : Option (Snapshot Signer Time) :=
  (s.find id).map fun found => found.2.snapshot

/-- The envelopes that `purgeExpired` marks. -/
def purges (s : System Signer Time) (ref : ℕ) : Bool :=
  decide (ref ∈ s.pending.entries.map Prod.snd) && s.envelopes[ref]?.any fun envelope =>
    envelope.status = .pending && decide (envelope.expiresAt < s.now)

def purgeExpired (s : System Signer Time) : System Signer Time × ℕ :=
  ({ s with envelopes := Table.updateWhere (s.purges · = true) Envelope.expire s.envelopes },
    (List.range s.envelopes.length).countP s.purges)

def listPending (s : System Signer Time) : System Signer Time × List (Snapshot Signer Time) :=
  let purged := s.purgeExpired.1
  (purged, (purged.pending.entries.filterMap fun entry => purged.envelopes[entry.2]?).filterMap
    fun envelope => if envelope.status = .pending then some envelope.snapshot else none)

def record (s : System Signer Time) (ref : ℕ) (signer : Signer) (signature : String) :
    System Signer Time :=
  { s.modify ref fun envelope => envelope.sign signer signature with
    recorded := s.recorded ++ [(ref, signer, signature)] }

def addSignature (s : System Signer Time) (id : String) (signer : Given Signer)
    (signature : Given String) : System Signer Time × Except String (Snapshot Signer Time) :=
  match s.find id with
  | none => (s, .error (unknownEnvelope id))
  | some (ref, envelope) =>
      if s.isExpired envelope then
        (s.modify ref Envelope.expire, .error (envelopeExpired envelope.id))
      else
        match signer, signature with
        | .text signer, .text signature =>
            if envelope.allows signer then
              (s.record ref signer signature, .ok (envelope.sign signer signature).snapshot)
            else (s, .error (notAuthorized (toString signer) id))
        | .text _, _ => (s, .error "signature requires a signature payload")
        | _, _ => (s, .error "signature requires a signer id")

def isComplete (s : System Signer Time) (id : String) : System Signer Time × Bool :=
  match s.find id with
  | none => (s, false)
  | some (ref, envelope) =>
      if s.isExpired envelope then (s.modify ref Envelope.expire, false)
      else (s, decide (envelope.threshold ≤ envelope.signatures.size))

/-- `requestSignatures`, up to the replies. -/
def requestSignatures (options : Options Time) (s : System Signer Time) (id : String)
    (endpoints : Option (List String)) : System Signer Time × Except String Unit :=
  match s.find id with
  | none => (s, .error (unknownEnvelope id))
  | some (ref, envelope) =>
      if s.isExpired envelope then
        (s.modify ref Envelope.expire, .error (envelopeExpired envelope.id))
      else if options.hasFetch then
        let flights := (endpoints.getD options.coSignerEndpoints).map fun endpoint =>
          (⟨id, envelope.transactionXdr, endpoint, none⟩ : Flight Signer)
        ({ s with flights := s.flights ++ flights }, .ok ())
      else (s, .error "no fetch implementation available for co-signer requests")

def setResult (s : System Signer Time) (index : ℕ) (result : RequestResult Signer) :
    System Signer Time :=
  { s with flights := s.flights.modify index fun flight => { flight with result := some result } }

/-- A reply arrives, whatever has become of the envelope. -/
def receive (s : System Signer Time) (index : ℕ) (flight : Flight Signer) :
    Reply Signer → System Signer Time
  | .rejects message => s.setResult index (.failed message)
  | .refuses status => s.setResult index (.failed ("co-signer HTTP " ++ toString status))
  | .unreadable message => s.setResult index (.failed message)
  | .body .falsy _ | .body _ .falsy =>
      s.setResult index (.failed "co-signer reply missing signer/signature")
  | .body signer signature =>
      match s.addSignature flight.envelopeId signer signature with
      | (s, .ok updated) => s.setResult index (.signed signer updated.collected)
      | (s, .error message) => s.setResult index (.failed message)

def assembleEnvelope (s : System Signer Time) (id : String) :
    System Signer Time × Except String (Assembled Signer) :=
  match s.find id with
  | none => (s, .error (unknownEnvelope id))
  | some (ref, envelope) =>
      if s.isExpired envelope then
        (s.modify ref Envelope.expire, .error (envelopeExpired envelope.id))
      else if envelope.signatures.size < envelope.threshold then
        (s, .error (thresholdUnmet id envelope.signatures.size envelope.threshold))
      else (s.modify ref Envelope.complete, .ok envelope.assembled)

def submitMultiSignerEnvelope (s : System Signer Time) (id : String) : System Signer Time :=
  match s.assembleEnvelope id with
  | (s, .ok assembled) => { s with submitted := s.submitted ++ [assembled] }
  | (s, .error _) => s

end System

inductive Action (Signer Time : Type*) where
  | createEnvelope (input : EnvelopeInput Signer Time)
  | addSignature (id : String) (signer : Given Signer) (signature : Given String)
  | requestSignatures (id : String) (endpoints : Option (List String))
  | receive (index : ℕ) (reply : Reply Signer)
  | isComplete (id : String)
  | listPending
  | purgeExpired
  | getEnvelope (id : String)
  | assembleEnvelope (id : String)
  | submitMultiSignerEnvelope (id : String)
  | tick (now : Time)

def step (options : Options Time) (s : System Signer Time) :
    Action Signer Time → Option (System Signer Time)
  | .createEnvelope input => some (s.createEnvelope options input).1
  | .addSignature id signer signature => some (s.addSignature id signer signature).1
  | .requestSignatures id endpoints => some (s.requestSignatures options id endpoints).1
  | .receive index reply =>
      match s.flights[index]? with
      | some flight => if flight.result.isNone then some (s.receive index flight reply) else none
      | none => none
  | .isComplete id => some (s.isComplete id).1
  | .listPending => some s.listPending.1
  | .purgeExpired => some s.purgeExpired.1
  | .getEnvelope _ => some s
  | .assembleEnvelope id => some (s.assembleEnvelope id).1
  | .submitMultiSignerEnvelope id => some (s.submitMultiSignerEnvelope id)
  | .tick now => if s.now ≤ now then some { s with now := now } else none

end X402Facilitator.MultiSigner
