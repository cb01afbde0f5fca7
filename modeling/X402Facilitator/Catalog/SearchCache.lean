import X402Facilitator.Catalog.DiscoveryCache
import X402Facilitator.Library.Execution

/-!
# The search cache of several replicas

Every replica has a store with its own counter of writes, a first tier and the table of
its running loads.  The second tier and the channel of invalidations are shared: a
command that has been sent may be executed late or again, a key may expire at any time,
and a message may be lost, delayed, repeated or overtaken.
-/

namespace X402Facilitator.Catalog

def searchCacheKey (toLowerCase : String → String) (params : Params) : String :=
  let trimmed := fun text : Option String => String.ofList (Text.trim (text.getD "").toList)
  let query := toLowerCase (trimmed params.query)
  let extensions := (params.extensions.getD []).mergeSort inCodeUnitOrder
  let scopedParams := [params.type, params.payTo, params.scheme, params.network].map trimmed
  (Json.arr ([.str query, .ofNat (params.limit.getD 20), .ofNat (params.offset.getD 0),
    .str (params.cursor.getD ""), .str (",".intercalate extensions)] ++
      scopedParams.map .str)).stringify

def keyPrefix : String := "x402:catalog:search"

def keyFor (toLowerCase : String → String) (params : Params) (version : ℕ) : String :=
  keyPrefix ++ ":v" ++ toString version ++ ":" ++ searchCacheKey toLowerCase params

structure CacheConfig where
  maxEntries : ℕ
  l1TtlMs : ℕ
  toLowerCase : String → String

structure Timed (Value : Type) where
  value : Value
  expiresAt : ℕ

/-- `LruTtlCache`: the last entry is the one that was used last. -/
abbrev LruTtlCache (Value : Type) := InsertionMap String (Timed Value)

namespace LruTtlCache

variable {Value : Type}

/-- `get` -/
def read (cache : LruTtlCache Value) (now : ℕ) (key : String) :
    Option Value × LruTtlCache Value :=
  match InsertionMap.get cache key with
  | none => (none, cache)
  | some timed =>
      if timed.expiresAt ≤ now then (none, InsertionMap.erase cache key)
      else (some timed.value, InsertionMap.set (InsertionMap.erase cache key) key timed)

/-- `set`: the coldest entries go. -/
def write (cache : LruTtlCache Value) (config : CacheConfig) (now : ℕ) (key : String)
    (value : Value) : LruTtlCache Value :=
  InsertionMap.keepLast config.maxEntries
    (InsertionMap.set (InsertionMap.erase cache key) key ⟨value, now + config.l1TtlMs⟩)

end LruTtlCache

/-- A result, with the content of the store that it was computed from. -/
structure Found (Content Result : Type) where
  origin : Content
  result : Result

inductive Tier where
  | l1
  | l2
  | store
  deriving DecidableEq

/-- Where a load stands: it has asked the second tier, has been told, has the store
search, or has its answer. -/
inductive Phase (Content Result : Type) where
  | asking
  | told (shared : Option (Found Content Result))
  | searching (found : Option (Found Content Result))
  | answering (tier : Tier) (found : Found Content Result)

/-- A load that is under way, with what the store held when each of its callers came. -/
structure Call (Content Result : Type) where
  params : Params
  version : ℕ
  live : Bool
  phase : Phase Content Result
  callers : List Content

/-- `received` is the highest version that an invalidation has brought. -/
structure Replica (Content Result : Type) where
  now : ℕ
  content : Content
  version : ℕ
  l1 : LruTtlCache (Found Content Result)
  inflight : InsertionMap String (Call Content Result)
  minValidVersion : ℕ
  lastSeenVersion : ℕ
  received : ℕ

/-- An answer to a caller, with what the store held when it came. -/
structure Answer (Content Result : Type) where
  content : Content
  tier : Tier
  found : Found Content Result
  retired : Bool

variable {Content Result : Type}

namespace Replica

def start (content : Content) : Replica Content Result :=
  ⟨0, content, 0, .empty, .empty, 0, 0, 0⟩

def store (replica : Replica Content Result) (content : Content) : Replica Content Result :=
  { replica with content := content, version := replica.version + 1 }

/-- `store.search`, none for a rejection. -/
def searchStore (storeSearch : Content → Params → Option Result) (replica : Replica Content Result)
    (params : Params) : Option (Found Content Result) :=
  (storeSearch replica.content params).map fun result => ⟨replica.content, result⟩

def setCall (replica : Replica Content Result) (key : String) (call : Call Content Result) :
    Replica Content Result :=
  { replica with inflight := replica.inflight.set key call }

def endCall (replica : Replica Content Result) (key : String) : Replica Content Result :=
  { replica with inflight := replica.inflight.erase key }

def setL1 (replica : Replica Content Result) (config : CacheConfig) (key : String)
    (found : Found Content Result) : Replica Content Result :=
  { replica with l1 := replica.l1.write config replica.now key found }

/-- What a search does first: a new version clears the first tier. -/
def observe (replica : Replica Content Result) : Replica Content Result :=
  if replica.version = replica.lastSeenVersion then replica
  else { replica with
    lastSeenVersion := replica.version
    minValidVersion := max replica.minValidVersion replica.version
    l1 := .empty }

/-- `_load`, up to its first wait. -/
def load (storeSearch : Content → Params → Option Result) (replica : Replica Content Result)
    (params : Params) (usable : Bool) : Call Content Result :=
  let live := decide (replica.minValidVersion ≤ replica.version)
  { params := params
    version := replica.version
    live := live
    phase := if live then if usable then .asking else .told none
      else .searching (replica.searchStore storeSearch params)
    callers := [replica.content] }

/-- `search` after the first tier has missed: the caller joins a load, or starts one. -/
def join (storeSearch : Content → Params → Option Result) (replica : Replica Content Result)
    (key : String) (params : Params) (usable : Bool) : Replica Content Result :=
  match replica.inflight.get key with
  | some call =>
      replica.setCall key { call with callers := call.callers ++ [replica.content] }
  | none => replica.setCall key (replica.load storeSearch params usable)

def search (config : CacheConfig) (storeSearch : Content → Params → Option Result)
    (replica : Replica Content Result) (params : Params) (usable : Bool) :
    Replica Content Result × List (Answer Content Result) :=
  let replica := replica.observe
  let key := keyFor config.toLowerCase params replica.version
  match replica.l1.read replica.now key with
  | (some found, l1) =>
      ({ replica with l1 := l1 },
        [⟨replica.content, .l1, found, decide (replica.version < replica.received)⟩])
  | (none, l1) => (join storeSearch { replica with l1 := l1 } key params usable, [])

/-- `_load` after the second tier has been read. -/
def resume (config : CacheConfig) (storeSearch : Content → Params → Option Result)
    (replica : Replica Content Result) (key : String) (call : Call Content Result)
    (shared : Option (Found Content Result)) : Replica Content Result :=
  match shared with
  | some found =>
      (replica.setL1 config key found).setCall key { call with phase := .answering .l2 found }
  | none =>
      replica.setCall key
        { call with phase := .searching (replica.searchStore storeSearch call.params) }

/-- `_load` after the store has been searched: what is live is cached, and sent to the
second tier. -/
def cache (config : CacheConfig) (replica : Replica Content Result) (key : String)
    (call : Call Content Result) (found : Found Content Result) : Replica Content Result :=
  if call.live then
    (replica.setL1 config key found).setCall key { call with phase := .answering .store found }
  else replica.setCall key { call with phase := .answering .store found }

def answers (replica : Replica Content Result) (call : Call Content Result) (tier : Tier)
    (found : Found Content Result) : List (Answer Content Result) :=
  call.callers.map fun content =>
    ⟨content, tier, found, decide (call.version < replica.received)⟩

def invalidate (replica : Replica Content Result) (version : ℕ) : Replica Content Result :=
  { replica with
    minValidVersion := max replica.minValidVersion version
    lastSeenVersion := version
    l1 := .empty }

def onMessage (replica : Replica Content Result) (version : ℕ) : Replica Content Result :=
  let heard := { replica with received := max replica.received version }
  if version ≤ replica.minValidVersion then heard
  else { heard with minValidVersion := version, l1 := .empty }

end Replica

/-- `sets` are the writes of the second tier that have been sent, `published` the versions
of the messages, and `generations` the contents that versions have had. -/
structure World (R Content Result : Type) where
  replicas : R → Option (Replica Content Result)
  l2 : InsertionMap String (Found Content Result)
  sets : List (String × Found Content Result)
  published : List ℕ
  answers : List (Answer Content Result)
  generations : List (ℕ × Content)

variable {R : Type} [DecidableEq R]

namespace World

def init : World R Content Result := ⟨fun _ => none, .empty, [], [], [], []⟩

def setReplica (s : World R Content Result) (r : R) (replica : Replica Content Result) :
    World R Content Result :=
  { s with replicas := Function.update s.replicas r (some replica) }

def setStore (s : World R Content Result) (r : R) (replica : Replica Content Result) :
    World R Content Result :=
  { s.setReplica r replica with
    generations := s.generations ++ [(replica.version, replica.content)] }

def record (s : World R Content Result) (answers : List (Answer Content Result)) :
    World R Content Result :=
  { s with answers := s.answers ++ answers }

def send (s : World R Content Result) (usable : Bool) (key : String)
    (found : Found Content Result) : World R Content Result :=
  if usable then { s with sets := s.sets ++ [(key, found)] } else s

end World

/-- `usable` is the state of the connection.  `gets` is the execution of a read of the
second tier, `missesGet` its failure; `executesSet` is that of a write. -/
inductive CacheAction (R Content : Type) where
  | starts (r : R) (content : Content)
  | stores (r : R) (content : Content)
  | searches (r : R) (params : Params) (usable : Bool)
  | gets (r : R) (key : String)
  | missesGet (r : R) (key : String)
  | resumes (r : R) (key : String)
  | finds (r : R) (key : String) (usable : Bool)
  | returns (r : R) (key : String)
  | executesSet (id : ℕ)
  | expires (key : String)
  | invalidates (r : R) (version : Option ℕ) (usable : Bool)
  | receives (r : R) (version : ℕ)
  | waits (r : R) (ms : ℕ)

def World.call (s : World R Content Result) (r : R) (key : String) :
    Option (Replica Content Result × Call Content Result) :=
  (s.replicas r).bind fun replica => (replica.inflight.get key).map (replica, ·)

def cacheStep (config : CacheConfig) (storeSearch : Content → Params → Option Result)
    (s : World R Content Result) : CacheAction R Content → Option (World R Content Result)
  | .starts r content =>
      match s.replicas r with
      | none => some (s.setStore r (.start content))
      | some _ => none
  | .stores r content =>
      (s.replicas r).map fun replica => s.setStore r (replica.store content)
  | .searches r params usable =>
      (s.replicas r).map fun replica =>
        let (replica, answers) := replica.search config storeSearch params usable
        (s.setReplica r replica).record answers
  | .gets r key =>
      match s.call r key with
      | none => none
      | some (replica, call) =>
          match call.phase with
          | .asking =>
              some (s.setReplica r (replica.setCall key
                { call with phase := .told (s.l2.get key) }))
          | _ => none
  | .missesGet r key =>
      match s.call r key with
      | none => none
      | some (replica, call) =>
          match call.phase with
          | .asking =>
              some (s.setReplica r (replica.setCall key { call with phase := .told none }))
          | _ => none
  | .resumes r key =>
      match s.call r key with
      | none => none
      | some (replica, call) =>
          match call.phase with
          | .told shared =>
              some (s.setReplica r (replica.resume config storeSearch key call shared))
          | _ => none
  | .finds r key usable =>
      match s.call r key with
      | none => none
      | some (replica, call) =>
          match call.phase with
          | .searching none => some (s.setReplica r (replica.endCall key))
          | .searching (some found) =>
              some ((s.setReplica r (replica.cache config key call found)).send
                (call.live && usable) key found)
          | _ => none
  | .returns r key =>
      match s.call r key with
      | none => none
      | some (replica, call) =>
          match call.phase with
          | .answering tier found =>
              some ((s.setReplica r (replica.endCall key)).record
                (replica.answers call tier found))
          | _ => none
  | .executesSet id =>
      (s.sets[id]?).map fun set => { s with l2 := s.l2.set set.1 set.2 }
  | .expires key => some { s with l2 := s.l2.erase key }
  | .invalidates r version usable =>
      (s.replicas r).map fun replica =>
        let version := version.getD replica.version
        { s.setReplica r (replica.invalidate version) with
          published := if usable then s.published ++ [version] else s.published }
  | .receives r version =>
      if version ∈ s.published then
        (s.replicas r).map fun replica => s.setReplica r (replica.onMessage version)
      else none
  | .waits r ms =>
      (s.replicas r).map fun replica =>
        s.setReplica r { replica with now := replica.now + ms }

end X402Facilitator.Catalog
