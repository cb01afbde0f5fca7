import X402Facilitator.Library.Eviction
import X402Facilitator.Library.Json
import X402Facilitator.Library.JsText

/-!
# The catalog in memory

Listings are kept under a key, with a count for every seller beside them.  A listing is
an object that a background job may still hold after a newer one has taken its key: only
the vector of its text is written later, and that is kept by the identity of the object.
-/

namespace X402Facilitator.Catalog

structure Resource where
  type : String
  url : String
  toolName : Option String
  serviceName : Option String
  description : Option String
  tags : Option (List String)
  iconUrl : Option String
  scheme : Option String
  network : Option String
  extensions : Option Json
  payTo : String
  pactwright : Option Json

def Resource.key (resource : Resource) : String :=
  if resource.type = "mcp" then resource.url ++ "::" ++ resource.toolName.getD "undefined"
  else resource.url ++ "::"

/-- The key of a url and a tool, as it is looked up. -/
def keyOf (url : String) (toolName : Option String) : String :=
  match toolName with
  | none => url ++ "::"
  | some name => if name = "" then url ++ "::" else url ++ "::" ++ name

/-- `{ ...existing, ...resource }`: a validated listing has all fields but one. -/
def Resource.over (resource existing : Resource) : Resource :=
  { resource with pactwright := resource.pactwright.or existing.pactwright }

/-- A stored listing.  `object` is its identity. -/
structure Entry where
  object : ℕ
  resource : Resource
  source : String
  provisional : Bool
  expiresAt : Option ℕ
  firstSeenAt : ℕ
  lastSeenAt : ℕ
  schemaVersion : Option ℕ

def Entry.isExpired (now : ℕ) (entry : Entry) : Bool :=
  entry.provisional &&
    match entry.expiresAt with
    | none => true
    | some expiresAt => decide (expiresAt ≤ now)

/-- `Object.entries` -/
def objectEntries : Json → List (String × Json)
  | .obj members => members
  | .arr items => items.zipIdx.map fun item => (toString item.2, item.1)
  | .str text => text.toList.zipIdx.map fun c => (toString c.2, .str (String.singleton c.1))
  | _ => []

/-- The lines of one extension, none for a description that has no text. -/
def extensionLines (extName : String) (extData : Json) : Option (List String) :=
  let parameters := extData.member "parameters"
  if parameters.truthy then
    ((objectEntries parameters).mapM fun (entry : String × Json) =>
      entry.2.toText.map fun text => entry.1 ++ ": " ++ text).map
        (("Extension " ++ extName ++ " parameters:") :: ·)
  else some []

/-- `composeDocument`, none for a `TypeError`. -/
def composeDocument (resource : Resource) : Option String :=
  let parts := [resource.serviceName.getD "", resource.description.getD "",
    " ".intercalate (resource.tags.getD []), resource.type]
  ((objectEntries (resource.extensions.getD .null)).mapM fun (entry : String × Json) =>
    extensionLines entry.1 entry.2).map fun lines =>
      ". ".intercalate ((parts ++ lines.flatten).filter (· ≠ ""))

def codeUnits (c : Char) : List UInt32 :=
  if c.toNat < 0x10000 then [c.val]
  else [0xD800 + (c.val - 0x10000) / 0x400, 0xDC00 + (c.val - 0x10000) % 0x400]

/-- The two lanes of the hash after one code unit. -/
def hashUnit (lanes : UInt32 × UInt32) (c : UInt32) : UInt32 × UInt32 :=
  ((lanes.1 ^^^ c) * 0x01000193, (lanes.2 + c) * 0x85ebca6b)

def documentFingerprint (resource : Resource) : Option String :=
  (composeDocument resource).map fun text =>
    let units := text.toList.flatMap codeUnits
    let lanes := units.foldl hashUnit (0x811c9dc5, 0x01000193)
    toString units.length ++ ":" ++ String.ofList (Nat.toDigits 16 lanes.1.toNat) ++ ":" ++
      String.ofList (Nat.toDigits 16 lanes.2.toNat)

structure Config where
  maxResourcesPerPayTo : ℕ
  maxCatalogSize : ℕ
  verifyTtlMs : ℕ
  /-- Whether an embeddings url is configured. -/
  embeds : Bool

structure CatalogError where
  code : String
  message : String

def maxResourcesPerPayToError (config : Config) : CatalogError :=
  ⟨"maximum_resources_per_payto_exceeded",
    "maximum resources per payTo (" ++ toString config.maxResourcesPerPayTo ++ ") exceeded"⟩

def maxCatalogSizeError (config : Config) : CatalogError :=
  ⟨"maximum_catalog_size_exceeded",
    "maximum catalog size (" ++ toString config.maxCatalogSize ++ ") exceeded"⟩

/-- The two fields of a listing that are written in the background. -/
structure Embedding (Vector : Type) where
  embedding : Option Vector
  embeddingSource : Option String

structure Store (Vector : Type) where
  resources : InsertionMap String Entry
  payToCounts : InsertionMap String ℕ
  version : ℕ
  lastModified : ℕ
  /-- How many entry objects there have been. -/
  objects : ℕ
  embeddings : ℕ → Embedding Vector

def Store.empty {Vector : Type} : Store Vector :=
  ⟨.empty, .empty, 0, 0, 0, fun _ => ⟨none, none⟩⟩

def incrementPayToCount (counts : InsertionMap String ℕ) (payTo : String) :
    InsertionMap String ℕ :=
  counts.set payTo ((counts.get payTo).getD 0 + 1)

def decrementPayToCount (counts : InsertionMap String ℕ) (payTo : String) :
    InsertionMap String ℕ :=
  let next := (counts.get payTo).getD 1 - 1
  if next = 0 then counts.erase payTo else counts.set payTo next

/-- What `_scheduleEmbed` comes to: nothing, a job with the fingerprint of the text, or a
`TypeError`. -/
inductive Scheduling where
  | skipped
  | job (fingerprint : String)
  | threw

namespace Store

variable {Vector : Type}

def setEmbedding (store : Store Vector) (object : ℕ) (embedding : Embedding Vector) :
    Store Vector :=
  { store with embeddings := Function.update store.embeddings object embedding }

def scheduleEmbed (config : Config) (store : Store Vector) (entry : Entry) :
    Store Vector × Scheduling :=
  if config.embeds then
    match documentFingerprint entry.resource with
    | none => (store, .threw)
    | some fingerprint =>
        if (store.embeddings entry.object).embedding.isSome ∧
            (store.embeddings entry.object).embeddingSource = some fingerprint then
          (store, .skipped)
        else (store.setEmbedding entry.object ⟨none, none⟩, .job fingerprint)
  else (store, .skipped)

def checkLimits (config : Config) (store : Store Vector) (resource : Resource) :
    Except CatalogError Unit :=
  match store.resources.get resource.key with
  | some _ => .ok ()
  | none =>
      if config.maxResourcesPerPayTo ≤ (store.payToCounts.get resource.payTo).getD 0 then
        .error (maxResourcesPerPayToError config)
      else if config.maxCatalogSize ≤ store.resources.size then
        .error (maxCatalogSizeError config)
      else .ok ()

def newEntry (config : Config) (store : Store Vector) (now : ℕ) (resource : Resource)
    (source : String) : Entry :=
  let existing := store.resources.get resource.key
  let existingSettled := existing.any fun entry => entry.source ≠ "verify"
  let provisional := decide (source = "verify") && !existingSettled
  { object := store.objects
    resource := existing.elim resource fun entry => resource.over entry.resource
    source := if existingSettled then existing.elim source Entry.source else source
    provisional := provisional
    expiresAt := if provisional then some (now + config.verifyTtlMs) else none
    firstSeenAt := existing.elim now Entry.firstSeenAt
    lastSeenAt := now
    schemaVersion := existing.bind Entry.schemaVersion }

/-- The write of an admitted listing.  The object starts with the vector of the one it
replaces. -/
def insertEntry (store : Store Vector) (now : ℕ) (resource : Resource) (entry : Entry) :
    Store Vector :=
  let existing := store.resources.get resource.key
  { store with
    resources := store.resources.set resource.key entry
    payToCounts := if existing.isSome then store.payToCounts
      else incrementPayToCount store.payToCounts resource.payTo
    version := store.version + 1
    lastModified := now
    objects := store.objects + 1
    embeddings := Function.update store.embeddings entry.object
      (existing.elim ⟨none, none⟩ fun old => store.embeddings old.object) }

/-- `upsertResource`: what is refused changes nothing; a `TypeError` of the scheduling
comes after the write. -/
def upsertResource (config : Config) (store : Store Vector) (now : ℕ) (resource : Resource)
    (source : String) : Except CatalogError (Store Vector × Entry × Scheduling) :=
  match store.checkLimits config resource with
  | .error err => .error err
  | .ok () =>
      let entry := store.newEntry config now resource source
      let scheduled := (store.insertEntry now resource entry).scheduleEmbed config entry
      .ok (scheduled.1, entry, scheduled.2)

def remove (store : Store Vector) (key : String) (entry : Entry) : Store Vector :=
  { store with
    resources := store.resources.erase key
    payToCounts := decrementPayToCount store.payToCounts entry.resource.payTo }

def bumpVersion (store : Store Vector) (now : ℕ) : Store Vector :=
  { store with version := store.version + 1, lastModified := now }

def deleteResource (store : Store Vector) (now : ℕ) (key : String) : Store Vector :=
  match store.resources.get key with
  | none => store
  | some entry => (store.remove key entry).bumpVersion now

def expiredKeys (store : Store Vector) (now : ℕ) : List String :=
  (store.resources.entries.filter fun entry => entry.2.isExpired now).map Prod.fst

def removeExpired (now : ℕ) (store : Store Vector) (entries : List (String × Entry)) :
    Store Vector :=
  entries.foldl (fun store entry =>
    if entry.2.isExpired now then store.remove entry.1 entry.2 else store) store

def pruneExpired (store : Store Vector) (now : ℕ) : Store Vector :=
  let kept := removeExpired now store store.resources.entries
  if (store.expiredKeys now).isEmpty then kept else kept.bumpVersion now

end Store

end X402Facilitator.Catalog
