import X402Facilitator.Catalog.Memory
import Mathlib.Algebra.Order.Field.Basic
import Mathlib.Algebra.Order.Ring.Rat
import Mathlib.Data.List.Infix
import Mathlib.Tactic.Ring

/-!
# Reads of the catalog

A read sees the public listings of one moment.  Search fuses the ranks of two legs: the
words of the query, with older listings decayed, and the vectors.  Scores are any numbers
with the operations of the code, rounded or not; what needs exact ones asks for the laws.
-/

namespace X402Facilitator.Catalog

/-- The operations and comparisons of numbers, without laws. -/
class Arithmetic (Score : Type) extends Add Score, Mul Score, Div Score, Neg Score,
    NatCast Score, Zero Score, One Score, LT Score, LE Score where
  decidableEq : DecidableEq Score
  decidableLT : DecidableLT Score
  decidableLE : DecidableLE Score

attribute [reducible, instance] Arithmetic.decidableEq Arithmetic.decidableLT
  Arithmetic.decidableLE

instance exactArithmetic {Score : Type} [Field Score] [LinearOrder Score] :
    Arithmetic Score where
  decidableEq := inferInstance
  decidableLT := inferInstance
  decidableLE := inferInstance

/-- What the store uses of its runtime: functions of texts and of numbers. -/
structure Runtime (Score : Type) where
  toLowerCase : String → String
  localeCompare : String → String → Ordering
  encodeBase64 : String → String
  decodeBase64 : String → String
  sqrt : Score → Score
  exp : Score → Score

/-- A runtime that does not round, with the laws of the exponential. -/
structure ExactRuntime (Score : Type) [Field Score] [LinearOrder Score] extends
    Runtime Score where
  ordered : IsStrictOrderedRing Score
  exp_add : ∀ x y, exp (x + y) = exp x * exp y
  exp_pos : ∀ x, 0 < exp x

/-- The answers of the embedding client.  `rerank` is none where no reranker is asked: it
is not enabled, or in its cooldown. -/
structure Provider (Score : Type) where
  embed : Option String → Option (List Score)
  rerank : Option (Option String → List String → Option (List Score))

structure Params where
  query : Option String
  type : Option String
  payTo : Option String
  scheme : Option String
  network : Option String
  extensions : Option (List String)
  limit : Option ℕ
  offset : Option ℕ
  cursor : Option String

structure Item (Vector : Type) where
  entry : Entry
  embedding : Embedding Vector

section Listings

variable {Vector : Type}

def Store.item (store : Store Vector) (entry : Entry) : Item Vector :=
  ⟨entry, store.embeddings entry.object⟩

def Store.getResource (store : Store Vector) (now : ℕ) (url : String) (toolName : Option String) :
    Option (Item Vector) :=
  match store.resources.get (keyOf url toolName) with
  | none => none
  | some entry => if entry.isExpired now then none else some (store.item entry)

def Store.publicItems (store : Store Vector) (now : ℕ) : List (Item Vector) :=
  ((store.resources.entries.map Prod.snd).filter fun entry => !entry.isExpired now).map store.item

/-- A filter that is set keeps the listings with its value. -/
def keeps (filter field : Option String) : Bool :=
  match filter with
  | none => true
  | some value => value = "" || field = some value

def applyCommonFilters (items : List (Item Vector)) (params : Params) : List (Item Vector) :=
  items.filter fun item =>
    let resource := item.entry.resource
    keeps params.type (some resource.type) && keeps params.payTo (some resource.payTo) &&
      keeps params.scheme resource.scheme && keeps params.network resource.network &&
      let resourceExts := (objectEntries (resource.extensions.getD .null)).map Prod.fst
      (params.extensions.getD []).all fun ext => ext ∈ resourceExts

structure ListResult (Vector : Type) where
  items : List (Item Vector)
  total : ℕ

variable {Score : Type}

/-- The order of a list: the newest first, then by key. -/
def Runtime.listed (runtime : Runtime Score) (a b : Item Vector) : Bool :=
  if a.entry.firstSeenAt = b.entry.firstSeenAt then
    runtime.localeCompare a.entry.resource.key b.entry.resource.key != .gt
  else decide (b.entry.firstSeenAt < a.entry.firstSeenAt)

def Store.listResources (store : Store Vector) (runtime : Runtime Score) (now : ℕ)
    (params : Params) : ListResult Vector :=
  let items := (applyCommonFilters (store.publicItems now) params).mergeSort runtime.listed
  ⟨(items.drop (params.offset.getD 0)).take (params.limit.getD 20), items.length⟩

end Listings

variable {Score : Type} {runtime : Runtime Score}

def Runtime.tokens (runtime : Runtime Score) (query : String) : List Text :=
  ((runtime.toLowerCase query).toList.splitOnP isTrimmed).filter (· ≠ [])

def Runtime.includes (runtime : Runtime Score) (text : String) (token : Text) : Bool :=
  token <:+: (runtime.toLowerCase text).toList

def isComposite : Json → Bool
  | .obj _ | .arr _ => true
  | _ => false

def Runtime.tokenScore (runtime : Runtime Score) (resource : Resource) (token : Text) : ℕ :=
  let tags := resource.tags.getD []
  let extensions := resource.extensions.getD .null
  (if runtime.includes (resource.serviceName.getD "") token then 10 else 0) +
    (if tags.any fun t => (runtime.toLowerCase t).toList = token then 8
      else if tags.any fun t => runtime.includes t token then 4 else 0) +
    (if runtime.includes (resource.description.getD "") token then 3 else 0) +
    if isComposite extensions && runtime.includes extensions.stringify token then 1 else 0

def Runtime.baseScore (runtime : Runtime Score) (entry : Entry) (query : Option String) : ℕ :=
  let text := query.getD ""
  if Text.trim text.toList = [] then 0
  else
    let score := ((runtime.tokens text).map (runtime.tokenScore entry.resource)).sum
    if score = 0 then 0 else if entry.source = "payment" then score + 5 else score

variable [Arithmetic Score]

/-- `scoreResource`: after a month a score has halved. -/
def Runtime.scoreResource (runtime : Runtime Score) (now : ℕ) (entry : Entry)
    (query : Option String) : Score :=
  let score : Score := (runtime.baseScore entry query : Score)
  if entry.lastSeenAt < now then
    let daysOld : Score := ((now - entry.lastSeenAt : ℕ) : Score) / (1000 * 60 * 60 * 24)
    score * runtime.exp (-daysOld / 43)
  else score

def Runtime.cosineSimilarity (runtime : Runtime Score) (vecA vecB : List Score) : Score :=
  let dotProduct := ((vecA.zip vecB).map fun pair => pair.1 * pair.2).sum
  let normA := (vecA.map fun x => x * x).sum
  let normB := (vecB.map fun x => x * x).sum
  if vecA.length ≠ vecB.length ∨ normA = 0 ∨ normB = 0 then 0
  else dotProduct / (runtime.sqrt normA * runtime.sqrt normB)

abbrev Scored (Score : Type) := Item (List Score) × Score

/-- The listings that share a word with the query. -/
def Runtime.lexicalScores (runtime : Runtime Score) (now : ℕ) (items : List (Item (List Score)))
    (query : Option String) : List (Scored Score) :=
  (items.map fun item => (item, runtime.scoreResource now item.entry query)).filter
    fun scored => decide (0 < scored.2)

/-- The listings whose vector is close to that of the query. -/
def Runtime.denseScores (runtime : Runtime Score) (items : List (Item (List Score)))
    (queryVector : Option (List Score)) : List (Scored Score) :=
  match queryVector with
  | none => []
  | some vector =>
      items.filterMap fun item =>
        item.embedding.embedding.bind fun embedding =>
          let score := runtime.cosineSimilarity vector embedding
          if 1 / 10 < score then some (item, score) else none

def ranked {Score : Type} [LE Score] [DecidableLE Score] (scored : List (Scored Score)) :
    List (Scored Score) :=
  scored.mergeSort fun a b => decide (b.2 ≤ a.2)

theorem map_fst_ranked_perm {Score : Type} [LE Score] [DecidableLE Score]
    (scored : List (Scored Score)) :
    ((ranked scored).map Prod.fst).Perm (scored.map Prod.fst) :=
  (List.mergeSort_perm _ _).map Prod.fst

def reciprocalRank (rank : ℕ) : Score := 1 / (60 + rank + 1)

def setRanks (items : List (Item (List Score))) : InsertionMap String Score :=
  items.zipIdx.foldl (fun rrfScores s =>
    rrfScores.set s.1.entry.resource.key (reciprocalRank s.2)) .empty

def addRanks (rrfScores : InsertionMap String Score) (items : List (Item (List Score))) :
    InsertionMap String Score :=
  items.zipIdx.foldl (fun rrfScores s =>
    let key := s.1.entry.resource.key
    rrfScores.set key ((rrfScores.get key).getD 0 + reciprocalRank s.2)) rrfScores

/-- The fused order: the higher score first, then by key. -/
def Runtime.fused (runtime : Runtime Score) (a b : Scored Score) : Bool :=
  if a.2 = b.2 then
    runtime.localeCompare a.1.entry.resource.key b.1.entry.resource.key != .gt
  else decide (b.2 < a.2)

/-- The listings of two legs, in the order of their reciprocal ranks. -/
def Runtime.combine (runtime : Runtime Score) (items lexical dense : List (Item (List Score))) :
    List (Item (List Score)) :=
  let rrfScores := addRanks (setRanks lexical) dense
  let combinedItems := items.filterMap fun item =>
    (rrfScores.get item.entry.resource.key).map (item, ·)
  (combinedItems.mergeSort runtime.fused).map Prod.fst

/-- Where a page starts, none for `NaN`. -/
def Runtime.startIndex (runtime : Runtime Score) (cursor : Option String) (length : ℕ) :
    Option ℕ :=
  let cursorText := (runtime.decodeBase64 (cursor.getD "")).toList
  if cursor.getD "" ≠ "" ∧ "offset:".toList <+: cursorText then
    (parseInt (cursorText.drop 7)).map fun start => min start.toNat length
  else some 0

/-- The page at the cursor, and the cursor of the next one. -/
def Runtime.paginate (runtime : Runtime Score) (items : List (Item (List Score)))
    (cursor : Option String) (limit : ℕ) : List (Item (List Score)) × Option String :=
  match runtime.startIndex cursor items.length with
  | none => ([], none)
  | some start =>
      ((items.drop start).take limit,
        if start + limit < items.length then
          some (runtime.encodeBase64 ("offset:" ++ toString (start + limit)))
        else none)

/-- `rerank` of a page, none for a `TypeError`. -/
def Provider.reranked {Score : Type} [LE Score] [DecidableLE Score] (provider : Provider Score)
    (query : Option String) (page : List (Item (List Score))) :
    Option (List (Item (List Score))) :=
  match provider.rerank with
  | none => some page
  | some scoresOf =>
      if page = [] then some page
      else
        (page.mapM fun item => composeDocument item.entry.resource).map fun documents =>
          match scoresOf query documents with
          | none => page
          | some scores => (ranked (page.zip scores)).map Prod.fst

structure SearchResult (Score : Type) where
  resources : List (Item (List Score))
  partialResults : Bool
  limit : ℕ
  cursor : Option String

def Runtime.searchItems (runtime : Runtime Score) (config : Config) (provider : Provider Score)
    (now : ℕ) (params : Params) (publicItems : List (Item (List Score))) :
    Option (SearchResult Score) :=
  let items := applyCommonFilters publicItems params
  let queryVector := if config.embeds then provider.embed params.query else none
  let partialResults :=
    queryVector.isNone || items.any fun item => item.embedding.embedding.isNone
  let lexical := (ranked (runtime.lexicalScores now items params.query)).map Prod.fst
  let dense := (ranked (runtime.denseScores items queryVector)).map Prod.fst
  let limit := params.limit.getD 20
  let (page, cursor) := runtime.paginate (runtime.combine items lexical dense) params.cursor limit
  (provider.reranked params.query page).map fun resources =>
    ⟨resources, partialResults, limit, cursor⟩

/-- `search`, none for a `TypeError`. -/
def Store.search (store : Store (List Score)) (config : Config) (runtime : Runtime Score)
    (provider : Provider Score) (now : ℕ) (params : Params) : Option (SearchResult Score) :=
  runtime.searchItems config provider now params (store.publicItems now)

section Decay

variable {Score : Type} [Field Score] [LinearOrder Score] (runtime : ExactRuntime Score)
  {now : ℕ} {entry : Entry}

def ExactRuntime.decay (ms : ℕ) : Score :=
  runtime.exp (-((ms : Score) / (1000 * 60 * 60 * 24)) / 43)

theorem exp_zero : runtime.exp 0 = 1 := by
  have hadd := runtime.exp_add 0 0
  rw [add_zero] at hadd
  exact (mul_eq_left₀ (ne_of_gt (runtime.exp_pos 0))).mp hadd.symm

theorem decay_pos (ms : ℕ) : 0 < runtime.decay ms := runtime.exp_pos _

theorem decay_add (m n : ℕ) : runtime.decay (m + n) = runtime.decay m * runtime.decay n := by
  rw [ExactRuntime.decay, ExactRuntime.decay, ExactRuntime.decay, ← runtime.exp_add]
  apply congrArg runtime.exp
  push_cast
  ring

theorem scoreResource_eq (now : ℕ) (entry : Entry) (query : Option String) :
    runtime.scoreResource now entry query =
      (runtime.baseScore entry query : Score) * runtime.decay (now - entry.lastSeenAt) := by
  rw [Runtime.scoreResource]
  split
  · rfl
  · next hnot =>
      have hnow : now - entry.lastSeenAt = 0 := by omega
      rw [hnow, ExactRuntime.decay, Nat.cast_zero, zero_div, neg_zero, zero_div, exp_zero, mul_one]

/-- Time scales the scores of all listings alike. -/
theorem scoreResource_later (hseen : entry.lastSeenAt ≤ now) (ms : ℕ) (query : Option String) :
    runtime.scoreResource (now + ms) entry query =
      runtime.scoreResource now entry query * runtime.decay ms := by
  have hage : now + ms - entry.lastSeenAt = now - entry.lastSeenAt + ms := by omega
  rw [scoreResource_eq, scoreResource_eq, hage, decay_add, mul_assoc]

end Decay

theorem undecayed_add (_ _ : ℚ) : (1 : ℚ) = 1 * 1 := (one_mul 1).symm

theorem undecayed_pos (_ : ℚ) : (0 : ℚ) < 1 := one_pos

def undecayed (encodeBase64 decodeBase64 : String → String) : ExactRuntime ℚ where
  toLowerCase := id
  localeCompare := compare
  encodeBase64 := encodeBase64
  decodeBase64 := decodeBase64
  sqrt := id
  exp := fun _ => 1
  ordered := Rat.instIsStrictOrderedRing
  exp_add := undecayed_add
  exp_pos := undecayed_pos

end X402Facilitator.Catalog
