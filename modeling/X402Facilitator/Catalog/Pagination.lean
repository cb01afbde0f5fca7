import X402Facilitator.Catalog.Fusion
import X402Facilitator.Catalog.Rerank
import X402Facilitator.Library.Decimals
import X402Facilitator.Library.Cuts
import Mathlib.Data.List.TakeWhile

/-!
# Pages of a search

A search that follows its cursors sees the listings that match in slices of one order.  A
cursor from elsewhere is read by `parseInt`, for which `offset:abc` names no number and
`offset:5abc` names five.
-/

namespace X402Facilitator.Catalog

open Execution

structure CursorRuntime (Score : Type) [Field Score] [LinearOrder Score] extends
    Runtime Score where
  decode_encode : ∀ text, decodeBase64 (encodeBase64 text) = text
  decode_empty : decodeBase64 "" = ""

/-- All of a search but its cursor: the catalog that a run has led to, the moment, and what
the route hands on, with a limit that is positive. -/
structure FixedSearch (Score : Type) [Field Score] [LinearOrder Score] where
  config : Config
  durable : Bool
  table : CatalogTable (List Score)
  system : System (List Score)
  reached : Reaches (step config durable) anyStep (.init table durable) system
  runtime : CursorRuntime Score
  clients : Clients Score
  now : ℕ
  params : Params
  positive : 0 < params.limit.getD 20

variable {Score : Type} [Field Score] [LinearOrder Score]

namespace FixedSearch

def call (search : FixedSearch Score) (cursor : Option String) : Option (SearchResult Score) :=
  search.system.store.search search.config search.runtime.toRuntime search.clients.provider
    search.now { search.params with cursor := cursor }

def limit (search : FixedSearch Score) : ℕ := search.params.limit.getD 20

def items (search : FixedSearch Score) : List (Item (List Score)) :=
  applyCommonFilters (search.system.store.publicItems search.now) search.params

def queryVector (search : FixedSearch Score) : Option (List Score) :=
  if search.config.embeds then search.clients.embed search.params.query else none

/-- The listings with a positive match in one of the legs. -/
def matched (search : FixedSearch Score) : List (Item (List Score)) :=
  search.items.filter
    (search.runtime.matching search.now search.params.query search.queryVector)

def order (search : FixedSearch Score) : List (Item (List Score)) :=
  search.runtime.fusedOrder search.now search.params.query search.queryVector search.items

end FixedSearch

/-- The encoding of `offset:` with a decimal number. -/
def CursorRuntime.IsOffset (runtime : CursorRuntime Score) (cursor : String) : Prop :=
  ∃ digits : Text, isNumeral 10 digits = true ∧
    cursor = runtime.encodeBase64 ("offset:" ++ String.ofList digits)

/-- A text without an offset, or with one that is not past the start. -/
def NamesStart (cursorText : String) : Prop :=
  "offset:".toList <+: cursorText.toList →
    ∃ start : ℤ, parseInt (cursorText.toList.drop 7) = some start ∧ start ≤ 0

structure FixedSearch.Sound (search : FixedSearch Score) (cursor : String) : Prop where
  composes : search.clients.Composes search.matched
  start : ¬ search.runtime.IsOffset cursor → search.matched ≠ [] →
    NamesStart (search.runtime.decodeBase64 cursor)

section Start

variable {runtime : CursorRuntime Score}

end Start

namespace FixedSearch

variable {search : FixedSearch Score} {cursor : Option String} {start : ℕ}

def partialResults (search : FixedSearch Score) : Bool :=
  search.queryVector.isNone || search.items.any fun item => item.embedding.embedding.isNone

end FixedSearch

end X402Facilitator.Catalog
