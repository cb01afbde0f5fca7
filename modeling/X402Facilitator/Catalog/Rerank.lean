import X402Facilitator.Catalog.Search
import X402Facilitator.Library.AllOrNone

/-!
# Reranking

A reranker scores the documents of one page.  What it answers is used only where it scores
each of them once, so that the page is put in another order and nothing else.
-/

namespace X402Facilitator.Catalog

/-- One of the results of a reranker.  The index is none unless an integer, and the score,
`relevance_score ?? score`, unless a finite number. -/
structure RerankResult (Score : Type) where
  index : Option ℤ
  score : Option Score

/-- The two members of an answer that are read, where they are arrays. -/
structure RerankData (Score : Type) where
  results : Option (List (RerankResult Score))
  scores : Option (List (Option Score))

section Scores

variable {Score : Type}

/-- A result scores a document that has no score yet. -/
def placeScore (scores : List (Option Score)) (result : RerankResult Score) :
    Option (List (Option Score)) :=
  match result.index, result.score with
  | some index, some score =>
      if 0 ≤ index ∧ (scores[index.toNat]?).any Option.isNone then
        some (scores.set index.toNat (some score))
      else none
  | _, _ => none

def parseRerankScores (data : RerankData Score) (count : ℕ) : Option (List Score) :=
  match data.results with
  | some results =>
      (results.foldlM placeScore (List.replicate count none)).bind fun scores => scores.mapM id
  | none => (data.scores.filter fun scores => scores.length = count).bind fun scores =>
      scores.mapM id

theorem length_of_placeScores {results : List (RerankResult Score)} {scores found :
    List (Option Score)} (hfound : results.foldlM placeScore scores = some found) :
    found.length = scores.length := by
  induction results generalizing scores with
  | nil =>
      cases hfound
      rfl
  | cons result results ih =>
      rw [List.foldlM_cons] at hfound
      obtain ⟨placed, hplaced, hrest⟩ := Option.bind_eq_some_iff.mp hfound
      rw [ih hrest]
      rw [placeScore] at hplaced
      split at hplaced
      · split at hplaced
        · cases hplaced
          exact List.length_set
        · cases hplaced
      · cases hplaced

end Scores

/-- The two clients of a search, each of which answers the same every time.  `rerankData` is
none where no reranker is asked, and answers none where it fails. -/
structure Clients (Score : Type) where
  embed : Option String → Option (List Score)
  rerankData : Option (Option String → List String → Option (RerankData Score))

def Clients.provider {Score : Type} (clients : Clients Score) : Provider Score where
  embed := clients.embed
  rerank := clients.rerankData.map fun answer query documents =>
    (answer query documents).bind fun data => parseRerankScores data documents.length

variable {Score : Type} [LinearOrder Score] {clients : Clients Score}
  {page : List (Item (List Score))}

/-- The documents of the listings that are reranked can be composed. -/
def Clients.Composes (clients : Clients Score) (page : List (Item (List Score))) : Prop :=
  clients.rerankData ≠ none →
    ∀ item ∈ page, (composeDocument item.entry.resource).isSome = true

end X402Facilitator.Catalog
