import X402Facilitator.Catalog.Rerank
import X402Facilitator.Library.Doubles
import X402Facilitator.Library.Sorting

/-!
# The client of the reranker

A page is sent to the reranker unless its breaker is open, and what is received is read as
JSON.  The page is put in the order of the scores only where each document has one of them;
after anything else it stays as it is, and the failure is counted.
-/

namespace X402Facilitator

namespace Json

def finite? : Json → Option ℚ
  | num number =>
      match Number.ofText number.chars with
      | .finite value => some value
      | _ => none
  | _ => none

def integer? : Json → Option ℤ
  | num number => (Number.ofText number.chars).toBigInt
  | _ => none

def items? : Json → Option (List Json)
  | arr items => some items
  | _ => none

theorem ofText_ofNat {n : ℕ} (hlt : n < 2 ^ 53) :
    Number.ofText (Nat.toDigits 10 n) = .finite n := by
  rw [Number.ofText_of_isDigits Nat.toDigits_ne_nil (isDigits_toDigits n), numeralValue_toDigits,
    Number.ofScientific_of_lt hlt]

theorem finite?_ofNat {n : ℕ} (hlt : n < 2 ^ 53) : (ofNat n).finite? = some (n : ℚ) := by
  rw [ofNat, finite?, ofText_ofNat hlt]

theorem integer?_ofNat {n : ℕ} (hlt : n < 2 ^ 53) : (ofNat n).integer? = some (n : ℤ) := by
  rw [ofNat, integer?, ofText_ofNat hlt, Number.toBigInt_finite]

end Json

namespace Catalog

section Scores

variable {Score : Type} {results : List (RerankResult Score)} {scores found : List (Option Score)}

def resultAt (s : Score × ℕ) : RerankResult Score := ⟨some (s.2 : ℤ), some s.1⟩

def placed (index : ℕ) (scores : List (Option Score)) : List (RerankResult Score) :=
  (scores.zipIdx index).filterMap fun s => s.1.map fun score => resultAt (score, s.2)

/-- The answer scores each document once: in its results or, where these are no array, in
its scores. -/
def RerankData.ScoresEach (data : RerankData Score) (scores : List Score) : Prop :=
  match data.results with
  | some results => results.Perm (scores.zipIdx.map resultAt)
  | none => data.scores = some (scores.map some)

theorem resultAt_injective :
    Function.Injective (resultAt : Score × ℕ → RerankResult Score) := by
  intro first second heq
  obtain ⟨hindex, hscore⟩ := RerankResult.mk.inj heq
  exact Prod.ext (Option.some.inj hscore) (Int.ofNat.inj (Option.some.inj hindex))

theorem placed_replicate (count : ℕ) :
    placed 0 (List.replicate count (none : Option Score)) = [] := by
  rw [placed, List.filterMap_eq_nil_iff]
  intro s hs
  rw [(List.mem_replicate.mp (List.fst_mem_of_mem_zipIdx hs)).2]
  rfl

theorem placed_map_some (scores : List Score) :
    placed 0 (scores.map some) = scores.zipIdx.map resultAt := by
  rw [placed, List.zipIdx_map, List.filterMap_map, ← List.filterMap_eq_map]
  rfl

theorem mem_placed {i : ℕ} {score : Score} :
    resultAt (score, i) ∈ placed 0 scores ↔ scores[i]? = some (some score) := by
  rw [placed, List.mem_filterMap]
  constructor
  · rintro ⟨⟨entry, j⟩, hmem, hresult⟩
    obtain ⟨other, rfl, hother⟩ := Option.map_eq_some_iff.mp hresult
    obtain ⟨rfl, rfl⟩ := Prod.mk.inj (resultAt_injective hother)
    exact List.mem_zipIdx_iff_getElem?.mp hmem
  · intro hscore
    exact ⟨(some score, i), List.mem_zipIdx_iff_getElem?.mpr hscore, rfl⟩

theorem placed_cons (index : ℕ) (first : Option Score) :
    placed index (first :: scores) =
      (first.map fun score => resultAt (score, index)).toList ++ placed (index + 1) scores := by
  rw [placed, List.zipIdx_cons, List.filterMap_cons]
  cases first <;> rfl

/-- A score that is set adds its result. -/
theorem placed_set {i : ℕ} (hfree : scores[i]? = some none) (score : Score) (index : ℕ) :
    (placed index (scores.set i (some score))).Perm
      (resultAt (score, index + i) :: placed index scores) := by
  induction scores generalizing i index with
  | nil => cases hfree
  | cons first scores ih =>
      cases i with
      | zero =>
          obtain rfl := Option.some.inj hfree
          rw [List.set_cons_zero, placed_cons, placed_cons]
          exact List.Perm.refl _
      | succ i =>
          have hrest := ih hfree (index + 1)
          rw [Nat.add_assoc, Nat.add_comm 1 i] at hrest
          rw [List.set_cons_succ, placed_cons, placed_cons]
          exact (hrest.append_left _).trans List.perm_middle

theorem nodup_scored (scores : List Score) : (scores.zipIdx.map resultAt).Nodup := by
  apply List.Nodup.map resultAt_injective
  apply List.Nodup.of_map Prod.snd
  rw [List.zipIdx_map_snd]
  exact List.nodup_range'

/-- What it takes to place a result. -/
theorem placeScore_eq_some {result : RerankResult Score} :
    placeScore scores result = some found ↔ ∃ i score, result = resultAt (score, i) ∧
      scores[i]? = some none ∧ found = scores.set i (some score) := by
  constructor
  · intro hfound
    rw [placeScore] at hfound
    split at hfound
    · next index score hindex hscore =>
        split at hfound
        · next hplace =>
            obtain ⟨entry, hentry, hnone⟩ := (Option.any_eq_true _ _).mp hplace.2
            refine ⟨index.toNat, score, ?_, ?_, (Option.some.inj hfound).symm⟩
            · rw [resultAt, Int.toNat_of_nonneg hplace.1, ← hindex, ← hscore]
            · rw [hentry, Option.isNone_iff_eq_none.mp hnone]
        · cases hfound
    · cases hfound
  · rintro ⟨i, score, rfl, hfree, rfl⟩
    simp [placeScore, resultAt, hfree]

theorem placeScores_perm (hfound : results.foldlM placeScore scores = some found) :
    (placed 0 found).Perm (results ++ placed 0 scores) := by
  induction results generalizing scores with
  | nil =>
      cases hfound
      exact List.Perm.refl _
  | cons result results ih =>
      rw [List.foldlM_cons] at hfound
      obtain ⟨next, hnext, hrest⟩ := Option.bind_eq_some_iff.mp hfound
      obtain ⟨i, score, rfl, hfree, rfl⟩ := placeScore_eq_some.mp hnext
      have hset := placed_set hfree score 0
      rw [Nat.zero_add] at hset
      exact (ih hrest).trans ((hset.append_left results).trans List.perm_middle)

section Complete

variable {target : List Score}

theorem mem_iff_of_perm (hperm : (results ++ placed 0 scores).Perm (target.zipIdx.map resultAt))
    {i : ℕ} {score : Score} :
    resultAt (score, i) ∈ results ++ placed 0 scores ↔ target[i]? = some score := by
  rw [hperm.mem_iff, ← placed_map_some, mem_placed, List.getElem?_map]
  simp

/-- A document with a result that is still to come has no score yet. -/
theorem free_of_perm {i : ℕ} {score : Score} (hlength : scores.length = target.length)
    (hperm : (resultAt (score, i) :: results ++ placed 0 scores).Perm
      (target.zipIdx.map resultAt)) : scores[i]? = some none := by
  have hscore := (mem_iff_of_perm hperm).mp List.mem_cons_self
  cases hentry : scores[i]? with
  | none =>
      have hlt : i < scores.length := hlength ▸ (List.getElem?_eq_some_iff.mp hscore).1
      exact absurd (List.getElem?_eq_none_iff.mp hentry) (Nat.not_le.mpr hlt)
  | some entry =>
      cases entry with
      | none => rfl
      | some other =>
          -- the two results would be the same one, twice
          have hplaced := mem_placed.mpr hentry
          have hother := (mem_iff_of_perm hperm).mp (List.mem_append_right _ hplaced)
          obtain rfl := Option.some.inj (hother.symm.trans hscore)
          have hnodup := hperm.nodup_iff.mpr (nodup_scored target)
          exact absurd (List.mem_append_right _ hplaced) (List.nodup_cons.mp hnodup).1

/-- Results of all documents, each once, are placed in any order. -/
theorem placeScores_of_perm (hlength : scores.length = target.length)
    (hperm : (results ++ placed 0 scores).Perm (target.zipIdx.map resultAt)) :
    results.foldlM placeScore scores = some (target.map some) := by
  induction results generalizing scores with
  | nil =>
      apply congrArg some
      apply List.ext_getElem?
      intro i
      rw [List.getElem?_map]
      cases hi : target[i]? with
      | none =>
          rw [Option.map_none, List.getElem?_eq_none_iff, hlength]
          exact List.getElem?_eq_none_iff.mp hi
      | some score => exact mem_placed.mp ((mem_iff_of_perm hperm).mpr hi)
  | cons result results ih =>
      have hresult : result ∈ target.zipIdx.map resultAt := hperm.subset List.mem_cons_self
      obtain ⟨⟨score, i⟩, -, rfl⟩ := List.mem_map.mp hresult
      have hfree := free_of_perm hlength hperm
      have hset := placed_set hfree score 0
      rw [Nat.zero_add] at hset
      rw [List.foldlM_cons, placeScore_eq_some.mpr ⟨i, score, rfl, hfree, rfl⟩]
      apply ih (List.length_set.trans hlength)
      exact ((hset.append_left results).trans List.perm_middle).trans hperm

end Complete

theorem mapM_id_eq_some {scores : List Score} :
    found.mapM id = some scores ↔ found = scores.map some := by
  induction found generalizing scores with
  | nil => cases scores <;> simp
  | cons first found ih =>
      rw [List.mapM_cons, id_eq]
      constructor
      · intro hscores
        obtain ⟨score, rfl, hrest⟩ := Option.bind_eq_some_iff.mp hscores
        obtain ⟨rest, hfound, hcons⟩ := Option.bind_eq_some_iff.mp hrest
        rw [← Option.some.inj hcons, ih.mp hfound, List.map_cons]
      · intro hscores
        cases scores with
        | nil => cases hscores
        | cons score scores =>
            obtain ⟨rfl, hrest⟩ := List.cons.inj hscores
            rw [Option.bind_eq_bind, Option.bind_some, ih.mpr hrest]
            rfl

/-- Scores are used exactly if each document has one. -/
theorem parseRerankScores_iff {data : RerankData Score} {count : ℕ} {scores : List Score} :
    parseRerankScores data count = some scores ↔
      scores.length = count ∧ data.ScoresEach scores := by
  rw [parseRerankScores, RerankData.ScoresEach]
  cases data.results with
  | none =>
      simp only [Option.bind_eq_some_iff, Option.filter_eq_some_iff, mapM_id_eq_some]
      constructor
      · rintro ⟨found, ⟨hscores, hlength⟩, rfl⟩
        exact ⟨by simpa using hlength, hscores⟩
      · rintro ⟨hlength, hscores⟩
        exact ⟨_, ⟨hscores, by simpa using hlength⟩, rfl⟩
  | some results =>
      simp only [Option.bind_eq_some_iff, mapM_id_eq_some]
      constructor
      · rintro ⟨found, hfound, rfl⟩
        have hlength := length_of_placeScores hfound
        rw [List.length_map, List.length_replicate] at hlength
        have hperm := placeScores_perm hfound
        rw [placed_replicate, List.append_nil, placed_map_some] at hperm
        exact ⟨hlength, hperm.symm⟩
      · rintro ⟨hlength, hperm⟩
        refine ⟨scores.map some, placeScores_of_perm ?_ ?_, rfl⟩
        · rw [List.length_replicate, hlength]
        · rwa [placed_replicate, List.append_nil]

end Scores

structure ProviderHealth where
  consecutiveFailures : ℕ
  cooldownUntil : ℕ
  timeouts : ℕ
  failures : ℕ
  successes : ℕ

structure RerankClient where
  rerankUrl : Option String
  circuitBreakerThreshold : ℕ
  circuitBreakerCooldownMs : ℕ

/-- What comes of a request.  A body is none unless it is JSON. -/
inductive RerankResponse where
  | failed (timeout : Bool)
  | received (status : ℕ) (body : Option Json)

abbrev RerankAnswer := Option String → List String → RerankResponse

def ProviderHealth.inCooldown (health : ProviderHealth) (now : ℕ) : Bool :=
  now < health.cooldownUntil

def RerankClient.recordFailure (client : RerankClient) (timeout : Bool) (now : ℕ)
    (health : ProviderHealth) : ProviderHealth :=
  let counted := { health with
    consecutiveFailures := health.consecutiveFailures + 1
    timeouts := if timeout then health.timeouts + 1 else health.timeouts
    failures := if timeout then health.failures else health.failures + 1 }
  if client.circuitBreakerThreshold ≤ counted.consecutiveFailures then
    { counted with cooldownUntil := now + client.circuitBreakerCooldownMs }
  else counted

def ProviderHealth.recordSuccess (health : ProviderHealth) : ProviderHealth :=
  { health with consecutiveFailures := 0, successes := health.successes + 1 }

/-- The body that is used, none where there is none, or its status is not a success. -/
def RerankResponse.data : RerankResponse → Option Json
  | failed _ => none
  | received status body => if 200 ≤ status ∧ status < 300 then body else none

def RerankResponse.timeout : RerankResponse → Bool
  | failed timeout => timeout
  | received _ _ => false

section Answers

variable {Score : Type} [Field Score]

/-- `relevance_score ?? score` -/
def relevanceOf (result : Json) : Json :=
  (result.member "relevance_score").orElse (result.member "score")

def scoreOf (value : Json) : Option Score := value.finite?.map fun score => (score : Score)

/-- One of the results, whose score is read by `relevance`. -/
def resultOf (relevance : Json → Json) (result : Json) : RerankResult Score :=
  ⟨(result.member "index").integer?, scoreOf (relevance result)⟩

def rerankData (relevance : Json → Json) (data : Json) : RerankData Score where
  results := (data.member "results").items?.map fun results => results.map (resultOf relevance)
  scores := (data.member "scores").items?.map fun scores => scores.map scoreOf

/-- The scores of a response that are used, none where it is no success or has none. -/
def RerankResponse.scores (response : RerankResponse) (count : ℕ) : Option (List Score) :=
  response.data.bind fun data => parseRerankScores (rerankData relevanceOf data) count

/-- What is received with success scores each document once. -/
def Accepts (relevance : Json → Json) (answer : RerankAnswer) (query : Option String)
    (page : List (Item (List Score))) (scores : List Score) : Prop :=
  ∃ documents data, (page.mapM fun item => composeDocument item.entry.resource) = some documents ∧
    (answer query documents).data = some data ∧ scores.length = page.length ∧
    (rerankData relevance data).ScoresEach scores

variable {answer : RerankAnswer} {query : Option String} {page : List (Item (List Score))}

/-- The scores that are used are those that are accepted. -/
theorem accepts_iff {documents : List String} {scores : List Score}
    (hdocuments : (page.mapM fun item => composeDocument item.entry.resource) = some documents) :
    Accepts relevanceOf answer query page scores ↔
      (answer query documents).scores page.length = some scores := by
  rw [RerankResponse.scores, Option.bind_eq_some_iff]
  constructor
  · rintro ⟨other, data, hother, hdata, hscores⟩
    obtain rfl := Option.some.inj (hother.symm.trans hdocuments)
    exact ⟨data, hdata, parseRerankScores_iff.mpr hscores⟩
  · rintro ⟨data, hdata, hscores⟩
    exact ⟨documents, data, hdocuments, hdata, parseRerankScores_iff.mp hscores⟩

theorem length_of_accepts {relevance : Json → Json} {scores : List Score}
    (haccepts : Accepts relevance answer query page scores) : scores.length = page.length := by
  obtain ⟨_, _, _, _, hlength, _⟩ := haccepts
  exact hlength

end Answers

section Order

variable {Score : Type} [LinearOrder Score]

/-- The page in the order of its scores, the greatest first; equal scores keep their order. -/
def InScoreOrder (page : List (Item (List Score))) (scores : List Score)
    (resources : List (Item (List Score))) : Prop :=
  ∃ pairs : List (Scored Score), resources = pairs.map Prod.fst ∧ pairs.Perm (page.zip scores) ∧
    pairs.Pairwise (fun a b => b.2 ≤ a.2) ∧
    ∀ score, pairs.filter (fun pair => decide (pair.2 = score)) =
      (page.zip scores).filter fun pair => decide (pair.2 = score)

theorem ranked_eq_sortBy (scored : List (Scored Score)) :
    ranked scored = sortBy (fun pair => OrderDual.toDual pair.2) scored := by
  rw [ranked, sortBy]
  congr 1

theorem inScoreOrder_ranked (page : List (Item (List Score))) (scores : List Score) :
    InScoreOrder page scores ((ranked (page.zip scores)).map Prod.fst) := by
  refine ⟨ranked (page.zip scores), rfl, List.mergeSort_perm _ _, ?_, fun score => ?_⟩
  · rw [ranked_eq_sortBy]
    exact pairwise_sortBy (fun pair : Scored Score => OrderDual.toDual pair.2) _
  · rw [ranked_eq_sortBy]
    exact filter_sortBy (fun pair : Scored Score => OrderDual.toDual pair.2) _
      (OrderDual.toDual score)

end Order

variable {Score : Type} [Field Score] [LinearOrder Score]

def RerankClient.answered (client : RerankClient) (health : ProviderHealth) (later : ℕ)
    (page : List (Item (List Score))) (response : RerankResponse) :
    List (Item (List Score)) × ProviderHealth :=
  match response.scores page.length with
  | none => (page, client.recordFailure response.timeout later health)
  | some scores => ((ranked (page.zip scores)).map Prod.fst, health.recordSuccess)

/-- `rerank`, none for a `TypeError`.  `later` is the time of the answer. -/
def RerankClient.rerank (client : RerankClient) (health : ProviderHealth) (now later : ℕ)
    (answer : RerankAnswer) (query : Option String) (page : List (Item (List Score))) :
    Option (List (Item (List Score)) × ProviderHealth) :=
  if client.rerankUrl.getD "" = "" ∨ page = [] then some (page, health)
  else if health.inCooldown now then
    some (page, { health with failures := health.failures + 1 })
  else
    (page.mapM fun item => composeDocument item.entry.resource).map fun documents =>
      client.answered health later page (answer query documents)

def RerankClient.Asks (client : RerankClient) (health : ProviderHealth) (now : ℕ)
    (page : List (Item (List Score))) : Prop :=
  client.rerankUrl.getD "" ≠ "" ∧ page ≠ [] ∧ health.inCooldown now = false

/-- The page is answered in another order only where its scores are accepted. -/
def OnlyReorders (relevance : Json → Json) (client : RerankClient) (health : ProviderHealth)
    (now later : ℕ) (answer : RerankAnswer) (query : Option String)
    (page : List (Item (List Score))) : Prop :=
  ∃ resources after, client.rerank health now later answer query page = some (resources, after) ∧
    resources.Perm page ∧
    (∀ scores, client.Asks health now page → Accepts relevance answer query page scores →
      InScoreOrder page scores resources) ∧
    ((∀ scores, ¬ (client.Asks health now page ∧ Accepts relevance answer query page scores)) →
      resources = page)

/-- The clients of a search, with the reranker as it is at the time. -/
def RerankClient.provider (client : RerankClient) (enableReranking : Bool)
    (health : ProviderHealth) (now : ℕ) (answer : RerankAnswer)
    (embed : Option String → Option (List Score)) : Provider Score :=
  Clients.provider ⟨embed,
    if enableReranking = true ∧ client.rerankUrl.getD "" ≠ "" ∧ health.inCooldown now = false then
      some fun query documents =>
        (answer query documents).data.map (rerankData relevanceOf)
    else none⟩

section Pages

variable {client : RerankClient} {health : ProviderHealth} {now later : ℕ} {answer : RerankAnswer}
  {query : Option String} {page : List (Item (List Score))}

theorem answered_of_none {response : RerankResponse}
    (hparsed : (response.scores page.length : Option (List Score)) = none) :
    client.answered health later page response =
      (page, client.recordFailure response.timeout later health) := by
  rw [RerankClient.answered, hparsed]

theorem answered_of_some {response : RerankResponse} {scores : List Score}
    (hparsed : response.scores page.length = some scores) :
    client.answered health later page response =
      ((ranked (page.zip scores)).map Prod.fst, health.recordSuccess) := by
  rw [RerankClient.answered, hparsed]

theorem rerank_of_asks (hasks : client.Asks health now page) :
    client.rerank health now later answer query page =
      (page.mapM fun item => composeDocument item.entry.resource).map fun documents =>
        client.answered health later page (answer query documents) := by
  obtain ⟨hurl, hpage, hclosed⟩ := hasks
  rw [RerankClient.rerank, if_neg (not_or.mpr ⟨hurl, hpage⟩), hclosed]
  rfl

theorem rerank_of_not_asks (hasks : ¬ client.Asks health now page) (later : ℕ)
    (answer : RerankAnswer) (query : Option String) :
    ∃ after, client.rerank health now later answer query page = some (page, after) := by
  rw [RerankClient.rerank]
  split
  · exact ⟨health, rfl⟩
  · next hsends =>
      obtain ⟨hurl, hpage⟩ := not_or.mp hsends
      split
      · exact ⟨_, rfl⟩
      · next hclosed => exact absurd ⟨hurl, hpage, Bool.eq_false_iff.mpr hclosed⟩ hasks

theorem onlyReorders_of_composes (hcomposes : client.Asks health now page →
    ∀ item ∈ page, (composeDocument item.entry.resource).isSome = true) :
    OnlyReorders relevanceOf client health now later answer query page := by
  by_cases hasks : client.Asks health now page
  · obtain ⟨documents, hdocuments⟩ := mapM_of_forall (hcomposes hasks)
    have hrerank : client.rerank health now later answer query page =
        some (client.answered health later page (answer query documents)) := by
      rw [rerank_of_asks hasks, hdocuments]
      rfl
    cases hparsed : ((answer query documents).scores page.length : Option (List Score)) with
    | none =>
        rw [answered_of_none hparsed] at hrerank
        refine ⟨page, _, hrerank, List.Perm.refl page, fun scores _ haccepts => ?_, fun _ => rfl⟩
        rw [accepts_iff hdocuments, hparsed] at haccepts
        cases haccepts
    | some scores =>
        rw [answered_of_some hparsed] at hrerank
        have haccepts := (accepts_iff hdocuments).mpr hparsed
        have hlength := length_of_accepts haccepts
        refine ⟨_, _, hrerank, ?_, fun other _ hother => ?_, fun hnone => ?_⟩
        · exact (map_fst_ranked_perm _).trans (List.Perm.of_eq (List.map_fst_zip hlength.ge))
        · rw [accepts_iff hdocuments, hparsed] at hother
          obtain rfl := Option.some.inj hother
          exact inScoreOrder_ranked page scores
        · exact absurd ⟨hasks, haccepts⟩ (hnone scores)
  · obtain ⟨after, hrerank⟩ := rerank_of_not_asks hasks later answer query
    exact ⟨page, after, hrerank, List.Perm.refl page, fun _ hyes => absurd hyes hasks, fun _ => rfl⟩

/-- A search reranks its page. -/
theorem reranked_eq (enableReranking : Bool) (later : ℕ)
    (embed : Option String → Option (List Score)) :
    (client.provider enableReranking health now answer embed).reranked query page =
      if enableReranking = true then
        (client.rerank health now later answer query page).map Prod.fst
      else some page := by
  cases enableReranking with
  | false => rfl
  | true =>
      rw [if_pos rfl]
      by_cases hopen : client.rerankUrl.getD "" ≠ "" ∧ health.inCooldown now = false
      · rw [Provider.reranked, RerankClient.provider, Clients.provider, if_pos ⟨rfl, hopen⟩]
        by_cases hpage : page = []
        · rw [RerankClient.rerank, if_pos (Or.inr hpage)]
          exact if_pos hpage
        · refine (if_neg hpage).trans ?_
          rw [rerank_of_asks ⟨hopen.1, hpage, hopen.2⟩, Option.map_map]
          cases hdocuments : page.mapM fun item => composeDocument item.entry.resource with
          | none => rfl
          | some documents =>
              have hlength : documents.length = page.length := length_of_mapM hdocuments
              have hsame : (((answer query documents).data.map (rerankData relevanceOf)).bind
                  fun data => parseRerankScores data documents.length) =
                    ((answer query documents).scores page.length : Option (List Score)) := by
                rw [Option.bind_map, hlength]
                rfl
              rw [Option.map_some, Option.map_some, Function.comp_apply]
              cases hparsed : ((answer query documents).scores page.length :
                  Option (List Score)) with
              | none => simp only [hsame, hparsed, answered_of_none hparsed]
              | some scores => simp only [hsame, hparsed, answered_of_some hparsed]
      · have hasks : ¬ client.Asks health now page := fun hasks => hopen ⟨hasks.1, hasks.2.2⟩
        obtain ⟨after, hrerank⟩ := rerank_of_not_asks hasks later answer query
        rw [hrerank, Provider.reranked, RerankClient.provider, Clients.provider,
          if_neg fun hyes => hopen hyes.2]
        rfl

/-- A search with a reranker answers the page of the search without one, reranked. -/
theorem search_eq (store : Store (List Score)) (config : Config) (runtime : Runtime Score)
    (enableReranking : Bool) (embed : Option String → Option (List Score)) (params : Params) :
    store.search config runtime (client.provider enableReranking health now answer embed) now
        params =
      (store.search config runtime ⟨embed, none⟩ now params).bind fun fused =>
        ((client.provider enableReranking health now answer embed).reranked params.query
          fused.resources).map fun resources => { fused with resources := resources } := by
  have hembed : (client.provider enableReranking health now answer embed).embed = embed := rfl
  simp only [Store.search, Runtime.searchItems, hembed]
  generalize runtime.paginate _ _ _ = page
  obtain ⟨resources, cursor⟩ := page
  rfl

end Pages

/-- Where the documents of a page can be composed, reranking changes the order of the page and
nothing else, and so the search has the same results and the same cursor. -/
theorem rerank_reorders (client : RerankClient) (health : ProviderHealth) (now later : ℕ)
    (answer : RerankAnswer) (query : Option String) (page : List (Item (List Score)))
    (hcomposes : client.Asks health now page →
      ∀ item ∈ page, (composeDocument item.entry.resource).isSome = true) :
    OnlyReorders relevanceOf client health now later answer query page ∧
      ∀ (store : Store (List Score)) (config : Config) (runtime : Runtime Score)
        (enableReranking : Bool) (embed : Option String → Option (List Score)) (params : Params)
        (fused : SearchResult Score),
        store.search config runtime ⟨embed, none⟩ now params = some fused →
        params.query = query → fused.resources = page →
        ∃ found, store.search config runtime
            (client.provider enableReranking health now answer embed) now params = some found ∧
          found.resources.Perm fused.resources ∧ found.cursor = fused.cursor := by
  have hreorders := @onlyReorders_of_composes _ _ _ client health now later answer query page
    hcomposes
  refine ⟨hreorders, ?_⟩
  rintro store config runtime enableReranking embed params fused hfused rfl rfl
  obtain ⟨resources, after, hrerank, hperm, -⟩ := hreorders
  rw [search_eq, hfused, Option.bind_some, reranked_eq enableReranking later, hrerank]
  cases enableReranking with
  | false => exact ⟨fused, rfl, List.Perm.refl _, rfl⟩
  | true => exact ⟨{ fused with resources := resources }, rfl, hperm, rfl⟩

def plainItem (object : ℕ) (url : String) : Item (List ℚ) where
  entry :=
    { object := object
      resource :=
        { type := "http", url := url, toolName := none, serviceName := none, description := none
          tags := none, iconUrl := none, scheme := none, network := none, extensions := none
          payTo := "G", pactwright := none }
      source := "manual"
      provisional := false
      expiresAt := none
      firstSeenAt := 0
      lastSeenAt := 0
      schemaVersion := none }
  embedding := ⟨none, none⟩

def plainPage : List (Item (List ℚ)) :=
  [plainItem 0 "https://api.example/alpha", plainItem 1 "https://api.example/beta"]

def sampleClient : RerankClient := ⟨some "https://rerank.example/score", 3, 30000⟩

def freshHealth : ProviderHealth := ⟨0, 0, 0, 0, 0⟩

def sampleResults (name : String) : Json :=
  .obj [("results", .arr [.obj [("index", .ofNat 0), (name, .ofNat 1)],
    .obj [("index", .ofNat 1), (name, .ofNat 2)]])]

def sampleAnswer (name : String) : RerankAnswer :=
  fun _ _ => .received 200 (some (sampleResults name))

theorem rerank_reorders_plainPage :
    (sampleClient.Asks freshHealth 0 plainPage →
      ∀ item ∈ plainPage, (composeDocument item.entry.resource).isSome = true) ∧
    OnlyReorders relevanceOf sampleClient freshHealth 0 5 (sampleAnswer "relevance_score") none
      plainPage := by
  have hcomposes : sampleClient.Asks freshHealth 0 plainPage →
      ∀ item ∈ plainPage, (composeDocument item.entry.resource).isSome = true := by
    intro _
    decide
  exact ⟨hcomposes, (rerank_reorders sampleClient freshHealth 0 5 _ none plainPage hcomposes).1⟩

theorem resultsOf_sample (relevance : Json → Json) (name : String) :
    (rerankData relevance (sampleResults name) : RerankData ℚ).results =
      some [⟨some 0, scoreOf (relevance (.obj [("index", .ofNat 0), (name, .ofNat 1)]))⟩,
        ⟨some 1, scoreOf (relevance (.obj [("index", .ofNat 1), (name, .ofNat 2)]))⟩] := by
  have hindex : ∀ n < 2 ^ 53, ∀ score,
      ((Json.obj [("index", .ofNat n), (name, score)]).member "index").integer? = some (n : ℤ) :=
    fun n hn _ => Json.integer?_ofNat hn
  change some [_, _] = some [_, _]
  rw [resultOf, resultOf, hindex 0 (by decide), hindex 1 (by decide)]
  rfl

/-- A result may call its score `score`, which is in neither of the documented shapes. -/
theorem not_rerank_documented :
    ¬ ∀ (client : RerankClient) (health : ProviderHealth) (now later : ℕ) (answer : RerankAnswer)
      (query : Option String) (page : List (Item (List ℚ))),
      OnlyReorders (Json.member "relevance_score") client health now later answer query page := by
  intro hreorders
  obtain ⟨resources, after, hrerank, -, -, hsame⟩ :=
    hreorders sampleClient freshHealth 0 5 (sampleAnswer "score") none plainPage
  have hresources : resources = plainPage := by
    apply hsame
    rintro scores ⟨-, documents, data, -, hdata, -, hscores⟩
    obtain rfl : sampleResults "score" = data := Option.some.inj hdata
    rw [RerankData.ScoresEach, resultsOf_sample] at hscores
    obtain ⟨s, -, hs⟩ := List.mem_map.mp (hscores.subset List.mem_cons_self)
    cases (RerankResult.mk.inj hs).2
  have hscored : ∀ n < 2 ^ 53, ∀ index,
      scoreOf (relevanceOf (.obj [("index", index), ("score", .ofNat n)])) = some (n : ℚ) := by
    intro n hn index
    have hrelevance : relevanceOf (.obj [("index", index), ("score", .ofNat n)]) = .ofNat n := by
      simp [relevanceOf, Json.member, Json.orElse, Json.isNullish, List.lookup_cons]
    rw [hrelevance, scoreOf, Json.finite?_ofNat hn]
    rfl
  have hparsed : parseRerankScores (rerankData relevanceOf (sampleResults "score")) 2 =
      some [(1 : ℚ), 2] := by
    rw [parseRerankScores_iff, RerankData.ScoresEach, resultsOf_sample]
    rw [hscored 1 (by decide), hscored 2 (by decide)]
    exact ⟨rfl, List.Perm.refl _⟩
  have hfirst : (sortBy (fun pair : Scored ℚ => OrderDual.toDual pair.2)
      (plainPage.zip [1, 2])).head? = some (plainItem 1 "https://api.example/beta", 2) := by
    rw [plainPage, List.zip_cons_cons, head?_sortBy]
    rfl
  have hasks : sampleClient.Asks freshHealth 0 plainPage :=
    ⟨by decide, List.cons_ne_nil _ _, rfl⟩
  obtain ⟨documents, hdocuments⟩ :=
    mapM_of_forall (show ∀ item ∈ plainPage, (composeDocument item.entry.resource).isSome = true by
      decide)
  have hanswered : sampleClient.answered freshHealth 5 plainPage
      (sampleAnswer "score" none documents) =
        ((ranked (plainPage.zip [1, 2])).map Prod.fst, freshHealth.recordSuccess) :=
    answered_of_some hparsed
  rw [rerank_of_asks hasks, hdocuments, Option.map_some, hanswered] at hrerank
  have hhead := congrArg List.head? (Prod.mk.inj (Option.some.inj hrerank)).1
  rw [hresources, List.head?_map, ranked_eq_sortBy, hfirst] at hhead
  exact absurd (congrArg (fun item => item.entry.object) (Option.some.inj hhead)) (by decide)

end Catalog

end X402Facilitator
