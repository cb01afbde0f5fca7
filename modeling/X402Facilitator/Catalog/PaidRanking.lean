import Mathlib.Order.Monotone.Basic
import X402Facilitator.Catalog.Search
import X402Facilitator.Catalog.Writes

/-!
# The rank of paid listings

A score is raised for the source `payment`.  A listing's source is that of one of its writes,
and no write has this one: payments are written as verifications and settlements.
-/

namespace X402Facilitator.Catalog

open Execution

section Statement

variable {Score : Type} [Field Score] [LinearOrder Score] {Vector : Type}

structure Alike (first second : Entry) : Prop where
  serviceName : first.resource.serviceName = second.resource.serviceName
  description : first.resource.description = second.resource.description
  tags : first.resource.tags = second.resource.tags
  extensions : first.resource.extensions = second.resource.extensions
  lastSeenAt : first.lastSeenAt = second.lastSeenAt

/-- A listing that a settlement has written, and one alike of verifications only. -/
structure PaidPair (history : History Vector) (paid unpaid : Entry) : Prop where
  settled : ∃ key, history.store.resources.get key = some paid ∧
    ∃ landed ∈ history.written key, landed.source = .settle
  verified : ∃ key, history.store.resources.get key = some unpaid ∧
    ∀ landed ∈ history.written key, landed.source = .verify
  alike : Alike paid unpaid

/-- A query that is not blank shares a word with the listing. -/
def Runtime.Matches (runtime : Runtime Score) (resource : Resource) (query : Option String) :
    Prop :=
  Text.trim (query.getD "").toList ≠ [] ∧
    ∃ token ∈ runtime.tokens (query.getD ""), 0 < runtime.tokenScore resource token

/-- Paid listings outrank unpaid ones, and scores are never negative and never rise with the
age of a listing. -/
structure RanksPaid (runtime : Runtime Score) (config : Config) (history : History (List Score))
    (now : ℕ) (query : Option String) : Prop where
  outranks : ∀ paid unpaid, PaidPair history paid unpaid → runtime.Matches paid.resource query →
    runtime.scoreResource now unpaid query < runtime.scoreResource now paid query
  first : config.embeds = false → ∀ (provider : Provider Score) (params : Params) result,
    provider.rerank = none → params.query = query →
    history.store.search config runtime provider now params = some result →
    ∀ paid unpaid, PaidPair history paid unpaid → runtime.Matches paid.resource query →
      history.store.item paid ∈ result.resources → history.store.item unpaid ∈ result.resources →
      [history.store.item paid, history.store.item unpaid].Sublist result.resources
  nonneg : ∀ entry, 0 ≤ runtime.scoreResource now entry query
  decays : ∀ entry lastSeenAt, lastSeenAt ≤ entry.lastSeenAt →
    runtime.scoreResource now { entry with lastSeenAt := lastSeenAt } query ≤
      runtime.scoreResource now entry query

end Statement

section Scores

variable {Score : Type} {runtime : Runtime Score}
variable {Vector : Type} {config : Config} {history : History Vector} {paid unpaid : Entry}

theorem text_ne_payment (source : WriteSource) : source.text ≠ "payment" := by
  cases source <;> decide

/-- No listing has the source that the boost is for. -/
theorem source_ne_payment (hs : history.Kept config) {key : String} {entry : Entry}
    (hentry : history.store.resources.get key = some entry) : entry.source ≠ "payment" := by
  rw [(hs.listed key entry hentry).source]
  exact text_ne_payment _

theorem Alike.tokenScore (halike : Alike paid unpaid) :
    runtime.tokenScore paid.resource = runtime.tokenScore unpaid.resource := by
  funext token
  rw [Runtime.tokenScore, Runtime.tokenScore, halike.serviceName, halike.description,
    halike.tags, halike.extensions]

theorem baseScore_of_ne {entry : Entry} (hsource : entry.source ≠ "payment")
    (query : Option String) : runtime.baseScore entry query =
      if Text.trim (query.getD "").toList = [] then 0
      else ((runtime.tokens (query.getD "")).map (runtime.tokenScore entry.resource)).sum := by
  rw [Runtime.baseScore]
  apply if_congr Iff.rfl rfl
  dsimp only
  rw [if_neg hsource]
  split
  · next hzero => exact hzero.symm
  · rfl

variable [Field Score] [LinearOrder Score]

/-- A settlement adds nothing to the score. -/
theorem PaidPair.scoreResource_eq (hs : history.Kept config)
    (hpair : PaidPair history paid unpaid) (now : ℕ) (query : Option String) :
    runtime.scoreResource now paid query = runtime.scoreResource now unpaid query := by
  obtain ⟨_, hpaid, -⟩ := hpair.settled
  obtain ⟨_, hunpaid, -⟩ := hpair.verified
  have hbase : runtime.baseScore paid query = runtime.baseScore unpaid query := by
    rw [baseScore_of_ne (source_ne_payment hs hpaid),
      baseScore_of_ne (source_ne_payment hs hunpaid), hpair.alike.tokenScore]
  rw [Runtime.scoreResource, Runtime.scoreResource, hbase, hpair.alike.lastSeenAt]

theorem scoreResource_nonneg (runtime : ExactRuntime Score) (now : ℕ) (entry : Entry)
    (query : Option String) : 0 ≤ runtime.scoreResource now entry query := by
  have := runtime.ordered
  rw [Runtime.scoreResource]
  dsimp only
  split
  · exact mul_nonneg (Nat.cast_nonneg _) (runtime.exp_pos _).le
  · exact Nat.cast_nonneg _

/-- What was seen earlier has decayed more. -/
theorem scoreResource_le {runtime : ExactRuntime Score} (hexp : Monotone runtime.exp) (now : ℕ) (entry : Entry)
    {lastSeenAt : ℕ} (hearlier : lastSeenAt ≤ entry.lastSeenAt) (query : Option String) :
    runtime.scoreResource now { entry with lastSeenAt := lastSeenAt } query ≤
      runtime.scoreResource now entry query := by
  have := runtime.ordered
  have hdecay : runtime.decay (now - lastSeenAt) ≤ runtime.decay (now - entry.lastSeenAt) := by
    apply hexp
    gcongr
  rw [scoreResource_eq, scoreResource_eq]
  exact mul_le_mul_of_nonneg_left hdecay (Nat.cast_nonneg _)

/-- Paid listings outrank unpaid ones just where the query matches none that an unpaid one is
like. -/
theorem ranksPaid_iff {runtime : ExactRuntime Score} (hexp : Monotone runtime.exp)
    {config : Config}
    {history : History (List Score)}
    (hreach : Reaches (History.step config) anyStep .empty history) (now : ℕ)
    (query : Option String) :
    RanksPaid runtime.toRuntime config history now query ↔
      ∀ paid unpaid, PaidPair history paid unpaid → ¬ runtime.Matches paid.resource query := by
  have hs := kept_of_reaches hreach
  constructor
  · intro hranks paid unpaid hpair hmatches
    have hless := hranks.outranks paid unpaid hpair hmatches
    rw [hpair.scoreResource_eq hs] at hless
    exact lt_irrefl _ hless
  · intro hnone
    exact {
      outranks := fun paid unpaid hpair hmatches => absurd hmatches (hnone paid unpaid hpair)
      first := fun _ _ _ _ _ _ _ paid unpaid hpair hmatches =>
        absurd hmatches (hnone paid unpaid hpair)
      nonneg := fun entry => scoreResource_nonneg runtime now entry query
      decays := fun entry _ hearlier => scoreResource_le hexp now entry hearlier query }

end Scores

namespace Sample

def weather (url payTo : String) : Resource where
  type := "http"
  url := url
  toolName := none
  serviceName := none
  description := some "weather"
  tags := none
  iconUrl := none
  scheme := none
  network := none
  extensions := none
  payTo := payTo
  pactwright := none

def twoListings : Config := ⟨2, 2, 1000, false⟩

/-- A verification of one listing, and a settlement of the other. -/
def afterBoth : History (List ℚ) :=
  (History.empty.upsert twoListings 0 (weather "https://a.test/" "A") .verify).upsert
    twoListings 0 (weather "https://b.test/" "B") .settle

def verified : Entry := ⟨0, weather "https://a.test/" "A", "verify", true, some 1000, 0, 0, none⟩

def settled : Entry := ⟨1, weather "https://b.test/" "B", "settle", false, none, 0, 0, none⟩

def runtime : ExactRuntime ℚ := undecayed id id

theorem reaches_afterBoth : Reaches (History.step twoListings) anyStep .empty afterBoth := by
  have hrun : run (History.step twoListings) .empty
      [.upsert 0 (weather "https://a.test/" "A") .verify,
        .upsert 0 (weather "https://b.test/" "B") .settle] = some afterBoth := rfl
  exact reaches_of_run hrun

theorem paidPair : PaidPair afterBoth settled verified where
  settled := ⟨"https://b.test/::", rfl, ⟨0, weather "https://b.test/" "B", .settle⟩,
    List.mem_singleton_self _, rfl⟩
  verified := by
    refine ⟨"https://a.test/::", rfl, fun landed hlanded => ?_⟩
    have hwritten : afterBoth.written "https://a.test/::" =
        [⟨0, weather "https://a.test/" "A", .verify⟩] := rfl
    rw [hwritten] at hlanded
    rw [List.mem_singleton.mp hlanded]
  alike := ⟨rfl, rfl, rfl, rfl, rfl⟩

theorem matches_settled : runtime.Matches settled.resource (some "weather") :=
  ⟨by decide, "weather".toList, by decide, by decide⟩

theorem not_matches_rain {entry : Entry} (hentry : entry ∈ [verified, settled]) :
    ¬ runtime.Matches entry.resource (some "rain") := by
  rintro ⟨-, token, htoken, hscore⟩
  have htokens : runtime.tokens "rain" = ["rain".toList] := by decide
  obtain rfl := List.mem_singleton.mp (htokens ▸ htoken)
  have hnothing : ∀ entry ∈ [verified, settled],
      runtime.tokenScore entry.resource "rain".toList = 0 := by decide
  rw [hnothing entry hentry] at hscore
  exact Nat.lt_irrefl 0 hscore

end Sample

/-- A settled listing and a verified one are found with one score. -/
theorem not_ranksPaid : Reaches (History.step Sample.twoListings) anyStep .empty Sample.afterBoth ∧
    ¬ RanksPaid Sample.runtime.toRuntime Sample.twoListings Sample.afterBoth 0
      (some "weather") := by
  refine ⟨Sample.reaches_afterBoth, fun hranks => ?_⟩
  have hless := hranks.outranks _ _ Sample.paidPair Sample.matches_settled
  rw [Sample.paidPair.scoreResource_eq (kept_of_reaches Sample.reaches_afterBoth)] at hless
  exact lt_irrefl _ hless

/-- A query for the two listings finds the settled one no higher; another query finds
neither. -/
theorem ranksPaid_afterBoth :
    ¬ RanksPaid Sample.runtime.toRuntime Sample.twoListings Sample.afterBoth 0 (some "weather") ∧
      RanksPaid Sample.runtime.toRuntime Sample.twoListings Sample.afterBoth 0 (some "rain") := by
  constructor
  · intro hranks
    exact (ranksPaid_iff monotone_const Sample.reaches_afterBoth 0 (some "weather")).mp hranks _ _
      Sample.paidPair Sample.matches_settled
  · apply (ranksPaid_iff monotone_const Sample.reaches_afterBoth 0 (some "rain")).mpr
    intro paid unpaid hpair
    obtain ⟨key, hpaid, -⟩ := hpair.settled
    have hentries : Sample.afterBoth.store.resources.entries.map Prod.snd =
        [Sample.verified, Sample.settled] := rfl
    have hstored := List.mem_map_of_mem (f := Prod.snd) (InsertionMap.mem_of_lookup hpaid)
    rw [hentries] at hstored
    exact Sample.not_matches_rain hstored

end X402Facilitator.Catalog
