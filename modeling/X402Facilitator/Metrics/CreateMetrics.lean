import X402Facilitator.Library.Decimals
import X402Facilitator.Metrics.Exposed

/-!
# The metrics of the facilitator

The registry that is built at start, with the mutators that the facilitator calls.
-/

namespace X402Facilitator.Metrics

open JsString

inductive MetricName where
  | requests
  | duration
  | settlements
  | fee
  | rpcRetries
  | signerInflight
  | dlqDepth
  | catalogCache
  | activeVerifications
  | projectionLag
  | projectionEventsProcessed
  | projectionBatchDuration
  | projectionThroughput
  deriving DecidableEq

def durationBuckets : List ℚ :=
  [0.005, 0.01, 0.025, 0.05, 0.1, 0.25, 0.5, 1, 2.5, 5, 10]

def feeBuckets : List ℚ :=
  [1000, 5000, 10000, 25000, 50000, 75000, 100000, 250000, 500000, 1000000, 5000000]

theorem durationBuckets_ascending : durationBuckets.Pairwise (· ≤ ·) := by
  decide +kernel

theorem feeBuckets_ascending : feeBuckets.Pairwise (· ≤ ·) := by
  decide +kernel

def requests : Metric where
  name := js "x402_requests_total"
  help := js "Total requests, labelled by route, network, outcome and reason."
  labelNames := [js "route", js "network", js "outcome", js "reason"]
  kind := .counter
  named := by decide +kernel
  helped := by decide +kernel
  ascending := trivial

def duration : Metric where
  name := js "x402_request_duration_seconds"
  help := js "Request duration in seconds."
  labelNames := [js "route", js "network"]
  kind := .histogram durationBuckets
  named := by decide +kernel
  helped := by decide +kernel
  ascending := durationBuckets_ascending

def settlements : Metric where
  name := js "x402_settlements_total"
  help := js "Settlements by network and outcome (settled|failed)."
  labelNames := [js "network", js "outcome"]
  kind := .counter
  named := by decide +kernel
  helped := by decide +kernel
  ascending := trivial

def fee : Metric where
  name := js "x402_settlement_fee_stroops"
  help :=
    js "Actual settlement fee paid, in stroops — the number that tells an operator whether " ++
    js "MAX_TX_FEE_STROOPS is sane."
  labelNames := [js "network"]
  kind := .histogram feeBuckets
  named := by decide +kernel
  helped := by decide +kernel
  ascending := feeBuckets_ascending

def rpcRetries : Metric where
  name := js "x402_rpc_retries_total"
  help := js "Soroban RPC connection-level retries by error code."
  labelNames := [js "code", js "host"]
  kind := .counter
  named := by decide +kernel
  helped := by decide +kernel
  ascending := trivial

def signerInflight : Metric where
  name := js "x402_signer_inflight"
  help := js "In-flight settlements per signer — the sequence-contention signal (#9)."
  labelNames := [js "network", js "signer"]
  kind := .gauge
  named := by decide +kernel
  helped := by decide +kernel
  ascending := trivial

def dlqDepth : Metric where
  name := js "x402_dlq_depth"
  help :=
    js "Dead-letter queue depth by status (pending, exhausted). Alert when pending+exhausted " ++
    js "exceeds DLQ_ALERT_THRESHOLD."
  labelNames := [js "status"]
  kind := .gauge
  named := by decide +kernel
  helped := by decide +kernel
  ascending := trivial

def catalogCache : Metric where
  name := js "x402_catalog_cache_lookups_total"
  help :=
    js "Catalog search cache lookups by tier (l1|l2) and outcome (hit|miss|error). Hit ratio " ++
    js "per tier is the Postgres-CPU signal (#392); a rising l2 error rate means Redis is " ++
    js "timing out, not that the cache is cold."
  labelNames := [js "tier", js "outcome"]
  kind := .counter
  named := by decide +kernel
  helped := by decide +kernel
  ascending := trivial

def activeVerifications : Metric where
  name := js "active_verifications"
  help :=
    js "Verifies currently in flight — the scale signal the HPA reads through the Prometheus " ++
    js "Adapter (#118)."
  labelNames := []
  kind := .gauge
  named := by decide +kernel
  helped := by decide +kernel
  ascending := trivial

def projectionLag : Metric where
  name := js "x402_projection_lag"
  help := js "Number of events behind the event stream (projection lag)."
  labelNames := []
  kind := .gauge
  named := by decide +kernel
  helped := by decide +kernel
  ascending := trivial

def projectionEventsProcessed : Metric where
  name := js "x402_projection_events_processed_total"
  help := js "Total number of events processed by the projection worker."
  labelNames := []
  kind := .counter
  named := by decide +kernel
  helped := by decide +kernel
  ascending := trivial

def projectionBatchDuration : Metric where
  name := js "x402_projection_batch_duration_seconds"
  help := js "Duration of projection batch processing in seconds."
  labelNames := []
  kind := .histogram durationBuckets
  named := by decide +kernel
  helped := by decide +kernel
  ascending := durationBuckets_ascending

def projectionThroughput : Metric where
  name := js "x402_projection_throughput_events_per_second"
  help :=
    js "Projection throughput in events/second, observed over the most recent completed " ++
    js "projection batch (its processed count divided by its wall duration); the worker in " ++
    js "src/settlement-cqrs.js sets it, so averaging the scrape across polls reconstructs the " ++
    js "steady-state rate."
  labelNames := []
  kind := .gauge
  named := by decide +kernel
  helped := by decide +kernel
  ascending := trivial

/-- All metrics, in the order in which they are rendered. -/
def createMetrics : Registry MetricName where
  metrics
    | .requests => requests
    | .duration => duration
    | .settlements => settlements
    | .fee => fee
    | .rpcRetries => rpcRetries
    | .signerInflight => signerInflight
    | .dlqDepth => dlqDepth
    | .catalogCache => catalogCache
    | .activeVerifications => activeVerifications
    | .projectionLag => projectionLag
    | .projectionEventsProcessed => projectionEventsProcessed
    | .projectionBatchDuration => projectionBatchDuration
    | .projectionThroughput => projectionThroughput
  order := [.requests, .duration, .settlements, .fee, .rpcRetries, .signerInflight, .dlqDepth,
    .catalogCache, .activeVerifications, .projectionLag, .projectionEventsProcessed,
    .projectionBatchDuration, .projectionThroughput]
  complete := by
    intro name
    cases name <;> decide

section Mutators

variable {V : Type} (numerals : Numerals V)

abbrev Mutation (V : Type) := createMetrics.Update V

def labelsOf (pairs : List (String × LabelValue)) : Labels :=
  pairs.foldl (fun labels pair => labels.set (js pair.1) pair.2) .empty

/-- `value ?? 'unknown'` -/
def LabelValue.orUnknown : LabelValue → LabelValue
  | undefined | null => text (js "unknown")
  | text string => text string

def incRequests (labels : Labels) : Mutation V := ⟨.requests, labels, numerals.literal 1⟩

def observeRequestDuration (route network : LabelValue) (durationSeconds : V) : Mutation V :=
  ⟨.duration, labelsOf [("route", route), ("network", network)], durationSeconds⟩

def incSettlements (labels : Labels) : Mutation V := ⟨.settlements, labels, numerals.literal 1⟩

def observeSettlementFee (network : LabelValue) (feeStroops : V) : Mutation V :=
  ⟨.fee, labelsOf [("network", network)], feeStroops⟩

def incRpcRetry (code host : LabelValue) : Mutation V :=
  ⟨.rpcRetries, labelsOf [("code", code.orUnknown), ("host", host.orUnknown)],
    numerals.literal 1⟩

def setSignerInflight (network signer : LabelValue) (value : V) : Mutation V :=
  ⟨.signerInflight, labelsOf [("network", network), ("signer", signer)], .set value⟩

def setDlqDepth (status : LabelValue) (value : V) : Mutation V :=
  ⟨.dlqDepth, labelsOf [("status", status)], .set value⟩

def incCatalogCacheLookup (tier outcome : LabelValue) : Mutation V :=
  ⟨.catalogCache, labelsOf [("tier", tier.orUnknown), ("outcome", outcome.orUnknown)],
    numerals.literal 1⟩

def incActiveVerifications : Mutation V :=
  ⟨.activeVerifications, .empty, .inc (numerals.literal 1)⟩

def decActiveVerifications : Mutation V :=
  ⟨.activeVerifications, .empty, .dec (numerals.literal 1)⟩

def setProjectionLag (lag : V) : Mutation V := ⟨.projectionLag, .empty, .set lag⟩

def incProjectionEventsProcessed (count : V) : Mutation V :=
  ⟨.projectionEventsProcessed, .empty, count⟩

def observeProjectionBatchDuration (duration : V) : Mutation V :=
  ⟨.projectionBatchDuration, .empty, duration⟩

def setProjectionThroughput (throughput : V) : Mutation V :=
  ⟨.projectionThroughput, .empty, .set throughput⟩

def initialUpdates : List (Mutation V) :=
  [⟨.activeVerifications, .empty, .set (numerals.literal 0)⟩,
    ⟨.projectionLag, .empty, .set (numerals.literal 0)⟩,
    ⟨.projectionThroughput, .empty, .set (numerals.literal 0)⟩]

end Mutators

section WholeNumbers

variable {digits : Text}

theorem toNat_lt_of_isDigits (hdigits : IsDigits digits) : ∀ c ∈ digits, c.toNat < 0x10000 := by
  intro c hc
  have hrange := toNat_of_isDigit (isDigit_of_isDigitIn (hdigits c hc))
  omega

theorem isPlain_of_isDigits (hdigits : IsDigits digits) :
    ∀ unit ∈ digits.map unitOf, isPlain unit = true := by
  intro unit hunit
  obtain ⟨c, hc, rfl⟩ := List.mem_map.mp hunit
  have hrange := toNat_of_isDigit (isDigit_of_isDigitIn (hdigits c hc))
  have hplain : ∀ n < 58, 48 ≤ n → isPlain (UInt16.ofNat n) = true := by decide
  exact hplain c.toNat (by omega) hrange.1

theorem chars_map_unitOf (hdigits : IsDigits digits) : chars (digits.map unitOf) = digits := by
  rw [← ofText_eq_map (toNat_lt_of_isDigits hdigits), chars_ofText (toNat_lt_of_isDigits hdigits)]

def wholeNumerals : Numerals ℕ where
  literal bound := ⌊bound⌋₊
  add := (· + ·)
  subtract := (· - ·)
  atLeastZero value := value
  le a b := decide (a ≤ b)
  print value := (Nat.toDigits 10 value).map unitOf
  read string := if isNumeral 10 (chars string) then some (numeralValue 10 (chars string)) else none
  read_print := by
    intro value
    rw [chars_map_unitOf (isDigits_toDigits value), if_pos (isNumeral_toDigits value),
      numeralValue_toDigits]
  plain_print value := isPlain_of_isDigits (isDigits_toDigits value)
  le_trans hab hbc :=
    decide_eq_true ((of_decide_eq_true hab).trans (of_decide_eq_true hbc))
  literal_le hle := decide_eq_true (Nat.floor_mono hle)

end WholeNumbers

/-- The exposition is faithful exactly where the labels are told apart and none has a line
break.  Labels without commas are told apart by `Metric.Commaless.labelKey_eq_iff`. -/
theorem exposed_iff {V I : Type} [DecidableEq I] (registry : Registry I) (numerals : Numerals V)
    (updates : List (registry.Update V)) :
    registry.Exposed numerals updates ↔ registry.Plain updates :=
  ⟨Registry.Exposed.plain, Registry.Plain.exposed⟩

/-- A retry of a code and a host with separators in them, and another that is joined to the
same text. -/
def confusedRetries : List (Mutation ℕ) :=
  initialUpdates wholeNumerals ++
    [incRpcRetry wholeNumerals (.text (js "x,host=y")) (.text (js "z")),
      incRpcRetry wholeNumerals (.text (js "x")) (.text (js "y,host=z"))]

/-- An update that shows a network with a line break. -/
def brokenRequest : List (Mutation ℕ) :=
  initialUpdates wholeNumerals ++
    [incRequests wholeNumerals (labelsOf [("route", .text (js "/verify")),
      ("network", .text (js "stellar:testnet\n")), ("outcome", .text (js "rejected")),
      ("reason", .text (js "invalid_network"))])]

theorem labelKey_retry (code host : LabelValue) :
    labelKey (labelsOf [("code", code), ("host", host)]) =
      js "code=" ++ code.key ++ js "," ++ (js "host=" ++ host.key) := by
  have hne : js "code" ≠ js "host" := by decide
  have hlabels : labelsOf [("code", code), ("host", host)] =
      (InsertionMap.empty.set (js "code") code).set (js "host") host := rfl
  have hentries : (labelsOf [("code", code), ("host", host)]).entries =
      [(js "code", code), (js "host", host)] := by
    rw [hlabels, InsertionMap.set, InsertionMap.set, InsertionMap.empty]
    simp [InsertionMap.setEntries, hne]
  have hsorted : [js "code", js "host"].mergeSort (fun a b => decide (a ≤ b)) =
      [js "code", js "host"] := List.mergeSort_of_pairwise (by decide)
  have hcode : Labels.value (labelsOf [("code", code), ("host", host)]) (js "code") = code := by
    rw [Labels.value, hlabels, InsertionMap.get_set_of_ne _ _ hne, InsertionMap.get_set_self]
    rfl
  have hhost : Labels.value (labelsOf [("code", code), ("host", host)]) (js "host") = host := by
    rw [Labels.value, hlabels, InsertionMap.get_set_self]
    rfl
  rw [labelKey, InsertionMap.keys, hentries, List.map_cons, List.map_cons, List.map_nil, hsorted,
    List.map_cons, List.map_cons, List.map_nil, hcode, hhost, List.intercalate_cons_cons,
    List.intercalate_singleton]
  rfl

theorem not_exposed : ¬ createMetrics.Exposed wholeNumerals confusedRetries ∧
    ¬ createMetrics.Exposed wholeNumerals brokenRequest := by
  constructor
  · intro hexposed
    have hfirst := Registry.mem_updatesOf (show incRpcRetry wholeNumerals
      (.text (js "x,host=y")) (.text (js "z")) ∈ confusedRetries from
        List.mem_append_right _ List.mem_cons_self)
    have hsecond := Registry.mem_updatesOf (show incRpcRetry wholeNumerals
      (.text (js "x")) (.text (js "y,host=z")) ∈ confusedRetries from
        List.mem_append_right _ (List.mem_cons_of_mem _ List.mem_cons_self))
    have hkeys : labelKey (labelsOf [("code", .text (js "x,host=y")), ("host", .text (js "z"))]) =
        labelKey (labelsOf [("code", .text (js "x")), ("host", .text (js "y,host=z"))]) := by
      rw [labelKey_retry, labelKey_retry]
      decide
    have hshown := (hexposed.plain.distinguished .rpcRetries _ hfirst _ hsecond).mp hkeys
    exact absurd hshown (by decide +kernel)
  · intro hexposed
    have hunbroken := hexposed.plain.unbroken _
      (List.mem_append_right _ List.mem_cons_self)
    have hnetwork := hunbroken (js "network", js "stellar:testnet\n") (by decide +kernel)
    exact hnetwork (by decide)

end X402Facilitator.Metrics
