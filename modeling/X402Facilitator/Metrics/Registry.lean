import X402Facilitator.Library.InsertionMap
import X402Facilitator.Library.JsText

/-!
# Counters, gauges and histograms

A metric keeps its series under a text that its labels are joined to, and renders the labels
that a series has been created with.  The registry renders its metrics one after another.

The numbers that metrics add up come with what the language does with them as fields: it prints
a number so that it is read back, without spaces, quotes, backslashes or line breaks.
-/

namespace X402Facilitator.Metrics

open JsString

def newline : UInt16 := 0x0A
def space : UInt16 := 0x20
def quote : UInt16 := 0x22
def backslash : UInt16 := 0x5C

/-- A character that stands for itself wherever it is. -/
def isPlain (unit : UInt16) : Bool :=
  unit != newline && unit != space && unit != quote && unit != backslash

def isNameUnit (unit : UInt16) : Bool :=
  (0x30 ≤ unit && unit ≤ 0x3A) || (0x41 ≤ unit && unit ≤ 0x5A) || unit = 0x5F ||
    (0x61 ≤ unit && unit ≤ 0x7A)

def isName (name : JsString) : Bool := name ≠ [] && name.all isNameUnit

structure Numerals (V : Type) where
  literal : ℚ → V
  add : V → V → V
  subtract : V → V → V
  /-- `Math.max(0, value)` -/
  atLeastZero : V → V
  le : V → V → Bool
  print : V → JsString
  read : JsString → Option V
  read_print : ∀ value, read (print value) = some value
  plain_print : ∀ value, ∀ unit ∈ print value, isPlain unit = true
  le_trans : ∀ {a b c}, le a b = true → le b c = true → le a c = true
  literal_le : ∀ {a b : ℚ}, a ≤ b → le (literal a) (literal b) = true

def Numerals.ofCount {V : Type} (numerals : Numerals V) (count : ℕ) : V := numerals.literal count

/-- The value of a label; numbers are the text that they are printed as. -/
inductive LabelValue where
  | undefined
  | null
  | text (string : JsString)
  deriving DecidableEq

/-- `${value}` -/
def LabelValue.key : LabelValue → JsString
  | undefined => js "undefined"
  | null => js "null"
  | text string => string

/-- `String(value ?? '')` -/
def LabelValue.shown : LabelValue → JsString
  | undefined | null => []
  | text string => string

abbrev Labels := InsertionMap JsString LabelValue

/-- `labels[name]` -/
def Labels.value (labels : Labels) (name : JsString) : LabelValue :=
  (labels.get name).getD .undefined

def escapeLabelValue (value : LabelValue) : JsString :=
  (value.shown.flatMap fun unit =>
    if unit = backslash then [backslash, backslash] else [unit]).flatMap fun unit =>
      if unit = quote then [backslash, quote] else [unit]

def labelKey (labels : Labels) : JsString :=
  List.intercalate (js ",") ((labels.keys.mergeSort fun a b => decide (a ≤ b)).map fun name =>
    name ++ js "=" ++ (labels.value name).key)

/-- `name="value"` -/
def labelPair (labels : Labels) (name : JsString) : JsString :=
  name ++ js "=\"" ++ escapeLabelValue (labels.value name) ++ js "\""

def labelPairs (labelNames : List JsString) (labels : Labels) : JsString :=
  List.intercalate (js ",") (labelNames.map (labelPair labels))

def labelString (labelNames : List JsString) (labels : Labels) : JsString :=
  if labelNames = [] then [] else js "\x7b" ++ labelPairs labelNames labels ++ js "\x7d"

variable {V : Type} (numerals : Numerals V)

/-- What a histogram keeps of the observed values. -/
structure Distribution (V : Type) where
  count : ℕ
  sum : V
  bucketCounts : List ℕ
  deriving DecidableEq

inductive GaugeCall (V : Type) where
  | set (value : V)
  | inc (value : V)
  | dec (value : V)

/-- The kinds of metrics; the buckets of a histogram are constants. -/
inductive Kind where
  | counter
  | gauge
  | histogram (buckets : List ℚ)

namespace Kind

abbrev State (V : Type) : Kind → Type
  | counter => V
  | gauge => V
  | histogram _ => Distribution V

abbrev Call (V : Type) : Kind → Type
  | counter => V
  | gauge => GaugeCall V
  | histogram _ => V

def typeName : Kind → JsString
  | counter => js "counter"
  | gauge => js "gauge"
  | histogram _ => js "histogram"

end Kind

/-- `inc` of a counter. -/
def counterInc (existing : Option V) (value : V) : V :=
  match existing with
  | none => value
  | some total => numerals.add total value

/-- `set`, `inc` and `dec` of a gauge. -/
def gaugeCall (existing : Option V) (call : GaugeCall V) : V :=
  let current := existing.getD (numerals.literal 0)
  match call with
  | .set value => value
  | .inc value => numerals.add current value
  | .dec value => numerals.atLeastZero (numerals.subtract current value)

/-- `observe` of a histogram. -/
def observe (buckets : List ℚ) (existing : Option (Distribution V)) (value : V) :
    Distribution V :=
  let series := existing.getD
    ⟨0, numerals.literal 0, List.replicate buckets.length 0⟩
  { count := series.count + 1
    sum := numerals.add series.sum value
    bucketCounts := List.zipWith (fun bound count =>
      if numerals.le value (numerals.literal bound) then count + 1 else count)
        buckets series.bucketCounts }

def Kind.update : (kind : Kind) → Option (kind.State V) → kind.Call V → kind.State V
  | counter => counterInc numerals
  | gauge => gaugeCall numerals
  | histogram buckets => observe numerals buckets

def Kind.Ascending : Kind → Prop
  | counter | gauge => True
  | histogram buckets => buckets.Pairwise (· ≤ ·)

structure Metric where
  name : JsString
  help : JsString
  labelNames : List JsString
  kind : Kind
  named : isName name = true ∧ labelNames.all isName = true
  helped : newline ∉ help
  ascending : kind.Ascending

/-- The series of a metric, under the key of their labels. -/
abbrev Metric.Series (V : Type) (metric : Metric) :=
  InsertionMap JsString (Labels × metric.kind.State V)

/-- A counter and a histogram keep the labels of the first update, a gauge has those of the
last. -/
def Kind.kept (kind : Kind) (existing : Option Labels) (labels : Labels) : Labels :=
  match kind with
  | gauge => labels
  | counter | histogram _ => existing.getD labels

def Metric.record (metric : Metric) (series : metric.Series V) (labels : Labels)
    (call : metric.kind.Call V) : metric.Series V :=
  let key := labelKey labels
  let existing := series.get key
  series.set key (metric.kind.kept (existing.map Prod.fst) labels,
    metric.kind.update numerals (existing.map Prod.snd) call)

/-- `name{labels} value` -/
def sampleLine (name labels : JsString) (value : V) : JsString :=
  name ++ labels ++ js " " ++ numerals.print value

/-- The labels of a bucket: those of the series, and its bound. -/
def bucketLabels (others bound : JsString) : JsString :=
  js "\x7b" ++ others ++ (if others = [] then [] else js ",") ++ js "le=\"" ++ bound ++ js "\"\x7d"

def Kind.seriesLines (name : JsString) (labelNames : List JsString) (labels : Labels) :
    (kind : Kind) → kind.State V → List JsString
  | counter | gauge => fun value => [sampleLine numerals name (labelString labelNames labels) value]
  | histogram buckets => fun series =>
      let others := labelPairs labelNames labels
      List.zipWith (fun bound count => sampleLine numerals (name ++ js "_bucket")
          (bucketLabels others (numerals.print (numerals.literal bound)))
          (numerals.ofCount count)) buckets series.bucketCounts ++
        [sampleLine numerals (name ++ js "_bucket") (bucketLabels others (js "+Inf"))
            (numerals.ofCount series.count),
          sampleLine numerals (name ++ js "_sum") (js "\x7b" ++ others ++ js "\x7d") series.sum,
          sampleLine numerals (name ++ js "_count") (js "\x7b" ++ others ++ js "\x7d")
            (numerals.ofCount series.count)]

/-- The lines of a metric, the two comments first. -/
def Metric.lines (metric : Metric) (series : metric.Series V) : List JsString :=
  [js "# HELP " ++ metric.name ++ js " " ++ metric.help,
    js "# TYPE " ++ metric.name ++ js " " ++ metric.kind.typeName] ++
    series.entries.flatMap fun entry =>
      metric.kind.seriesLines numerals metric.name metric.labelNames entry.2.1 entry.2.2

/-- `render`, with a line break at the end of each line. -/
def Metric.render (metric : Metric) (series : metric.Series V) : JsString :=
  (metric.lines numerals series).flatMap fun line => line ++ [newline]

/-- A registry renders all of its metrics in an order. -/
structure Registry (I : Type) where
  metrics : I → Metric
  order : List I
  complete : ∀ i, i ∈ order

namespace Registry

variable {I : Type} [DecidableEq I] (registry : Registry I)

abbrev State (V : Type) := (i : I) → (registry.metrics i).Series V

structure Update (V : Type) where
  metric : I
  labels : Labels
  call : (registry.metrics metric).kind.Call V

def start : registry.State V := fun _ => .empty

def step (state : registry.State V) (update : registry.Update V) : registry.State V :=
  Function.update state update.metric
    ((registry.metrics update.metric).record numerals (state update.metric) update.labels
      update.call)

def run (updates : List (registry.Update V)) : registry.State V :=
  updates.foldl (registry.step numerals) registry.start

def render (state : registry.State V) : JsString :=
  registry.order.flatMap fun i => (registry.metrics i).render numerals (state i)

end Registry

end X402Facilitator.Metrics
