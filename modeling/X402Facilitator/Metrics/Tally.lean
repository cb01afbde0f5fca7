import Mathlib.Data.List.Induction
import X402Facilitator.Metrics.SampleLines

/-!
# What the updates of a metric come to

The updates of a metric are grouped by the labels that they show, and each group is summed up
at once.  The series of the metric are these groups, as long as the joined text tells the
labels apart.
-/

namespace X402Facilitator.Metrics

open JsString

variable {V : Type} (numerals : Numerals V)

abbrev Pairs := List (JsString × JsString)

/-- The calls with each labels, in the order in which the labels came first. -/
def Metric.groups (metric : Metric) (updates : List (Labels × metric.kind.Call V)) :
    InsertionMap Pairs (List (metric.kind.Call V)) :=
  updates.foldl (fun groups update =>
    let pairs := shownPairs metric.labelNames update.1
    groups.set pairs ((groups.get pairs).getD [] ++ [update.2])) .empty

def Kind.total : (kind : Kind) → List (kind.Call V) → kind.State V
  | counter => fun calls => match calls with
      | [] => numerals.literal 0
      | first :: calls => calls.foldl numerals.add first
  | gauge => fun calls =>
      calls.foldl (fun value call => gaugeCall numerals (some value) call) (numerals.literal 0)
  | histogram buckets => fun calls =>
      { count := calls.length
        sum := calls.foldl numerals.add (numerals.literal 0)
        bucketCounts := buckets.map fun bound =>
          calls.countP fun value => numerals.le value (numerals.literal bound) }

def Kind.samples (name : JsString) (pairs : Pairs) : (kind : Kind) → kind.State V → List (Sample V)
  | counter | gauge => fun value => [⟨name, pairs, value⟩]
  | histogram buckets => fun series =>
      List.zipWith (fun bound count => ⟨name ++ js "_bucket",
          pairs ++ [(js "le", numerals.print (numerals.literal bound))], numerals.ofCount count⟩)
        buckets series.bucketCounts ++
      [⟨name ++ js "_bucket", pairs ++ [(js "le", js "+Inf")], numerals.ofCount series.count⟩,
        ⟨name ++ js "_sum", pairs, series.sum⟩,
        ⟨name ++ js "_count", pairs, numerals.ofCount series.count⟩]

def Metric.expected (metric : Metric) (updates : List (Labels × metric.kind.Call V)) :
    List (Sample V) :=
  (metric.groups updates).entries.flatMap fun group =>
    metric.kind.samples numerals metric.name group.1 (metric.kind.total numerals group.2)

/-- The buckets of a histogram are cumulative: none has less than the one before, or more than
the count. -/
def Kind.Cumulative : (kind : Kind) → kind.State V → Prop
  | counter | gauge => fun _ => True
  | histogram _ => fun series =>
      series.bucketCounts.Pairwise (· ≤ ·) ∧ ∀ count ∈ series.bucketCounts, count ≤ series.count

def Metric.after (metric : Metric) (updates : List (Labels × metric.kind.Call V)) :
    metric.Series V :=
  updates.foldl (fun series update => metric.record numerals series update.1 update.2) .empty

/-- The joined text tells the labels that are shown apart, and no others. -/
def Metric.Distinguished (metric : Metric) (updates : List (Labels × metric.kind.Call V)) : Prop :=
  ∀ first ∈ updates, ∀ second ∈ updates, labelKey first.1 = labelKey second.1 ↔
    shownPairs metric.labelNames first.1 = shownPairs metric.labelNames second.1

section Totals

variable {numerals} {kind : Kind}

theorem total_singleton (call : kind.Call V) :
    kind.update numerals none call = kind.total numerals [call] := by
  cases kind with
  | counter => rfl
  | gauge => rfl
  | histogram buckets =>
      have hcounts : List.zipWith (fun bound count =>
            if numerals.le call (numerals.literal bound) then count + 1 else count) buckets
          (List.replicate buckets.length 0) =
          buckets.map fun bound =>
            [call].countP fun value => numerals.le value (numerals.literal bound) := by
        induction buckets with
        | nil => rfl
        | cons bound buckets ih =>
            rw [List.length_cons, List.replicate_succ, List.zipWith_cons_cons, ih, List.map_cons,
              List.countP_singleton]
      exact congrArg (Distribution.mk 1 (numerals.add (numerals.literal 0) call)) hcounts

/-- One more call is one more update. -/
theorem total_append {calls : List (kind.Call V)} (hne : calls ≠ []) (call : kind.Call V) :
    kind.update numerals (some (kind.total numerals calls)) call =
      kind.total numerals (calls ++ [call]) := by
  cases kind with
  | counter =>
      cases calls with
      | nil => exact absurd rfl hne
      | cons first calls => exact (List.foldl_concat numerals.add first call calls).symm
  | gauge =>
      exact (List.foldl_concat (fun value call => gaugeCall numerals (some value) call) _ call
        calls).symm
  | histogram buckets =>
      have hcounts : List.zipWith (fun bound count =>
            if numerals.le call (numerals.literal bound) then count + 1 else count) buckets
          (buckets.map fun bound =>
            calls.countP fun value => numerals.le value (numerals.literal bound)) =
          buckets.map fun bound =>
            (calls ++ [call]).countP fun value => numerals.le value (numerals.literal bound) := by
        rw [List.zipWith_map_right, List.zipWith_self]
        refine List.map_congr_left fun bound _ => ?_
        rw [List.countP_append, List.countP_singleton]
        split <;> rfl
      have hsum : numerals.add (calls.foldl numerals.add (numerals.literal 0)) call =
          (calls ++ [call]).foldl numerals.add (numerals.literal 0) :=
        (List.foldl_concat numerals.add _ call calls).symm
      have hlength : calls.length + 1 = (calls ++ [call]).length := by
        rw [List.length_append, List.length_singleton]
      exact congrArg₂ (fun count rest => rest count) hlength
        (congrArg₂ (fun sum counts count => Distribution.mk count sum counts) hsum hcounts)

theorem cumulative_total (hascending : kind.Ascending) (calls : List (kind.Call V)) :
    kind.Cumulative (kind.total numerals calls) := by
  cases kind with
  | counter => trivial
  | gauge => trivial
  | histogram buckets =>
      constructor
      · refine List.pairwise_map.mpr (hascending.imp fun hle => ?_)
        refine List.countP_mono_left fun value _ hvalue => ?_
        exact numerals.le_trans hvalue (numerals.literal_le hle)
      · intro count hcount
        obtain ⟨bound, -, rfl⟩ := List.mem_map.mp hcount
        exact List.countP_le_length

end Totals

section Mirroring

variable {numerals} {metric : Metric} {updates : List (Labels × metric.kind.Call V)}

structure Mirrors (numerals : Numerals V) (metric : Metric)
    (updates : List (Labels × metric.kind.Call V)) (series : metric.Series V) : Prop where
  entries : series.entries.map (fun entry => (shownPairs metric.labelNames entry.2.1, entry.2.2)) =
    (metric.groups updates).entries.map fun group =>
      (group.1, metric.kind.total numerals group.2)
  known : ∀ entry ∈ series.entries, ∃ update ∈ updates,
    labelKey update.1 = entry.1 ∧ update.1 = entry.2.1
  filled : ∀ group ∈ (metric.groups updates).entries, group.2 ≠ []

theorem groups_append (update : Labels × metric.kind.Call V) :
    metric.groups (updates ++ [update]) = (metric.groups updates).set
      (shownPairs metric.labelNames update.1)
      (((metric.groups updates).get (shownPairs metric.labelNames update.1)).getD [] ++
        [update.2]) := List.foldl_concat ..

theorem after_append (update : Labels × metric.kind.Call V) :
    metric.after numerals (updates ++ [update]) =
      metric.record numerals (metric.after numerals updates) update.1 update.2 :=
  List.foldl_concat ..

/-- The labels of a series after an update are those of the update or the ones before. -/
theorem kept_cases (kind : Kind) (existing : Option Labels) (labels : Labels) :
    kind.kept existing labels = labels ∨ existing = some (kind.kept existing labels) := by
  cases existing with
  | none => cases kind <;> exact .inl rfl
  | some old =>
      cases kind with
      | gauge => exact .inl rfl
      | counter => exact .inr rfl
      | histogram buckets => exact .inr rfl

theorem Metric.Distinguished.of_append {later : List (Labels × metric.kind.Call V)}
    (hdistinct : metric.Distinguished (updates ++ later)) : metric.Distinguished updates :=
  fun first hfirst second hsecond => hdistinct first (List.mem_append_left later hfirst) second
    (List.mem_append_left later hsecond)

/-- One update keeps the series and the groups the same. -/
theorem Mirrors.record {series : metric.Series V}
    (hmirrors : Mirrors numerals metric updates series) {update : Labels × metric.kind.Call V}
    (hdistinct : metric.Distinguished (updates ++ [update])) :
    Mirrors numerals metric (updates ++ [update])
      (metric.record numerals series update.1 update.2) := by
  have hnew : update ∈ updates ++ [update] := List.mem_append_right _ (List.mem_singleton_self _)
  have hkeys : ∀ entry ∈ series.entries, entry.1 = labelKey update.1 ↔
      shownPairs metric.labelNames entry.2.1 = shownPairs metric.labelNames update.1 := by
    intro entry hentry
    obtain ⟨known, hknown, hkey, hlabels⟩ := hmirrors.known entry hentry
    rw [← hkey, ← hlabels]
    exact hdistinct known (List.mem_append_left _ hknown) update hnew
  have hexisting : (series.get (labelKey update.1)).map Prod.snd =
      ((metric.groups updates).get (shownPairs metric.labelNames update.1)).map
        (metric.kind.total numerals) := by
    have hseries := InsertionMap.lookup_rename
      (fun entry : JsString × (Labels × metric.kind.State V) =>
        (shownPairs metric.labelNames entry.2.1, entry.2.2)) hkeys
    rw [hmirrors.entries, InsertionMap.lookup_map] at hseries
    exact hseries.symm
  have htotal : metric.kind.update numerals ((series.get (labelKey update.1)).map Prod.snd)
      update.2 = metric.kind.total numerals
        (((metric.groups updates).get (shownPairs metric.labelNames update.1)).getD [] ++
          [update.2]) := by
    rw [hexisting]
    cases hgroup : (metric.groups updates).get (shownPairs metric.labelNames update.1) with
    | none => exact total_singleton update.2
    | some calls =>
        exact total_append (hmirrors.filled _ (InsertionMap.mem_of_lookup hgroup)) update.2
  generalize hkept : metric.kind.kept ((series.get (labelKey update.1)).map Prod.fst) update.1 =
    kept
  -- the labels that are kept are of a known update with the same key
  have hold : ∃ known ∈ updates ++ [update], labelKey known.1 = labelKey update.1 ∧
      known.1 = kept := by
    rcases kept_cases metric.kind ((series.get (labelKey update.1)).map Prod.fst) update.1 with
      hown | hbefore
    · exact ⟨update, hnew, rfl, hown.symm.trans hkept⟩
    · obtain ⟨existing, hfound, hlabels⟩ := Option.map_eq_some_iff.mp hbefore
      obtain ⟨known, hknown, hkey, hsame⟩ :=
        hmirrors.known _ (InsertionMap.mem_of_lookup hfound)
      exact ⟨known, List.mem_append_left _ hknown, hkey, hsame.trans (hlabels.trans hkept)⟩
  have hshown : shownPairs metric.labelNames kept = shownPairs metric.labelNames update.1 := by
    obtain ⟨known, hknown, hkey, rfl⟩ := hold
    exact (hdistinct known hknown update hnew).mp hkey
  rw [Metric.record, hkept, htotal]
  constructor
  · rw [groups_append, InsertionMap.set, InsertionMap.set, InsertionMap.map_setEntries,
      InsertionMap.map_setEntries, hmirrors.entries, hshown]
    · exact fun group _ => Iff.rfl
    · exact fun entry hentry => by rw [hkeys entry hentry, hshown]
  · intro entry hentry
    rcases InsertionMap.mem_setEntries hentry with rfl | hbefore
    · exact hold
    · obtain ⟨known, hknown, hsame⟩ := hmirrors.known entry hbefore
      exact ⟨known, List.mem_append_left _ hknown, hsame⟩
  · intro group hgroup
    rw [groups_append] at hgroup
    rcases InsertionMap.mem_setEntries hgroup with rfl | hbefore
    · exact List.append_ne_nil_of_right_ne_nil _ (List.cons_ne_nil _ _)
    · exact hmirrors.filled group hbefore

/-- The series after any updates are the groups. -/
theorem mirrors_after (hdistinct : metric.Distinguished updates) :
    Mirrors numerals metric updates (metric.after numerals updates) := by
  induction updates using List.reverseRecOn with
  | nil => exact ⟨rfl, fun _ hentry => absurd hentry List.not_mem_nil,
      fun _ hgroup => absurd hgroup List.not_mem_nil⟩
  | append_singleton updates update ih =>
      rw [after_append]
      exact (ih hdistinct.of_append).record hdistinct

end Mirroring

end X402Facilitator.Metrics
