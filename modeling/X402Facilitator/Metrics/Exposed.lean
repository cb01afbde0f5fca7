import Mathlib.Data.List.Sort
import X402Facilitator.Metrics.Faithful

/-!
# The exposition of a registry

The updates of a registry are those of its metrics, each on its own.  The text of a registry
is read as what the updates come to, and each series shows one set of labels, exactly as long
as the labels are told apart and have no line break.  Labels of the metric's own names whose
values have no commas are told apart.
-/

namespace X402Facilitator.Metrics

open JsString

variable {V : Type} {numerals : Numerals V}

section TwoUpdates

variable {metric : Metric} {updates : List (Labels × metric.kind.Call V)}

/-- Two updates fall into one series where their joined texts are the same. -/
theorem length_after_pair (first second : Labels × metric.kind.Call V) :
    (metric.after numerals [first, second]).entries.length = 1 ↔
      labelKey first.1 = labelKey second.1 := by
  change (InsertionMap.setEntries (labelKey second.1) _
    (InsertionMap.setEntries (labelKey first.1) _ [])).length = 1 ↔ _
  rw [InsertionMap.setEntries, InsertionMap.setEntries]
  by_cases hkey : labelKey first.1 = labelKey second.1
  · rw [if_pos hkey]
    exact iff_of_true rfl hkey
  · rw [if_neg hkey]
    exact iff_of_false (by simp [InsertionMap.setEntries]) hkey

variable {update : Labels × metric.kind.Call V} {series : metric.Series V}

/-- The labels of each update belong to a group. -/
theorem mem_keys_groups (hupdate : update ∈ updates) :
    shownPairs metric.labelNames update.1 ∈ (metric.groups updates).keys := by
  induction updates using List.reverseRecOn with
  | nil => cases hupdate
  | append_singleton updates last ih =>
      rw [groups_append]
      apply (InsertionMap.mem_keys_setEntries _ _ _ _).mpr
      rcases List.mem_append.mp hupdate with hbefore | hlast
      · exact .inr (ih hbefore)
      · rw [List.mem_singleton.mp hlast]
        exact .inl rfl

/-- The labels of each update are shown by a series. -/
theorem Mirrors.exists_series (hmirrors : Mirrors numerals metric updates series)
    (hupdate : update ∈ updates) : ∃ entry ∈ series.entries,
      shownPairs metric.labelNames entry.2.1 = shownPairs metric.labelNames update.1 := by
  obtain ⟨group, hgroup, hpairs⟩ := List.mem_map.mp (mem_keys_groups hupdate)
  have hmem := List.mem_map_of_mem (f := fun group : Pairs × List (metric.kind.Call V) =>
    (group.1, metric.kind.total numerals group.2)) hgroup
  rw [← hmirrors.entries] at hmem
  obtain ⟨entry, hentry, hsame⟩ := List.mem_map.mp hmem
  exact ⟨entry, hentry, (congrArg Prod.fst hsame).trans hpairs⟩

/-- The buckets of each series are cumulative. -/
theorem Mirrors.cumulative (hmirrors : Mirrors numerals metric updates series) :
    ∀ entry ∈ series.entries, metric.kind.Cumulative entry.2.2 := by
  intro entry hentry
  have hmem := List.mem_map_of_mem (f := fun entry : JsString × (Labels × metric.kind.State V) =>
    (shownPairs metric.labelNames entry.2.1, entry.2.2)) hentry
  rw [hmirrors.entries] at hmem
  obtain ⟨group, -, hsame⟩ := List.mem_map.mp hmem
  have htotal : entry.2.2 = metric.kind.total numerals group.2 := (congrArg Prod.snd hsame).symm
  rw [htotal]
  exact cumulative_total metric.ascending group.2

end TwoUpdates

section Commaless

variable {metric : Metric} {labels first second : Labels}

def comma : UInt16 := 0x2C

structure Metric.Commaless (metric : Metric) (labels : Labels) : Prop where
  names : labels.keys.Perm metric.labelNames
  values : ∀ name ∈ metric.labelNames, ∃ string, labels.value name = .text string ∧
    comma ∉ string

variable {name : JsString}

theorem Metric.Commaless.key_eq_shown (hcommaless : metric.Commaless labels)
    (hname : name ∈ metric.labelNames) : (labels.value name).key = (labels.value name).shown := by
  obtain ⟨string, hvalue, -⟩ := hcommaless.values name hname
  rw [hvalue]
  rfl

theorem comma_notMem_of_isName (hname : isName name = true) : comma ∉ name := by
  intro hmem
  have hunits := (Bool.and_eq_true_iff.mp hname).2
  exact absurd (List.all_eq_true.mp hunits comma hmem) (by decide)

/-- The names are sorted before they are joined, so their order does not matter. -/
theorem Metric.Commaless.labelKey_eq (hcommaless : metric.Commaless labels) :
    labelKey labels = List.intercalate [comma]
      ((metric.labelNames.mergeSort fun a b => decide (a ≤ b)).map fun name =>
        name ++ js "=" ++ (labels.value name).key) := by
  have hperm : (labels.keys.mergeSort fun a b => decide (a ≤ b)).Perm
      (metric.labelNames.mergeSort fun a b => decide (a ≤ b)) :=
    (List.mergeSort_perm _ _).trans (hcommaless.names.trans (List.mergeSort_perm _ _).symm)
  have hsorted := hperm.eq_of_pairwise' (List.pairwise_mergeSort' (· ≤ ·) _)
    (List.pairwise_mergeSort' (· ≤ ·) _)
  rw [labelKey, hsorted]
  rfl

theorem Metric.Commaless.notMem_pair (hcommaless : metric.Commaless labels)
    (hname : name ∈ metric.labelNames) : comma ∉ name ++ js "=" ++ (labels.value name).key := by
  obtain ⟨string, hvalue, hplain⟩ := hcommaless.values name hname
  have hunits := comma_notMem_of_isName (List.all_eq_true.mp metric.named.2 name hname)
  have hequals : comma ∉ js "=" := by decide
  rw [hvalue, List.mem_append, List.mem_append]
  rintro ((hmem | hmem) | hmem)
  · exact hunits hmem
  · exact hequals hmem
  · exact hplain hmem

theorem Metric.Commaless.labelKey_eq_iff (hfirst : metric.Commaless first)
    (hsecond : metric.Commaless second) :
    labelKey first = labelKey second ↔
      shownPairs metric.labelNames first = shownPairs metric.labelNames second := by
  have hmem : ∀ {name}, name ∈ metric.labelNames.mergeSort (fun a b => decide (a ≤ b)) ↔
      name ∈ metric.labelNames := List.mem_mergeSort
  have hshown : shownPairs metric.labelNames first = shownPairs metric.labelNames second ↔
      ∀ name ∈ metric.labelNames, (first.value name).shown = (second.value name).shown := by
    rw [shownPairs, shownPairs, List.map_inj_left]
    simp only [Prod.mk.injEq, true_and]
  rw [hfirst.labelKey_eq, hsecond.labelKey_eq, hshown]
  constructor
  · intro hkeys name hname
    have hne : metric.labelNames.mergeSort (fun a b => decide (a ≤ b)) ≠ [] :=
      List.ne_nil_of_mem (hmem.mpr hname)
    have hpieces := congrArg (List.splitOn comma) hkeys
    rw [List.splitOn_intercalate _ (List.forall_mem_map.mpr fun name hname =>
        hfirst.notMem_pair (hmem.mp hname)) (by simpa using hne),
      List.splitOn_intercalate _ (List.forall_mem_map.mpr fun name hname =>
        hsecond.notMem_pair (hmem.mp hname)) (by simpa using hne)] at hpieces
    have hpiece := List.map_inj_left.mp hpieces name (hmem.mpr hname)
    rw [← hfirst.key_eq_shown hname, ← hsecond.key_eq_shown hname]
    exact List.append_cancel_left hpiece
  · intro hvalues
    congr 1
    apply List.map_congr_left
    intro name hname
    have hlabel := hmem.mp hname
    rw [hfirst.key_eq_shown hlabel, hsecond.key_eq_shown hlabel, hvalues name hlabel]

end Commaless

namespace Registry

variable {I : Type} [DecidableEq I] (registry : Registry I) (numerals)

def updatesOf (i : I) (updates : List (registry.Update V)) :
    List (Labels × (registry.metrics i).kind.Call V) :=
  updates.filterMap fun update =>
    if h : update.metric = i then some (update.labels, h ▸ update.call) else none

def expected (updates : List (registry.Update V)) : List (Sample V) :=
  registry.order.flatMap fun i =>
    (registry.metrics i).expected numerals (registry.updatesOf i updates)

/-- The exposition is faithful: its text is read as what the updates come to, two updates fall
into one series where they show the same labels, and buckets are cumulative. -/
structure Exposed (updates : List (registry.Update V)) : Prop where
  read : readExposition numerals (registry.render numerals (registry.run numerals updates)) =
    some (registry.expected numerals updates)
  separate : ∀ i, ∀ first ∈ registry.updatesOf i updates,
    ∀ second ∈ registry.updatesOf i updates,
      ((registry.metrics i).after numerals [first, second]).entries.length = 1 ↔
        shownPairs (registry.metrics i).labelNames first.1 =
          shownPairs (registry.metrics i).labelNames second.1
  cumulative : ∀ i, ∀ entry ∈ (registry.run numerals updates i).entries,
    (registry.metrics i).kind.Cumulative entry.2.2

/-- The joined text tells the labels that are shown apart, and no label has a line break. -/
structure Plain (updates : List (registry.Update V)) : Prop where
  distinguished : ∀ i, (registry.metrics i).Distinguished (registry.updatesOf i updates)
  unbroken : ∀ update ∈ updates,
    Unbroken (shownPairs (registry.metrics update.metric).labelNames update.labels)

section Runs

variable {registry} {numerals} {updates : List (registry.Update V)} {i : I}

theorem mem_updatesOf {update : registry.Update V} (hupdate : update ∈ updates) :
    (update.labels, update.call) ∈ registry.updatesOf update.metric updates :=
  List.mem_filterMap.mpr ⟨update, hupdate, dif_pos rfl⟩

theorem exists_of_mem_updatesOf {shown : Labels × (registry.metrics i).kind.Call V}
    (hshown : shown ∈ registry.updatesOf i updates) :
    ∃ update ∈ updates, update.metric = i ∧ update.labels = shown.1 := by
  obtain ⟨update, hupdate, hfound⟩ := List.mem_filterMap.mp hshown
  split at hfound
  · next hmetric =>
      cases hfound
      exact ⟨update, hupdate, hmetric, rfl⟩
  · cases hfound

/-- An update of one metric leaves the others as they are. -/
theorem step_apply (state : registry.State V) (update : registry.Update V) :
    registry.step numerals state update i = (registry.updatesOf i [update]).foldl
      (fun series update => (registry.metrics i).record numerals series update.1 update.2)
      (state i) := by
  by_cases hmetric : update.metric = i
  · subst hmetric
    rw [step, Function.update_self, updatesOf, List.filterMap_cons_some (dif_pos rfl)]
    rfl
  · rw [step, Function.update_of_ne (Ne.symm hmetric), updatesOf,
      List.filterMap_cons_none (dif_neg hmetric)]
    rfl

/-- After a run each metric has its own updates behind it. -/
theorem run_apply (updates : List (registry.Update V)) (i : I) :
    registry.run numerals updates i =
      (registry.metrics i).after numerals (registry.updatesOf i updates) := by
  induction updates using List.reverseRecOn with
  | nil => rfl
  | append_singleton updates update ih =>
      have hsplit : registry.updatesOf i (updates ++ [update]) =
          registry.updatesOf i updates ++ registry.updatesOf i [update] := List.filterMap_append
      have hstep : registry.run numerals (updates ++ [update]) =
          registry.step numerals (registry.run numerals updates) update := List.foldl_concat ..
      rw [hstep, step_apply, ih, hsplit, Metric.after, Metric.after, List.foldl_append]

theorem Plain.mirrors (hplain : registry.Plain updates) (i : I) :
    Mirrors numerals (registry.metrics i) (registry.updatesOf i updates)
      (registry.run numerals updates i) := by
  rw [run_apply]
  exact mirrors_after (hplain.distinguished i)

theorem Plain.unbroken_series (hplain : registry.Plain updates) (i : I) :
    ∀ entry ∈ (registry.run numerals updates i).entries,
      Unbroken (shownPairs (registry.metrics i).labelNames entry.2.1) := by
  intro entry hentry
  obtain ⟨shown, hshown, -, hlabels⟩ := (hplain.mirrors i).known entry hentry
  obtain ⟨update, hupdate, rfl, hsame⟩ := exists_of_mem_updatesOf hshown
  rw [← hlabels, ← hsame]
  exact hplain.unbroken update hupdate

omit [DecidableEq I] in
/-- The text of a registry, line by line. -/
theorem render_eq (state : registry.State V) : registry.render numerals state =
    (registry.order.flatMap fun i => (registry.metrics i).lines numerals (state i)).flatMap
      fun line => line ++ [newline] := by
  rw [List.flatMap_assoc]
  rfl

theorem Plain.read (hplain : registry.Plain updates) :
    readExposition numerals (registry.render numerals (registry.run numerals updates)) =
      some (registry.expected numerals updates) := by
  have hlines : Reads numerals
      (registry.order.flatMap fun i =>
        (registry.metrics i).lines numerals (registry.run numerals updates i))
      (registry.expected numerals updates) := by
    apply Reads.flatMap
    intro i _
    rw [← samples_of_mirrors (hplain.mirrors i)]
    exact lines_reads (hplain.unbroken_series i)
  rw [render_eq]
  exact hlines.readExposition

/-- A text that is read has no series with a line break in its labels. -/
theorem unbroken_of_read
    (hread : readExposition numerals (registry.render numerals (registry.run numerals updates)) ≠
      none) {entry : JsString × (Labels × (registry.metrics i).kind.State V)}
    (hentry : entry ∈ (registry.run numerals updates i).entries) :
    Unbroken (shownPairs (registry.metrics i).labelNames entry.2.1) := by
  by_contra hbroken
  apply hread
  obtain ⟨before, after, horder⟩ := List.append_of_mem (registry.complete i)
  rw [render_eq, horder, List.flatMap_append, List.flatMap_cons, ← List.append_assoc]
  exact readExposition_broken hentry hbroken

theorem Exposed.plain (hexposed : registry.Exposed numerals updates) : registry.Plain updates := by
  have hdistinguished : ∀ i, (registry.metrics i).Distinguished (registry.updatesOf i updates) := by
    intro i first hfirst second hsecond
    exact (length_after_pair first second).symm.trans
      (hexposed.separate i first hfirst second hsecond)
  have hread : readExposition numerals
      (registry.render numerals (registry.run numerals updates)) ≠ none := by
    rw [hexposed.read]
    exact Option.some_ne_none _
  constructor
  · exact hdistinguished
  · intro update hupdate
    have hmirrors : Mirrors numerals (registry.metrics update.metric)
        (registry.updatesOf update.metric updates)
        (registry.run numerals updates update.metric) := by
      rw [run_apply]
      exact mirrors_after (hdistinguished update.metric)
    obtain ⟨entry, hentry, hsame⟩ := hmirrors.exists_series (mem_updatesOf hupdate)
    have hshown := unbroken_of_read hread hentry
    rw [hsame] at hshown
    exact hshown

theorem Plain.exposed (hplain : registry.Plain updates) : registry.Exposed numerals updates where
  read := hplain.read
  separate := by
    intro i first hfirst second hsecond
    rw [length_after_pair]
    exact hplain.distinguished i first hfirst second hsecond
  cumulative := fun i => (hplain.mirrors i).cumulative

/-- The exposition is faithful where no label has a comma or a line break in it. -/
theorem exposed_of_commaless
    (hcommaless : ∀ update ∈ updates,
      (registry.metrics update.metric).Commaless update.labels)
    (hunbroken : ∀ update ∈ updates,
      Unbroken (shownPairs (registry.metrics update.metric).labelNames update.labels)) :
    registry.Exposed numerals updates := by
  have hdistinguished : ∀ i, (registry.metrics i).Distinguished (registry.updatesOf i updates) := by
    intro i first hfirst second hsecond
    obtain ⟨update, hupdate, rfl, hlabels⟩ := exists_of_mem_updatesOf hfirst
    obtain ⟨other, hother, hmetric, hlabels'⟩ := exists_of_mem_updatesOf hsecond
    have hsame := hcommaless other hother
    rw [hmetric, hlabels'] at hsame
    exact (hlabels ▸ hcommaless update hupdate).labelKey_eq_iff hsame
  exact Plain.exposed ⟨hdistinguished, hunbroken⟩

end Runs

end Registry

end X402Facilitator.Metrics
