import X402Facilitator.Metrics.Tally

/-!
# A faithful exposition

After any updates the text of the registry is read as the groups of its updates, exactly as
long as the joined text of the labels tells their values apart and no value has a line break.
-/

namespace X402Facilitator.Metrics

open JsString

variable {V : Type} {numerals : Numerals V}

def Reads (numerals : Numerals V) (lines : List JsString) (samples : List (Sample V)) : Prop :=
  ∃ rows : List (JsString × List (Sample V)), rows.map Prod.fst = lines ∧
    rows.flatMap Prod.snd = samples ∧
      ∀ row ∈ rows, newline ∉ row.1 ∧ readLine numerals row.1 = some row.2

namespace Reads

variable {lines later : List JsString} {samples others : List (Sample V)}

theorem nil : Reads numerals [] [] := ⟨[], rfl, rfl, fun _ hrow => absurd hrow List.not_mem_nil⟩

theorem line {line : JsString} (hwhole : newline ∉ line)
    (hline : readLine numerals line = some samples) : Reads numerals [line] samples := by
  refine ⟨[(line, samples)], rfl, List.append_nil samples, fun row hrow => ?_⟩
  rw [List.mem_singleton.mp hrow]
  exact ⟨hwhole, hline⟩

theorem append (hlines : Reads numerals lines samples) (hlater : Reads numerals later others) :
    Reads numerals (lines ++ later) (samples ++ others) := by
  obtain ⟨rows, rfl, rfl, hrows⟩ := hlines
  obtain ⟨rest, rfl, rfl, hrest⟩ := hlater
  refine ⟨rows ++ rest, List.map_append, List.flatMap_append, fun row hrow => ?_⟩
  exact (List.mem_append.mp hrow).elim (hrows row) (hrest row)

theorem cons {line : JsString} {sample : Sample V}
    (hline : newline ∉ line ∧ readLine numerals line = some [sample])
    (hlines : Reads numerals lines samples) :
    Reads numerals (line :: lines) (sample :: samples) :=
  (Reads.line hline.1 hline.2).append hlines

variable {A : Type*}

theorem flatMap {items : List A} {lines : A → List JsString} {samples : A → List (Sample V)}
    (hitems : ∀ item ∈ items, Reads numerals (lines item) (samples item)) :
    Reads numerals (items.flatMap lines) (items.flatMap samples) := by
  induction items with
  | nil => exact nil
  | cons item items ih =>
      rw [List.flatMap_cons, List.flatMap_cons]
      exact (hitems item List.mem_cons_self).append
        (ih fun other hother => hitems other (List.mem_cons_of_mem _ hother))

theorem zipWith {B : Type*} {as : List A} {bs : List B} {line : A → B → JsString}
    {sample : A → B → Sample V}
    (hlines : ∀ a b, newline ∉ line a b ∧ readLine numerals (line a b) = some [sample a b]) :
    Reads numerals (List.zipWith line as bs) (List.zipWith sample as bs) := by
  induction as generalizing bs with
  | nil => exact nil
  | cons a as ih =>
      cases bs with
      | nil => exact nil
      | cons b bs => exact cons (hlines a b) ih

theorem readExposition (hlines : Reads numerals lines samples) :
    readExposition numerals (lines.flatMap fun line => line ++ [newline]) = some samples := by
  obtain ⟨rows, rfl, rfl, hrows⟩ := hlines
  exact readExposition_rows (fun row hrow => (hrows row hrow).1) fun row hrow => (hrows row hrow).2

end Reads

section Series

variable {name bound : JsString} {labelNames : List JsString} {labels : Labels} {pairs : Pairs}

def Unbroken (pairs : Pairs) : Prop := ∀ pair ∈ pairs, newline ∉ pair.2

theorem newline_notMem_print (value : V) : newline ∉ numerals.print value := by
  intro hmem
  exact absurd (numerals.plain_print value newline hmem) (by decide)

theorem newline_notMem_sampleLine (hname : isName name = true) {shown : JsString}
    (hshown : newline ∉ shown) (value : V) : newline ∉ sampleLine numerals name shown value := by
  rw [sampleLine, List.mem_append, List.mem_append, List.mem_append, not_or, not_or, not_or]
  exact ⟨⟨⟨newline_notMem_name hname, hshown⟩, by decide⟩, newline_notMem_print value⟩

theorem newline_notMem_braces (hpairs : ∀ pair ∈ pairs, isName pair.1 = true)
    (hunbroken : Unbroken pairs) : newline ∉ js "\x7b" ++ renderPairs pairs ++ js "\x7d" := by
  rw [List.mem_append, List.mem_append, not_or, not_or]
  exact ⟨⟨by decide, newline_notMem_renderPairs hpairs hunbroken⟩, by decide⟩

/-- The line of a sample with labels in braces. -/
theorem sampleLine_reads (hname : isName name = true)
    (hpairs : ∀ pair ∈ pairs, isName pair.1 = true) (hunbroken : Unbroken pairs) (value : V) :
    newline ∉ sampleLine numerals name (js "\x7b" ++ renderPairs pairs ++ js "\x7d") value ∧
      readLine numerals
          (sampleLine numerals name (js "\x7b" ++ renderPairs pairs ++ js "\x7d") value) =
        some [⟨name, pairs, value⟩] :=
  ⟨newline_notMem_sampleLine hname (newline_notMem_braces hpairs hunbroken) value,
    readLine_sampleLine hname hpairs value⟩

theorem isName_append {suffix : JsString} (hname : isName name = true)
    (hsuffix : suffix.all isNameUnit = true) : isName (name ++ suffix) = true := by
  rw [isName, Bool.and_eq_true, decide_eq_true_eq] at hname ⊢
  rw [List.all_append, Bool.and_eq_true]
  exact ⟨List.append_ne_nil_of_left_ne_nil hname.1 suffix, hname.2, hsuffix⟩

theorem isName_shownPairs (hnames : labelNames.all isName = true) (labels : Labels) :
    ∀ pair ∈ shownPairs labelNames labels, isName pair.1 = true := by
  intro pair hpair
  obtain ⟨name, hname, rfl⟩ := List.mem_map.mp hpair
  exact List.all_eq_true.mp hnames name hname

theorem renderPairs_eq_nil_iff : renderPairs pairs = [] ↔ pairs = [] := by
  constructor
  · intro hnil
    cases pairs with
    | nil => rfl
    | cons pair pairs =>
        have hpair : renderPair pair ≠ [] :=
          List.append_ne_nil_of_right_ne_nil _ (by decide)
        rw [renderPairs_cons] at hnil
        exact absurd (List.append_eq_nil_iff.mp hnil).1 hpair
  · rintro rfl
    rfl

theorem renderPairs_concat (pairs : Pairs) (last : JsString × JsString) :
    renderPairs (pairs ++ [last]) =
      renderPairs pairs ++ (if renderPairs pairs = [] then [] else js ",") ++ renderPair last := by
  induction pairs with
  | nil =>
      rw [List.nil_append, renderPairs_cons, if_pos rfl, List.append_nil]
      rfl
  | cons pair pairs ih =>
      have hne : renderPairs (pair :: pairs) ≠ [] :=
        fun hnil => List.cons_ne_nil _ _ (renderPairs_eq_nil_iff.mp hnil)
      rw [List.cons_append, renderPairs_cons, if_neg (List.append_ne_nil_of_right_ne_nil _
        (List.cons_ne_nil _ _)), ih, if_neg hne, renderPairs_cons]
      by_cases hnil : pairs = []
      · simp [hnil, renderPairs]
      · rw [if_neg (renderPairs_eq_nil_iff.not.mpr hnil), if_neg hnil]
        simp only [List.append_assoc]

/-- The bound of a bucket needs no escape. -/
theorem escapeText_of_plain (hbound : ∀ unit ∈ bound, isPlain unit = true) :
    escapeText bound = bound := by
  have hunit : ∀ unit ∈ bound, escapeUnit unit = [unit] := by
    intro unit hmem
    have hplain := hbound unit hmem
    simp only [isPlain, Bool.and_eq_true, bne_iff_ne] at hplain
    rw [escapeUnit, if_neg hplain.2, if_neg hplain.1.2]
  rw [escapeText, List.flatMap_congr hunit, List.flatMap_singleton']

theorem bucketLabels_eq (hbound : ∀ unit ∈ bound, isPlain unit = true) (pairs : Pairs) :
    bucketLabels (renderPairs pairs) bound =
      js "\x7b" ++ renderPairs (pairs ++ [(js "le", bound)]) ++ js "\x7d" := by
  rw [bucketLabels, renderPairs_concat, renderPair, escapeText_of_plain hbound]
  have hopen : js "le=\"" = js "le" ++ js "=\"" := rfl
  have hclose : js "\"\x7d" = js "\"" ++ js "\x7d" := rfl
  rw [hopen, hclose]
  simp only [List.append_assoc]

theorem pairs_bound (hpairs : ∀ pair ∈ pairs, isName pair.1 = true) (hunbroken : Unbroken pairs)
    (hbound : newline ∉ bound) :
    (∀ pair ∈ pairs ++ [(js "le", bound)], isName pair.1 = true) ∧
      Unbroken (pairs ++ [(js "le", bound)]) := by
  constructor
  · intro pair hpair
    rcases List.mem_append.mp hpair with hold | hnew
    · exact hpairs pair hold
    · rw [List.mem_singleton.mp hnew]
      exact (by decide : isName (js "le") = true)
  · intro pair hpair
    rcases List.mem_append.mp hpair with hold | hnew
    · exact hunbroken pair hold
    · rw [List.mem_singleton.mp hnew]
      exact hbound

theorem labelLine_reads (hname : isName name = true) (hnames : labelNames.all isName = true)
    (hunbroken : Unbroken (shownPairs labelNames labels)) (value : V) :
    newline ∉ sampleLine numerals name
        (js "\x7b" ++ labelPairs labelNames labels ++ js "\x7d") value ∧
      readLine numerals (sampleLine numerals name
          (js "\x7b" ++ labelPairs labelNames labels ++ js "\x7d") value) =
        some [⟨name, shownPairs labelNames labels, value⟩] := by
  rw [labelPairs_eq]
  exact sampleLine_reads hname (isName_shownPairs hnames labels) hunbroken value

theorem bucketLine_reads (hname : isName name = true) (hnames : labelNames.all isName = true)
    (hunbroken : Unbroken (shownPairs labelNames labels))
    (hbound : ∀ unit ∈ bound, isPlain unit = true) (value : V) :
    newline ∉ sampleLine numerals (name ++ js "_bucket")
        (bucketLabels (labelPairs labelNames labels) bound) value ∧
      readLine numerals (sampleLine numerals (name ++ js "_bucket")
        (bucketLabels (labelPairs labelNames labels) bound) value) =
          some [⟨name ++ js "_bucket", shownPairs labelNames labels ++ [(js "le", bound)],
            value⟩] := by
  have hbreak : newline ∉ bound := fun hmem => absurd (hbound newline hmem) (by decide)
  have hboth := pairs_bound (isName_shownPairs hnames labels) hunbroken hbreak
  rw [labelPairs_eq, bucketLabels_eq hbound]
  exact sampleLine_reads (isName_append hname (by decide)) hboth.1 hboth.2 value

/-- The lines of a series are read as its samples. -/
theorem seriesLines_reads {kind : Kind} (hname : isName name = true)
    (hnames : labelNames.all isName = true) (labels : Labels)
    (hunbroken : Unbroken (shownPairs labelNames labels)) (state : kind.State V) :
    Reads numerals (kind.seriesLines numerals name labelNames labels state)
      (kind.samples numerals name (shownPairs labelNames labels) state) := by
  have hone : ∀ value : V, Reads numerals
      [sampleLine numerals name (labelString labelNames labels) value]
      [⟨name, shownPairs labelNames labels, value⟩] := by
    intro value
    rw [labelString]
    split
    · next hnone =>
        rw [hnone]
        exact .line (newline_notMem_sampleLine hname List.not_mem_nil value)
          (readLine_bareLine hname value)
    · exact .cons (labelLine_reads hname hnames hunbroken value) .nil
  cases kind with
  | counter => exact hone state
  | gauge => exact hone state
  | histogram buckets =>
      have hinfinite : ∀ unit ∈ js "+Inf", isPlain unit = true := by
        have hall : ((js "+Inf").all isPlain) = true := by decide
        exact List.all_eq_true.mp hall
      have hsum : isName (name ++ js "_sum") = true := isName_append hname (by decide)
      have hcount : isName (name ++ js "_count") = true := isName_append hname (by decide)
      refine Reads.append (Reads.zipWith fun bound count => bucketLine_reads hname hnames hunbroken
        (numerals.plain_print (numerals.literal bound)) (numerals.ofCount count)) ?_
      exact .cons (bucketLine_reads hname hnames hunbroken hinfinite _)
        (.cons (labelLine_reads hsum hnames hunbroken state.sum)
          (.cons (labelLine_reads hcount hnames hunbroken _) .nil))

end Series

section OneMetric

variable {metric : Metric} {updates : List (Labels × metric.kind.Call V)}

theorem comment_reads {rest : JsString} (hrest : newline ∉ unitHash :: rest) :
    Reads numerals [unitHash :: rest] ([] : List (Sample V)) :=
  .line hrest (if_pos (.inr rfl))

theorem newline_notMem_typeName (kind : Kind) : newline ∉ kind.typeName := by
  cases kind with
  | counter => exact (by decide : newline ∉ js "counter")
  | gauge => exact (by decide : newline ∉ js "gauge")
  | histogram buckets => exact (by decide : newline ∉ js "histogram")

variable {series : metric.Series V} {before : List JsString}

/-- A metric whose labels have no line break is read as its series. -/
theorem lines_reads (hunbroken : ∀ entry ∈ series.entries,
    Unbroken (shownPairs metric.labelNames entry.2.1)) :
    Reads numerals (metric.lines numerals series) (series.entries.flatMap fun entry =>
      metric.kind.samples numerals metric.name (shownPairs metric.labelNames entry.2.1)
        entry.2.2) := by
  have hname := newline_notMem_name metric.named.1
  have hhelp : newline ∉ js "# HELP " ++ metric.name ++ js " " ++ metric.help := by
    simp only [List.mem_append, not_or]
    exact ⟨⟨⟨by decide, hname⟩, by decide⟩, metric.helped⟩
  have htype : newline ∉ js "# TYPE " ++ metric.name ++ js " " ++ metric.kind.typeName := by
    simp only [List.mem_append, not_or]
    exact ⟨⟨⟨by decide, hname⟩, by decide⟩, newline_notMem_typeName metric.kind⟩
  have hseries : Reads numerals
      (series.entries.flatMap fun entry =>
        metric.kind.seriesLines numerals metric.name metric.labelNames entry.2.1 entry.2.2)
      (series.entries.flatMap fun entry =>
        metric.kind.samples numerals metric.name (shownPairs metric.labelNames entry.2.1)
          entry.2.2) :=
    Reads.flatMap fun entry hentry => seriesLines_reads metric.named.1 metric.named.2 entry.2.1
      (hunbroken entry hentry) entry.2.2
  exact (comment_reads hhelp).append ((comment_reads htype).append hseries)

/-- The series of told updates show the samples that are expected. -/
theorem samples_of_mirrors (hmirrors : Mirrors numerals metric updates series) :
    (series.entries.flatMap fun entry => metric.kind.samples numerals metric.name
      (shownPairs metric.labelNames entry.2.1) entry.2.2) = metric.expected numerals updates := by
  have hentries := congrArg (List.flatMap fun shown : Pairs × metric.kind.State V =>
    metric.kind.samples numerals metric.name shown.1 shown.2) hmirrors.entries
  rw [List.flatMap_map, List.flatMap_map] at hentries
  exact hentries

theorem exists_brokenLine (numerals : Numerals V) {labelNames : List JsString} (labels : Labels)
    {kind : Kind} {name : JsString} (hname : isName name = true) (hne : labelNames ≠ [])
    (state : kind.State V) :
    ∃ start rest, isName start = true ∧
      start ++ (js "\x7b" ++ renderPairs (shownPairs labelNames labels)) ++ rest ∈
        kind.seriesLines numerals name labelNames labels state := by
  have hone : ∀ value : V, sampleLine numerals name (labelString labelNames labels) value =
      name ++ (js "\x7b" ++ renderPairs (shownPairs labelNames labels)) ++
        (js "\x7d" ++ (js " " ++ numerals.print value)) := by
    intro value
    rw [sampleLine, labelString, if_neg hne, labelPairs_eq]
    simp only [List.append_assoc]
  cases kind with
  | counter | gauge => exact ⟨name, _, hname, List.mem_singleton.mpr (hone state).symm⟩
  | histogram buckets =>
      refine ⟨name ++ js "_sum", js "\x7d" ++ (js " " ++ numerals.print state.sum),
        isName_append hname (by decide), List.mem_append_right _ (List.mem_cons_of_mem _ ?_)⟩
      refine List.mem_cons.mpr (.inl ?_)
      rw [sampleLine, labelPairs_eq]
      simp only [List.append_assoc]

/-- A line that is cut short by a line break is not read, whatever comes after. -/
theorem readExposition_unread {line : JsString} (hbefore : before ≠ []) (hwhole : newline ∉ line)
    (hline : readLine numerals line = none) (rest : JsString) (after : List JsString) :
    readExposition numerals ((before ++ (line ++ newline :: rest) :: after).flatMap
      fun line => line ++ [newline]) = none := by
  have hlast := List.dropLast_append_getLast hbefore
  have htext : (before ++ (line ++ newline :: rest) :: after).flatMap
        (fun line => line ++ [newline]) =
      (before.dropLast.flatMap (fun line => line ++ [newline]) ++ before.getLast hbefore) ++
        newline :: (line ++ newline ::
          (rest ++ [newline] ++ after.flatMap fun line => line ++ [newline])) := by
    rw [List.flatMap_append, List.flatMap_cons]
    conv_lhs => rw [← hlast, List.flatMap_append]
    simp
  rw [htext]
  exact readExposition_eq_none hwhole hline

/-- Where a label has a line break, a text with the lines of the metric is not read. -/
theorem readExposition_broken {after : List JsString}
    {entry : JsString × (Labels × metric.kind.State V)} (hentry : entry ∈ series.entries)
    (hbroken : ¬ Unbroken (shownPairs metric.labelNames entry.2.1)) :
    readExposition numerals ((before ++ metric.lines numerals series ++ after).flatMap
      fun line => line ++ [newline]) = none := by
  have hbreak : ∃ pair ∈ shownPairs metric.labelNames entry.2.1, newline ∈ pair.2 := by
    simpa [Unbroken] using hbroken
  have hne : metric.labelNames ≠ [] := by
    intro hnil
    obtain ⟨pair, hpair, -⟩ := hbreak
    rw [hnil] at hpair
    cases hpair
  obtain ⟨start, rest, hstart, hline⟩ :=
    exists_brokenLine numerals entry.2.1 metric.named.1 hne entry.2.2
  have hcutting : ∃ head tail read label text,
      renderPairs (shownPairs metric.labelNames entry.2.1) = head ++ newline :: tail ∧
        newline ∉ head ∧ (⟨start, [], .braces⟩ : LineState).steps head =
          some ⟨start, read, .value label text⟩ :=
    exists_cut_renderPairs (isName_shownPairs metric.named.2 entry.2.1) hbreak
  obtain ⟨head, tail, read, label, text, hcut, hwhole, hsteps⟩ := hcutting
  have hmem : start ++ (js "\x7b" ++ renderPairs (shownPairs metric.labelNames entry.2.1)) ++ rest ∈
      series.entries.flatMap fun entry =>
        metric.kind.seriesLines numerals metric.name metric.labelNames entry.2.1 entry.2.2 :=
    List.mem_flatMap.mpr ⟨entry, hentry, hline⟩
  obtain ⟨earlier, later, hlines⟩ := List.append_of_mem hmem
  have hunread : readLine numerals (start ++ (js "\x7b" ++ head)) = none :=
    readLine_eq_none hstart hsteps
  have hstartWhole : newline ∉ start ++ (js "\x7b" ++ head) := by
    rw [List.mem_append, List.mem_append, not_or, not_or]
    exact ⟨newline_notMem_name hstart, by decide, hwhole⟩
  have hsame : start ++ (js "\x7b" ++
        renderPairs (shownPairs metric.labelNames entry.2.1)) ++ rest =
      start ++ (js "\x7b" ++ head) ++ newline :: (tail ++ rest) := by
    rw [hcut]
    simp only [List.append_assoc, List.cons_append]
  rw [Metric.lines, hlines, hsame]
  have hbefore : before ++ ([js "# HELP " ++ metric.name ++ js " " ++ metric.help,
      js "# TYPE " ++ metric.name ++ js " " ++ metric.kind.typeName] ++ earlier) ≠ [] :=
    List.append_ne_nil_of_right_ne_nil _ (List.cons_ne_nil _ _)
  have hunreadAll := readExposition_unread hbefore hstartWhole hunread (tail ++ rest)
    (later ++ after)
  simpa only [List.append_assoc, List.cons_append] using hunreadAll

end OneMetric

end X402Facilitator.Metrics
