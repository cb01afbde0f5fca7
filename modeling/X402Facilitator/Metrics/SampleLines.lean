import X402Facilitator.Metrics.Exposition

/-!
# Lines that are read back

The line of a series is read back with its name, its labels and its value, where no label has
a line break; a line that is cut off at one is not read.
-/

namespace X402Facilitator.Metrics

open JsString

def escapeUnit (unit : UInt16) : JsString :=
  if unit = backslash then [backslash, backslash]
  else if unit = quote then [backslash, quote] else [unit]

def escapeText (string : JsString) : JsString := string.flatMap escapeUnit

def renderPair (pair : JsString × JsString) : JsString :=
  pair.1 ++ js "=\"" ++ escapeText pair.2 ++ js "\""

def renderPairs (pairs : List (JsString × JsString)) : JsString :=
  List.intercalate (js ",") (pairs.map renderPair)

def shownPairs (labelNames : List JsString) (labels : Labels) : List (JsString × JsString) :=
  labelNames.map fun name => (name, (labels.value name).shown)

section Escapes

variable {string name text : JsString} {labels : List (JsString × JsString)}

theorem escapeLabelValue_eq (value : LabelValue) :
    escapeLabelValue value = escapeText value.shown := by
  rw [escapeLabelValue, escapeText, List.flatMap_assoc]
  congr 1
  funext unit
  rw [escapeUnit]
  by_cases hbackslash : unit = backslash
  · rw [if_pos hbackslash, if_pos hbackslash]
    rfl
  · rw [if_neg hbackslash, if_neg hbackslash, List.flatMap_singleton]

theorem labelPairs_eq (labelNames : List JsString) (labels : Labels) :
    labelPairs labelNames labels = renderPairs (shownPairs labelNames labels) := by
  rw [labelPairs, renderPairs, shownPairs, List.map_map]
  congr 2
  funext name
  rw [labelPair, escapeLabelValue_eq]
  rfl

theorem steps_escapeUnit (metric : JsString) (unit : UInt16) :
    (⟨metric, labels, .value name text⟩ : LineState).steps (escapeUnit unit) =
      some ⟨metric, labels, .value name (text ++ [unit])⟩ := by
  rw [escapeUnit]
  split
  · next hbackslash =>
      rw [hbackslash]
      rfl
  · next hbackslash =>
      split
      · next hquote =>
          rw [hquote]
          rfl
      · next hquote => simp [LineState.step, hbackslash, hquote]

/-- An escaped text is read as the text. -/
theorem steps_escapeText (metric string : JsString) :
    (⟨metric, labels, .value name text⟩ : LineState).steps (escapeText string) =
      some ⟨metric, labels, .value name (text ++ string)⟩ := by
  induction string generalizing text with
  | nil => rw [List.append_nil, escapeText, List.flatMap_nil, steps_nil]
  | cons unit string ih =>
      rw [escapeText, List.flatMap_cons, ← escapeText, steps_append, steps_escapeUnit,
        Option.bind_some, ih, List.append_assoc]
      rfl

end Escapes

section Pairs

variable {name metric : JsString} {labels pairs : List (JsString × JsString)}

/-- A name has nothing that a reader stops at. -/
theorem ne_of_isNameUnit {unit other : UInt16} (hunit : isNameUnit unit = true)
    (hother : isNameUnit other = false) : unit ≠ other := by
  rintro rfl
  rw [hunit] at hother
  cases hother

theorem steps_metricName {rest : JsString} (hname : name.all isNameUnit = true) :
    (⟨rest, labels, .name⟩ : LineState).steps name = some ⟨rest ++ name, labels, .name⟩ := by
  induction name generalizing rest with
  | nil => rw [List.append_nil, steps_nil]
  | cons unit name ih =>
      rw [List.all_cons, Bool.and_eq_true] at hname
      have hopen := ne_of_isNameUnit hname.1 (by decide : isNameUnit unitOpen = false)
      have hspace := ne_of_isNameUnit hname.1 (by decide : isNameUnit space = false)
      rw [steps_cons, LineState.step]
      dsimp only
      rw [if_neg hopen, if_neg hspace, Option.bind_some, ih hname.2, List.append_assoc]
      rfl

theorem steps_labelName {rest : JsString} (hname : name.all isNameUnit = true) :
    (⟨metric, labels, .labelName rest⟩ : LineState).steps name =
      some ⟨metric, labels, .labelName (rest ++ name)⟩ := by
  induction name generalizing rest with
  | nil => rw [List.append_nil, steps_nil]
  | cons unit name ih =>
      rw [List.all_cons, Bool.and_eq_true] at hname
      have hequals := ne_of_isNameUnit hname.1 (by decide : isNameUnit unitEquals = false)
      rw [steps_cons, LineState.step]
      dsimp only
      rw [if_neg hequals, Option.bind_some, ih hname.2, List.append_assoc]
      rfl

/-- A label up to the text of its value. -/
theorem steps_opening (hname : isName name = true) :
    (⟨metric, labels, .braces⟩ : LineState).steps (name ++ js "=\"") =
      some ⟨metric, labels, .value name []⟩ := by
  rw [isName, Bool.and_eq_true, decide_eq_true_eq] at hname
  cases name with
  | nil => exact absurd rfl hname.1
  | cons unit name =>
      have hunits := hname.2
      rw [List.all_cons, Bool.and_eq_true] at hunits
      have hclose := ne_of_isNameUnit hunits.1 (by decide : isNameUnit unitClose = false)
      rw [List.cons_append, steps_cons, LineState.step]
      dsimp only
      rw [if_neg hclose, Option.bind_some, steps_append, steps_labelName hunits.2]
      rfl

theorem steps_renderPair (hname : isName name = true) (text : JsString) :
    (⟨metric, labels, .braces⟩ : LineState).steps (renderPair (name, text)) =
      some ⟨metric, labels ++ [(name, text)], .closed⟩ := by
  rw [renderPair, List.append_assoc, steps_append, steps_opening hname, Option.bind_some,
    steps_append, steps_escapeText, Option.bind_some]
  rfl

/-- The labels of a series are read in turn. -/
theorem steps_renderPairs (hpairs : ∀ pair ∈ pairs, isName pair.1 = true) (hne : pairs ≠ []) :
    (⟨metric, labels, .braces⟩ : LineState).steps (renderPairs pairs) =
      some ⟨metric, labels ++ pairs, .closed⟩ := by
  induction pairs generalizing labels with
  | nil => exact absurd rfl hne
  | cons pair pairs ih =>
      have hfirst := hpairs pair List.mem_cons_self
      rw [renderPairs, List.map_cons]
      cases pairs with
      | nil =>
          rw [List.map_nil, List.intercalate_singleton]
          exact steps_renderPair hfirst pair.2
      | cons second pairs =>
          have hrest : (⟨metric, labels ++ [pair], .braces⟩ : LineState).steps
              (renderPairs (second :: pairs)) =
                some ⟨metric, labels ++ [pair] ++ second :: pairs, .closed⟩ :=
            ih (fun other hother => hpairs other (List.mem_cons_of_mem _ hother))
              (List.cons_ne_nil _ _)
          rw [List.map_cons, List.intercalate_cons_cons, List.append_assoc, steps_append,
            steps_renderPair hfirst, Option.bind_some, steps_append]
          rw [List.append_assoc] at hrest
          exact hrest

/-- The braces around the labels. -/
theorem steps_braces (hpairs : ∀ pair ∈ pairs, isName pair.1 = true) :
    (⟨metric, labels, .name⟩ : LineState).steps (js "\x7b" ++ renderPairs pairs ++ js "\x7d") =
      some ⟨metric, labels ++ pairs, .gap⟩ := by
  have hopen : (⟨metric, labels, .name⟩ : LineState).steps (js "\x7b") =
      some ⟨metric, labels, .braces⟩ := rfl
  rw [List.append_assoc, steps_append, hopen, Option.bind_some, steps_append]
  by_cases hne : pairs = []
  · rw [hne, List.append_nil]
    rfl
  · rw [steps_renderPairs hpairs hne]
    rfl

end Pairs

section Samples

variable {V : Type} {numerals : Numerals V} {name metric : JsString}
variable {labels pairs : List (JsString × JsString)}

theorem steps_number {text string : JsString} (hstring : ∀ unit ∈ string, isPlain unit = true) :
    (⟨metric, labels, .number text⟩ : LineState).steps string =
      some ⟨metric, labels, .number (text ++ string)⟩ := by
  induction string generalizing text with
  | nil => rw [List.append_nil, steps_nil]
  | cons unit string ih =>
      have hplain := hstring unit List.mem_cons_self
      have hspace : unit ≠ space := by
        rintro rfl
        exact absurd hplain (by decide)
      rw [steps_cons, LineState.step]
      dsimp only
      rw [if_neg hspace, Option.bind_some,
        ih fun other hother => hstring other (List.mem_cons_of_mem _ hother), List.append_assoc]
      rfl

theorem head?_name (hname : isName name = true) (rest : JsString) :
    name ++ rest ≠ [] ∧ (name ++ rest).head? ≠ some unitHash := by
  rw [isName, Bool.and_eq_true, decide_eq_true_eq] at hname
  cases name with
  | nil => exact absurd rfl hname.1
  | cons unit name =>
      have hunits := hname.2
      rw [List.all_cons, Bool.and_eq_true] at hunits
      have hhash := ne_of_isNameUnit hunits.1 (by decide : isNameUnit unitHash = false)
      exact ⟨List.cons_ne_nil _ _, fun heq => hhash (Option.some.inj heq)⟩

theorem start_name (hname : isName name = true) :
    LineState.start.steps name = some ⟨name, [], .name⟩ := by
  rw [isName, Bool.and_eq_true] at hname
  exact steps_metricName hname.2

theorem finish_number (value : V) :
    (⟨metric, labels, .number (numerals.print value)⟩ : LineState).finish numerals =
      some ⟨metric, labels, value⟩ := by
  rw [LineState.finish]
  dsimp only
  rw [numerals.read_print]
  rfl

/-- A line with labels in braces is read back. -/
theorem readLine_sampleLine (hname : isName name = true)
    (hpairs : ∀ pair ∈ pairs, isName pair.1 = true) (value : V) :
    readLine numerals
        (sampleLine numerals name (js "\x7b" ++ renderPairs pairs ++ js "\x7d") value) =
      some [⟨name, pairs, value⟩] := by
  have hspace : (⟨name, pairs, .gap⟩ : LineState).steps (js " ") =
      some ⟨name, pairs, .number []⟩ := rfl
  have hhead := head?_name hname ((js "\x7b" ++ renderPairs pairs ++ js "\x7d") ++
    (js " " ++ numerals.print value))
  have hsteps : LineState.start.steps (name ++ ((js "\x7b" ++ renderPairs pairs ++ js "\x7d") ++
      (js " " ++ numerals.print value))) =
        some ⟨name, pairs, .number (numerals.print value)⟩ := by
    rw [steps_append, start_name hname, Option.bind_some, steps_append, steps_braces hpairs,
      Option.bind_some, steps_append, List.nil_append, hspace, Option.bind_some,
      steps_number (numerals.plain_print value)]
    rfl
  rw [sampleLine, List.append_assoc, List.append_assoc, readLine,
    if_neg (not_or.mpr hhead), readSample, hsteps, Option.bind_some, finish_number]
  rfl

/-- A line without labels is read back. -/
theorem readLine_bareLine (hname : isName name = true) (value : V) :
    readLine numerals (sampleLine numerals name [] value) = some [⟨name, [], value⟩] := by
  have hspace : (⟨name, [], .name⟩ : LineState).steps (js " ") =
      some ⟨name, [], .number []⟩ := rfl
  have hhead := head?_name hname (js " " ++ numerals.print value)
  have hsteps : LineState.start.steps (name ++ (js " " ++ numerals.print value)) =
      some ⟨name, [], .number (numerals.print value)⟩ := by
    rw [steps_append, start_name hname, Option.bind_some, steps_append, hspace,
      Option.bind_some, steps_number (numerals.plain_print value)]
    rfl
  rw [sampleLine, List.append_nil, List.append_assoc, readLine, if_neg (not_or.mpr hhead),
    readSample, hsteps, Option.bind_some, finish_number]
  rfl

/-- A line that ends within the value of a label is not read. -/
theorem readLine_eq_none {head text : JsString} (hname : isName name = true)
    (hhead : (⟨name, [], .braces⟩ : LineState).steps head =
      some ⟨name, labels, .value metric text⟩) :
    readLine numerals (name ++ (js "\x7b" ++ head)) = none := by
  have hopen : (⟨name, [], .name⟩ : LineState).steps (js "\x7b") = some ⟨name, [], .braces⟩ := rfl
  rw [readLine, if_neg (not_or.mpr (head?_name hname _)), readSample, steps_append,
    start_name hname, Option.bind_some, steps_append, hopen, Option.bind_some, hhead]
  rfl

end Samples

section Breaks

variable {name metric text : JsString} {labels pairs : List (JsString × JsString)}

theorem mem_escapeText_iff : newline ∈ escapeText text ↔ newline ∈ text := by
  have hunit : ∀ unit, newline ∈ escapeUnit unit ↔ newline = unit := by
    intro unit
    rw [escapeUnit]
    split
    · next hbackslash =>
        rw [hbackslash]
        decide
    · split
      · next hquote =>
          rw [hquote]
          decide
      · exact List.mem_singleton
  rw [escapeText, List.mem_flatMap]
  constructor
  · rintro ⟨unit, hmem, hnewline⟩
    exact (hunit unit).mp hnewline ▸ hmem
  · exact fun hmem => ⟨newline, hmem, (hunit newline).mpr rfl⟩

theorem newline_notMem_name (hname : isName name = true) : newline ∉ name := by
  rw [isName, Bool.and_eq_true] at hname
  intro hmem
  exact ne_of_isNameUnit (List.all_eq_true.mp hname.2 newline hmem) (by decide) rfl

theorem newline_notMem_opening (hname : isName name = true) : newline ∉ name ++ js "=\"" := by
  rw [List.mem_append, not_or]
  exact ⟨newline_notMem_name hname, by decide⟩

theorem newline_notMem_renderPair (hname : isName name = true) (htext : newline ∉ text) :
    newline ∉ renderPair (name, text) := by
  rw [renderPair, List.mem_append, List.mem_append, not_or, not_or]
  exact ⟨⟨newline_notMem_opening hname, mem_escapeText_iff.not.mpr htext⟩, by decide⟩

theorem newline_notMem_renderPairs (hpairs : ∀ pair ∈ pairs, isName pair.1 = true)
    (htexts : ∀ pair ∈ pairs, newline ∉ pair.2) : newline ∉ renderPairs pairs := by
  induction pairs with
  | nil => exact List.not_mem_nil
  | cons pair pairs ih =>
      have hfirst : newline ∉ renderPair pair := newline_notMem_renderPair
        (hpairs pair List.mem_cons_self) (htexts pair List.mem_cons_self)
      have hrest := ih (fun other hother => hpairs other (List.mem_cons_of_mem _ hother))
        fun other hother => htexts other (List.mem_cons_of_mem _ hother)
      rw [renderPairs, List.map_cons]
      cases pairs with
      | nil => rwa [List.map_nil, List.intercalate_singleton]
      | cons second pairs =>
          rw [List.map_cons, List.intercalate_cons_cons, List.mem_append, List.mem_append,
            not_or, not_or]
          exact ⟨⟨hfirst, by decide⟩, hrest⟩

theorem renderPairs_cons (pair : JsString × JsString) (pairs : List (JsString × JsString)) :
    renderPairs (pair :: pairs) =
      renderPair pair ++ if pairs = [] then [] else js "," ++ renderPairs pairs := by
  rw [renderPairs, List.map_cons]
  cases pairs with
  | nil => rw [List.map_nil, List.intercalate_singleton, if_pos rfl, List.append_nil]
  | cons second pairs =>
      rw [List.map_cons, List.intercalate_cons_cons, List.append_assoc,
        if_neg (List.cons_ne_nil _ _)]
      rfl

/-- Labels with a line break are cut off within the value of a label. -/
theorem exists_cut_renderPairs (hpairs : ∀ pair ∈ pairs, isName pair.1 = true)
    (hbreak : ∃ pair ∈ pairs, newline ∈ pair.2) :
    ∃ head tail read label text, renderPairs pairs = head ++ newline :: tail ∧
      newline ∉ head ∧ (⟨metric, labels, .braces⟩ : LineState).steps head =
        some ⟨metric, read, .value label text⟩ := by
  induction pairs generalizing labels with
  | nil =>
      obtain ⟨_, hmem, _⟩ := hbreak
      cases hmem
  | cons pair pairs ih =>
      obtain ⟨name, value⟩ := pair
      have hfirst : isName name = true := hpairs _ List.mem_cons_self
      rw [renderPairs_cons]
      generalize hafter : (if pairs = [] then [] else js "," ++ renderPairs pairs) = after
      by_cases htext : newline ∈ value
      · obtain ⟨before, behind, rfl, hbefore⟩ := List.eq_append_cons_of_mem htext
        have hescape : escapeText (before ++ newline :: behind) =
            escapeText before ++ newline :: escapeText behind := by
          rw [escapeText, List.flatMap_append, List.flatMap_cons]
          rfl
        have hhead : newline ∉ name ++ js "=\"" ++ escapeText before := by
          rw [List.mem_append, not_or]
          exact ⟨newline_notMem_opening hfirst, mem_escapeText_iff.not.mpr hbefore⟩
        refine ⟨name ++ js "=\"" ++ escapeText before, escapeText behind ++ (js "\"" ++ after),
          labels, name, before, ?_, hhead, ?_⟩
        · rw [renderPair, hescape]
          simp only [List.append_assoc, List.cons_append]
        · rw [steps_append, steps_opening hfirst, Option.bind_some, steps_escapeText]
          rfl
      · obtain ⟨other, hother, hnewline⟩ := hbreak
        have hlater : other ∈ pairs := by
          rcases List.mem_cons.mp hother with rfl | hlater
          · exact absurd hnewline htext
          · exact hlater
        obtain ⟨head, tail, read, label, text, hrender, hhead, hsteps⟩ :
            ∃ head tail read label text, renderPairs pairs = head ++ newline :: tail ∧
              newline ∉ head ∧
              (⟨metric, labels ++ [(name, value)], .braces⟩ : LineState).steps head =
                some ⟨metric, read, .value label text⟩ :=
          ih (fun other hother => hpairs other (List.mem_cons_of_mem _ hother))
            ⟨other, hlater, hnewline⟩
        have hwhole : newline ∉ renderPair (name, value) ++ (js "," ++ head) := by
          rw [List.mem_append, List.mem_append, not_or, not_or]
          exact ⟨newline_notMem_renderPair hfirst htext, by decide, hhead⟩
        refine ⟨renderPair (name, value) ++ (js "," ++ head), tail, read, label, text, ?_, hwhole,
          ?_⟩
        · rw [← hafter, if_neg (List.ne_nil_of_mem hlater), hrender, List.append_assoc,
            List.append_assoc]
        · rw [steps_append, steps_renderPair hfirst, Option.bind_some, steps_append]
          exact hsteps

end Breaks

end X402Facilitator.Metrics
