import X402Facilitator.Library.AllOrNone
import X402Facilitator.Sdk.Sep7Reading

/-!
# Building a URI and reading it

Where the parameters pass the validator, the builder gives their canonical URI, unless a
surrogate is alone.  The parser takes any URI whose query is parameters that differ, if it
is not too long and the validator passes what was read.
-/

namespace X402Facilitator.Sdk

namespace Sep7

open JsString

abbrev Texts := Field → Option JsString

variable {platform : Platform} {params : Params} {texts : Texts} {entries : List Entry}
variable {uri : JsString}

def textsOf (values : Values) : Texts := fun field => (values field).map Value.toJsString

def definedFields (texts : Texts) : List Field := fields.filter fun field => (texts field).isSome

def textAt (texts : Texts) (field : Field) : JsString := (texts field).getD []

def encoded (string : JsString) : JsString := (encodeURIComponent string).getD []

def canonicalParts (texts : Texts) : List JsString :=
  (definedFields texts).map fun field => queryPart (field, encoded (textAt texts field))

def canonicalUri (texts : Texts) : JsString := payUri (canonicalParts texts)

def AllWellFormed (texts : Texts) : Prop :=
  ∀ field text, texts field = some text → text.isWellFormed = true

variable {field : Field} {string scheme query : JsString} {entry : Entry}

theorem mem_definedFields : field ∈ definedFields texts ↔ ∃ text, texts field = some text := by
  rw [definedFields, List.mem_filter, Option.isSome_iff_exists]
  exact ⟨fun hmem => hmem.2, fun hsome => ⟨mem_fields field, hsome⟩⟩

theorem isSome_encodeURIComponent : (encodeURIComponent string).isSome = string.isWellFormed := by
  rw [encodeURIComponent, Option.isSome_map, isWellFormed]

theorem encodeURIComponent_eq (hwell : string.isWellFormed = true) :
    encodeURIComponent string = some (encoded string) := by
  rw [← isSome_encodeURIComponent] at hwell
  obtain ⟨result, hresult⟩ := Option.isSome_iff_exists.mp hwell
  rw [encoded, hresult]
  rfl

/-- What the builder gives where it finds no error. -/
theorem buildPayUri_of_wellFormed (herrors : buildErrors platform params = [])
    (hwell : AllWellFormed (textsOf params.values)) :
    buildPayUri platform params = .ok (canonicalUri (textsOf params.values)) := by
  have hdefined : (fields.filter fun field => (params.values field).isSome) =
      definedFields (textsOf params.values) := by
    simp only [definedFields, textsOf, Option.isSome_map]
  have hparts : ∀ field ∈ definedFields (textsOf params.values),
      (encodeURIComponent (((params.values field).map Value.toJsString).getD [])).map
        (fun value => queryPart (field, value)) =
      some (queryPart (field, encoded (textAt (textsOf params.values) field))) := by
    intro field hfield
    obtain ⟨text, htext⟩ := mem_definedFields.mp hfield
    have hencoded := encodeURIComponent_eq (hwell field text htext)
    rw [textAt, htext]
    rw [textsOf] at htext
    rw [htext, Option.getD_some, hencoded]
    rfl
  have hquery := mapM_eq_map [] fun field hfield =>
    Option.isSome_iff_exists.mpr ⟨_, hparts field hfield⟩
  rw [buildPayUri]
  simp only [herrors, ne_eq, not_true_eq_false, if_false, hdefined, hquery]
  refine congrArg (fun parts => Except.ok (payUri parts))
    (List.map_congr_left fun field hfield => ?_)
  rw [hparts field hfield]
  rfl

theorem buildPayUri_of_not_wellFormed (herrors : buildErrors platform params = [])
    (hnot : ¬ AllWellFormed (textsOf params.values)) :
    buildPayUri platform params = .error .uriError := by
  rw [buildPayUri]
  simp only [herrors, ne_eq, not_true_eq_false, if_false]
  split
  · next parts hquery =>
      refine absurd (fun field text htext => ?_) hnot
      rw [textsOf] at htext
      obtain ⟨value, hvalue, rfl⟩ := Option.map_eq_some_iff.mp htext
      have hmem : field ∈ fields.filter fun field => (params.values field).isSome := by
        rw [List.mem_filter]
        exact ⟨mem_fields field, Option.isSome_iff_exists.mpr ⟨value, hvalue⟩⟩
      have hsome := isSome_of_mapM hquery field hmem
      rwa [hvalue, Option.map_some, Option.getD_some, Option.isSome_map,
        isSome_encodeURIComponent] at hsome
  · rfl

theorem buildPayUri_of_errors (herrors : buildErrors platform params ≠ []) :
    buildPayUri platform params = .error (.sep7Error (buildErrors platform params)) := by
  rw [buildPayUri]
  simp only [if_pos herrors]

theorem length_scheme (hscheme : scheme.map lowerUnit = SEP7_SCHEME) :
    scheme.length = SEP7_SCHEME.length := by
  rw [← hscheme, List.length_map]

theorem lowerUnit_scheme : SEP7_SCHEME.map lowerUnit = SEP7_SCHEME := by decide

theorem split_operation (query : JsString) :
    (js "pay?" ++ query).takeWhile (· ≠ unitOf '?') = js "pay" ∧
      (js "pay?" ++ query).dropWhile (· ≠ unitOf '?') = unitOf '?' :: query := by
  have hpay : js "pay?" ++ query = js "pay" ++ unitOf '?' :: query := rfl
  have hall : ((js "pay").all fun unit => decide (unit ≠ unitOf '?')) = true := by decide
  have hname := List.all_eq_true.mp hall
  rw [hpay]
  constructor
  · rw [List.takeWhile_append_of_pos hname, List.takeWhile_cons_of_neg (by simp), List.append_nil]
  · rw [List.dropWhile_append_of_pos hname, List.dropWhile_cons_of_neg (by simp)]

/-- The parser takes the query of a URI that is not too long and has no fragment. -/
theorem parsePayUri_append (hscheme : scheme.map lowerUnit = SEP7_SCHEME) (hquery : query ≠ [])
    (hfragment : unitOf '#' ∉ scheme ++ (js "pay?" ++ query))
    (hlength : (scheme ++ (js "pay?" ++ query)).length ≤ MAX_URI_LENGTH) :
    parsePayUri platform (scheme ++ (js "pay?" ++ query)) =
      accept platform (readQuery query) := by
  have hne : scheme ++ (js "pay?" ++ query) ≠ [] := by
    refine List.append_ne_nil_of_right_ne_nil _ (List.append_ne_nil_of_right_ne_nil _ hquery)
  have hsize := length_scheme hscheme
  have htake : (scheme ++ (js "pay?" ++ query)).take SEP7_SCHEME.length = scheme := by
    rw [← hsize, List.take_left' rfl]
  have hdrop : (scheme ++ (js "pay?" ++ query)).drop SEP7_SCHEME.length = js "pay?" ++ query := by
    rw [← hsize, List.drop_left' rfl]
  obtain ⟨hoperation, hrest⟩ := split_operation query
  rw [parsePayUri, if_neg hne, if_neg (not_lt.mpr hlength), htake, if_neg (not_not.mpr hscheme)]
  simp only [hdrop, hoperation, hrest, List.tail_cons, ne_eq, not_true_eq_false, if_false, hquery,
    hfragment]

theorem parsePayUri_long (platform : Platform) (hlong : MAX_URI_LENGTH < uri.length) :
    ∃ errors, parsePayUri platform uri = .error errors := by
  rw [parsePayUri]
  split
  · exact ⟨_, rfl⟩
  · exact ⟨_, rfl⟩

structure Accepted (platform : Platform) (uri : JsString) (texts : Texts) : Prop where
  parts : ∃ scheme query, uri = scheme ++ (js "pay?" ++ query) ∧
    scheme.map lowerUnit = SEP7_SCHEME ∧ query ≠ [] ∧ accept platform (readQuery query) = .ok texts
  short : uri.length ≤ MAX_URI_LENGTH
  fragment : unitOf '#' ∉ uri

theorem accepted_of_parsePayUri (hok : parsePayUri platform uri = .ok texts) :
    Accepted platform uri texts := by
  rw [parsePayUri] at hok
  split at hok
  · cases hok
  split at hok
  · cases hok
  next hlong =>
  split at hok
  · cases hok
  next hscheme =>
  dsimp only at hok
  split at hok
  · cases hok
  next hoperation =>
  split at hok
  · cases hok
  next hquery =>
  split at hok
  · cases hok
  next hfragment =>
  have hrest : uri.drop SEP7_SCHEME.length = js "pay?" ++
      ((uri.drop SEP7_SCHEME.length).dropWhile (· ≠ unitOf '?')).tail := by
    have hparts : (uri.drop SEP7_SCHEME.length).takeWhile (· ≠ unitOf '?') ++
        (uri.drop SEP7_SCHEME.length).dropWhile (· ≠ unitOf '?') = uri.drop SEP7_SCHEME.length :=
      List.takeWhile_append_dropWhile
    rw [not_not.mp hoperation] at hparts
    have hne : (uri.drop SEP7_SCHEME.length).dropWhile (· ≠ unitOf '?') ≠ [] := by
      intro hnil
      rw [hnil] at hquery
      exact hquery rfl
    have hhead := List.head_dropWhile_not (· ≠ unitOf '?') hne
    obtain ⟨mark, rest, hmark⟩ := List.exists_cons_of_ne_nil hne
    simp only [hmark, List.head_cons, ne_eq, decide_eq_false_iff_not, not_not] at hhead
    rw [← hparts, hmark, hhead]
    rfl
  refine ⟨⟨uri.take SEP7_SCHEME.length, _, ?_, not_not.mp hscheme, hquery, hok⟩,
    not_lt.mp hlong, hfragment⟩
  rw [← hrest, List.take_append_drop]

theorem accept_ok_iff {reading : Reading} : accept platform reading = .ok texts ↔
    reading.errors = [] ∧ reading.params = texts ∧
      validateParams platform (fun field => (texts field).map .text) = [] := by
  rw [accept]
  constructor
  · intro hok
    split at hok
    · next herrors =>
        obtain ⟨hread, hvalid⟩ := List.append_eq_nil_iff.mp herrors
        cases hok
        exact ⟨hread, rfl, hvalid⟩
    · cases hok
  · rintro ⟨hread, rfl, hvalid⟩
    rw [if_pos (List.append_eq_nil_iff.mpr ⟨hread, hvalid⟩)]

theorem paramsOf_eq (hvalues : ∀ entry ∈ entries, texts entry.field = some entry.value)
    (hall : ∀ field ∈ definedFields texts, field ∈ entries.map Entry.field) :
    paramsOf entries = texts := by
  funext field
  rw [paramsOf]
  cases hfind : entries.find? fun entry => entry.field = field with
  | none =>
      by_contra hne
      obtain ⟨text, htext⟩ := Option.ne_none_iff_exists'.mp fun hnone => hne hnone.symm
      obtain ⟨entry, hentry, heq⟩ :=
        List.mem_map.mp (hall field (mem_definedFields.mpr ⟨text, htext⟩))
      exact List.find?_eq_none.mp hfind entry hentry (decide_eq_true heq)
  | some entry =>
      have heq : entry.field = field := by simpa using List.find?_some hfind
      rw [Option.map_some, ← heq, hvalues entry (List.mem_of_find?_eq_some hfind)]

theorem amp_notMem_part (hraw : unitOf '&' ∉ entry.raw) : unitOf '&' ∉ entry.part := by
  rw [Entry.part, queryPart, List.mem_append, List.mem_cons, not_or, not_or]
  exact ⟨(notMem_key entry.field).2.1, by decide, hraw⟩

/-- The pairs of a query are those that were joined. -/
theorem readQuery_join (hne : entries ≠ []) (hnodup : (entries.map Entry.field).Nodup)
    (hamp : ∀ entry ∈ entries, unitOf '&' ∉ entry.raw) :
    readQuery ([unitOf '&'].intercalate (entries.map Entry.part)) = ⟨[], paramsOf entries⟩ := by
  have hsplit : ([unitOf '&'].intercalate (entries.map Entry.part)).splitOn (unitOf '&') =
      entries.map Entry.part := by
    refine List.splitOn_intercalate _ (fun part hpart => ?_) (by simpa using hne)
    obtain ⟨entry, hentry, rfl⟩ := List.mem_map.mp hpart
    exact amp_notMem_part (hamp entry hentry)
  rw [readQuery, hsplit, foldl_parts hnodup]

/-- A query that is read without an error is one of parameters that differ. -/
theorem exists_entries_of_readQuery (herrors : (readQuery query).errors = []) :
    ∃ entries : List Entry, query.splitOn (unitOf '&') = entries.map Entry.part ∧
      (entries.map Entry.field).Nodup ∧ (readQuery query).params = paramsOf entries := by
  obtain ⟨entries, hpairs, hnodup, -⟩ := entries_of_foldl _ ⟨[], fun _ => none⟩ herrors
  refine ⟨entries, hpairs, hnodup, ?_⟩
  rw [readQuery, hpairs, foldl_parts hnodup]

/-- The parameters that were read are those that were there. -/
theorem paramsOf_entry (hnodup : (entries.map Entry.field).Nodup) (hentry : entry ∈ entries) :
    paramsOf entries entry.field = some entry.value := by
  rw [paramsOf]
  cases hfind : entries.find? fun other => other.field = entry.field with
  | none => exact absurd (decide_eq_true rfl) (List.find?_eq_none.mp hfind entry hentry)
  | some other =>
      have heq : other.field = entry.field := by simpa using List.find?_some hfind
      have hother := List.mem_of_find?_eq_some hfind
      rw [List.inj_on_of_nodup_map hnodup hother hentry heq]
      rfl

theorem exists_entry_of_paramsOf {text : JsString} (htext : paramsOf entries field = some text) :
    ∃ entry ∈ entries, entry.field = field ∧ entry.value = text := by
  obtain ⟨entry, hfind, rfl⟩ := Option.map_eq_some_iff.mp htext
  exact ⟨entry, List.mem_of_find?_eq_some hfind, by simpa using List.find?_some hfind, rfl⟩

def AllNonempty (texts : Texts) : Prop := ∀ field text, texts field = some text → text ≠ []

theorem encoded_ne_nil (hwell : string.isWellFormed = true) (hne : string ≠ []) :
    encoded string ≠ [] := by
  intro hnil
  have hencoded := encodeURIComponent_eq hwell
  rw [hnil] at hencoded
  have hdecoded := decodeURIComponent_of_encodeURIComponent hencoded
  exact hne (Option.some.inj hdecoded).symm

theorem notMem_encoded (hwell : string.isWellFormed = true) :
    unitOf '+' ∉ encoded string ∧ unitOf '&' ∉ encoded string ∧ unitOf '#' ∉ encoded string := by
  have hencoded := encodeURIComponent_eq hwell
  exact ⟨notMem_of_encodeURIComponent hencoded (by decide) (by decide),
    notMem_of_encodeURIComponent hencoded (by decide) (by decide),
    notMem_of_encodeURIComponent hencoded (by decide) (by decide)⟩

def canonicalEntry (field : Field) (text : JsString) (hwell : text.isWellFormed = true)
    (hne : text ≠ []) : Entry where
  field := field
  raw := encoded text
  value := text
  nonempty := encoded_ne_nil hwell hne
  plain := (notMem_encoded hwell).1
  decoded := decodeURIComponent_of_encodeURIComponent (encodeURIComponent_eq hwell)

theorem exists_canonicalEntries (hwell : AllWellFormed texts) (hne : AllNonempty texts) :
    ∃ entries : List Entry, entries.map Entry.field = definedFields texts ∧
      entries.map Entry.part = canonicalParts texts ∧
      ∀ entry ∈ entries, unitOf '&' ∉ entry.raw ∧ texts entry.field = some entry.value := by
  have hlist : ∀ list : List Field, (∀ field ∈ list, ∃ text, texts field = some text) →
      ∃ entries : List Entry, entries.map Entry.field = list ∧
        entries.map Entry.part =
          list.map (fun field => queryPart (field, encoded (textAt texts field))) ∧
        ∀ entry ∈ entries, unitOf '&' ∉ entry.raw ∧ texts entry.field = some entry.value := by
    intro list hdefined
    induction list with
    | nil => exact ⟨[], rfl, rfl, by simp⟩
    | cons field list ih =>
        obtain ⟨entries, hfields, hparts, hentries⟩ :=
          ih fun other hother => hdefined other (List.mem_cons_of_mem field hother)
        obtain ⟨text, htext⟩ := hdefined field List.mem_cons_self
        refine ⟨canonicalEntry field text (hwell field text htext) (hne field text htext) ::
          entries,
          by rw [List.map_cons, hfields]; rfl, ?_, ?_⟩
        · rw [List.map_cons, List.map_cons, hparts, textAt, htext]
          rfl
        · intro entry hentry
          rcases List.mem_cons.mp hentry with rfl | hentry
          · exact ⟨(notMem_encoded (hwell field text htext)).2.1, htext⟩
          · exact hentries entry hentry
  exact hlist _ fun field hfield => mem_definedFields.mp hfield

/-- The canonical query of parameters that are not empty is read as them. -/
theorem readQuery_canonical (hwell : AllWellFormed texts) (hnonempty : AllNonempty texts)
    (hdefined : definedFields texts ≠ []) :
    readQuery ([unitOf '&'].intercalate (canonicalParts texts)) = ⟨[], texts⟩ := by
  obtain ⟨entries, hfields, hparts, hentries⟩ := exists_canonicalEntries hwell hnonempty
  have hne : entries ≠ [] := by
    rintro rfl
    exact hdefined hfields.symm
  have hnodup : (entries.map Entry.field).Nodup := by
    rw [hfields]
    exact nodup_fields.filter _
  rw [← hparts, readQuery_join hne hnodup fun entry hentry => (hentries entry hentry).1,
    paramsOf_eq (fun entry hentry => (hentries entry hentry).2)
      fun field hfield => hfields ▸ hfield]

/-- The canonical query of an empty parameter is not read. -/
theorem readQuery_canonical_empty (hwell : AllWellFormed texts) (hempty : ¬ AllNonempty texts) :
    (readQuery ([unitOf '&'].intercalate (canonicalParts texts))).errors ≠ [] := by
  intro herrors
  obtain ⟨entries, hpairs, -, -⟩ := exists_entries_of_readQuery herrors
  refine hempty fun field text htext hnil => ?_
  subst hnil
  have hmem : queryPart (field, []) ∈ canonicalParts texts := by
    refine List.mem_map.mpr ⟨field, mem_definedFields.mpr ⟨[], htext⟩, ?_⟩
    rw [textAt, htext]
    rfl
  rw [List.splitOn_intercalate _ ?_ (List.ne_nil_of_mem hmem)] at hpairs
  · rw [hpairs] at hmem
    obtain ⟨entry, -, hpart⟩ := List.mem_map.mp hmem
    exact entry.nonempty (congrArg Prod.snd (queryPart_injective hpart))
  · intro part hpart
    obtain ⟨other, hother, rfl⟩ := List.mem_map.mp hpart
    obtain ⟨value, hvalue⟩ := mem_definedFields.mp hother
    rw [textAt, hvalue, queryPart, List.mem_append, List.mem_cons, not_or, not_or]
    exact ⟨(notMem_key other).2.1, by decide, (notMem_encoded (hwell other value hvalue)).2.1⟩

end Sep7

end X402Facilitator.Sdk
