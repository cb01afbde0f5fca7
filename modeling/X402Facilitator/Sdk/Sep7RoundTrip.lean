import Mathlib.Algebra.BigOperators.Group.List.Lemmas
import X402Facilitator.Sdk.Sep7Building

/-!
# Building and parsing as inverses

The two differ on parameters that are empty, on a negative `BigInt`, on surrogates that are
alone and on the length of what is encoded; on nothing else.
-/

namespace X402Facilitator.Sdk

namespace Sep7

open JsString

variable {platform : Platform} {params : Params} {texts : Texts} {entries : List Entry}
variable {uri : JsString}

/-- The entries that are in a sublist are that sublist. -/
theorem filter_eq_of_sublist {A : Type} {sub all : List A} {keep : A → Bool}
    (hsublist : sub.Sublist all) (hnodup : all.Nodup)
    (hkeep : ∀ entry ∈ all, keep entry = true ↔ entry ∈ sub) : all.filter keep = sub := by
  induction hsublist with
  | slnil => rfl
  | @cons sub all entry hsublist ih =>
      obtain ⟨hnot, hnodup⟩ := List.nodup_cons.mp hnodup
      have hdrop : ¬ keep entry = true := fun hentry =>
        hnot (hsublist.subset ((hkeep entry List.mem_cons_self).mp hentry))
      rw [List.filter_cons_of_neg hdrop]
      exact ih hnodup fun other hother => hkeep other (List.mem_cons_of_mem entry hother)
  | @cons_cons sub all entry hsublist ih =>
      obtain ⟨hnot, hnodup⟩ := List.nodup_cons.mp hnodup
      rw [List.filter_cons_of_pos ((hkeep entry List.mem_cons_self).mpr List.mem_cons_self)]
      refine congrArg (entry :: ·) (ih hnodup fun other hother => ?_)
      have hne : other ≠ entry := fun heq => hnot (heq ▸ hother)
      rw [hkeep other (List.mem_cons_of_mem entry hother), List.mem_cons, or_iff_right hne]

/-- The length of a query part, by the code units of its value. -/
def partLength (texts : Texts) (field : Field) : ℕ :=
  field.key.length + 1 + encodedLength (textAt texts field)

def canonicalLength (texts : Texts) : ℕ :=
  16 + ((definedFields texts).map (partLength texts)).sum + ((definedFields texts).length - 1)

theorem length_intercalate (separator : UInt16) (parts : List JsString) :
    ([separator].intercalate parts).length = (parts.map List.length).sum + (parts.length - 1) := by
  induction parts with
  | nil => rfl
  | cons first parts ih =>
      cases parts with
      | nil => simp
      | cons second parts =>
          rw [List.intercalate_cons_cons, List.length_append, List.length_append, ih]
          simp only [List.map_cons, List.sum_cons, List.length_cons, List.length_nil]
          omega

theorem length_canonicalUri (hwell : AllWellFormed texts) :
    (canonicalUri texts).length = canonicalLength texts := by
  have hparts : (canonicalParts texts).map List.length =
      (definedFields texts).map (partLength texts) := by
    rw [canonicalParts, List.map_map]
    refine List.map_congr_left fun field hfield => ?_
    obtain ⟨text, htext⟩ := mem_definedFields.mp hfield
    have hlength := length_encodeURIComponent (encodeURIComponent_eq (hwell field text htext))
    rw [Function.comp_apply, queryPart, partLength, textAt, htext, Option.getD_some,
      List.length_append, List.length_cons, hlength, Nat.add_assoc, Nat.add_comm 1]
  rw [canonicalUri, payUri, List.length_append, length_intercalate, hparts, canonicalLength,
    canonicalParts, List.length_map]
  exact (Nat.add_assoc 16 _ _).symm

/-- No fragment in a canonical URI. -/
theorem fragment_notMem_canonicalUri (hwell : AllWellFormed texts) :
    unitOf '#' ∉ canonicalUri texts := by
  have hlist : ∀ parts : List JsString, (∀ part ∈ parts, unitOf '#' ∉ part) →
      unitOf '#' ∉ [unitOf '&'].intercalate parts := by
    intro parts hparts
    induction parts with
    | nil => exact List.not_mem_nil
    | cons first parts ih =>
        have hfirst := hparts first List.mem_cons_self
        have hrest := ih fun part hpart => hparts part (List.mem_cons_of_mem first hpart)
        cases parts with
        | nil => rwa [List.intercalate_singleton]
        | cons second parts =>
            rw [List.intercalate_cons_cons, List.mem_append, List.mem_append, not_or, not_or]
            exact ⟨⟨hfirst, by decide⟩, hrest⟩
  rw [canonicalUri, payUri, List.mem_append, not_or]
  refine ⟨by decide, hlist _ fun part hpart => ?_⟩
  obtain ⟨field, hfield, rfl⟩ := List.mem_map.mp hpart
  obtain ⟨text, htext⟩ := mem_definedFields.mp hfield
  rw [queryPart, textAt, htext, List.mem_append, List.mem_cons, not_or, not_or]
  exact ⟨(notMem_key field).2.2, by decide, (notMem_encoded (hwell field text htext)).2.2⟩

/-- What the parser makes of a canonical URI. -/
theorem parsePayUri_canonicalUri (hwell : AllWellFormed texts) (hdefined : definedFields texts ≠ [])
    (hshort : canonicalLength texts ≤ MAX_URI_LENGTH) :
    parsePayUri platform (canonicalUri texts) =
      accept platform (readQuery ([unitOf '&'].intercalate (canonicalParts texts))) := by
  have huri : canonicalUri texts =
      SEP7_SCHEME ++ (js "pay?" ++ [unitOf '&'].intercalate (canonicalParts texts)) := by
    rw [canonicalUri, payUri, List.append_assoc]
  have hquery : [unitOf '&'].intercalate (canonicalParts texts) ≠ [] := by
    intro hnil
    have hlength := length_canonicalUri hwell
    obtain ⟨field, rest, hcons⟩ := List.exists_cons_of_ne_nil hdefined
    have hsize : (canonicalUri texts).length = 16 := by
      rw [huri, hnil]
      rfl
    rw [hsize, canonicalLength, hcons, List.map_cons, List.sum_cons, partLength] at hlength
    omega
  have hfragment := fragment_notMem_canonicalUri hwell
  have hlength := (length_canonicalUri hwell).trans_le hshort
  rw [huri] at hfragment hlength ⊢
  exact parsePayUri_append lowerUnit_scheme hquery hfragment hlength

def asTexts (texts : Texts) : Values := fun field => (texts field).map .text

/-- A `BigInt` amount is not negative. -/
def AmountNonneg (values : Values) : Prop := ∀ n, values .amount = some (.bigint n) → 0 ≤ n

theorem textsOf_asTexts (texts : Texts) : textsOf (asTexts texts) = texts := by
  funext field
  rw [textsOf, asTexts]
  cases texts field <;> rfl

/-- Strings pass where the values do, but for the amount. -/
theorem validateParams_asTexts (platform : Platform) (values : Values)
    (hamount : validateAmountParam (asTexts (textsOf values) .amount) =
      validateAmountParam (values .amount)) :
    validateParams platform (asTexts (textsOf values)) = validateParams platform values := by
  have hvalue : ∀ field, asTexts (textsOf values) field =
      (values field).map fun value => .text value.toJsString := by
    intro field
    rw [asTexts, textsOf, Option.map_map]
    rfl
  have hsome : ∀ field, (asTexts (textsOf values) field).isNone = (values field).isNone := by
    intro field
    rw [hvalue, Option.isNone_map]
  have hgiven : (asTexts (textsOf values) .signature).isSome = (values .signature).isSome := by
    rw [hvalue, Option.isSome_map]
  have hcheck : ∀ field valid error, checkValue (asTexts (textsOf values) field) valid error =
      checkValue (values field) valid error := by
    intro field valid error
    rw [hvalue]
    cases values field <;> rfl
  have hdestination : validateDestination platform (asTexts (textsOf values) .destination) =
      validateDestination platform (values .destination) := by
    rw [hvalue]
    cases values .destination <;> rfl
  have hmemo : validateMemoParam (asTexts (textsOf values) .memo)
      (asTexts (textsOf values) .memoType) =
        validateMemoParam (values .memo) (values .memoType) := by
    rw [hvalue, hvalue]
    cases values .memo <;> cases values .memoType <;> rfl
  simp only [validateParams, hsome, hcheck, hdestination, hmemo, hgiven, hamount]

theorem amount_cases (params : Params) : params.values .amount = none ∨
    (∃ text, params.values .amount = some (.text text)) ∨
      ∃ n, params.values .amount = some (.bigint n) := by
  cases hvalue : params.values .amount with
  | none => exact .inl rfl
  | some value =>
      rcases params.typed .amount value hvalue with ⟨text, rfl⟩ | ⟨-, n, rfl⟩ | hmemo
      · exact .inr (.inl ⟨text, rfl⟩)
      · exact .inr (.inr ⟨n, rfl⟩)
      · cases hmemo

theorem chars_ofText_decimal (decimal : Decimal) :
    (ofText decimal.text).chars = decimal.text :=
  chars_ofText fun _ hc => (decimal.toNat_lt_of_mem_text hc).trans (by decide)

/-- A numeral is an amount unless it is negative or has too many decimals. -/
theorem validateAmountParam_text {amount : JsString} {decimal : Decimal}
    (htext : amount.chars = decimal.text) :
    validateAmountParam (some (.text amount)) = [] ↔
      decimal.isNegative = false ∧ decimal.places.length ≤ STELLAR_DECIMALS := by
  obtain ⟨rest, hparts, hplaces⟩ := decimal.splitOn_text
  rw [← validateAmount_text htext, validateAmountParam]
  simp only [Option.isNone_some, Bool.false_eq_true, if_false, List.append_eq_nil_iff,
    List.map_eq_nil_iff, htext, hparts, List.tail_cons, hplaces]
  refine and_congr_right fun _ => ?_
  split
  · next hmany => simpa using hmany
  · next hfew => simpa using not_lt.mp hfew

theorem validateAmountParam_bigint (n : ℤ) :
    validateAmountParam (some (.text (ofText (printInt n)))) = [] ↔ 0 ≤ n := by
  have htext : (ofText (printInt n)).chars = (Decimal.ofInt n).text :=
    chars_ofText_decimal (Decimal.ofInt n)
  rw [validateAmountParam_text htext]
  have hplaces : (Decimal.ofInt n).places.length ≤ STELLAR_DECIMALS := Nat.zero_le _
  have hsign : ∀ negative : Bool, decide (signText negative = ['-']) = negative := by decide
  have hnegative : (Decimal.ofInt n).isNegative = decide (n < 0) := hsign _
  rw [hnegative, and_iff_left hplaces, decide_eq_false_iff_not, not_lt]

/-- Parameters pass as strings where they pass as values, and their amount is not negative. -/
theorem validateParams_strings (hvalid : validateParams platform params.values = []) :
    validateParams platform (asTexts (textsOf params.values)) = [] ↔
      AmountNonneg params.values := by
  have hamount : AmountNonneg params.values →
      validateAmountParam (asTexts (textsOf params.values) .amount) =
        validateAmountParam (params.values .amount) := by
    intro hnonneg
    rw [asTexts, textsOf]
    rcases amount_cases params with hnone | ⟨text, htext⟩ | ⟨n, hn⟩
    · rw [hnone]
      rfl
    · rw [htext]
      rfl
    · rw [hn]
      exact (validateAmountParam_bigint n).mpr (hnonneg n hn)
  constructor
  · intro hstrings n hn
    rw [validateParams] at hstrings
    simp only [List.append_eq_nil_iff] at hstrings
    have hnil := hstrings.1.1.1.1.1.1.1.1.1.1.2
    rw [asTexts, textsOf, hn] at hnil
    exact (validateAmountParam_bigint n).mp hnil
  · intro hnonneg
    rw [validateParams_asTexts platform params.values (hamount hnonneg), hvalid]

/-- The URI that is built is parsed as the parameters, and nothing else is thrown. -/
def BuildInverts (platform : Platform) (params : Params) : Prop :=
  match buildPayUri platform params with
  | .ok uri => parsePayUri platform uri = .ok (textsOf params.values)
  | .error (.sep7Error _) => True
  | .error .uriError => False

theorem validateParams_of_buildErrors (herrors : buildErrors platform params = []) :
    validateParams platform params.values = [] :=
  (List.append_eq_nil_iff.mp herrors).2

/-- What is read of a canonical URI. -/
theorem parse_canonicalUri_iff (hwell : AllWellFormed texts) (hdefined : definedFields texts ≠ []) :
    parsePayUri platform (canonicalUri texts) = .ok texts ↔
      AllNonempty texts ∧ validateParams platform (asTexts texts) = [] ∧
        canonicalLength texts ≤ MAX_URI_LENGTH := by
  by_cases hlength : canonicalLength texts ≤ MAX_URI_LENGTH
  · rw [parsePayUri_canonicalUri hwell hdefined hlength, accept_ok_iff, and_iff_left hlength]
    by_cases hnonempty : AllNonempty texts
    · rw [readQuery_canonical hwell hnonempty hdefined]
      simp only [true_and, hnonempty]
      rfl
    · have herrors := readQuery_canonical_empty hwell hnonempty
      exact ⟨fun hread => absurd hread.1 herrors, fun hread => absurd hread.1 hnonempty⟩
  · have hlong : MAX_URI_LENGTH < (canonicalUri texts).length := by
      rw [length_canonicalUri hwell]
      exact not_le.mp hlength
    obtain ⟨errors, herror⟩ := parsePayUri_long platform hlong
    rw [herror]
    exact ⟨(fun hok => by cases hok), fun hread => absurd hread.2.2 hlength⟩

structure Parsable (values : Values) : Prop where
  wellFormed : AllWellFormed (textsOf values)
  nonempty : AllNonempty (textsOf values)
  nonneg : AmountNonneg values
  short : canonicalLength (textsOf values) ≤ MAX_URI_LENGTH

theorem definedFields_textsOf_ne_nil (params : Params)
    (hvalid : validateParams platform params.values = []) :
    definedFields (textsOf params.values) ≠ [] := by
  intro hnil
  have hnone : params.values .destination = none := by
    by_contra hsome
    obtain ⟨value, hvalue⟩ := Option.ne_none_iff_exists'.mp hsome
    have htext : textsOf params.values .destination = some value.toJsString := by
      rw [textsOf, hvalue]
      rfl
    exact List.ne_nil_of_mem (mem_definedFields.mpr ⟨_, htext⟩) hnil
  rw [validateParams, hnone] at hvalid
  simp only [List.append_eq_nil_iff] at hvalid
  exact absurd hvalid.1.1.1.1.1.1.1.1.1.1.1 (List.cons_ne_nil _ _)

theorem buildInverts_iff (platform : Platform) (params : Params) :
    BuildInverts platform params ↔
      (buildErrors platform params = [] → Parsable params.values) := by
  rw [BuildInverts]
  by_cases herrors : buildErrors platform params = []
  · have hvalid := validateParams_of_buildErrors herrors
    have hdefined := definedFields_textsOf_ne_nil params hvalid
    by_cases hwell : AllWellFormed (textsOf params.values)
    · rw [buildPayUri_of_wellFormed herrors hwell]
      simp only [parse_canonicalUri_iff hwell hdefined, validateParams_strings hvalid]
      exact ⟨fun ⟨hnonempty, hnonneg, hshort⟩ _ => ⟨hwell, hnonempty, hnonneg, hshort⟩,
        fun hparsable => ⟨(hparsable herrors).nonempty, (hparsable herrors).nonneg,
          (hparsable herrors).short⟩⟩
    · rw [buildPayUri_of_not_wellFormed herrors hwell]
      exact ⟨False.elim, fun hparsable => hwell (hparsable herrors).wellFormed⟩
  · rw [buildPayUri_of_errors herrors]
    exact ⟨fun _ hnil => absurd hnil herrors, fun _ => trivial⟩

/-- What was parsed, as parameters of the builder. -/
def Params.ofTexts (texts : Texts) : Params where
  keys := (definedFields texts).map Field.property
  values := asTexts texts
  typed := by
    intro field value hvalue
    obtain ⟨text, -, rfl⟩ := Option.map_eq_some_iff.mp hvalue
    exact .inl ⟨text, rfl⟩

theorem buildErrors_ofTexts (platform : Platform) (texts : Texts) :
    buildErrors platform (Params.ofTexts texts) = validateParams platform (asTexts texts) := by
  have hunknown : (Params.ofTexts texts).keys.filter
      (fun key => fields.all fun field => field.property ≠ key) = [] := by
    rw [List.filter_eq_nil_iff]
    intro key hkey hall
    obtain ⟨field, -, rfl⟩ := List.mem_map.mp hkey
    exact of_decide_eq_true (List.all_eq_true.mp hall field (mem_fields field)) rfl
  rw [buildErrors, hunknown]
  rfl

def queryOf (uri : JsString) : JsString :=
  ((uri.drop SEP7_SCHEME.length).dropWhile (· ≠ unitOf '?')).tail

def pairsOf (uri : JsString) : List JsString := (queryOf uri).splitOn (unitOf '&')

def valueOf (pair : JsString) : JsString :=
  (decodeURIComponent (pair.dropWhile (· ≠ unitOf '=')).tail).getD []

/-- How long a pair gets when its value is encoded again. -/
def pairLength (pair : JsString) : ℕ :=
  (pair.takeWhile (· ≠ unitOf '=')).length + 1 + encodedLength (valueOf pair)

/-- The values of a URI can be encoded again, in no more than the length of a URI. -/
structure Rebuildable (uri : JsString) : Prop where
  wellFormed : ∀ pair ∈ pairsOf uri, (valueOf pair).isWellFormed = true
  short : 16 + ((pairsOf uri).map pairLength).sum + ((pairsOf uri).length - 1) ≤ MAX_URI_LENGTH

/-- Every part of a URI is as the builder writes it: the scheme, the order of the parameters,
and the encoding of their values. -/
def Canonical (uri : JsString) : Prop :=
  ∃ parts : List (Field × JsString), (parts.map Prod.fst).Sublist fields ∧
    (∀ part ∈ parts, ∃ value, encodeURIComponent value = some part.2) ∧
    uri = payUri (parts.map queryPart)

/-- What is parsed can be built, is parsed as the same again, and is the same URI where that
was canonical. -/
def ParseInverts (platform : Platform) (uri : JsString) : Prop :=
  ∀ texts, parsePayUri platform uri = .ok texts →
    ∃ built, buildPayUri platform (Params.ofTexts texts) = .ok built ∧
      parsePayUri platform built = .ok texts ∧ (Canonical uri → built = uri)

structure ReadFrom (platform : Platform) (uri : JsString) (texts : Texts) where
  entries : List Entry
  pairs : pairsOf uri = entries.map Entry.part
  nodup : (entries.map Entry.field).Nodup
  read : texts = paramsOf entries
  valid : validateParams platform (asTexts texts) = []

theorem queryOf_append {scheme query : JsString} (hscheme : scheme.map lowerUnit = SEP7_SCHEME) :
    queryOf (scheme ++ (js "pay?" ++ query)) = query := by
  rw [queryOf, ← length_scheme hscheme, List.drop_left' rfl, (split_operation query).2,
    List.tail_cons]

theorem exists_readFrom (hok : parsePayUri platform uri = .ok texts) :
    Nonempty (ReadFrom platform uri texts) := by
  obtain ⟨⟨scheme, query, rfl, hscheme, -, haccept⟩, -, -⟩ := accepted_of_parsePayUri hok
  obtain ⟨herrors, hparams, hvalid⟩ := accept_ok_iff.mp haccept
  obtain ⟨entries, hpairs, hnodup, hread⟩ := exists_entries_of_readQuery herrors
  refine ⟨⟨entries, ?_, hnodup, hparams.symm.trans hread, hvalid⟩⟩
  rw [pairsOf, queryOf_append hscheme, hpairs]

namespace ReadFrom

theorem valueOf_part (entry : Entry) : valueOf entry.part = entry.value := by
  rw [valueOf, Entry.part, (split_queryPart _ _).2, List.tail_cons, entry.decoded]
  rfl

theorem textAt_entry (source : ReadFrom platform uri texts) {entry : Entry}
    (hentry : entry ∈ source.entries) : texts entry.field = some entry.value := by
  rw [source.read, paramsOf_entry source.nodup hentry]

theorem perm (source : ReadFrom platform uri texts) :
    (definedFields texts).Perm (source.entries.map Entry.field) := by
  refine (List.perm_ext_iff_of_nodup (nodup_fields.filter _) source.nodup).mpr fun field => ?_
  refine mem_definedFields.trans ?_
  constructor
  · rintro ⟨text, htext⟩
    rw [source.read] at htext
    obtain ⟨entry, hentry, hfield, -⟩ := exists_entry_of_paramsOf htext
    exact List.mem_map.mpr ⟨entry, hentry, hfield⟩
  · intro hmem
    obtain ⟨entry, hentry, rfl⟩ := List.mem_map.mp hmem
    exact ⟨entry.value, source.textAt_entry hentry⟩

theorem allNonempty (source : ReadFrom platform uri texts) : AllNonempty texts := by
  intro field text htext
  rw [source.read] at htext
  obtain ⟨entry, -, -, rfl⟩ := exists_entry_of_paramsOf htext
  exact decodeURIComponent_ne_nil entry.decoded entry.nonempty

/-- The lengths of the pairs are those of the parameters. -/
theorem canonicalLength_eq (source : ReadFrom platform uri texts) :
    canonicalLength texts =
      16 + ((pairsOf uri).map pairLength).sum + ((pairsOf uri).length - 1) := by
  have hparts : source.entries.map (partLength texts ∘ Entry.field) =
      source.entries.map (pairLength ∘ Entry.part) := by
    refine List.map_congr_left fun entry hentry => ?_
    rw [Function.comp_apply, Function.comp_apply, partLength, pairLength, textAt,
      source.textAt_entry hentry, Entry.part, (split_queryPart _ _).1, ← Entry.part, valueOf_part]
    rfl
  have hsum := (source.perm.map (partLength texts)).sum_eq
  rw [List.map_map, hparts, ← List.map_map] at hsum
  rw [canonicalLength, hsum, source.perm.length_eq, source.pairs, List.length_map, List.length_map]

theorem rebuildable_iff (source : ReadFrom platform uri texts) :
    Rebuildable uri ↔ AllWellFormed texts ∧ canonicalLength texts ≤ MAX_URI_LENGTH := by
  have hlength := source.canonicalLength_eq
  constructor
  · rintro ⟨hwell, hshort⟩
    refine ⟨fun field text htext => ?_, hlength ▸ hshort⟩
    rw [source.read] at htext
    obtain ⟨entry, hentry, -, rfl⟩ := exists_entry_of_paramsOf htext
    rw [← valueOf_part]
    exact hwell entry.part (source.pairs ▸ List.mem_map_of_mem hentry)
  · rintro ⟨hwell, hshort⟩
    refine ⟨fun pair hpair => ?_, hlength ▸ hshort⟩
    rw [source.pairs] at hpair
    obtain ⟨entry, hentry, rfl⟩ := List.mem_map.mp hpair
    rw [valueOf_part]
    exact hwell entry.field entry.value (source.textAt_entry hentry)

/-- The pairs of a canonical URI are its parts. -/
theorem pairsOf_payUri {parts : List (Field × JsString)} (hne : parts ≠ [])
    (hencoded : ∀ part ∈ parts, ∃ value, encodeURIComponent value = some part.2) :
    pairsOf (payUri (parts.map queryPart)) = parts.map queryPart := by
  have hquery : queryOf (payUri (parts.map queryPart)) =
      [unitOf '&'].intercalate (parts.map queryPart) := by
    rw [payUri, List.append_assoc, queryOf_append lowerUnit_scheme]
  rw [pairsOf, hquery]
  refine List.splitOn_intercalate _ (fun pair hpair => ?_) (by simpa using hne)
  obtain ⟨⟨field, raw⟩, hpart, rfl⟩ := List.mem_map.mp hpair
  obtain ⟨value, hvalue⟩ := hencoded (field, raw) hpart
  rw [queryPart, List.mem_append, List.mem_cons, not_or, not_or]
  exact ⟨(notMem_key field).2.1, by decide,
    notMem_of_encodeURIComponent hvalue (by decide) (by decide)⟩

theorem parts_eq (source : ReadFrom platform uri texts) {parts : List (Field × JsString)}
    (hencoded : ∀ part ∈ parts, ∃ value, encodeURIComponent value = some part.2)
    (huri : uri = payUri (parts.map queryPart)) :
    parts = source.entries.map fun entry => (entry.field, entry.raw) := by
  have hpairs := source.pairs
  have hparts : source.entries.map Entry.part =
      (source.entries.map fun entry => (entry.field, entry.raw)).map queryPart := by
    rw [List.map_map]
    rfl
  by_cases hne : parts = []
  · subst hne
    have hempty : pairsOf uri = [[]] := by
      rw [huri]
      decide
    rw [hempty] at hpairs
    obtain ⟨entry, hentry⟩ := List.length_eq_one_iff.mp
      ((List.length_map Entry.part).symm.trans (congrArg List.length hpairs.symm))
    rw [hentry, List.map_singleton] at hpairs
    have hnil : entry.part = [] := (List.cons.inj hpairs).1.symm
    rw [Entry.part, queryPart] at hnil
    exact absurd hnil (List.append_ne_nil_of_left_ne_nil (key_ne_nil entry.field) _)
  · have hjoined := (congrArg pairsOf huri).trans (pairsOf_payUri hne hencoded)
    rw [hpairs, hparts] at hjoined
    exact (List.map_injective_iff.mpr queryPart_injective hjoined).symm

/-- A canonical URI is the one of its parameters. -/
theorem canonicalUri_eq (source : ReadFrom platform uri texts) (hcanonical : Canonical uri) :
    canonicalUri texts = uri := by
  obtain ⟨parts, hsublist, hencoded, huri⟩ := hcanonical
  have hparts := source.parts_eq hencoded huri
  have hfields : parts.map Prod.fst = source.entries.map Entry.field := by
    rw [hparts, List.map_map]
    rfl
  have hdefined : definedFields texts = source.entries.map Entry.field := by
    rw [← hfields]
    refine filter_eq_of_sublist hsublist nodup_fields fun field _ => ?_
    rw [hfields, ← source.perm.mem_iff, mem_definedFields, Option.isSome_iff_exists]
  have hpart : ∀ entry ∈ source.entries,
      queryPart (entry.field, encoded (textAt texts entry.field)) = entry.part := by
    intro entry hentry
    obtain ⟨value, hvalue⟩ := hencoded (entry.field, entry.raw)
      (hparts ▸ List.mem_map_of_mem hentry)
    have hdecoded := decodeURIComponent_of_encodeURIComponent hvalue
    rw [entry.decoded] at hdecoded
    rw [textAt, source.textAt_entry hentry, Option.getD_some, Option.some.inj hdecoded, encoded,
      hvalue]
    rfl
  have hall : canonicalParts texts = parts.map queryPart := by
    rw [canonicalParts, hdefined, List.map_map, hparts, List.map_map]
    exact List.map_congr_left hpart
  rw [canonicalUri, hall]
  exact huri.symm

end ReadFrom

theorem parseInverts_iff (platform : Platform) (uri : JsString) :
    ParseInverts platform uri ↔
      ((∃ texts, parsePayUri platform uri = .ok texts) → Rebuildable uri) := by
  constructor
  · rintro hinverts ⟨texts, hok⟩
    obtain ⟨source⟩ := exists_readFrom hok
    obtain ⟨built, hbuilt, hparsed, -⟩ := hinverts texts hok
    have herrors : buildErrors platform (Params.ofTexts texts) = [] := by
      rw [buildErrors_ofTexts, source.valid]
    have hinverse : BuildInverts platform (Params.ofTexts texts) := by
      rw [BuildInverts, hbuilt]
      exact hparsed.trans (congrArg Except.ok (textsOf_asTexts texts).symm)
    have hparsable := (buildInverts_iff platform _).mp hinverse herrors
    have htexts : textsOf (Params.ofTexts texts).values = texts := textsOf_asTexts texts
    exact source.rebuildable_iff.mpr ⟨htexts ▸ hparsable.wellFormed, htexts ▸ hparsable.short⟩
  · intro hrebuildable texts hok
    obtain ⟨source⟩ := exists_readFrom hok
    obtain ⟨hwell, hshort⟩ := source.rebuildable_iff.mp (hrebuildable ⟨texts, hok⟩)
    have htexts : textsOf (Params.ofTexts texts).values = texts := textsOf_asTexts texts
    have herrors : buildErrors platform (Params.ofTexts texts) = [] := by
      rw [buildErrors_ofTexts, source.valid]
    have hbuilt := buildPayUri_of_wellFormed herrors (htexts.symm ▸ hwell)
    have hdefined := definedFields_textsOf_ne_nil (Params.ofTexts texts) source.valid
    rw [htexts] at hbuilt hdefined
    refine ⟨canonicalUri texts, hbuilt, ?_, source.canonicalUri_eq⟩
    exact (parse_canonicalUri_iff hwell hdefined).mpr ⟨source.allNonempty, source.valid, hshort⟩

/-- The builder and the parser are inverse exactly where nothing is empty, no amount is a
negative `BigInt`, no surrogate is alone and what is encoded is not too long. -/
theorem sep7_inverse (platform : Platform) :
    (∀ params, BuildInverts platform params ↔
      (buildErrors platform params = [] → Parsable params.values)) ∧
    ∀ uri, ParseInverts platform uri ↔
      ((∃ texts, parsePayUri platform uri = .ok texts) → Rebuildable uri) :=
  ⟨buildInverts_iff platform, parseInverts_iff platform⟩

def federationOnly : Platform where
  isValidEd25519PublicKey := fun _ => false
  isValidMed25519PublicKey := fun _ => false
  isValidContract := fun _ => false
  protocolOf := fun _ => none

def emptyMessage : Params where
  keys := [js "destination", js "msg"]
  values := fun field =>
    if field = .destination then some (.text (js "pay*example.com"))
    else if field = .msg then some (.text [])
    else none
  typed := by
    intro field value hvalue
    split_ifs at hvalue
    · exact .inl ⟨_, (Option.some.inj hvalue).symm⟩
    · exact .inl ⟨_, (Option.some.inj hvalue).symm⟩

theorem buildErrors_emptyMessage : buildErrors federationOnly emptyMessage = [] := by
  decide +kernel

/-- A URI is built of an empty message, which the parser refuses. -/
theorem not_sep7_inverse :
    ¬ ∀ platform, (∀ params, BuildInverts platform params) ∧ ∀ uri, ParseInverts platform uri := by
  intro hinverse
  have hparsable := (buildInverts_iff federationOnly emptyMessage).mp
    ((hinverse federationOnly).1 emptyMessage) buildErrors_emptyMessage
  exact hparsable.nonempty .msg [] rfl rfl

end Sep7

end X402Facilitator.Sdk
