import X402Facilitator.Catalog.Fusion
import X402Facilitator.Catalog.RouteSearch

/-!
# One key, one question

The key of a search trims and lowers what the search compares as it is, joins names with
commas, and leaves arrays out.  Two searches of one key have one answer exactly where they ask
the same.
-/

namespace X402Facilitator.Catalog

open InsertionMap

def QueryParam.isRepeated : QueryParam → Bool
  | .text _ => false
  | .repeated _ => true

def narrowed (filter : Option QueryParam) : Option String :=
  match filter with
  | some (.text value) => if value = "" then none else some value
  | _ => none

namespace RouteParams

def filters (params : RouteParams) : List (Option QueryParam) :=
  [params.type, params.payTo, params.scheme, params.network]

def impossible (params : RouteParams) : Bool :=
  params.filters.any fun filter => filter.any QueryParam.isRepeated

def names (params : RouteParams) : List String := params.extensions.getD []

end RouteParams

section Statement

variable {Score : Type} [Field Score] [LinearOrder Score] (runtime : RouteRuntime Score)

def RouteRuntime.offset (params : RouteParams) : Option ℕ :=
  offsetOf (runtime.cursorText params.cursor)

/-- Two searches have one answer, whatever the catalog holds and the provider computes. -/
def SameAnswer (p q : RouteParams) : Prop :=
  ∀ (config : Config) (provider : RouteProvider Score) (now : ℕ) (store : Store (List Score)),
    Keyed store → store.searchRoute config runtime provider now p =
      store.searchRoute config runtime provider now q

def KeySound (p q : RouteParams) : Prop :=
  p.searchCacheKey runtime.toLowerCase = q.searchCacheKey runtime.toLowerCase →
    SameAnswer runtime p q

/-- Two searches have one query as it was sent.  Unless a repeated filter keeps everything
out, they ask for the same values and the same names, and for a text from the same offset. -/
structure SameQuestion (p q : RouteParams) : Prop where
  query : p.query = q.query
  impossible : p.impossible = q.impossible
  filters : p.impossible = false → p.filters.map narrowed = q.filters.map narrowed
  names : p.impossible = false → ∀ name, name ∈ p.names ↔ name ∈ q.names
  offset : p.impossible = false → ∀ text, p.query = .text text →
    runtime.offset p = runtime.offset q

end Statement

variable {Score : Type} [Field Score] [LinearOrder Score] {runtime : RouteRuntime Score}
  {p q : RouteParams} {filter filter' : Option QueryParam} {resource : Resource}

theorem keepsParam_of_possible (hpossible : filter.any QueryParam.isRepeated = false)
    (field : Option String) :
    keepsParam filter field = match narrowed filter with
      | none => true
      | some value => decide (field = some value) := by
  match filter with
  | none => rfl
  | some (.repeated values) => cases hpossible
  | some (.text value) =>
      by_cases hempty : value = ""
      · simp [keepsParam, narrowed, hempty]
      · simp [keepsParam, narrowed, hempty]

/-- A filter keeps the value that it asks for. -/
theorem keepsParam_narrowed (hpossible : filter.any QueryParam.isRepeated = false)
    (fallback : Option String) :
    keepsParam filter ((narrowed filter).or fallback) = true := by
  rw [keepsParam_of_possible hpossible]
  cases narrowed filter with
  | none => rfl
  | some value => exact decide_eq_true rfl

/-- Filters that keep the same values ask for the same one. -/
theorem narrowed_eq (hpossible : filter.any QueryParam.isRepeated = false)
    (hpossible' : filter'.any QueryParam.isRepeated = false)
    (hsame : ∀ value, keepsParam filter (some value) = keepsParam filter' (some value)) :
    narrowed filter = narrowed filter' := by
  simp only [keepsParam_of_possible hpossible, keepsParam_of_possible hpossible',
    Option.some.injEq] at hsame
  cases hleft : narrowed filter with
  | none =>
      cases hright : narrowed filter' with
      | none => rfl
      | some value =>
          have hother := hsame (value ++ "x")
          simp [hleft, hright] at hother
  | some value =>
      cases hright : narrowed filter' with
      | none =>
          have hother := hsame (value ++ "x")
          simp [hleft, hright] at hother
      | some value' =>
          have hother := hsame value
          simp only [hleft, hright, decide_eq_decide] at hother
          exact congrArg some (hother.mp trivial)

theorem possible_filters (hpossible : p.impossible = false) :
    ∀ filter ∈ p.filters, filter.any QueryParam.isRepeated = false := by
  rw [RouteParams.impossible, List.any_eq_false] at hpossible
  exact fun filter hfilter => Bool.eq_false_iff.mpr (hpossible filter hfilter)

/-- Nothing passes where a filter is repeated. -/
theorem passes_of_impossible (himpossible : p.impossible = true) (resource : Resource) :
    p.passes resource = false := by
  have hnothing : ∀ {filter : Option QueryParam}, filter.any QueryParam.isRepeated = true →
      ∀ field, keepsParam filter field = false := by
    intro filter hrepeated field
    match filter with
    | none => cases hrepeated
    | some (.text value) => cases hrepeated
    | some (.repeated values) => rfl
  rw [RouteParams.impossible, List.any_eq_true] at himpossible
  obtain ⟨filter, hmem, hrepeated⟩ := himpossible
  rw [RouteParams.passes]
  simp only [RouteParams.filters, List.mem_cons, List.not_mem_nil, or_false] at hmem
  rcases hmem with rfl | rfl | rfl | rfl
  · simp [hnothing hrepeated]
  · simp [hnothing hrepeated]
  · simp [hnothing hrepeated]
  · simp [hnothing hrepeated]

def RouteParams.wanted (params : RouteParams) (url : String) : Resource where
  type := (narrowed params.type).getD "http"
  url := url
  toolName := none
  serviceName := none
  description := none
  tags := none
  iconUrl := none
  scheme := narrowed params.scheme
  network := narrowed params.network
  extensions := some (.obj (params.names.map (·, .null)))
  payTo := (narrowed params.payTo).getD ""
  pactwright := none

theorem names_wanted (params : RouteParams) (url : String) :
    (objectEntries ((params.wanted url).extensions.getD .null)).map Prod.fst = params.names := by
  change (params.names.map fun name => (name, Json.null)).map Prod.fst = params.names
  rw [List.map_map]
  exact List.map_id _

def Resource.extensionNames (resource : Resource) : List String :=
  (objectEntries (resource.extensions.getD .null)).map Prod.fst

theorem passes_iff (params : RouteParams) (resource : Resource) :
    params.passes resource = true ↔
      keepsParam params.type (some resource.type) = true ∧
      keepsParam params.payTo (some resource.payTo) = true ∧
      keepsParam params.scheme resource.scheme = true ∧
      keepsParam params.network resource.network = true ∧
      ∀ name ∈ params.names, name ∈ resource.extensionNames := by
  rw [RouteParams.passes]
  simp only [Bool.and_eq_true, List.all_eq_true, decide_eq_true_eq, and_assoc]
  rfl

structure Wants (params : RouteParams) (url : String) : Prop where
  type : ∀ value, keepsParam params.type (some value) = true →
    params.passes { params.wanted url with type := value } = true
  payTo : ∀ value, keepsParam params.payTo (some value) = true →
    params.passes { params.wanted url with payTo := value } = true
  scheme : ∀ value, keepsParam params.scheme (some value) = true →
    params.passes { params.wanted url with scheme := some value } = true
  network : ∀ value, keepsParam params.network (some value) = true →
    params.passes { params.wanted url with network := some value } = true
  itself : params.passes (params.wanted url) = true

theorem wants_of_possible (hpossible : p.impossible = false) (url : String) : Wants p url := by
  have hfilters := possible_filters hpossible
  have htype : keepsParam p.type (some (p.wanted url).type) = true := by
    have hkept := keepsParam_narrowed (hfilters p.type (by simp [RouteParams.filters]))
      (some "http")
    rwa [Option.or_some] at hkept
  have hpayTo : keepsParam p.payTo (some (p.wanted url).payTo) = true := by
    have hkept := keepsParam_narrowed (hfilters p.payTo (by simp [RouteParams.filters]))
      (some "")
    rwa [Option.or_some] at hkept
  have hscheme : keepsParam p.scheme (p.wanted url).scheme = true := by
    have hkept := keepsParam_narrowed (hfilters p.scheme (by simp [RouteParams.filters])) none
    rwa [Option.or_none] at hkept
  have hnetwork : keepsParam p.network (p.wanted url).network = true := by
    have hkept := keepsParam_narrowed (hfilters p.network (by simp [RouteParams.filters])) none
    rwa [Option.or_none] at hkept
  have hnames : ∀ name ∈ p.names, name ∈ (p.wanted url).extensionNames := by
    intro name hname
    rwa [Resource.extensionNames, names_wanted]
  exact {
    type := fun value hvalue =>
      (passes_iff _ _).mpr ⟨hvalue, hpayTo, hscheme, hnetwork, hnames⟩
    payTo := fun value hvalue => (passes_iff _ _).mpr ⟨htype, hvalue, hscheme, hnetwork, hnames⟩
    scheme := fun value hvalue => (passes_iff _ _).mpr ⟨htype, hpayTo, hvalue, hnetwork, hnames⟩
    network := fun value hvalue => (passes_iff _ _).mpr ⟨htype, hpayTo, hscheme, hvalue, hnames⟩
    itself := (passes_iff _ _).mpr ⟨htype, hpayTo, hscheme, hnetwork, hnames⟩ }

def Allows (p q : RouteParams) : Prop :=
  ∀ resource, p.passes resource = true → q.passes resource = true

theorem possible_of_allows (hallows : Allows p q) (hpossible : p.impossible = false) :
    q.impossible = false := by
  by_contra himpossible
  have hpasses := hallows _ (wants_of_possible hpossible "").itself
  rw [passes_of_impossible (Bool.not_eq_false _ ▸ himpossible)] at hpasses
  cases hpasses

/-- A value that one search asks for, or lets pass, passes the other one. -/
theorem keeps_of_allows (hallows : Allows p q) (hpossible : p.impossible = false)
    (value : String) :
    (keepsParam p.type (some value) = true → keepsParam q.type (some value) = true) ∧
    (keepsParam p.payTo (some value) = true → keepsParam q.payTo (some value) = true) ∧
    (keepsParam p.scheme (some value) = true → keepsParam q.scheme (some value) = true) ∧
    (keepsParam p.network (some value) = true → keepsParam q.network (some value) = true) := by
  have hwants := wants_of_possible hpossible ""
  refine ⟨fun hvalue => ?_, fun hvalue => ?_, fun hvalue => ?_, fun hvalue => ?_⟩
  · exact ((passes_iff q _).mp (hallows _ (hwants.type value hvalue))).1
  · exact ((passes_iff q _).mp (hallows _ (hwants.payTo value hvalue))).2.1
  · exact ((passes_iff q _).mp (hallows _ (hwants.scheme value hvalue))).2.2.1
  · exact ((passes_iff q _).mp (hallows _ (hwants.network value hvalue))).2.2.2.1

/-- Searches that keep the same listings ask for the same values. -/
theorem narrowed_of_allows (hallows : Allows p q) (hback : Allows q p)
    (hpossible : p.impossible = false) (hpossible' : q.impossible = false) :
    p.filters.map narrowed = q.filters.map narrowed := by
  have hkeeps := keeps_of_allows hallows hpossible
  have hkeeps' := keeps_of_allows hback hpossible'
  have hfilters := possible_filters hpossible
  have hfilters' := possible_filters hpossible'
  have htype : narrowed p.type = narrowed q.type := by
    refine narrowed_eq (hfilters _ (by simp [RouteParams.filters]))
      (hfilters' _ (by simp [RouteParams.filters])) fun value => ?_
    exact Bool.eq_iff_iff.mpr ⟨(hkeeps value).1, (hkeeps' value).1⟩
  have hpayTo : narrowed p.payTo = narrowed q.payTo := by
    refine narrowed_eq (hfilters _ (by simp [RouteParams.filters]))
      (hfilters' _ (by simp [RouteParams.filters])) fun value => ?_
    exact Bool.eq_iff_iff.mpr ⟨(hkeeps value).2.1, (hkeeps' value).2.1⟩
  have hscheme : narrowed p.scheme = narrowed q.scheme := by
    refine narrowed_eq (hfilters _ (by simp [RouteParams.filters]))
      (hfilters' _ (by simp [RouteParams.filters])) fun value => ?_
    exact Bool.eq_iff_iff.mpr ⟨(hkeeps value).2.2.1, (hkeeps' value).2.2.1⟩
  have hnetwork : narrowed p.network = narrowed q.network := by
    refine narrowed_eq (hfilters _ (by simp [RouteParams.filters]))
      (hfilters' _ (by simp [RouteParams.filters])) fun value => ?_
    exact Bool.eq_iff_iff.mpr ⟨(hkeeps value).2.2.2, (hkeeps' value).2.2.2⟩
  simp only [RouteParams.filters, List.map_cons, List.map_nil, htype, hpayTo, hscheme, hnetwork]

theorem names_of_allows (hallows : Allows p q) (hpossible : p.impossible = false) {name : String}
    (hname : name ∈ q.names) : name ∈ p.names := by
  have hpasses := hallows _ (wants_of_possible hpossible "").itself
  have hnames := ((passes_iff q _).mp hpasses).2.2.2.2 name hname
  rwa [Resource.extensionNames, names_wanted] at hnames

/-- The same values and names keep the same listings. -/
theorem passes_of_sameQuestion (hsame : SameQuestion runtime p q) :
    p.passes resource = q.passes resource := by
  cases himpossible : p.impossible with
  | true =>
      rw [passes_of_impossible himpossible,
        passes_of_impossible (hsame.impossible.symm.trans himpossible)]
  | false =>
      have hfilters := possible_filters himpossible
      have hfilters' := possible_filters (hsame.impossible.symm.trans himpossible)
      have hasked := hsame.filters himpossible
      simp only [RouteParams.filters, List.map_cons, List.map_nil, List.cons.injEq,
        and_true] at hasked
      obtain ⟨htype, hpayTo, hscheme, hnetwork⟩ := hasked
      have hkeeps : ∀ {filter filter' : Option QueryParam}, filter ∈ p.filters →
          filter' ∈ q.filters → narrowed filter = narrowed filter' →
          ∀ field, keepsParam filter field = keepsParam filter' field := by
        intro filter filter' hmem hmem' hnarrowed field
        rw [keepsParam_of_possible (hfilters filter hmem),
          keepsParam_of_possible (hfilters' filter' hmem'), hnarrowed]
      rw [Bool.eq_iff_iff, passes_iff, passes_iff,
        hkeeps (by simp [RouteParams.filters]) (by simp [RouteParams.filters]) htype,
        hkeeps (by simp [RouteParams.filters]) (by simp [RouteParams.filters]) hpayTo,
        hkeeps (by simp [RouteParams.filters]) (by simp [RouteParams.filters]) hscheme,
        hkeeps (by simp [RouteParams.filters]) (by simp [RouteParams.filters]) hnetwork]
      simp only [hsame.names himpossible]

def Resource.manual (resource : Resource) : Entry :=
  ⟨0, resource, "manual", false, none, 0, 0, none⟩

def catalogOf {Vector : Type} (embedding : Option Vector) (resources : List Resource)
    (hkeys : (resources.map Resource.key).Nodup) : Store Vector where
  resources :=
    { entries := resources.map fun resource => (resource.key, resource.manual)
      keysNodup := by
        rw [List.map_map]
        exact hkeys }
  payToCounts := .empty
  version := 0
  lastModified := 0
  objects := 1
  embeddings := fun _ => ⟨embedding, none⟩

theorem keyed_catalogOf {Vector : Type} (embedding : Option Vector) (resources : List Resource)
    (hkeys : (resources.map Resource.key).Nodup) : Keyed (catalogOf embedding resources hkeys) := by
  intro key entry hentry
  obtain ⟨resource, -, hpair⟩ := List.mem_map.mp (mem_of_lookup hentry)
  cases hpair
  rfl

theorem publicItems_catalogOf {Vector : Type} (embedding : Option Vector)
    (resources : List Resource) (hkeys : (resources.map Resource.key).Nodup) (now : ℕ) :
    (catalogOf embedding resources hkeys).publicItems now =
      resources.map fun resource => ⟨resource.manual, ⟨embedding, none⟩⟩ := by
  have hentries : (catalogOf embedding resources hkeys).resources.entries.map Prod.snd =
      resources.map Resource.manual := by
    change (resources.map fun resource => (resource.key, resource.manual)).map Prod.snd = _
    rw [List.map_map]
    rfl
  have hpublic : ∀ entry ∈ resources.map Resource.manual, (!entry.isExpired now) = true := by
    intro entry hentry
    obtain ⟨resource, -, rfl⟩ := List.mem_map.mp hentry
    rfl
  rw [Store.publicItems, hentries, List.filter_eq_self.mpr hpublic, List.map_map]
  rfl

def searchConfig : Config := ⟨10, 10, 1000, true⟩

def answersOnly (query : QueryParam) : RouteProvider Score where
  embed
    | none => none
    | some text => if .text text = query then some [1] else none
  rerank := none
  embedItems values := if .repeated values = query then some [1] else none

theorem embedParam_answersOnly (query other : QueryParam) :
    (answersOnly query : RouteProvider Score).embedParam other =
      if other = query then some [1] else none := by
  cases other with
  | text value => rfl
  | repeated values => rfl

section Sound

variable {store : Store (List Score)} {query : QueryParam} {params : RouteParams}

/-- The search of a provider that does not rerank. -/
theorem searchText_answersOnly (query : QueryParam) (now : ℕ) (text : String)
    (items : List (Item (List Score))) (queryVector : Option (List Score)) :
    runtime.searchText (answersOnly query) now p text items queryVector =
      let found := runtime.pageFrom (runtime.fusedOrder now (some text) queryVector items)
        (runtime.offset p) p.limit
      some ⟨found.1, queryVector.isNone || items.any fun item => item.embedding.embedding.isNone,
        p.limit, found.2⟩ := rfl

/-- Where nothing passes, the results are partial for a query without an answer. -/
theorem partialResults_of_none
    (hitems : applyRouteFilters (store.publicItems 0) params = []) :
    (store.searchRoute searchConfig runtime (answersOnly query) 0 params).map
      SearchResult.partialResults = some (decide (params.query ≠ query)) := by
  rw [Store.searchRoute, hitems]
  simp only [searchConfig, if_true, embedParam_answersOnly]
  have hvector : (if params.query = query then some [(1 : Score)] else none).isNone =
      decide (params.query ≠ query) := by
    by_cases hquery : params.query = query
    · simp [hquery]
    · simp [hquery]
  cases hkind : params.query with
  | text text =>
      rw [hkind] at hvector
      simp only [searchText_answersOnly, Option.map_some, List.any_nil, Bool.or_false, hvector]
  | repeated values =>
      rw [hkind] at hvector
      simp only [RouteParams.searchItems, if_true, Option.map_some, hvector]

/-- Where a listing without a vector passes, the results are partial, or there are none. -/
theorem partialResults_of_mem {item : Item (List Score)}
    (hitem : item ∈ applyRouteFilters (store.publicItems 0) params)
    (hnone : item.embedding.embedding = none) :
    (store.searchRoute searchConfig runtime (answersOnly query) 0 params).map
      SearchResult.partialResults ≠ some false := by
  rw [Store.searchRoute]
  have hany : (applyRouteFilters (store.publicItems 0) params).any
      (fun item => item.embedding.embedding.isNone) = true := by
    refine List.any_eq_true.mpr ⟨item, hitem, ?_⟩
    rw [hnone]
    rfl
  cases params.query with
  | text text =>
      simp only [searchText_answersOnly, Option.map_some, hany, Bool.or_true]
      exact fun htrue => by cases htrue
  | repeated values =>
      simp only [RouteParams.searchItems, if_neg (List.ne_nil_of_mem hitem), Option.map_none]
      exact fun hfalse => by cases hfalse

theorem SameAnswer.symm (hsame : SameAnswer runtime p q) : SameAnswer runtime q p :=
  fun config provider now store hkeyed => (hsame config provider now store hkeyed).symm

/-- Searches of one answer have one query. -/
theorem query_of_sameAnswer (hsame : SameAnswer runtime p q) : p.query = q.query := by
  have hresults := hsame searchConfig (answersOnly p.query) 0 (catalogOf none [] List.nodup_nil)
    (keyed_catalogOf none [] List.nodup_nil)
  have hpartial := congrArg (Option.map SearchResult.partialResults) hresults
  rw [partialResults_of_none rfl, partialResults_of_none rfl, Option.some.injEq,
    decide_eq_decide] at hpartial
  by_contra hne
  exact hpartial.mpr (Ne.symm hne) rfl

/-- Searches of one answer keep the same listings. -/
theorem allows_of_sameAnswer (hsame : SameAnswer runtime p q) : Allows p q := by
  intro resource hpasses
  by_contra hkept
  have hitems : ∀ params : RouteParams, applyRouteFilters
      ((catalogOf (none : Option (List Score)) [resource] (List.nodup_singleton _)).publicItems 0)
        params =
          if params.passes resource = true then [⟨resource.manual, ⟨none, none⟩⟩] else [] := by
    intro params
    rw [publicItems_catalogOf, applyRouteFilters]
    cases hresource : params.passes resource with
    | true => exact List.filter_cons_of_pos hresource
    | false => exact List.filter_cons_of_neg (by exact Bool.eq_false_iff.mp hresource)
  have hresults := hsame searchConfig (answersOnly q.query) 0
    (catalogOf none [resource] (List.nodup_singleton _))
    (keyed_catalogOf none [resource] (List.nodup_singleton _))
  have hpartial := congrArg (Option.map SearchResult.partialResults) hresults
  have hnothing := hitems q
  rw [if_neg hkept] at hnothing
  have hsomething := hitems p
  rw [if_pos hpasses] at hsomething
  rw [partialResults_of_none hnothing, decide_eq_false fun hne => hne rfl] at hpartial
  have hmem : (⟨resource.manual, ⟨none, none⟩⟩ : Item (List Score)) ∈ applyRouteFilters
      ((catalogOf none [resource] (List.nodup_singleton _)).publicItems 0) p := by
    rw [hsomething]
    exact List.mem_singleton.mpr rfl
  exact partialResults_of_mem hmem rfl hpartial

def urlOf (n : ℕ) : String := String.ofList (List.replicate n 'a')

theorem length_key_wanted (params : RouteParams) (n : ℕ) :
    (params.wanted (urlOf n)).key.toList.length = n + (params.wanted "").key.toList.length := by
  rw [Resource.key, Resource.key]
  by_cases hmcp : (params.wanted "").type = "mcp"
  · rw [if_pos hmcp, if_pos (by exact hmcp)]
    simp [RouteParams.wanted, urlOf]
  · rw [if_neg hmcp, if_neg (by exact hmcp)]
    simp [RouteParams.wanted, urlOf]

theorem nodup_wanted (params : RouteParams) (n : ℕ) :
    (((List.range n).map fun index => params.wanted (urlOf index)).map Resource.key).Nodup := by
  rw [List.map_map]
  refine List.Nodup.map (fun index other hkey => ?_) List.nodup_range
  have hlength := congrArg (fun key : String => key.toList.length) hkey
  simp only [Function.comp_apply, length_key_wanted] at hlength
  exact Nat.add_right_cancel hlength

def matchingCatalog (params : RouteParams) (n : ℕ) : Store (List Score) :=
  catalogOf (some [1]) ((List.range n).map fun index => params.wanted (urlOf index))
    (nodup_wanted params n)

theorem keyed_matchingCatalog (params : RouteParams) (n : ℕ) :
    Keyed (matchingCatalog params n : Store (List Score)) :=
  keyed_catalogOf _ _ _

theorem matching_of_embedding (text : String) (resource : Resource) :
    runtime.matching 0 (some text) (some [1]) ⟨resource.manual, ⟨some [1], none⟩⟩ = true := by
  have : IsStrictOrderedRing Score := runtime.ordered
  rw [matching_iff]
  refine .inr ⟨[1], rfl, [1], rfl, ?_⟩
  have hcosine : runtime.cosineSimilarity [1] [1] = 1 := by
    simp [Runtime.cosineSimilarity, runtime.sqrt_one]
  rw [hcosine]
  norm_num

/-- The page of a search through a catalog that matches. -/
theorem page_matchingCatalog {text : String} (htext : params.query = .text text) (n : ℕ)
    (hpasses : ∀ url, params.passes (p.wanted url) = true) :
    ((matchingCatalog p n).searchRoute searchConfig runtime (answersOnly (.text text)) 0
      params).map (fun result => result.resources.length) =
      some (match runtime.offset params with
        | none => 0
        | some start => min params.limit (n - min start n)) := by
  have hall : ((List.range n).map fun index => p.wanted (urlOf index)).filter params.passes =
      (List.range n).map fun index => p.wanted (urlOf index) := by
    refine List.filter_eq_self.mpr fun resource hresource => ?_
    obtain ⟨index, -, rfl⟩ := List.mem_map.mp hresource
    exact hpasses _
  have hpublic : (matchingCatalog p n : Store (List Score)).publicItems 0 =
      ((List.range n).map fun index => p.wanted (urlOf index)).map fun resource =>
        ⟨resource.manual, ⟨some [1], none⟩⟩ := publicItems_catalogOf _ _ _ 0
  have hitems : applyRouteFilters ((matchingCatalog p n : Store (List Score)).publicItems 0)
      params = (matchingCatalog p n).publicItems 0 := by
    rw [hpublic, applyRouteFilters, List.filter_map]
    exact congrArg (List.map _) hall
  have hmatching : ∀ item ∈ (matchingCatalog p n : Store (List Score)).publicItems 0,
      runtime.matching 0 (some text) (some [1]) item = true := by
    intro item hitem
    rw [hpublic] at hitem
    obtain ⟨resource, -, rfl⟩ := List.mem_map.mp hitem
    exact matching_of_embedding text resource
  have hlength : (runtime.fusedOrder 0 (some text) (some [1])
      ((matchingCatalog p n : Store (List Score)).publicItems 0)).length = n := by
    have hperm := fusedOrder_perm runtime.toRuntime
      (nodup_publicItems (keyed_matchingCatalog p n) 0) 0 (some text) (some [(1 : Score)])
    rw [hperm.length_eq, List.filter_eq_self.mpr hmatching, hpublic, List.length_map,
      List.length_map, List.length_range]
  rw [Store.searchRoute, hitems, htext]
  simp only [searchConfig, if_true, embedParam_answersOnly, searchText_answersOnly,
    Option.map_some]
  rw [RouteRuntime.pageFrom, hlength]
  cases runtime.offset params with
  | none => rfl
  | some start => simp [hlength]

/-- Searches of one answer name one offset, or the other one an earlier one. -/
theorem offset_le_of_sameAnswer (hsame : SameAnswer runtime p q) (hpossible : p.impossible = false)
    {text : String} (htext : p.query = .text text) {start : ℕ}
    (hstart : runtime.offset p = some start) :
    ∃ start', runtime.offset q = some start' ∧ start' ≤ start := by
  have hpasses : ∀ url, p.passes (p.wanted url) = true :=
    fun url => (wants_of_possible hpossible url).itself
  have hpasses' : ∀ url, q.passes (p.wanted url) = true :=
    fun url => allows_of_sameAnswer hsame _ (hpasses url)
  have hresults := hsame searchConfig (answersOnly (.text text)) 0 (matchingCatalog p (start + 1))
    (keyed_matchingCatalog p (start + 1))
  have hpages := congrArg (Option.map fun result => result.resources.length) hresults
  rw [page_matchingCatalog htext _ hpasses,
    page_matchingCatalog ((query_of_sameAnswer hsame).symm.trans htext) _ hpasses', hstart,
    Option.some.injEq] at hpages
  have hlimit := p.clamped.1
  cases hother : runtime.offset q with
  | none =>
      rw [hother] at hpages
      simp only at hpages
      omega
  | some start' =>
      rw [hother] at hpages
      simp only at hpages
      exact ⟨start', rfl, by omega⟩

theorem offset_of_sameAnswer (hsame : SameAnswer runtime p q) (hpossible : p.impossible = false)
    {text : String} (htext : p.query = .text text) : runtime.offset p = runtime.offset q := by
  have hpossible' := possible_of_allows (allows_of_sameAnswer hsame) hpossible
  have htext' := (query_of_sameAnswer hsame).symm.trans htext
  cases hstart : runtime.offset p with
  | some start =>
      obtain ⟨start', hstart', hle⟩ := offset_le_of_sameAnswer hsame hpossible htext hstart
      obtain ⟨found, hfound, hge⟩ :=
        offset_le_of_sameAnswer hsame.symm hpossible' htext' hstart'
      rw [hstart, Option.some.injEq] at hfound
      rw [hstart', Option.some.injEq]
      omega
  | none =>
      cases hstart' : runtime.offset q with
      | none => rfl
      | some start' =>
          obtain ⟨found, hfound, -⟩ :=
            offset_le_of_sameAnswer hsame.symm hpossible' htext' hstart'
          cases hstart.symm.trans hfound

theorem sameQuestion_of_sameAnswer (hsame : SameAnswer runtime p q) : SameQuestion runtime p q := by
  have hallows := allows_of_sameAnswer hsame
  have hback := allows_of_sameAnswer hsame.symm
  refine ⟨query_of_sameAnswer hsame, ?_, fun hpossible => ?_, fun hpossible name => ⟨?_, ?_⟩,
    fun hpossible text htext => offset_of_sameAnswer hsame hpossible htext⟩
  · cases hpossible : p.impossible with
    | false => exact (possible_of_allows hallows hpossible).symm
    | true =>
        by_contra hpossible'
        rw [possible_of_allows hback (Bool.eq_false_iff.mpr (Ne.symm hpossible'))] at hpossible
        cases hpossible
  · exact narrowed_of_allows hallows hback hpossible (possible_of_allows hallows hpossible)
  · exact names_of_allows hback (possible_of_allows hallows hpossible)
  · exact names_of_allows hallows hpossible

theorem limit_of_searchCacheKey {toLowerCase : String → String}
    (hkey : p.searchCacheKey toLowerCase = q.searchCacheKey toLowerCase) : p.limit = q.limit := by
  have hitems := Json.arr.inj (Json.stringify_injective hkey)
  have hsecond : some (Json.ofNat p.limit) = some (Json.ofNat q.limit) :=
    congrArg (fun items => items[1]?) hitems
  have hdigits := congrArg (Nat.ofDigitChars 10 · 0)
    (congrArg NumberText.chars (Json.num.inj (Option.some.inj hsecond)))
  simpa only [Nat.ofDigitChars_ten_toDigits] using hdigits

/-- Nothing has an empty page, whatever its offset. -/
theorem pageFrom_nil (offset : Option ℕ) (limit : ℕ) :
    runtime.pageFrom [] offset limit = ([], none) := by
  cases offset with
  | none => rfl
  | some start => simp [RouteRuntime.pageFrom]

/-- The same question of one limit has the same answer. -/
theorem sameAnswer_of_sameQuestion (hsame : SameQuestion runtime p q)
    (hlimit : p.limit = q.limit) : SameAnswer runtime p q := by
  intro config provider now store hkeyed
  have hitems : ∀ items : List (Item (List Score)),
      applyRouteFilters items p = applyRouteFilters items q := by
    intro items
    exact List.filter_congr fun item _ => passes_of_sameQuestion hsame
  have hnothing : p.impossible = true → ∀ items : List (Item (List Score)),
      applyRouteFilters items q = [] := by
    intro himpossible items
    rw [← hitems]
    refine List.filter_eq_nil_iff.mpr fun item _ => ?_
    rw [passes_of_impossible himpossible]
    exact Bool.false_ne_true
  rw [Store.searchRoute, Store.searchRoute, hsame.query, hitems]
  cases hquery : q.query with
  | repeated values => simp only [RouteParams.searchItems, hlimit]
  | text text =>
      simp only [RouteRuntime.searchText, hlimit]
      cases himpossible : p.impossible with
      | false =>
          have hoffset := hsame.offset himpossible text (hsame.query.trans hquery)
          rw [RouteRuntime.offset, RouteRuntime.offset] at hoffset
          rw [hoffset]
      | true =>
          have hcombined : ∀ lexical dense : List (Item (List Score)),
              runtime.combine [] lexical dense = [] := by
            intro lexical dense
            simp [Runtime.combine]
          simp only [hnothing himpossible, hcombined, pageFrom_nil]

end Sound

/-- Two searches of one key have one answer exactly where they ask the same question. -/
theorem keySound_iff (runtime : RouteRuntime Score) (p q : RouteParams) :
    KeySound runtime p q ↔
      (p.searchCacheKey runtime.toLowerCase = q.searchCacheKey runtime.toLowerCase →
        SameQuestion runtime p q) := by
  constructor
  · exact fun hsound hkey => sameQuestion_of_sameAnswer (hsound hkey)
  · exact fun hsame hkey => sameAnswer_of_sameQuestion (hsame hkey) (limit_of_searchCacheKey hkey)

def plainRouteRuntime : RouteRuntime ℚ where
  toExactRuntime := undecayed id id
  decodeItems := String.join
  sqrt_one := rfl

def networkQuery (network : String) : SearchQuery :=
  ⟨some (.text "api"), none, none, none, some (.text network), none, none, none⟩

/-- A network with a space before it has the key of the network, and another answer. -/
theorem not_keySound : ¬ ∀ (req req' : SearchQuery) (p q : RouteParams),
    searchParams req = some p → searchParams req' = some q → KeySound plainRouteRuntime p q := by
  intro hsound
  have hkey := hsound (networkQuery "stellar:testnet") (networkQuery " stellar:testnet") _ _ rfl rfl
    (by decide +kernel)
  have hfilters := (sameQuestion_of_sameAnswer hkey).filters (by decide +kernel)
  exact absurd hfilters (by decide +kernel)

end X402Facilitator.Catalog
