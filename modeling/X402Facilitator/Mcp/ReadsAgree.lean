import X402Facilitator.Library.AllOrNone
import X402Facilitator.Mcp.Reads

/-!
# Reads and the catalog

Against the facilitator's own route a read finds no listing, whatever the catalog holds.
-/

namespace X402Facilitator.Mcp

open Catalog (Query Reply Item Store Runtime Printing)
open Checks

section Statement

variable {Vector Score : Type} [Field Score] [LinearOrder Score]

/-- A facilitator with its catalog, beside what else the reader uses. -/
structure Facilitator (Vector Score : Type) [Field Score] [LinearOrder Score] where
  printing : Printing Vector
  runtime : Runtime Score
  store : Store Vector
  now : ℕ
  parseUrl : String → Option Url
  decodeUriComponent : String → Option String
  search : Query → Except Thrown Reply

/-- Requests for listings come to the route of the facilitator. -/
def Facilitator.fetch (facilitator : Facilitator Vector Score) (path : String) (query : Query) :
    Except Thrown Reply :=
  if path = "/discovery/resources" then
    .ok (Catalog.discoveryResources facilitator.printing facilitator.runtime facilitator.store
      facilitator.now query)
  else facilitator.search query

/-- The platform of a reader that is configured with the facilitator. -/
def Facilitator.platform (facilitator : Facilitator Vector Score) : Platform where
  parseUrl := facilitator.parseUrl
  decodeUriComponent := facilitator.decodeUriComponent
  fetch := facilitator.fetch

variable (facilitator : Facilitator Vector Score)

/-- The listing stored under a url and a tool, where it is public. -/
def Facilitator.listing (url : String) (toolName : Option String) : Option (Item Vector) :=
  facilitator.store.getResource facilitator.now url toolName

def Facilitator.accepting (network : String) : List (Item Vector) :=
  (facilitator.store.publicItems facilitator.now).filter fun item =>
    item.entry.resource.network = some network

/-- The address of `catalog/resource` with these parameters. -/
def NamesListing (uri : Json) (url : String) (toolName : Option String) : Prop :=
  ∃ parsed, parseResourceUri facilitator.platform (some uri) = .ok parsed ∧
    parsed.path = "catalog/resource" ∧ parsed.params.lookup "url" = some url ∧
    parsed.params.lookup "toolName" = toolName

/-- The address of `catalog/network/` with a network that is checked. -/
def NamesNetwork (uri : Json) (network : String) : Prop :=
  ∃ parsed encoded decoded, parseResourceUri facilitator.platform (some uri) = .ok parsed ∧
    parsed.path = networkPrefix ++ encoded ∧ encoded ≠ "" ∧
    facilitator.decodeUriComponent encoded = some decoded ∧ assertNetwork decoded = .ok network

def Facilitator.expected (found : Option (Item Vector)) : Json :=
  (found.map (Item.json facilitator.printing)).getD notFound

def Facilitator.expectedTool (found : Option (Item Vector)) : Except Thrown (Option Json) :=
  match found with
  | some item => .ok (some (item.json facilitator.printing))
  | none => .error (plainError "Resource not found in catalog.")

/-- Every read that is not refused agrees with the catalog exactly where the conditions
hold. -/
def ReadsAgree (holdsFor : String → Option String → Prop) (holdsIn : String → Prop) : Prop :=
  (∀ uri url toolName data, NamesListing facilitator uri url toolName →
    readData facilitator.platform (some uri) = .ok data →
      (data = facilitator.expected (facilitator.listing url toolName) ↔
        holdsFor url toolName)) ∧
  (∀ args url toolName, args.property "url" = some (.str url) →
    args.property "toolName" = toolName.map .str →
      (getResource facilitator.platform args =
        facilitator.expectedTool (facilitator.listing url toolName) ↔ holdsFor url toolName)) ∧
  ∀ uri network data, NamesNetwork facilitator uri network →
    readData facilitator.platform (some uri) = .ok data →
      ((∃ items : List (Item Vector), items.Perm (facilitator.accepting network) ∧
        data = networkSummary network (items.map (Item.json facilitator.printing))) ↔
          holdsIn network)

end Statement

variable {Vector Score : Type} [Field Score] [LinearOrder Score]
variable {facilitator : Facilitator Vector Score}

theorem fetch_resources (query : Query) :
    facilitator.platform.fetch "/discovery/resources" query =
      .ok (Catalog.discoveryResources facilitator.printing facilitator.runtime facilitator.store
        facilitator.now query) := by
  change facilitator.fetch "/discovery/resources" query = _
  rw [Facilitator.fetch, if_pos rfl]

variable {data uri : Json} {parsed : ResourceUri} {encoded network : String}

/-- A request for listings is answered with a page, which has no member `resources`. -/
theorem fetched_of_ok {params : List (String × Option Json)}
    (hok : fetchDiscovery facilitator.platform "/discovery/resources" params = .ok data) :
    data.property "resources" = none := by
  rw [fetchDiscovery] at hok
  split at hok
  · cases hok
  · rw [fetch_resources] at hok
    cases hok
    rfl

theorem listedResources_of_none (hnone : data.property "resources" = none) :
    listedResources data = [] := by
  rw [listedResources, hnone]

theorem json_ne_notFound (printing : Printing Vector) (item : Item Vector) :
    item.json printing ≠ notFound := by
  intro hsame
  rw [Item.json, notFound] at hsame
  simp at hsame

/-- What is found is not there. -/
theorem expected_eq_notFound_iff (found : Option (Item Vector)) :
    notFound = facilitator.expected found ↔ found = none := by
  cases found with
  | none => exact iff_of_true rfl rfl
  | some item =>
      refine iff_of_false (fun hsame => ?_) (Option.some_ne_none item)
      exact json_ne_notFound facilitator.printing item hsame.symm

theorem expectedTool_eq_error_iff (found : Option (Item Vector)) :
    .error (plainError "Resource not found in catalog.") = facilitator.expectedTool found ↔
      found = none := by
  cases found with
  | none => exact iff_of_true rfl rfl
  | some item => exact iff_of_false (fun hsame => by cases hsame) (Option.some_ne_none item)

theorem readListing_of_ok (hok : readListing facilitator.platform parsed = .ok data) :
    data = notFound := by
  rw [readListing] at hok
  obtain ⟨target, -, hok⟩ := ok_of_bind hok
  obtain ⟨toolName, -, hok⟩ := ok_of_bind hok
  obtain ⟨page, hpage, hok⟩ := ok_of_bind hok
  rw [listedResources_of_none (fetched_of_ok hpage)] at hok
  cases hok
  rfl

theorem readNetwork_of_ok {decoded : String}
    (hdecoded : facilitator.decodeUriComponent encoded = some decoded)
    (hnetwork : assertNetwork decoded = .ok network)
    (hok : readNetwork facilitator.platform encoded = .ok data) :
    data = networkSummary network [] := by
  have hplatform : facilitator.platform.decodeUriComponent encoded = some decoded := hdecoded
  rw [readNetwork, hplatform] at hok
  obtain ⟨checked, hchecked, hok⟩ := ok_of_bind hok
  obtain rfl : network = checked := Except.ok.inj (hnetwork.symm.trans hchecked)
  obtain ⟨page, hpage, hok⟩ := ok_of_bind hok
  rw [listedResources_of_none (fetched_of_ok hpage)] at hok
  cases hok
  rfl

theorem readData_of_parsed (hparsed : parseResourceUri facilitator.platform (some uri) = .ok parsed)
    (hpath : parsed.path = "catalog/resource")
    (hok : readData facilitator.platform (some uri) = .ok data) :
    readListing facilitator.platform parsed = .ok data := by
  rw [readData] at hok
  obtain ⟨found, hfound, hok⟩ := ok_of_bind hok
  obtain rfl : parsed = found := Except.ok.inj (hparsed.symm.trans hfound)
  rw [hpath, if_neg (by decide), if_neg (by decide), if_pos rfl] at hok
  exact hok

/-- The path of a network is none of the other paths. -/
theorem readData_of_network
    (hparsed : parseResourceUri facilitator.platform (some uri) = .ok parsed)
    (hpath : parsed.path = networkPrefix ++ encoded) (hencoded : encoded ≠ "")
    (hok : readData facilitator.platform (some uri) = .ok data) :
    readNetwork facilitator.platform encoded = .ok data := by
  have hlist : parsed.path.toList = networkPrefix.toList ++ encoded.toList := by
    rw [hpath, String.toList_append]
  have hother : ∀ path : String, networkPrefix.toList.isPrefixOf path.toList = false →
      parsed.path ≠ path := by
    rintro path hnot rfl
    rw [hlist, List.isPrefixOf_iff_prefix.mpr (List.prefix_append _ _)] at hnot
    cases hnot
  rw [readData] at hok
  obtain ⟨found, hfound, hok⟩ := ok_of_bind hok
  obtain rfl : parsed = found := Except.ok.inj (hparsed.symm.trans hfound)
  have hprefix : (networkPrefix.toList.isPrefixOf parsed.path.toList &&
      decide (networkPrefix.length < parsed.path.length)) = true := by
    have hpos : encoded.length ≠ 0 := by simpa using hencoded
    rw [hlist, List.isPrefixOf_iff_prefix.mpr (List.prefix_append _ _), Bool.true_and, hpath,
      String.length_append]
    exact decide_eq_true (by omega)
  rw [if_neg (hother _ (by decide)), if_neg (hother _ (by decide)),
    if_neg (hother _ (by decide)), if_pos hprefix, hlist, List.drop_left',
    String.ofList_toList] at hok
  · exact hok
  · rfl

theorem getResource_eq (args : Json) {url : String} {toolName : Option String}
    (hurl : args.property "url" = some (.str url))
    (htool : args.property "toolName" = toolName.map .str) :
    getResource facilitator.platform args =
      .error (plainError "Resource not found in catalog.") := by
  have hparams : [("url", args.property "url"), ("toolName", args.property "toolName")].mapM
      (fun param => searchParams param.1 param.2) =
        some [[("url", url)], (toolName.map ("toolName", ·)).toList] := by
    rw [hurl, htool]
    cases toolName <;> rfl
  rw [getResource, fetchDiscovery]
  simp only [hparams, fetch_resources]
  rfl

theorem summary_eq_iff (printing : Printing Vector) (accepting : List (Item Vector)) :
    (∃ items : List (Item Vector), items.Perm accepting ∧
      networkSummary network [] = networkSummary network (items.map (Item.json printing))) ↔
        accepting = [] := by
  constructor
  · rintro ⟨items, hperm, hsame⟩
    have hitems : items = [] := by
      rw [networkSummary, networkSummary] at hsame
      simp only [Json.obj.injEq, List.cons.injEq, Prod.mk.injEq, Json.arr.injEq, List.map_nil,
        true_and, and_true] at hsame
      exact List.map_eq_nil_iff.mp (List.map_eq_nil_iff.mp hsame.2.symm)
    rw [hitems] at hperm
    exact hperm.nil_eq.symm
  · rintro rfl
    exact ⟨[], List.Perm.refl _, rfl⟩

/-- A read agrees with the catalog exactly when there is nothing for it to find. -/
theorem readsAgree_nothing (facilitator : Facilitator Vector Score) :
    ReadsAgree facilitator (fun url toolName => facilitator.listing url toolName = none)
      fun network => facilitator.accepting network = [] := by
  refine ⟨?_, ?_, ?_⟩
  · rintro uri url toolName data ⟨parsed, hparsed, hpath, -, -⟩ hok
    rw [readListing_of_ok (readData_of_parsed hparsed hpath hok)]
    exact expected_eq_notFound_iff _
  · intro args url toolName hurl htool
    rw [getResource_eq args hurl htool]
    exact expectedTool_eq_error_iff _
  · rintro uri network data ⟨parsed, encoded, decoded, hparsed, hpath, hencoded, hdecoded,
      hnetwork⟩ hok
    rw [readNetwork_of_ok hdecoded hnetwork (readData_of_network hparsed hpath hencoded hok)]
    exact summary_eq_iff facilitator.printing _

def sellerUrl : String := "https://seller.example/weather"

def sellerEntry : Catalog.Entry where
  object := 0
  resource := ⟨"http", sellerUrl, none, some "Weather", none, none, none, some "exact",
    some "stellar:testnet", none, "GSELLER", none⟩
  source := "settle"
  provisional := false
  expiresAt := none
  firstSeenAt := 0
  lastSeenAt := 0
  schemaVersion := none

def sellerStore : Store Unit :=
  let empty : Store Unit := .empty
  { empty with resources := empty.resources.set (sellerUrl ++ "::") sellerEntry }

def plainRuntime : Runtime ℚ where
  toLowerCase := id
  localeCompare := compare
  encodeBase64 := id
  decodeBase64 := id
  sqrt := id
  exp := fun _ => 1

def sellerFacilitator : Facilitator Unit ℚ where
  printing := ⟨toString, fun _ => .null⟩
  runtime := plainRuntime
  store := sellerStore
  now := 0
  parseUrl := fun _ => none
  decodeUriComponent := some
  search := fun _ => .error (plainError "fetch failed")

theorem sellerListing :
    sellerFacilitator.listing sellerUrl none = some (sellerStore.item sellerEntry) := by
  have hfound : sellerStore.resources.get (Catalog.keyOf sellerUrl none) = some sellerEntry :=
    InsertionMap.get_set_self _ _ _
  change sellerStore.getResource 0 sellerUrl none = _
  rw [Store.getResource, hfound]
  rfl

/-- The one listing of the catalog is not found. -/
theorem not_readsAgree_seller :
    ¬ ReadsAgree sellerFacilitator (fun _ _ => True) fun _ => True := by
  rintro ⟨-, htool, -⟩
  have hsame := (htool (.obj [("url", .str sellerUrl)]) sellerUrl none rfl rfl).mpr trivial
  rw [getResource_eq _ rfl (show _ = none.map Json.str from rfl)] at hsame
  have hnone := (expectedTool_eq_error_iff _).mp hsame
  rw [sellerListing] at hnone
  cases hnone

end X402Facilitator.Mcp
