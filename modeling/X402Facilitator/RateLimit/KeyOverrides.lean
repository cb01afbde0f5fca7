import X402Facilitator.Library.AllOrNone
import X402Facilitator.Library.Eviction
import X402Facilitator.Library.JsText

/-!
# The limits of the API keys

Every variable whose name begins with `RATE_LIMIT_` is taken for the override of an API key, but
for two names.  What else is resolved from the environment reads such a variable by one name only.
-/

namespace X402Facilitator.KeyOverrides

/-- The variables in the order of `Object.keys`. -/
abbrev Env := InsertionMap Text Text

/-- `toUpperCase`, by what is known of it on ASCII. -/
structure UpperCase where
  apply : Text → Text
  ascii : ∀ text, (∀ c ∈ text, c.toNat < 128) → apply text = text.map Char.toUpper

/-- `RATE_LIMIT_` -/
def namePrefix : Text := "RATE_LIMIT_".toList

def storeName : Text := "RATE_LIMIT_STORE".toList

def globalName : Text := "RATE_LIMIT_GLOBAL".toList

def allowlistName : Text := "RATE_LIMIT_ALLOWLIST".toList

/-- `/^[A-Za-z0-9_]+$/` -/
def isKeyId (id : Text) : Bool :=
  !id.isEmpty && id.all fun c => c.isAlphanum || c = '_'

def minApiKeyLength : ℕ := 32

/-- The id and the rest of an entry of the list, which is `key_` and its index without a colon. -/
def splitKey (index : ℕ) (keyStr : Text) : Text × Text :=
  let id := keyStr.takeWhile (· ≠ ':')
  if ':' ∈ keyStr ∧ id ≠ [] then (id, keyStr.drop (id.length + 1))
  else (("key_" ++ toString index).toList, keyStr)

/-- The secret without its expiry, in epoch seconds, which is checked. -/
def cutExpiry (now : ℕ) (id secretPart : Text) : Except String Text :=
  match Text.splitLast ':' secretPart with
  | some (secret, rawExpiry) =>
      if secret = [] then .ok secretPart
      else if isNumeral 10 rawExpiry then .ok secret
      else .error ("API key \"" ++ String.ofList id ++ "\" has an unparseable expiry \"" ++
        String.ofList rawExpiry ++ "\". Use epoch seconds, e.g. \"" ++ String.ofList id ++
        ":<secret>:" ++ toString (now + 86400) ++ "\".")
  | none => .ok secretPart

def apiKey (now index : ℕ) (keyStr : Text) : Except String Text :=
  let (id, secretPart) := splitKey index keyStr
  if isKeyId id then
    (cutExpiry now id secretPart).bind fun secret =>
      if (Utf16.encode secret).length < minApiKeyLength then
        .error ("API key \"" ++ String.ofList id ++ "\" has a " ++
          toString (Utf16.encode secret).length ++ "-character secret; at least " ++
          toString minApiKeyLength ++ " are required. " ++
          "Generate one with: openssl rand -base64 32")
      else .ok id
  else .error ("API key id \"" ++ String.ofList id ++ "\" contains invalid characters. Key ids " ++
    "must be alphanumeric and underscore only to work with RATE_LIMIT_ overrides.")

def listed (raw : Option Text) : List Text :=
  (((raw.getD []).splitOn ',').map Text.trim).filter fun entry => !entry.isEmpty

def apiKeyIds (now : ℕ) (env : Env) : Except String (List Text) :=
  (listed (env.get "FACILITATOR_API_KEYS".toList)).zipIdx.mapM fun entry =>
    apiKey now entry.2 entry.1

structure Limits where
  verifyRpm : Number := .finite 60
  settleRpm : Number := .finite 10
  settleRph : Number := .finite 100
  settleRpd : Number := .finite 1000
  feeSpd : Number := .finite 5000000
  catalogRpm : Number := .finite 10
  deriving DecidableEq

/-- A pair of an override; what has no number is skipped. -/
def Limits.apply (limits : Limits) (pair : Text) : Limits :=
  match pair.splitOn '=' with
  | [k, v] =>
      let numValue := Number.ofText v
      if v = [] ∨ numValue = .nan then limits
      else if k = "verify_rpm".toList then { limits with verifyRpm := numValue }
      else if k = "settle_rpm".toList then { limits with settleRpm := numValue }
      else if k = "settle_rph".toList then { limits with settleRph := numValue }
      else if k = "settle_rpd".toList then { limits with settleRpd := numValue }
      else if k = "fee_spd".toList then { limits with feeSpd := numValue }
      else if k = "catalog_rpm".toList then { limits with catalogRpm := numValue }
      else limits
  | _ => limits

def parseLimits (str : Option Text) : Limits :=
  match str with
  | none => {}
  | some str => if str = [] then {} else (str.splitOn ',').foldl Limits.apply {}

/-- What is resolved from the other variables.  None of it reads a variable whose name begins with
`RATE_LIMIT_`. -/
structure Others where
  resolve : Env → Except String Unit
  ignores : ∀ (env : Env) (name value : Text), namePrefix <+: name →
    resolve (env.set name value) = resolve env

structure RateLimits where
  global : Limits
  keys : InsertionMap Text Limits
  allowlist : List Text

structure Config where
  keyIds : List Text
  rateLimits : RateLimits
  rateLimitStore : Text

/-- A name that is taken for the one of an override. -/
def isOverride (name : Text) : Bool :=
  namePrefix.isPrefixOf name && name ≠ globalName && name ≠ allowlistName

def keyIdOf (name : Text) : Text := name.drop 11

section Resolve

variable (upper : UpperCase) (others : Others) (now : ℕ)

def applyOverride (configuredKeyIds : List Text) (keys : InsertionMap Text Limits)
    (entry : Text × Text) : Except String (InsertionMap Text Limits) :=
  if isOverride entry.1 then
    if upper.apply (keyIdOf entry.1) ∈ configuredKeyIds then
      .ok (keys.set (upper.apply (keyIdOf entry.1)) (parseLimits (some entry.2)))
    else .error ("RATE_LIMIT_" ++ String.ofList (keyIdOf entry.1) ++
      " is configured but no API key with id \"" ++ String.ofList (keyIdOf entry.1) ++
      "\" exists in FACILITATOR_API_KEYS.")
  else .ok keys

def resolveConfig (env : Env) : Except String Config :=
  (apiKeyIds now env).bind fun keyIds =>
    (env.entries.foldlM (applyOverride upper (keyIds.map upper.apply)) .empty).bind fun keys =>
      (others.resolve env).map fun _ =>
        { keyIds := keyIds
          rateLimits := ⟨parseLimits (env.get globalName), keys, listed (env.get allowlistName)⟩
          rateLimitStore := ((env.get storeName).filter (· ≠ [])).getD "memory".toList }

def getKeyConfig (rateLimits : RateLimits) (keyId : Option Text) : Limits :=
  match keyId with
  | none => rateLimits.global
  | some keyId =>
      if keyId = [] then rateLimits.global
      else (rateLimits.keys.get (upper.apply keyId)).getD rateLimits.global

/-- The settings of the service that share the prefix. -/
inductive IsSetting : Text × Text → Prop where
  | store {kind : Text} (hkind : kind ∈ ["memory".toList, "postgres".toList, "crdt".toList]) :
      IsSetting (storeName, kind)
  | global (limits : Text) : IsSetting (globalName, limits)
  | allowlist (entries : Text) : IsSetting (allowlistName, entries)

/-- `value` is that of a variable `RATE_LIMIT_<id>` of a configured key. -/
def IsVariable (env : Env) (config : Config) (id value : Text) : Prop :=
  id ∈ config.keyIds.map upper.apply ∧
    ∃ name, upper.apply name = id ∧ (namePrefix ++ name, value) ∈ env.entries

/-- Adding a setting changes no override, the overrides are those of the variables, and every key
has its own limits or the global ones. -/
structure Exact (env : Env) (setting : Text × Text) (config : Config) : Prop where
  kept : ∃ changed, resolveConfig upper others now (env.set setting.1 setting.2) = .ok changed ∧
    ∀ id, changed.rateLimits.keys.get id = config.rateLimits.keys.get id
  configured : ∀ id, (∃ value, IsVariable upper env config id value) →
    (config.rateLimits.keys.get id).isSome = true
  held : ∀ id limits, config.rateLimits.keys.get id = some limits →
    ∃ value, IsVariable upper env config id value ∧ limits = parseLimits (some value)
  applied : ∀ id ∈ config.keyIds, getKeyConfig upper config.rateLimits (some (upper.apply id)) =
    (config.rateLimits.keys.get (upper.apply id)).getD config.rateLimits.global

end Resolve

/-! ## The loop over the environment -/

section Loop

variable {upper : UpperCase} {configuredKeyIds : List Text} {keys : InsertionMap Text Limits}
variable {entries : List (Text × Text)}

/-- The variables that are taken for the override of a key, in their order. -/
def variablesOf (upper : UpperCase) (entries : List (Text × Text)) (id : Text) :
    List (Text × Text) :=
  entries.filter fun entry => isOverride entry.1 && upper.apply (keyIdOf entry.1) = id

def Accepted (upper : UpperCase) (configuredKeyIds : List Text) (entries : List (Text × Text)) :
    Prop :=
  ∀ entry ∈ entries, isOverride entry.1 = true →
    upper.apply (keyIdOf entry.1) ∈ configuredKeyIds

variable {entry : Text × Text}

theorem variablesOf_cons_of_pos (hoverride : isOverride entry.1 = true) :
    variablesOf upper (entry :: entries) (upper.apply (keyIdOf entry.1)) =
      entry :: variablesOf upper entries (upper.apply (keyIdOf entry.1)) :=
  List.filter_cons_of_pos (by simp [hoverride])

theorem variablesOf_cons_of_ne {id : Text} (hne : upper.apply (keyIdOf entry.1) ≠ id) :
    variablesOf upper (entry :: entries) id = variablesOf upper entries id :=
  List.filter_cons_of_neg (by simp [hne])

theorem variablesOf_cons_of_neg (hother : isOverride entry.1 = false) (id : Text) :
    variablesOf upper (entry :: entries) id = variablesOf upper entries id :=
  List.filter_cons_of_neg (by simp [hother])

/-- The last variable of a key decides. -/
theorem foldlM_applyOverride (keys : InsertionMap Text Limits)
    (haccepted : Accepted upper configuredKeyIds entries) :
    ∃ resolved, entries.foldlM (applyOverride upper configuredKeyIds) keys = .ok resolved ∧
      ∀ id, resolved.get id = (((variablesOf upper entries id).getLast?).map fun entry =>
        parseLimits (some entry.2)).or (keys.get id) := by
  induction entries generalizing keys with
  | nil => exact ⟨keys, rfl, fun id => rfl⟩
  | cons entry rest ih =>
      have hrest : Accepted upper configuredKeyIds rest := fun other hother =>
        haccepted other (List.mem_cons_of_mem entry hother)
      rw [List.foldlM_cons, applyOverride]
      by_cases hoverride : isOverride entry.1 = true
      · rw [if_pos hoverride, if_pos (haccepted entry List.mem_cons_self hoverride)]
        obtain ⟨resolved, hresolved, hget⟩ := ih
          (keys.set (upper.apply (keyIdOf entry.1)) (parseLimits (some entry.2))) hrest
        refine ⟨resolved, hresolved, fun id => ?_⟩
        rw [hget, InsertionMap.get_set]
        by_cases hid : id = upper.apply (keyIdOf entry.1)
        · rw [if_pos hid, hid, variablesOf_cons_of_pos hoverride, List.getLast?_cons]
          cases (variablesOf upper rest (upper.apply (keyIdOf entry.1))).getLast? with
          | none => rfl
          | some last => rfl
        · rw [if_neg hid, variablesOf_cons_of_ne (Ne.symm hid)]
      · rw [if_neg hoverride]
        obtain ⟨resolved, hresolved, hget⟩ := ih keys hrest
        refine ⟨resolved, hresolved, fun id => ?_⟩
        rw [hget, variablesOf_cons_of_neg (by simpa using hoverride)]

theorem accepted_of_foldlM {resolved : InsertionMap Text Limits}
    (hresolved : entries.foldlM (applyOverride upper configuredKeyIds) keys = .ok resolved) :
    Accepted upper configuredKeyIds entries := by
  induction entries generalizing keys with
  | nil => exact fun entry hentry => absurd hentry List.not_mem_nil
  | cons entry rest ih =>
      rw [List.foldlM_cons, applyOverride] at hresolved
      intro other hother hoverride
      rcases List.mem_cons.mp hother with rfl | hin
      · rw [if_pos hoverride] at hresolved
        by_contra habsent
        rw [if_neg habsent] at hresolved
        cases hresolved
      · by_cases hfirst : isOverride entry.1 = true
        · rw [if_pos hfirst] at hresolved
          by_cases hconfigured : upper.apply (keyIdOf entry.1) ∈ configuredKeyIds
          · rw [if_pos hconfigured] at hresolved
            exact ih hresolved other hin hoverride
          · rw [if_neg hconfigured] at hresolved
            cases hresolved
        · rw [if_neg hfirst] at hresolved
          exact ih hresolved other hin hoverride

end Loop

section Configurations

variable {upper : UpperCase} {others : Others} {now : ℕ} {env : Env} {config : Config}

structure Resolved (upper : UpperCase) (others : Others) (now : ℕ) (env : Env) (config : Config) :
    Prop where
  keyIds : apiKeyIds now env = .ok config.keyIds
  accepted : Accepted upper (config.keyIds.map upper.apply) env.entries
  rest : others.resolve env = .ok ()
  get : ∀ id, config.rateLimits.keys.get id =
    ((variablesOf upper env.entries id).getLast?).map fun entry => parseLimits (some entry.2)

theorem resolved_of_ok (hok : resolveConfig upper others now env = .ok config) :
    Resolved upper others now env config := by
  rw [resolveConfig] at hok
  cases hids : apiKeyIds now env with
  | error message =>
      rw [hids] at hok
      cases hok
  | ok keyIds =>
      rw [hids, Except.bind] at hok
      cases hkeys : env.entries.foldlM (applyOverride upper (keyIds.map upper.apply)) .empty with
      | error message =>
          rw [hkeys] at hok
          cases hok
      | ok keys =>
          rw [hkeys, Except.bind] at hok
          cases hrest : others.resolve env with
          | error message =>
              rw [hrest] at hok
              cases hok
          | ok nothing =>
              rw [hrest] at hok
              obtain rfl := Except.ok.inj hok
              have haccepted := accepted_of_foldlM hkeys
              obtain ⟨resolved, hresolved, hget⟩ := foldlM_applyOverride .empty haccepted
              obtain rfl := Except.ok.inj (hkeys.symm.trans hresolved)
              refine ⟨hids, haccepted, hrest, fun id => ?_⟩
              rw [hget, InsertionMap.get_empty, Option.or_none]

variable {keyIds : List Text} {id name kind value : Text} {c : Char} {setting : Text × Text}

/-- An environment whose overrides are those of configured keys is accepted. -/
theorem exists_ok (hids : apiKeyIds now env = .ok keyIds)
    (haccepted : Accepted upper (keyIds.map upper.apply) env.entries)
    (hrest : others.resolve env = .ok ()) :
    ∃ config, resolveConfig upper others now env = .ok config ∧ config.keyIds = keyIds := by
  obtain ⟨resolved, hresolved, -⟩ := foldlM_applyOverride .empty haccepted
  rw [resolveConfig, hids, Except.bind, hresolved, Except.bind, hrest]
  exact ⟨_, rfl, rfl⟩

theorem isKeyId_of_apiKey {index : ℕ} {keyStr : Text} (hok : apiKey now index keyStr = .ok id) :
    isKeyId id = true := by
  rw [apiKey] at hok
  by_cases hid : isKeyId (splitKey index keyStr).1 = true
  · simp only [hid, if_true] at hok
    cases hcut : cutExpiry now (splitKey index keyStr).1 (splitKey index keyStr).2 with
    | error message =>
        rw [hcut] at hok
        cases hok
    | ok secret =>
        rw [hcut, Except.bind] at hok
        split at hok
        · cases hok
        · exact Except.ok.inj hok ▸ hid
  · simp only [hid] at hok
    cases hok

theorem isKeyId_of_mem (hids : apiKeyIds now env = .ok keyIds) (hid : id ∈ keyIds) :
    isKeyId id = true := by
  obtain ⟨entry, -, hok⟩ := Checks.mem_of_mapM hids id hid
  exact isKeyId_of_apiKey hok

theorem toNat_lt_of_isAlphanum (hc : (c.isAlphanum || c = '_') = true) : c.toNat < 128 := by
  rw [Bool.or_eq_true, decide_eq_true_eq] at hc
  rcases hc with halpha | rfl
  · change (decide (c.val ≥ 'A'.val ∧ c.val ≤ 'Z'.val) || (c.val ≥ 'a'.val && c.val ≤ 'z'.val) ||
      (c.val ≥ '0'.val && c.val ≤ '9'.val)) = true at halpha
    simp only [Bool.or_eq_true, Bool.and_eq_true, decide_eq_true_eq, ge_iff_le,
      UInt32.le_iff_toNat_le] at halpha
    have hupper : 'Z'.val.toNat = 90 := rfl
    have hlower : 'z'.val.toNat = 122 := rfl
    have hdigit : '9'.val.toNat = 57 := rfl
    change c.val.toNat < 128
    omega
  · decide

theorem toUpper_of_ascii : ∀ n < 128, (Char.ofNat n).toUpper.toNat < 128 ∧
    (Char.ofNat n).toUpper.toUpper = (Char.ofNat n).toUpper := by decide

theorem toNat_lt_of_isKeyId (hid : isKeyId id = true) (hc : c ∈ id) : c.toNat < 128 := by
  rw [isKeyId, Bool.and_eq_true, List.all_eq_true] at hid
  exact toNat_lt_of_isAlphanum (hid.2 c hc)

theorem upper_of_isKeyId (upper : UpperCase) (hid : isKeyId id = true) :
    upper.apply id = id.map Char.toUpper :=
  upper.ascii id fun _ hc => toNat_lt_of_isKeyId hid hc

/-- The id of a request is in upper case already. -/
theorem upper_upper (upper : UpperCase) (hid : isKeyId id = true) :
    upper.apply (upper.apply id) = upper.apply id := by
  have hupper : ∀ c ∈ id, c.toUpper.toNat < 128 ∧ c.toUpper.toUpper = c.toUpper := by
    intro c hc
    have hcase := toUpper_of_ascii c.toNat (toNat_lt_of_isKeyId hid hc)
    rwa [Char.ofNat_toNat] at hcase
  rw [upper_of_isKeyId upper hid, upper.ascii]
  · rw [List.map_map]
    exact List.map_congr_left fun c hc => (hupper c hc).2
  · intro c hc
    obtain ⟨d, hd, rfl⟩ := List.mem_map.mp hc
    exact (hupper d hd).1

theorem upper_ne_nil (upper : UpperCase) (hid : isKeyId id = true) : upper.apply id ≠ [] := by
  rw [upper_of_isKeyId upper hid]
  intro hnil
  rw [isKeyId, List.map_eq_nil_iff.mp hnil] at hid
  cases hid

/-! ## Names -/

theorem isOverride_iff : isOverride name = true ↔
    (∃ id, name = namePrefix ++ id) ∧ name ≠ globalName ∧ name ≠ allowlistName := by
  rw [isOverride, Bool.and_eq_true, Bool.and_eq_true, List.isPrefixOf_iff_prefix,
    decide_eq_true_eq, decide_eq_true_eq, and_assoc]
  constructor
  · rintro ⟨⟨id, hid⟩, hothers⟩
    exact ⟨⟨id, hid.symm⟩, hothers⟩
  · rintro ⟨⟨id, hid⟩, hothers⟩
    exact ⟨⟨id, hid.symm⟩, hothers⟩

theorem keyIdOf_append (id : Text) : keyIdOf (namePrefix ++ id) = id :=
  @List.drop_left _ namePrefix id

/-- Ids that are in upper case. -/
theorem upper_of_map (upper : UpperCase) (hid : isKeyId id = true)
    (hsame : id.map Char.toUpper = id) : upper.apply id = id :=
  (upper_of_isKeyId upper hid).trans hsame

theorem mem_variablesOf {entry : Text × Text} : entry ∈ variablesOf upper env.entries id ↔
      entry ∈ env.entries ∧ isOverride entry.1 = true ∧ upper.apply (keyIdOf entry.1) = id := by
  rw [variablesOf, List.mem_filter, Bool.and_eq_true, decide_eq_true_eq]

/-- The entry of a key is that of one of its variables. -/
theorem Resolved.held (hresolved : Resolved upper others now env config) {limits : Limits}
    (hget : config.rateLimits.keys.get id = some limits) :
    ∃ value, IsVariable upper env config id value ∧ limits = parseLimits (some value) := by
  rw [hresolved.get] at hget
  obtain ⟨entry, hlast, heq⟩ := Option.map_eq_some_iff.mp hget
  obtain ⟨hentry, hoverride, hupper⟩ := mem_variablesOf.mp (List.mem_of_getLast? hlast)
  have hconfigured := hresolved.accepted entry hentry hoverride
  obtain ⟨⟨name, hname⟩, -⟩ := isOverride_iff.mp hoverride
  rw [hname, keyIdOf_append] at hupper
  refine ⟨entry.2, ⟨?_, name, hupper, hname ▸ hentry⟩, heq.symm⟩
  rwa [hname, keyIdOf_append, hupper] at hconfigured

theorem isSome_get_iff (hresolved : Resolved upper others now env config) :
    (config.rateLimits.keys.get id).isSome = true ↔ variablesOf upper env.entries id ≠ [] := by
  rw [hresolved.get, Option.isSome_map, List.getLast?_isSome]

theorem Resolved.applied (hresolved : Resolved upper others now env config)
    (hid : id ∈ config.keyIds) : getKeyConfig upper config.rateLimits (some (upper.apply id)) =
      (config.rateLimits.keys.get (upper.apply id)).getD config.rateLimits.global := by
  have hkey := isKeyId_of_mem hresolved.keyIds hid
  rw [getKeyConfig, if_neg (upper_ne_nil upper hkey), upper_upper upper hkey]

/-- The override of the key `STORE`, if it has one, is what a setting of the store would give it,
or comes after such a setting. -/
def StoreIsHarmless (upper : UpperCase) (env : Env) : Prop :=
  ∃ last ∈ (variablesOf upper env.entries "STORE".toList).getLast?,
    parseLimits (some last.2) = {} ∨ storeName ∈ env.keys ∧ last.1 ≠ storeName

def NoKeyIsReserved (upper : UpperCase) (env : Env) (keyIds : List Text) : Prop :=
  ∀ id ∈ ["GLOBAL".toList, "ALLOWLIST".toList], id ∈ keyIds.map upper.apply →
    namePrefix ++ id ∈ env.keys → variablesOf upper env.entries id ≠ []

/-- The variables of a key stay when another one is set. -/
theorem filter_setEntries_of_neg {Item Other : Type*} [DecidableEq Item] (p : Item × Other → Bool)
    {name : Item} {value : Other} {entries : List (Item × Other)}
    (hneg : ∀ value, p (name, value) = false) :
    (InsertionMap.setEntries name value entries).filter p = entries.filter p := by
  induction entries with
  | nil => exact List.filter_cons_of_neg (by simp [hneg])
  | cons entry rest ih =>
      rw [InsertionMap.setEntries]
      split
      · next hname =>
          have hentry : p entry = false := by rw [← hneg entry.2, ← hname]
          rw [List.filter_cons_of_neg (by simp [hneg]), List.filter_cons_of_neg (by simp [hentry])]
      · rw [List.filter_cons, List.filter_cons, ih]

theorem isOverride_store : isOverride storeName = true := by decide

theorem keyIdOf_store : keyIdOf storeName = "STORE".toList := by decide

theorem not_isOverride_of_setting (hsetting : IsSetting setting) (hother : setting.1 ≠ storeName) :
    isOverride setting.1 = false := by
  cases hsetting with
  | store hkind => exact absurd rfl hother
  | global limits =>
      change isOverride globalName = false
      decide
  | allowlist entries =>
      change isOverride allowlistName = false
      decide

/-- Kinds of stores are no limits. -/
theorem parseLimits_kind (hkind : kind ∈ ["memory".toList, "postgres".toList, "crdt".toList]) :
    parseLimits (some kind) = {} := by
  rw [List.mem_cons, List.mem_cons, List.mem_singleton] at hkind
  rcases hkind with rfl | rfl | rfl
  · decide
  · decide
  · decide

theorem namePrefix_of_setting (hsetting : IsSetting setting) : namePrefix <+: setting.1 := by
  cases hsetting with
  | store hkind => exact ⟨"STORE".toList, rfl⟩
  | global limits => exact ⟨"GLOBAL".toList, rfl⟩
  | allowlist entries => exact ⟨"ALLOWLIST".toList, rfl⟩

theorem apiKeyIds_set (now : ℕ) (env : Env) (hname : namePrefix <+: name) (value : Text) :
    apiKeyIds now (env.set name value) = apiKeyIds now env := by
  have hne : "FACILITATOR_API_KEYS".toList ≠ name := by
    rintro rfl
    revert hname
    decide
  rw [apiKeyIds, apiKeyIds, InsertionMap.get_set_of_ne env value hne]

theorem accepted_set (haccepted : Accepted upper keyIds env.entries)
    (hname : isOverride name = true → upper.apply (keyIdOf name) ∈ keyIds) :
    Accepted upper keyIds (env.set name value).entries := by
  intro entry hentry hoverride
  rcases InsertionMap.mem_setEntries hentry with rfl | hold
  · exact hname hoverride
  · exact haccepted entry hold hoverride

theorem mem_set_entries (env : Env) (name value : Text) :
    (name, value) ∈ (env.set name value).entries :=
  InsertionMap.mem_of_lookup (InsertionMap.get_set_self env name value)

/-- What resolving again comes to when a variable of the prefix is set. -/
theorem Resolved.set_iff (hresolved : Resolved upper others now env config)
    (hname : namePrefix <+: name) (value : Text) :
    (∃ changed, resolveConfig upper others now (env.set name value) = .ok changed ∧
      ∀ id, changed.rateLimits.keys.get id = config.rateLimits.keys.get id) ↔
    (isOverride name = true → upper.apply (keyIdOf name) ∈ config.keyIds.map upper.apply) ∧
      ∀ id, ((variablesOf upper (env.set name value).entries id).getLast?.map fun entry =>
        parseLimits (some entry.2)) = config.rateLimits.keys.get id := by
  have hids := apiKeyIds_set now env hname value
  rw [hresolved.keyIds] at hids
  constructor
  · rintro ⟨changed, hok, hkept⟩
    have hchanged := resolved_of_ok hok
    have hsame : changed.keyIds = config.keyIds :=
      Except.ok.inj (hchanged.keyIds.symm.trans hids)
    refine ⟨fun hoverride => ?_, fun id => ?_⟩
    · rw [← hsame]
      exact hchanged.accepted _ (mem_set_entries env name value) hoverride
    · rw [← hchanged.get, hkept]
  · rintro ⟨hconfigured, hkept⟩
    have hrest : others.resolve (env.set name value) = .ok () :=
      (others.ignores env name value hname).trans hresolved.rest
    obtain ⟨changed, hok, -⟩ := exists_ok hids (accepted_set hresolved.accepted hconfigured) hrest
    exact ⟨changed, hok, fun id => ((resolved_of_ok hok).get id).trans (hkept id)⟩

def replaced (name value : Text) (entry : Text × Text) : Text × Text :=
  if entry.1 = name then (name, value) else entry

theorem setEntries_of_mem {entries : List (Text × Text)} (hnodup : (entries.map Prod.fst).Nodup)
    (hmem : name ∈ entries.map Prod.fst) :
    InsertionMap.setEntries name value entries = entries.map (replaced name value) := by
  induction entries with
  | nil => cases hmem
  | cons entry rest ih =>
      rw [List.map_cons, List.nodup_cons] at hnodup
      rw [InsertionMap.setEntries, List.map_cons, replaced]
      by_cases hname : entry.1 = name
      · rw [if_pos hname, if_pos hname]
        congr 1
        refine (List.map_id rest).symm.trans (List.map_congr_left fun other hother => ?_)
        have hne : other.1 ≠ name := by
          rintro rfl
          exact hnodup.1 (hname ▸ List.mem_map_of_mem hother)
        exact (if_neg hne).symm
      · rw [if_neg hname, if_neg hname]
        rw [List.map_cons, List.mem_cons] at hmem
        rw [ih hnodup.2 (hmem.resolve_left (Ne.symm hname))]

theorem variablesOf_set_of_ne (value : Text)
    (hne : ¬ (isOverride name = true ∧ upper.apply (keyIdOf name) = id)) :
    variablesOf upper (env.set name value).entries id = variablesOf upper env.entries id := by
  refine filter_setEntries_of_neg _ fun value => ?_
  rw [← Bool.not_eq_true, Bool.and_eq_true, decide_eq_true_eq]
  exact hne

theorem getLast?_variablesOf_append (upper : UpperCase) (value : Text) (hfresh : name ∉ env.keys)
    (hoverride : isOverride name = true) :
    (variablesOf upper (env.set name value).entries (upper.apply (keyIdOf name))).getLast? =
      some (name, value) := by
  have hentries : (env.set name value).entries = env.entries ++ [(name, value)] :=
    InsertionMap.setEntries_of_notMem value hfresh
  rw [hentries, variablesOf, List.filter_append, List.filter_singleton, hoverride,
    decide_eq_true rfl]
  exact List.getLast?_concat

theorem getLast?_variablesOf_replace (value : Text) (hmem : name ∈ env.keys) (id : Text) :
    (variablesOf upper (env.set name value).entries id).getLast? =
      (variablesOf upper env.entries id).getLast?.map (replaced name value) := by
  have hentries : (env.set name value).entries = env.entries.map (replaced name value) :=
    setEntries_of_mem env.keysNodup hmem
  have hname : ∀ entry, (replaced name value entry).1 = entry.1 := by
    intro entry
    rw [replaced]
    split
    · next heq => exact heq.symm
    · rfl
  rw [hentries, variablesOf, List.filter_map, List.getLast?_map]
  congr 2
  refine List.filter_congr fun entry _ => ?_
  rw [Function.comp_apply, hname]

theorem upper_store (upper : UpperCase) : upper.apply (keyIdOf storeName) = "STORE".toList := by
  rw [keyIdOf_store]
  exact upper_of_map upper rfl (by decide)

/-- A store that is set is a variable of the key `STORE`. -/
theorem exists_variable_store (upper : UpperCase) (hmem : storeName ∈ env.keys) :
    ∃ last, (variablesOf upper env.entries "STORE".toList).getLast? = some last := by
  obtain ⟨entry, hentry, hname⟩ := List.mem_map.mp hmem
  have hvariable : entry ∈ variablesOf upper env.entries "STORE".toList := by
    rw [mem_variablesOf, hname]
    exact ⟨hentry, isOverride_store, upper_store upper⟩
  exact Option.isSome_iff_exists.mp (List.getLast?_isSome.mpr (List.ne_nil_of_mem hvariable))

/-- The limits of the key `STORE` stay as they are exactly when the setting is harmless. -/
theorem limits_store_iff (hkind : kind ∈ ["memory".toList, "postgres".toList, "crdt".toList]) :
    (((variablesOf upper (env.set storeName kind).entries "STORE".toList).getLast?).map
        fun entry => parseLimits (some entry.2)) =
      ((variablesOf upper env.entries "STORE".toList).getLast?).map
        (fun entry => parseLimits (some entry.2)) ↔
    StoreIsHarmless upper env := by
  by_cases hmem : storeName ∈ env.keys
  · obtain ⟨last, hlast⟩ := exists_variable_store upper hmem
    have hharmless : StoreIsHarmless upper env ↔
        parseLimits (some last.2) = {} ∨ last.1 ≠ storeName := by
      rw [StoreIsHarmless, hlast]
      simp only [Option.mem_some_iff, exists_eq_left', and_iff_right hmem]
    rw [getLast?_variablesOf_replace kind hmem, hlast, hharmless, Option.map_some,
      Option.map_some, Option.map_some, Option.some.injEq, replaced]
    by_cases hname : last.1 = storeName
    · rw [if_pos hname, parseLimits_kind hkind, or_iff_left (not_not_intro hname), eq_comm]
    · rw [if_neg hname]
      exact iff_of_true rfl (.inr hname)
  · have hlast := getLast?_variablesOf_append upper kind hmem isOverride_store
    rw [upper_store] at hlast
    rw [hlast, Option.map_some, parseLimits_kind hkind, eq_comm, Option.map_eq_some_iff,
      StoreIsHarmless]
    simp only [Option.mem_def, hmem, false_and, or_false]

/-- Setting the store changes no override exactly when it is harmless. -/
theorem kept_store_iff (hresolved : Resolved upper others now env config)
    (hkind : kind ∈ ["memory".toList, "postgres".toList, "crdt".toList]) :
    (∃ changed, resolveConfig upper others now (env.set storeName kind) = .ok changed ∧
      ∀ id, changed.rateLimits.keys.get id = config.rateLimits.keys.get id) ↔
    StoreIsHarmless upper env := by
  have hname : namePrefix <+: storeName := ⟨"STORE".toList, rfl⟩
  rw [hresolved.set_iff hname kind]
  constructor
  · rintro ⟨-, hkept⟩
    have hself := hkept "STORE".toList
    rw [hresolved.get] at hself
    exact (limits_store_iff hkind).mp hself
  · intro hharmless
    have hlimits := (limits_store_iff hkind).mpr hharmless
    obtain ⟨last, hlast, -⟩ := hharmless
    obtain ⟨hentry, hoverride, hupper⟩ := mem_variablesOf.mp (List.mem_of_getLast? hlast)
    have hconfigured := hresolved.accepted last hentry hoverride
    refine ⟨fun _ => by rwa [upper_store, ← hupper], fun id => ?_⟩
    rw [hresolved.get]
    by_cases hid : id = "STORE".toList
    · rw [hid]
      exact hlimits
    · rw [variablesOf_set_of_ne kind fun hboth => hid (hboth.2.symm.trans (upper_store upper))]

/-- Setting anything else changes none. -/
theorem kept_of_other (hresolved : Resolved upper others now env config)
    (hsetting : IsSetting setting) (hother : setting.1 ≠ storeName) :
    ∃ changed, resolveConfig upper others now (env.set setting.1 setting.2) = .ok changed ∧
      ∀ id, changed.rateLimits.keys.get id = config.rateLimits.keys.get id := by
  have hneg := not_isOverride_of_setting hsetting hother
  rw [hresolved.set_iff (namePrefix_of_setting hsetting)]
  refine ⟨fun hoverride => ?_, fun id => ?_⟩
  · rw [hneg] at hoverride
    cases hoverride
  · rw [hresolved.get, variablesOf_set_of_ne]
    rintro ⟨hoverride, -⟩
    rw [hneg] at hoverride
    cases hoverride

theorem kept_iff (hresolved : Resolved upper others now env config) (hsetting : IsSetting setting) :
    (∃ changed, resolveConfig upper others now (env.set setting.1 setting.2) = .ok changed ∧
      ∀ id, changed.rateLimits.keys.get id = config.rateLimits.keys.get id) ↔
    setting.1 ≠ storeName ∨ StoreIsHarmless upper env := by
  by_cases hother : setting.1 ≠ storeName
  · exact iff_of_true (kept_of_other hresolved hsetting hother) (.inl hother)
  · cases hsetting with
    | store hkind =>
        rw [kept_store_iff hresolved hkind]
        exact ⟨.inr, fun hor => hor.resolve_left hother⟩
    | global limits =>
        have hne : globalName ≠ storeName := by decide
        exact absurd hne hother
    | allowlist entries =>
        have hne : allowlistName ≠ storeName := by decide
        exact absurd hne hother

theorem reserved_of_not_isOverride (hother : ¬ isOverride (namePrefix ++ name) = true) :
    name ∈ ["GLOBAL".toList, "ALLOWLIST".toList] := by
  rw [isOverride_iff, not_and_or, not_and_or, not_not, not_not] at hother
  rcases hother with habsent | hglobal | hallowlist
  · exact absurd ⟨name, rfl⟩ habsent
  · have hname : name = "GLOBAL".toList := List.append_cancel_left hglobal
    rw [hname]
    exact List.mem_cons_self
  · have hname : name = "ALLOWLIST".toList := List.append_cancel_left hallowlist
    rw [hname]
    exact List.mem_cons_of_mem _ List.mem_cons_self

theorem upper_reserved (upper : UpperCase) (hid : id ∈ ["GLOBAL".toList, "ALLOWLIST".toList]) :
    upper.apply id = id := by
  rw [List.mem_cons, List.mem_singleton] at hid
  rcases hid with rfl | rfl
  · exact upper_of_map upper rfl (by decide)
  · exact upper_of_map upper rfl (by decide)

/-- Every variable of a key gives it an entry exactly when no key is reserved. -/
theorem configured_iff (hresolved : Resolved upper others now env config) :
    (∀ id, (∃ value, IsVariable upper env config id value) →
      (config.rateLimits.keys.get id).isSome = true) ↔
    NoKeyIsReserved upper env config.keyIds := by
  constructor
  · intro hconfigured id hid hkey hset
    obtain ⟨entry, hentry, hname⟩ := List.mem_map.mp hset
    rw [← isSome_get_iff hresolved]
    refine hconfigured id ⟨entry.2, hkey, id, upper_reserved upper hid, ?_⟩
    rw [← hname]
    exact hentry
  · rintro hreserved id ⟨value, hkey, name, hupper, hentry⟩
    rw [isSome_get_iff hresolved]
    by_cases hoverride : isOverride (namePrefix ++ name) = true
    · refine List.ne_nil_of_mem (mem_variablesOf.mpr ⟨hentry, hoverride, ?_⟩)
      rw [keyIdOf_append, hupper]
    · have hname := reserved_of_not_isOverride hoverride
      have hid : id = name := hupper.symm.trans (upper_reserved upper hname)
      rw [hid] at hkey ⊢
      exact hreserved name hname hkey (List.mem_map_of_mem hentry)

/-- The overrides are exactly the configured ones, through a setting too, as long as the setting is
not that of the store, or harmless, and no key is reserved. -/
theorem settingExact_iff {setting : Text × Text} (hsetting : IsSetting setting)
    (hok : resolveConfig upper others now env = .ok config) :
    Exact upper others now env setting config ↔
      (setting.1 ≠ storeName ∨ StoreIsHarmless upper env) ∧
        NoKeyIsReserved upper env config.keyIds := by
  have hresolved := resolved_of_ok hok
  rw [← kept_iff hresolved hsetting, ← configured_iff hresolved]
  constructor
  · intro hexact
    exact ⟨hexact.kept, hexact.configured⟩
  · rintro ⟨hkept, hconfigured⟩
    exact ⟨hkept, hconfigured, fun id limits => hresolved.held, fun id => hresolved.applied⟩

def UpperCase.asciiOnly : UpperCase := ⟨List.map Char.toUpper, fun _ _ => rfl⟩

def Others.accepting : Others := ⟨fun _ => .ok (), fun _ _ _ _ => rfl⟩

def secretOnly : Env :=
  ⟨[("FACILITATOR_SECRET".toList,
    "SAO2MAIQCR5T27QDICO3QJTD2YZ4PMEAVLCLQ6AANVGPCZ53TEACPDOQ".toList)], by decide⟩

def secretOnlyConfig : Config := ⟨[], ⟨{}, .empty, []⟩, "memory".toList⟩

theorem resolveConfig_secretOnly :
    resolveConfig .asciiOnly .accepting 0 secretOnly = .ok secretOnlyConfig := rfl

theorem settingExact_iff_secretOnly :
    Exact .asciiOnly .accepting 0 secretOnly (globalName, "verify_rpm=5".toList)
      secretOnlyConfig ↔
    (globalName ≠ storeName ∨ StoreIsHarmless .asciiOnly secretOnly) ∧
      NoKeyIsReserved .asciiOnly secretOnly [] :=
  settingExact_iff (.global "verify_rpm=5".toList) resolveConfig_secretOnly

/-- The default of the store, set by its name, is refused. -/
theorem not_exact_secretOnly :
    resolveConfig .asciiOnly .accepting 0 secretOnly = .ok secretOnlyConfig ∧
      ¬ Exact .asciiOnly .accepting 0 secretOnly (storeName, "memory".toList)
        secretOnlyConfig := by
  refine ⟨resolveConfig_secretOnly, fun hexact => ?_⟩
  have hresolved := resolved_of_ok resolveConfig_secretOnly
  rcases (kept_iff hresolved (.store (by decide))).mp hexact.kept with hother | ⟨last, hlast, -⟩
  · exact hother rfl
  · cases hlast

end Configurations

end X402Facilitator.KeyOverrides
