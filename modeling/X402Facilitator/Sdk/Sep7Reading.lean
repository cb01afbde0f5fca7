import X402Facilitator.Sdk.Sep7

/-!
# Reading a query

The loop over the pairs only adds errors and never forgets one.  Where it adds none, every
pair is a parameter of its own with a value that is there and can be decoded.
-/

namespace X402Facilitator.Sdk

namespace Sep7

open JsString

variable {platform : Platform} {field : Field} {raw value pair : JsString}
variable {reading : Reading} {pairs : List JsString}

theorem find_key (field : Field) :
    (fields.find? fun other => other.key = field.key) = some field := by
  cases field <;> decide

theorem key_ne_nil (field : Field) : field.key ≠ [] := by
  cases field <;> decide

theorem notMem_key (field : Field) : unitOf '=' ∉ field.key ∧ unitOf '&' ∉ field.key ∧
    unitOf '#' ∉ field.key := by
  cases field <;> decide

theorem mem_fields (field : Field) : field ∈ fields := by
  cases field <;> decide

theorem nodup_fields : fields.Nodup := by decide

theorem key_of_find {key : JsString}
    (hfind : (fields.find? fun other => other.key = key) = some field) :
    field.key = key := by
  simpa using List.find?_some hfind

theorem split_queryPart (field : Field) (raw : JsString) :
    (queryPart (field, raw)).takeWhile (· ≠ unitOf '=') = field.key ∧
      (queryPart (field, raw)).dropWhile (· ≠ unitOf '=') = unitOf '=' :: raw := by
  have hkey : ∀ unit ∈ field.key, decide (unit ≠ unitOf '=') = true := by
    intro unit hunit
    rw [decide_eq_true_eq]
    rintro rfl
    exact (notMem_key field).1 hunit
  constructor
  · rw [queryPart, List.takeWhile_append_of_pos hkey, List.takeWhile_cons_of_neg (by simp),
      List.append_nil]
  · rw [queryPart, List.dropWhile_append_of_pos hkey, List.dropWhile_cons_of_neg (by simp)]

theorem queryPart_injective : Function.Injective queryPart := by
  rintro ⟨first, raw⟩ ⟨second, raw'⟩ heq
  have hkeys := congrArg (List.takeWhile (· ≠ unitOf '=')) heq
  have hraws := congrArg (List.dropWhile (· ≠ unitOf '=')) heq
  rw [(split_queryPart first raw).1, (split_queryPart second raw').1] at hkeys
  rw [(split_queryPart first raw).2, (split_queryPart second raw').2] at hraws
  have hfields := find_key first
  rw [hkeys, find_key second] at hfields
  rw [Option.some.inj hfields, (List.cons.inj hraws).2]

structure Entry where
  field : Field
  raw : JsString
  value : JsString
  nonempty : raw ≠ []
  plain : unitOf '+' ∉ raw
  decoded : decodeURIComponent raw = some value

def Entry.part (entry : Entry) : JsString := queryPart (entry.field, entry.raw)

theorem readPair_queryPart (reading : Reading) (field : Field) (raw : JsString) :
    readPair reading (queryPart (field, raw)) = readValue reading field raw := by
  have hmem : unitOf '=' ∈ queryPart (field, raw) := by
    rw [queryPart]
    exact List.mem_append_right _ List.mem_cons_self
  have hgood : ¬ (unitOf '=' ∉ queryPart (field, raw) ∨ field.key = []) := by
    rintro (hnot | hnil)
    · exact hnot hmem
    · exact key_ne_nil field hnil
  obtain ⟨hkey, hrest⟩ := split_queryPart field raw
  rw [readPair]
  simp only [hkey, hrest, if_neg hgood, find_key, List.tail_cons]

theorem params_set_self (reading : Reading) (field : Field) (value : JsString) :
    (reading.set field value).params field = some value := by
  rw [Reading.set]
  exact Function.update_self ..

theorem params_set_of_ne {other : Field} (reading : Reading) (value : JsString)
    (hne : other ≠ field) : (reading.set field value).params other = reading.params other := by
  rw [Reading.set]
  exact Function.update_of_ne hne ..

/-- A value is taken, or an error is added. -/
theorem readValue_cases (reading : Reading) (field : Field) (raw : JsString) :
    (∃ entry : Entry, entry.field = field ∧ entry.raw = raw ∧
      reading.params entry.field = none ∧
        readValue reading field raw = reading.set entry.field entry.value) ∨
      ∃ error, readValue reading field raw = reading.fail error := by
  rw [readValue]
  split_ifs with hsome hempty hplus
  · exact .inr ⟨_, rfl⟩
  · exact .inr ⟨_, rfl⟩
  · exact .inr ⟨_, rfl⟩
  · split
    · next value hdecode =>
        exact .inl ⟨⟨field, raw, value, hempty, hplus, hdecode⟩, rfl, rfl,
          Option.not_isSome_iff_eq_none.mp hsome, rfl⟩
    · exact .inr ⟨_, rfl⟩

theorem readPair_part (entry : Entry) (hfree : reading.params entry.field = none) :
    readPair reading entry.part = reading.set entry.field entry.value := by
  rw [Entry.part, readPair_queryPart, readValue, hfree, Option.isSome_none,
    if_neg Bool.false_ne_true, if_neg entry.nonempty, if_neg entry.plain, entry.decoded]

/-- What a turn does: it reads a parameter, or adds an error. -/
theorem readPair_cases (reading : Reading) (pair : JsString) :
    (∃ entry : Entry, entry.part = pair ∧ reading.params entry.field = none ∧
      readPair reading pair = reading.set entry.field entry.value) ∨
    ∃ error, readPair reading pair = reading.fail error := by
  by_cases hbad : unitOf '=' ∉ pair ∨ pair.takeWhile (· ≠ unitOf '=') = []
  · right
    rw [readPair]
    simp only [if_pos hbad]
    exact ⟨_, rfl⟩
  · cases hfind : fields.find? fun field => field.key = pair.takeWhile (· ≠ unitOf '=') with
    | none =>
        right
        rw [readPair]
        simp only [if_neg hbad, hfind]
        exact ⟨_, rfl⟩
    | some field =>
        have hmem : unitOf '=' ∈ pair := not_not.mp fun hnot => hbad (.inl hnot)
        obtain ⟨before, after, rfl, hbefore⟩ := List.eq_append_cons_of_mem hmem
        have hkey := key_of_find hfind
        have hbefore : ∀ unit ∈ before, decide (unit ≠ unitOf '=') = true := by
          intro unit hunit
          rw [decide_eq_true_eq]
          rintro rfl
          exact hbefore hunit
        rw [List.takeWhile_append_of_pos hbefore, List.takeWhile_cons_of_neg (by simp),
          List.append_nil] at hkey
        subst hkey
        have hread := readPair_queryPart reading field after
        rw [queryPart] at hread
        rw [hread]
        rcases readValue_cases reading field after with ⟨entry, rfl, rfl, hentry⟩ | hfail
        · exact .inl ⟨entry, rfl, hentry⟩
        · exact .inr hfail

theorem foldl_readPair (entries : List Entry) : ∀ reading : Reading,
    (entries.map Entry.field).Nodup → (∀ entry ∈ entries, reading.params entry.field = none) →
      (entries.map Entry.part).foldl readPair reading =
        entries.foldl (fun reading entry => reading.set entry.field entry.value) reading := by
  induction entries with
  | nil => intro reading _ _; rfl
  | cons entry entries ih =>
      intro reading hnodup hfree
      obtain ⟨hnot, hnodup⟩ := List.nodup_cons.mp hnodup
      rw [List.map_cons, List.foldl_cons, List.foldl_cons,
        readPair_part entry (hfree entry List.mem_cons_self)]
      refine ih _ hnodup fun other hother => ?_
      have hne : other.field ≠ entry.field := fun heq => hnot (heq ▸ List.mem_map_of_mem hother)
      rw [params_set_of_ne reading entry.value hne]
      exact hfree other (List.mem_cons_of_mem entry hother)

/-- The loop never forgets an error. -/
theorem errors_foldl_readPair (pairs : List JsString) : ∀ reading : Reading,
    reading.errors <+: (pairs.foldl readPair reading).errors := by
  induction pairs with
  | nil => exact fun reading => List.prefix_refl _
  | cons pair pairs ih =>
      intro reading
      refine List.IsPrefix.trans ?_ (ih (readPair reading pair))
      rcases readPair_cases reading pair with ⟨entry, -, -, hset⟩ | ⟨error, hfail⟩
      · rw [hset]
        exact List.prefix_refl _
      · rw [hfail]
        exact List.prefix_append _ _

/-- Where the loop adds no error, the pairs are parameters that differ. -/
theorem entries_of_foldl (pairs : List JsString) : ∀ reading : Reading,
    (pairs.foldl readPair reading).errors = reading.errors →
      ∃ entries : List Entry, pairs = entries.map Entry.part ∧
        (entries.map Entry.field).Nodup ∧ ∀ entry ∈ entries, reading.params entry.field = none := by
  induction pairs with
  | nil => exact fun reading _ => ⟨[], rfl, List.nodup_nil, by simp⟩
  | cons pair pairs ih =>
      intro reading herrors
      rw [List.foldl_cons] at herrors
      rcases readPair_cases reading pair with ⟨entry, hpair, hfree, hset⟩ | ⟨error, hfail⟩
      · rw [hset] at herrors
        obtain ⟨entries, hpairs, hnodup, hothers⟩ := ih _ herrors
        have hne : ∀ other ∈ entries, other.field ≠ entry.field := by
          intro other hother heq
          have hnone := hothers other hother
          rw [heq, params_set_self] at hnone
          cases hnone
        refine ⟨entry :: entries, by rw [List.map_cons, hpair, hpairs], ?_, ?_⟩
        · refine List.nodup_cons.mpr ⟨fun hmem => ?_, hnodup⟩
          obtain ⟨other, hother, heq⟩ := List.mem_map.mp hmem
          exact hne other hother heq
        · intro other hother
          rcases List.mem_cons.mp hother with rfl | hother
          · exact hfree
          · have hnone := hothers other hother
            rwa [params_set_of_ne _ _ (hne other hother)] at hnone
      · have hmore := (errors_foldl_readPair pairs (readPair reading pair)).length_le
        rw [herrors, hfail, Reading.fail, List.length_append, List.length_singleton] at hmore
        omega

def paramsOf (entries : List Entry) (field : Field) : Option JsString :=
  (entries.find? fun entry => entry.field = field).map Entry.value

theorem foldl_set (entries : List Entry) : ∀ reading : Reading,
    (entries.map Entry.field).Nodup →
      entries.foldl (fun reading entry => reading.set entry.field entry.value) reading =
        ⟨reading.errors, fun field => (paramsOf entries field).or (reading.params field)⟩ := by
  induction entries with
  | nil => intro reading _; rfl
  | cons entry entries ih =>
      intro reading hnodup
      obtain ⟨hnot, hnodup⟩ := List.nodup_cons.mp hnodup
      rw [List.foldl_cons, ih _ hnodup]
      refine congrArg (Reading.mk reading.errors) (funext fun field => ?_)
      rw [paramsOf, paramsOf]
      by_cases heq : entry.field = field
      · subst heq
        have hnone : (entries.find? fun other => other.field = entry.field) = none := by
          rw [List.find?_eq_none]
          intro other hother hsame
          exact hnot (of_decide_eq_true hsame ▸ List.mem_map_of_mem hother)
        rw [hnone, List.find?_cons_of_pos (by simp), params_set_self]
        rfl
      · rw [List.find?_cons_of_neg (by simpa using heq),
          params_set_of_ne reading entry.value (fun h => heq h.symm)]

/-- The reading of parameters that differ. -/
theorem foldl_parts {entries : List Entry} (hnodup : (entries.map Entry.field).Nodup) :
    (entries.map Entry.part).foldl readPair ⟨[], fun _ => none⟩ = ⟨[], paramsOf entries⟩ := by
  rw [foldl_readPair entries _ hnodup fun _ _ => rfl, foldl_set entries _ hnodup]
  congr 1
  funext field
  exact Option.or_none

end Sep7

end X402Facilitator.Sdk
