import X402Facilitator.Library.JsonParse

/-!
# JSON values as data

What a JSON value is apart from its text: the members of an object are a map from names.
Two orders of the members of an object are the same value.
-/

namespace X402Facilitator.Json

mutual

/-- The value that is written; a name counts where it comes first. -/
def value : Json → Value NumberText String
  | null => .null
  | bool b => .bool b
  | num number => .num number
  | str text => .str text
  | arr items => .arr (itemValues items)
  | obj members => .obj (memberValues members)

def itemValues : List Json → List (Value NumberText String)
  | [] => []
  | item :: items => value item :: itemValues items

def memberValues : List (String × Json) → String → Option (Value NumberText String)
  | [] => fun _ => none
  | (name, found) :: members => fun other =>
      if other = name then some (value found) else memberValues members other

end

inductive Reordered : Json → Json → Prop
  | refl (v : Json) : Reordered v v
  | trans {v u w : Json} (first : Reordered v u) (second : Reordered u w) : Reordered v w
  | members {ms ns : List (String × Json)} (perm : ms.Perm ns) : Reordered (obj ms) (obj ns)
  | item {v w : Json} (before after : List Json) (same : Reordered v w) :
      Reordered (arr (before ++ v :: after)) (arr (before ++ w :: after))
  | member {v w : Json} (before after : List (String × Json)) (name : String)
      (same : Reordered v w) :
      Reordered (obj (before ++ (name, v) :: after)) (obj (before ++ (name, w) :: after))

section

variable {items before after : List Json} {members others : List (String × Json)} {name : String}
variable {v w : Json}

theorem itemsWellFormed_iff : ItemsWellFormed items ↔ ∀ item ∈ items, item.WellFormed := by
  induction items with
  | nil => simp [ItemsWellFormed]
  | cons item items ih => simp [ItemsWellFormed, ih]

theorem membersWellFormed_iff :
    MembersWellFormed members ↔ ∀ entry ∈ members, entry.2.WellFormed := by
  induction members with
  | nil => simp [MembersWellFormed]
  | cons entry members ih => simp [MembersWellFormed, ih]

theorem itemValues_eq (items : List Json) : itemValues items = items.map value := by
  induction items with
  | nil => rfl
  | cons item items ih => rw [itemValues, ih, List.map_cons]

theorem memberValues_eq (members : List (String × Json)) (name : String) :
    memberValues members name = (members.lookup name).map value := by
  induction members with
  | nil => rfl
  | cons entry members ih =>
      obtain ⟨other, found⟩ := entry
      by_cases hname : name = other
      · subst hname
        rw [List.lookup_cons_self]
        exact if_pos rfl
      · rw [lookup_cons_of_ne _ _ hname, ← ih]
        exact if_neg hname

/-- The members of an object in another order are the same map. -/
theorem memberValues_of_perm {ms ns : List (String × Json)} (hnodup : (ms.map Prod.fst).Nodup)
    (hperm : ms.Perm ns) : memberValues ms = memberValues ns := by
  funext name
  rw [memberValues_eq, memberValues_eq, lookup_of_perm hnodup hperm]

theorem itemsWellFormed_middle :
    ItemsWellFormed (before ++ v :: after) ↔
      v.WellFormed ∧ ItemsWellFormed (before ++ after) := by
  rw [itemsWellFormed_iff, itemsWellFormed_iff, List.forall_mem_append, List.forall_mem_append,
    List.forall_mem_cons, and_left_comm]

theorem membersWellFormed_middle {before after : List (String × Json)} :
    MembersWellFormed (before ++ (name, v) :: after) ↔
      v.WellFormed ∧ MembersWellFormed (before ++ after) := by
  rw [membersWellFormed_iff, membersWellFormed_iff, List.forall_mem_append,
    List.forall_mem_append, List.forall_mem_cons, and_left_comm]

theorem memberValues_append (before after : List (String × Json)) (name : String) :
    memberValues (before ++ after) name =
      (memberValues before name).or (memberValues after name) := by
  rw [memberValues_eq, memberValues_eq, memberValues_eq, List.lookup_append, Option.map_or]

/-- The members after the first one, one by one. -/
theorem memberChars_eq (members : List (String × Json)) :
    memberChars members =
      (members.flatMap fun entry => ',' :: quote entry.1 ++ ':' :: chars entry.2) ++ ['}'] := by
  induction members with
  | nil => rfl
  | cons entry members ih =>
      rw [memberChars, ih, List.flatMap_cons, List.append_assoc, List.append_assoc,
        List.append_assoc]

/-- A reordered value is the same value. -/
theorem Reordered.value_eq (hreordered : Reordered v w) (hwell : v.WellFormed) :
    v.value = w.value ∧ w.WellFormed := by
  induction hreordered with
  | refl => exact ⟨rfl, hwell⟩
  | trans _ _ first second =>
      obtain ⟨hfirst, hu⟩ := first hwell
      obtain ⟨hsecond, hw⟩ := second hu
      exact ⟨hfirst.trans hsecond, hw⟩
  | members hperm =>
      obtain ⟨hnodup, hall⟩ := hwell
      refine ⟨congrArg Value.obj (memberValues_of_perm hnodup hperm),
        (hperm.map Prod.fst).nodup_iff.mp hnodup, ?_⟩
      rw [membersWellFormed_iff] at hall ⊢
      exact fun entry hentry => hall entry (hperm.mem_iff.mpr hentry)
  | item before after _ ih =>
      obtain ⟨hv, hrest⟩ := itemsWellFormed_middle.mp hwell
      obtain ⟨hvalue, hw⟩ := ih hv
      refine ⟨?_, itemsWellFormed_middle.mpr ⟨hw, hrest⟩⟩
      rw [value, value, itemValues_eq, itemValues_eq, List.map_append, List.map_append,
        List.map_cons, List.map_cons, hvalue]
  | member before after name _ ih =>
      obtain ⟨hnodup, hall⟩ := hwell
      obtain ⟨hv, hrest⟩ := membersWellFormed_middle.mp hall
      obtain ⟨hvalue, hw⟩ := ih hv
      refine ⟨?_, ?_, membersWellFormed_middle.mpr ⟨hw, hrest⟩⟩
      · rw [value, value]
        congr 1
        funext other
        rw [memberValues_append, memberValues_append, memberValues, memberValues, hvalue]
      · simpa only [List.map_append, List.map_cons] using hnodup

end

end X402Facilitator.Json
