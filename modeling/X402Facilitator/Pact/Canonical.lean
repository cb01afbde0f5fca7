import X402Facilitator.Pact.Verify

/-!
# The canonical form of a condition

`canonicalize` prints a value with the members of its objects in the order of their names.
The text is the same for equal values and tells the value, so that the hash of a condition
stands for the condition.
-/

namespace X402Facilitator.Pact

section Order

variable {A : Type} (a b c : JsString × A)

theorem inNameOrder_trans (hfirst : inNameOrder a b = true) (hsecond : inNameOrder b c = true) :
    inNameOrder a c = true := by
  simp only [inNameOrder, decide_eq_true_eq] at hfirst hsecond ⊢
  exact List.le_trans hfirst hsecond

theorem inNameOrder_total : (inNameOrder a b || inNameOrder b a) = true := by
  simpa only [inNameOrder, Bool.or_eq_true, decide_eq_true_eq] using List.le_total a.1 b.1

theorem inNameOrder_antisymm (hfirst : inNameOrder a b = true) (hsecond : inNameOrder b a = true) :
    a.1 = b.1 :=
  List.le_antisymm (of_decide_eq_true hfirst) (of_decide_eq_true hsecond)

end Order

/-- Members of distinct names have one order. -/
theorem mergeSort_eq_of_perm {A : Type} {ms ns : List (JsString × A)}
    (hnodup : (ms.map Prod.fst).Nodup) (hperm : ms.Perm ns) :
    ms.mergeSort inNameOrder = ns.mergeSort inNameOrder := by
  have hsorted : (ms.mergeSort inNameOrder).Perm (ns.mergeSort inNameOrder) :=
    (List.mergeSort_perm ms _).trans (hperm.trans (List.mergeSort_perm ns _).symm)
  refine hsorted.eq_of_pairwise ?_ (List.pairwise_mergeSort inNameOrder_trans inNameOrder_total ms)
    (List.pairwise_mergeSort inNameOrder_trans inNameOrder_total ns)
  intro a b ha hb hab hba
  have hname : a.1 = b.1 := inNameOrder_antisymm a b hab hba
  have hmem : b ∈ ms := hperm.mem_iff.mpr (List.mem_mergeSort.mp hb)
  exact List.inj_on_of_nodup_map hnodup (List.mem_mergeSort.mp ha) hmem hname

mutual

def ordered : JsValue Number → JsValue Number
  | .null => .null
  | .bool b => .bool b
  | .num number => .num number
  | .str text => .str text
  | .arr items => .arr (orderedItems items)
  | .obj members => .obj ((orderedMembers members).mergeSort inNameOrder)

def orderedItems : List (JsValue Number) → List (JsValue Number)
  | [] => []
  | item :: items => ordered item :: orderedItems items

def orderedMembers : List (JsString × JsValue Number) → List (JsString × JsValue Number)
  | [] => []
  | (name, value) :: members => (name, ordered value) :: orderedMembers members

end

theorem orderedMembers_eq (members : List (JsString × JsValue Number)) :
    orderedMembers members = members.map (Prod.map id ordered) := by
  induction members with
  | nil => rfl
  | cons entry members ih =>
      obtain ⟨name, value⟩ := entry
      rw [orderedMembers, ih]
      rfl

theorem fst_orderedMembers (members : List (JsString × JsValue Number)) :
    (orderedMembers members).map Prod.fst = members.map Prod.fst := by
  rw [orderedMembers_eq, List.map_map]
  rfl

def memberText (member : JsString × JsValue Number) : List Char :=
  JsValue.quote member.1 ++ ':' :: member.2.chars Number.doubles

theorem intercalate_cons (first last : List Char) (texts : List (List Char)) :
    List.intercalate [','] (first :: texts) ++ last =
      first ++ (texts.flatMap (',' :: ·) ++ last) := by
  induction texts generalizing first with
  | nil => simp
  | cons next texts ih =>
      rw [List.intercalate_cons_cons, List.append_assoc, ih]
      simp

theorem itemChars_eq (items : List (JsValue Number)) :
    JsValue.itemChars Number.doubles items =
      (items.map (JsValue.chars Number.doubles)).flatMap (',' :: ·) ++ [']'] := by
  induction items with
  | nil => rfl
  | cons item items ih =>
      rw [JsValue.itemChars, ih]
      simp

theorem memberChars_eq (members : List (JsString × JsValue Number)) :
    JsValue.memberChars Number.doubles members =
      (members.map memberText).flatMap (',' :: ·) ++ ['}'] := by
  induction members with
  | nil => rfl
  | cons entry members ih =>
      obtain ⟨name, value⟩ := entry
      rw [JsValue.memberChars, ih]
      simp [memberText]

theorem chars_arr (items : List (JsValue Number)) :
    '[' :: List.intercalate [','] (items.map (JsValue.chars Number.doubles)) ++ [']'] =
      (JsValue.arr items).chars Number.doubles := by
  cases items with
  | nil => rfl
  | cons item items =>
      rw [List.map_cons, List.cons_append, intercalate_cons, ← itemChars_eq]
      rfl

theorem chars_obj (members : List (JsString × JsValue Number)) :
    '{' :: List.intercalate [','] (members.map memberText) ++ ['}'] =
      (JsValue.obj members).chars Number.doubles := by
  cases members with
  | nil => rfl
  | cons entry members =>
      obtain ⟨name, value⟩ := entry
      rw [List.map_cons, List.cons_append, intercalate_cons, ← memberChars_eq]
      simp [memberText, JsValue.chars]

mutual

/-- `canonicalize` prints the ordered value. -/
theorem canonicalChars_eq : ∀ v : JsValue Number, v.WellFormed Number.doubles →
    canonicalChars v = some ((ordered v).chars Number.doubles)
  | .null, _ | .bool _, _ | .str _, _ => rfl
  | .num _, hwell => by
      cases hwell
      rfl
  | .arr items, hwell => by
      rw [canonicalChars, canonicalItems_eq items hwell, ordered, Option.map_some, chars_arr]
  | .obj members, hwell => by
      have hsorted := List.map_mergeSort (r := inNameOrder) (s := inNameOrder)
        (f := Prod.map id (JsValue.chars Number.doubles)) (l := orderedMembers members)
        fun _ _ _ _ => rfl
      rw [ordered, ← chars_obj, canonicalChars, canonicalMembers_eq members hwell.2,
        Option.map_some, ← hsorted, List.map_map]
      rfl

theorem canonicalItems_eq : ∀ items : List (JsValue Number),
    JsValue.ItemsWellFormed Number.doubles items →
      canonicalItems items = some ((orderedItems items).map (JsValue.chars Number.doubles))
  | [], _ => rfl
  | item :: items, hwell => by
      rw [canonicalItems, canonicalChars_eq item hwell.1, canonicalItems_eq items hwell.2]
      rfl

theorem canonicalMembers_eq : ∀ members : List (JsString × JsValue Number),
    JsValue.MembersWellFormed Number.doubles members →
      canonicalMembers members =
        some ((orderedMembers members).map (Prod.map id (JsValue.chars Number.doubles)))
  | [], _ => rfl
  | (name, value) :: members, hwell => by
      rw [canonicalMembers, canonicalChars_eq value hwell.1, canonicalMembers_eq members hwell.2]
      rfl

end

section Value

variable {v w : JsValue Number} {name : JsString}
variable {members ms ns : List (JsString × JsValue Number)}

theorem mem_orderedMembers {u : JsValue Number} :
    (name, u) ∈ orderedMembers members ↔ ∃ v, (name, v) ∈ members ∧ ordered v = u := by
  rw [orderedMembers_eq, List.mem_map]
  constructor
  · rintro ⟨⟨other, v⟩, hmem, heq⟩
    obtain ⟨rfl, rfl⟩ := Prod.mk.injEq .. ▸ heq
    exact ⟨v, hmem, rfl⟩
  · rintro ⟨v, hmem, rfl⟩
    exact ⟨(name, v), hmem, rfl⟩

theorem memberValues_sorted (hnodup : (members.map Prod.fst).Nodup) :
    JsValue.memberValues ((orderedMembers members).mergeSort inNameOrder) =
      JsValue.memberValues (orderedMembers members) := by
  refine (JsValue.memberValues_of_perm ?_ (List.mergeSort_perm _ _).symm).symm
  rwa [fst_orderedMembers]

mutual

theorem value_ordered : ∀ v : JsValue Number, v.WellFormed Number.doubles →
    (ordered v).value = v.value
  | .null, _ => rfl
  | .bool _, _ => rfl
  | .num _, _ => rfl
  | .str _, _ => rfl
  | .arr items, hwell => congrArg Value.arr (itemValues_ordered items hwell)
  | .obj members, hwell => by
      rw [ordered, JsValue.value, memberValues_sorted hwell.1, memberValues_ordered members hwell.2]
      rfl

theorem itemValues_ordered : ∀ items : List (JsValue Number),
    JsValue.ItemsWellFormed Number.doubles items →
      JsValue.itemValues (orderedItems items) = JsValue.itemValues items
  | [], _ => rfl
  | item :: items, hwell => by
      rw [orderedItems, JsValue.itemValues, value_ordered item hwell.1,
        itemValues_ordered items hwell.2]
      rfl

theorem memberValues_ordered : ∀ members : List (JsString × JsValue Number),
    JsValue.MembersWellFormed Number.doubles members →
      JsValue.memberValues (orderedMembers members) = JsValue.memberValues members
  | [], _ => rfl
  | (name, v) :: members, hwell => by
      rw [orderedMembers, JsValue.memberValues, value_ordered v hwell.1,
        memberValues_ordered members hwell.2]
      rfl

end

/-- A member of an object is one of any object that is the same map. -/
theorem member_of_value_eq (hms : (ms.map Prod.fst).Nodup) (hns : (ns.map Prod.fst).Nodup)
    (hvalues : JsValue.memberValues ms = JsValue.memberValues ns) (hmem : (name, v) ∈ ms) :
    ∃ w, (name, w) ∈ ns ∧ v.value = w.value := by
  have hvalue := congrFun hvalues name
  rw [JsValue.memberValues_eq, JsValue.memberValues_eq, (Json.mem_iff_lookup hms).mp hmem,
    Option.map_some] at hvalue
  obtain ⟨w, hlookup, hw⟩ := Option.map_eq_some_iff.mp hvalue.symm
  exact ⟨w, (Json.mem_iff_lookup hns).mpr hlookup, hw.symm⟩

/-- Objects that are the same map have the same ordered members, if their members do. -/
theorem orderedMembers_perm (hms : (ms.map Prod.fst).Nodup) (hns : (ns.map Prod.fst).Nodup)
    (hvalues : JsValue.memberValues ms = JsValue.memberValues ns)
    (hordered : ∀ entry ∈ ms, ∀ other ∈ ns, entry.2.value = other.2.value →
      ordered entry.2 = ordered other.2) :
    (orderedMembers ms).Perm (orderedMembers ns) := by
  have hnodup : ∀ members : List (JsString × JsValue Number), (members.map Prod.fst).Nodup →
      (orderedMembers members).Nodup := by
    intro members hmembers
    rw [← fst_orderedMembers] at hmembers
    exact List.Nodup.of_map _ hmembers
  rw [List.perm_ext_iff_of_nodup (hnodup ms hms) (hnodup ns hns)]
  rintro ⟨name, u⟩
  rw [mem_orderedMembers, mem_orderedMembers]
  constructor
  · rintro ⟨v, hv, rfl⟩
    obtain ⟨w, hw, hvalue⟩ := member_of_value_eq hms hns hvalues hv
    exact ⟨w, hw, (hordered _ hv _ hw hvalue).symm⟩
  · rintro ⟨w, hw, rfl⟩
    obtain ⟨v, hv, hvalue⟩ := member_of_value_eq hns hms hvalues.symm hw
    exact ⟨v, hv, hordered _ hv _ hw hvalue.symm⟩

mutual

/-- Equal values are ordered alike. -/
theorem ordered_of_value_eq : ∀ v w : JsValue Number, v.WellFormed Number.doubles →
    w.WellFormed Number.doubles → v.value = w.value →
    ordered v = ordered w
  | .null, w, _, _, hvalue => by
      cases w with
      | null => rfl
      | _ => cases hvalue
  | .bool b, w, _, _, hvalue => by
      cases w with
      | bool => cases hvalue; rfl
      | _ => cases hvalue
  | .num number, w, _, _, hvalue => by
      cases w with
      | num => cases hvalue; rfl
      | _ => cases hvalue
  | .str text, w, _, _, hvalue => by
      cases w with
      | str => cases hvalue; rfl
      | _ => cases hvalue
  | .arr items, w, hv, hw, hvalue => by
      cases w with
      | arr others =>
          exact congrArg JsValue.arr (orderedItems_of_value_eq items others hv hw
            (Value.arr.inj hvalue))
      | _ => cases hvalue
  | .obj ms, w, hv, hw, hvalue => by
      cases w with
      | obj ns =>
          rw [ordered, ordered]
          congr 1
          apply mergeSort_eq_of_perm
          · rw [fst_orderedMembers]
            exact hv.1
          · apply orderedMembers_perm hv.1 hw.1 (Value.obj.inj hvalue)
            intro entry hentry other hother
            exact orderedMember_of_value_eq ms entry hentry other.2 hv.2
              (JsValue.membersWellFormed_iff.mp hw.2 other hother)
      | _ => cases hvalue

theorem orderedItems_of_value_eq : ∀ items others : List (JsValue Number),
    JsValue.ItemsWellFormed Number.doubles items →
    JsValue.ItemsWellFormed Number.doubles others →
    JsValue.itemValues items = JsValue.itemValues others →
      orderedItems items = orderedItems others
  | [], others, _, _, hvalues => by
      cases others with
      | nil => rfl
      | cons => cases hvalues
  | item :: items, others, hitems, hothers, hvalues => by
      cases others with
      | nil => cases hvalues
      | cons other others =>
          obtain ⟨hvalue, hrest⟩ := List.cons.inj hvalues
          rw [orderedItems, orderedItems,
            ordered_of_value_eq item other hitems.1 hothers.1 hvalue,
            orderedItems_of_value_eq items others hitems.2 hothers.2 hrest]

theorem orderedMember_of_value_eq : ∀ (members : List (JsString × JsValue Number)),
    ∀ entry ∈ members, ∀ w : JsValue Number,
    JsValue.MembersWellFormed Number.doubles members → w.WellFormed Number.doubles →
      entry.2.value = w.value → ordered entry.2 = ordered w
  | [], entry, hentry, _, _, _, _ => absurd hentry List.not_mem_nil
  | (name, v) :: members, entry, hentry, w, hwell, hw, hvalue => by
      rcases List.mem_cons.mp hentry with rfl | hentry
      · exact ordered_of_value_eq v w hwell.1 hw hvalue
      · exact orderedMember_of_value_eq members entry hentry w hwell.2 hw hvalue

end

mutual

theorem wellFormed_ordered : ∀ v : JsValue Number, v.WellFormed Number.doubles →
    (ordered v).WellFormed Number.doubles
  | .null, _ => trivial
  | .bool _, _ => trivial
  | .num _, hwell => hwell
  | .str _, _ => trivial
  | .arr items, hwell => itemsWellFormed_ordered items hwell
  | .obj members, hwell => by
      have hsorted := List.mergeSort_perm (orderedMembers members) inNameOrder
      refine ⟨(hsorted.map Prod.fst).nodup_iff.mpr ?_, ?_⟩
      · rw [fst_orderedMembers]
        exact hwell.1
      · rw [JsValue.membersWellFormed_iff]
        intro entry hentry
        exact JsValue.membersWellFormed_iff.mp (membersWellFormed_ordered members hwell.2) entry
          (hsorted.mem_iff.mp hentry)

theorem itemsWellFormed_ordered : ∀ items : List (JsValue Number),
    JsValue.ItemsWellFormed Number.doubles items →
    JsValue.ItemsWellFormed Number.doubles (orderedItems items)
  | [], _ => trivial
  | item :: items, hwell =>
      ⟨wellFormed_ordered item hwell.1, itemsWellFormed_ordered items hwell.2⟩

theorem membersWellFormed_ordered : ∀ members : List (JsString × JsValue Number),
    JsValue.MembersWellFormed Number.doubles members →
    JsValue.MembersWellFormed Number.doubles (orderedMembers members)
  | [], _ => trivial
  | (_, v) :: members, hwell =>
      ⟨wellFormed_ordered v hwell.1, membersWellFormed_ordered members hwell.2⟩

end

end Value

end X402Facilitator.Pact
