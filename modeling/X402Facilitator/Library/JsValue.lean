import X402Facilitator.Library.JsonObject
import X402Facilitator.Library.JsText

/-!
# Values that JSON can hold

A string is any code units, also with a surrogate that is alone, and a number is of any type
whose texts can be read back.  The members of an object are a map from names: two orders of
them are the same value.
-/

namespace X402Facilitator

/-- How numbers are printed, and how numerals are read. -/
structure NumberFormat (N : Type) where
  Valid : N → Prop
  print : N → List Char
  read : List Char → Option N
  print_ne_nil : ∀ number, Valid number → print number ≠ []
  isNumberChar_print : ∀ number, Valid number → ∀ c ∈ print number, isNumberChar c = true
  read_print : ∀ number, Valid number → read (print number) = some number

inductive JsValue (N : Type) where
  | null
  | bool (value : Bool)
  | num (value : N)
  | str (value : JsString)
  | arr (items : List (JsValue N))
  | obj (members : List (JsString × JsValue N))

inductive Value (N S : Type) where
  | null
  | bool (value : Bool)
  | num (value : N)
  | str (value : S)
  | arr (items : List (Value N S))
  | obj (members : S → Option (Value N S))

namespace JsValue

variable {N : Type}

def hexDigits (unit : ℕ) : List Char :=
  [Json.hexDigit (unit / 0x1000), Json.hexDigit (unit / 0x100 % 16),
    Json.hexDigit (unit / 0x10 % 16), Json.hexDigit (unit % 16)]

/-- The text of a code unit that is no part of a pair. -/
def escapeUnit (unit : UInt16) : List Char :=
  if Utf16.isHigh unit.toNat || Utf16.isLow unit.toNat then '\\' :: 'u' :: hexDigits unit.toNat
  else Json.escapeChar (Char.ofNat unit.toNat)

def pairChar (high low : ℕ) : Char :=
  Char.ofNat (0x10000 + (high - 0xD800) * 0x400 + (low - 0xDC00))

def escape : JsString → List Char
  | [] => []
  | [unit] => escapeUnit unit
  | high :: low :: rest =>
      if Utf16.isHigh high.toNat && Utf16.isLow low.toNat then
        pairChar high.toNat low.toNat :: escape rest
      else escapeUnit high ++ escape (low :: rest)

def quote (value : JsString) : List Char := '"' :: escape value ++ ['"']

section Chars

variable (format : NumberFormat N)

mutual

def chars : JsValue N → List Char
  | null => ['n', 'u', 'l', 'l']
  | bool true => ['t', 'r', 'u', 'e']
  | bool false => ['f', 'a', 'l', 's', 'e']
  | num value => format.print value
  | str value => quote value
  | arr [] => ['[', ']']
  | arr (item :: items) => '[' :: chars item ++ itemChars items
  | obj [] => ['{', '}']
  | obj ((name, value) :: members) =>
      '{' :: quote name ++ ':' :: chars value ++ memberChars members

def itemChars : List (JsValue N) → List Char
  | [] => [']']
  | item :: items => ',' :: chars item ++ itemChars items

def memberChars : List (JsString × JsValue N) → List Char
  | [] => ['}']
  | (name, value) :: members =>
      ',' :: quote name ++ ':' :: chars value ++ memberChars members

end

mutual

/-- The numbers can be printed, and the names of an object are distinct. -/
def WellFormed : JsValue N → Prop
  | null | bool _ | str _ => True
  | num number => format.Valid number
  | arr items => ItemsWellFormed items
  | obj members => (members.map Prod.fst).Nodup ∧ MembersWellFormed members

def ItemsWellFormed : List (JsValue N) → Prop
  | [] => True
  | item :: items => WellFormed item ∧ ItemsWellFormed items

def MembersWellFormed : List (JsString × JsValue N) → Prop
  | [] => True
  | (_, value) :: members => WellFormed value ∧ MembersWellFormed members

end

end Chars

mutual

/-- The value that is written; a name counts where it comes first. -/
def value : JsValue N → Value N JsString
  | null => .null
  | bool b => .bool b
  | num number => .num number
  | str text => .str text
  | arr items => .arr (itemValues items)
  | obj members => .obj (memberValues members)

def itemValues : List (JsValue N) → List (Value N JsString)
  | [] => []
  | item :: items => value item :: itemValues items

def memberValues : List (JsString × JsValue N) → JsString → Option (Value N JsString)
  | [] => fun _ => none
  | (name, found) :: members => fun other =>
      if other = name then some (value found) else memberValues members other

end

/-- Values that differ in the order of the members of their objects, at any depth. -/
inductive Reordered : JsValue N → JsValue N → Prop
  | refl (v : JsValue N) : Reordered v v
  | trans {v u w : JsValue N} (first : Reordered v u) (second : Reordered u w) : Reordered v w
  | members {ms ns : List (JsString × JsValue N)} (perm : ms.Perm ns) :
      Reordered (obj ms) (obj ns)
  | item {v w : JsValue N} (before after : List (JsValue N)) (same : Reordered v w) :
      Reordered (arr (before ++ v :: after)) (arr (before ++ w :: after))
  | member {v w : JsValue N} (before after : List (JsString × JsValue N)) (name : JsString)
      (same : Reordered v w) :
      Reordered (obj (before ++ (name, v) :: after)) (obj (before ++ (name, w) :: after))

section

variable {format : NumberFormat N} {items before after : List (JsValue N)}
variable {members others : List (JsString × JsValue N)} {name : JsString} {v w : JsValue N}

theorem itemsWellFormed_iff :
    ItemsWellFormed format items ↔ ∀ item ∈ items, item.WellFormed format := by
  induction items with
  | nil => simp [ItemsWellFormed]
  | cons item items ih => simp [ItemsWellFormed, ih]

theorem membersWellFormed_iff :
    MembersWellFormed format members ↔ ∀ entry ∈ members, entry.2.WellFormed format := by
  induction members with
  | nil => simp [MembersWellFormed]
  | cons entry members ih => simp [MembersWellFormed, ih]

theorem itemValues_eq (items : List (JsValue N)) : itemValues items = items.map value := by
  induction items with
  | nil => rfl
  | cons item items ih => rw [itemValues, ih, List.map_cons]

theorem memberValues_eq (members : List (JsString × JsValue N)) (name : JsString) :
    memberValues members name = (members.lookup name).map value := by
  induction members with
  | nil => rfl
  | cons entry members ih =>
      obtain ⟨other, found⟩ := entry
      by_cases hname : name = other
      · subst hname
        rw [List.lookup_cons_self]
        exact if_pos rfl
      · rw [Json.lookup_cons_of_ne _ _ hname, ← ih]
        exact if_neg hname

/-- The members of an object in another order are the same map. -/
theorem memberValues_of_perm {ms ns : List (JsString × JsValue N)}
    (hnodup : (ms.map Prod.fst).Nodup) (hperm : ms.Perm ns) :
    memberValues ms = memberValues ns := by
  funext name
  rw [memberValues_eq, memberValues_eq, Json.lookup_of_perm hnodup hperm]

theorem itemsWellFormed_middle :
    ItemsWellFormed format (before ++ v :: after) ↔
      v.WellFormed format ∧ ItemsWellFormed format (before ++ after) := by
  rw [itemsWellFormed_iff, itemsWellFormed_iff, List.forall_mem_append, List.forall_mem_append,
    List.forall_mem_cons, and_left_comm]

theorem membersWellFormed_middle {before after : List (JsString × JsValue N)} :
    MembersWellFormed format (before ++ (name, v) :: after) ↔
      v.WellFormed format ∧ MembersWellFormed format (before ++ after) := by
  rw [membersWellFormed_iff, membersWellFormed_iff, List.forall_mem_append,
    List.forall_mem_append, List.forall_mem_cons, and_left_comm]

theorem memberValues_append (before after : List (JsString × JsValue N)) (name : JsString) :
    memberValues (before ++ after) name =
      (memberValues before name).or (memberValues after name) := by
  rw [memberValues_eq, memberValues_eq, memberValues_eq, List.lookup_append, Option.map_or]

/-- A reordered value is the same value. -/
theorem Reordered.value_eq (hreordered : Reordered v w) (hwell : v.WellFormed format) :
    v.value = w.value ∧ w.WellFormed format := by
  induction hreordered with
  | refl => exact ⟨rfl, hwell⟩
  | trans _ _ first second =>
      obtain ⟨hfirst, hu⟩ := first hwell
      obtain ⟨hsecond, hw⟩ := second hu
      exact ⟨hfirst.trans hsecond, hw⟩
  | members hperm =>
      obtain ⟨hnodup, hall⟩ := hwell
      refine ⟨congrArg Value.obj (memberValues_of_perm hnodup hperm),
        (hperm.map Prod.fst).nodup_iff.mp hnodup, ?_⟩
      rw [membersWellFormed_iff] at hall ⊢
      exact fun entry hentry => hall entry (hperm.mem_iff.mpr hentry)
  | item before after _ ih =>
      obtain ⟨hv, hrest⟩ := itemsWellFormed_middle.mp hwell
      obtain ⟨hvalue, hw⟩ := ih hv
      refine ⟨?_, itemsWellFormed_middle.mpr ⟨hw, hrest⟩⟩
      rw [value, value, itemValues_eq, itemValues_eq, List.map_append, List.map_append,
        List.map_cons, List.map_cons, hvalue]
  | member before after name _ ih =>
      obtain ⟨hnodup, hall⟩ := hwell
      obtain ⟨hv, hrest⟩ := membersWellFormed_middle.mp hall
      obtain ⟨hvalue, hw⟩ := ih hv
      refine ⟨?_, ?_, membersWellFormed_middle.mpr ⟨hw, hrest⟩⟩
      · rw [value, value]
        congr 1
        funext other
        rw [memberValues_append, memberValues_append, memberValues, memberValues, hvalue]
      · simpa only [List.map_append, List.map_cons] using hnodup

end

end JsValue

end X402Facilitator
