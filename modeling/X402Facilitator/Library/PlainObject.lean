import X402Facilitator.Library.InsertionMap
import X402Facilitator.Library.JsText

/-!
# Plain objects

An object literal inherits the members of every object.  Looking up a name finds such a
member where the object has no property of its own, and assigning a primitive value to
`__proto__` adds none.
-/

namespace X402Facilitator

open JsString

def prototypeMembers : List JsString :=
  [js "constructor", js "hasOwnProperty", js "isPrototypeOf", js "propertyIsEnumerable",
    js "toLocaleString", js "toString", js "valueOf", js "__defineGetter__",
    js "__defineSetter__", js "__lookupGetter__", js "__lookupSetter__", js "__proto__"]

inductive Property (Value : Type*) where
  | own (value : Value)
  | inherited
  | absent
  deriving DecidableEq

/-- An object with primitive values, none of them its own `__proto__`. -/
structure PlainObject (Value : Type*) where
  own : InsertionMap JsString Value
  ownProto : own.get (js "__proto__") = none

namespace PlainObject

variable {Value : Type*}

def empty : PlainObject Value := ⟨.empty, rfl⟩

def get (object : PlainObject Value) (name : JsString) : Property Value :=
  match object.own.get name with
  | some value => .own value
  | none => if name ∈ prototypeMembers then .inherited else .absent

def set (object : PlainObject Value) (name : JsString) (value : Value) : PlainObject Value :=
  if hproto : js "__proto__" = name then object
  else ⟨object.own.set name value,
    (InsertionMap.get_set_of_ne object.own value hproto).trans object.ownProto⟩

def assign (object : PlainObject Value) (entries : List (JsString × Value)) : PlainObject Value :=
  entries.foldl (fun object entry => object.set entry.1 entry.2) object

variable {object : PlainObject Value} {name : JsString}

theorem get_of_own {value : Value} (hown : object.own.get name = some value) :
    object.get name = .own value := by
  rw [get, hown]

theorem get_of_mem (hown : object.own.get name = none) (hmem : name ∈ prototypeMembers) :
    object.get name = .inherited := by
  rw [get, hown]
  exact if_pos hmem

theorem get_of_notMem (hown : object.own.get name = none) (hmem : name ∉ prototypeMembers) :
    object.get name = .absent := by
  rw [get, hown]
  exact if_neg hmem

theorem own_set (object : PlainObject Value) {name : JsString} (hname : name ≠ js "__proto__")
    (value : Value) (other : JsString) :
    (object.set name value).own.get other =
      if other = name then some value else object.own.get other := by
  rw [set, dif_neg hname.symm]
  exact InsertionMap.get_set object.own name other value

/-- Assigning entries of distinct names gives each of them its value. -/
theorem own_assign (object : PlainObject Value) {entries : List (JsString × Value)}
    (hnodup : (entries.map Prod.fst).Nodup) (hproto : js "__proto__" ∉ entries.map Prod.fst)
    (name : JsString) :
    (object.assign entries).own.get name =
      (InsertionMap.lookup name entries).or (object.own.get name) := by
  induction entries generalizing object with
  | nil => rfl
  | cons entry entries ih =>
      rw [List.map_cons] at hnodup hproto
      have hhead : entry.1 ≠ js "__proto__" := fun heq =>
        hproto (heq ▸ List.mem_cons_self)
      have hrest := ih (object.set entry.1 entry.2) hnodup.of_cons
        fun hmem => hproto (List.mem_cons_of_mem _ hmem)
      rw [own_set object hhead] at hrest
      apply hrest.trans
      rw [InsertionMap.lookup]
      by_cases hname : name = entry.1
      · have hnone : InsertionMap.lookup name entries = none := by
          apply Option.not_isSome_iff_eq_none.mp
          rw [← InsertionMap.mem_keys_iff_lookup, hname]
          exact (List.nodup_cons.mp hnodup).1
        rw [if_pos hname, if_pos hname.symm, hnone]
        rfl
      · rw [if_neg hname, if_neg (Ne.symm hname)]

end PlainObject

end X402Facilitator
