import X402Facilitator.Library.Encodings
import X402Facilitator.Library.JsonValue

/-!
# The header of extension responses

A client is told in a header what the catalog did with the resource.  The header is bounded: an
outcome that does not fit is sent without its reason, and then with its status alone.
-/

namespace X402Facilitator.ExtensionResponses

/-- `MAX_EXTENSION_RESPONSES_HEADER_BYTES` -/
def maxHeaderBytes : ℕ := 4096

def knownStatuses : List String := ["not attempted", "landed", "partially landed", "rejected"]

def envelope (payload : Json) : Json := .obj [("bazaar", payload)]

def encode (payload : Json) : Text :=
  Base64.encode (Utf8.encode (envelope payload).stringify.toList)

def decode (header : Text) : Option Json :=
  (Base64.decode header).bind fun bytes =>
    (Utf8.decode bytes).bind fun text => Json.parse (String.ofList text)

def fits (header : Text) : Bool := header.length ≤ maxHeaderBytes

inductive Omitted where
  | reason
  | all
  deriving DecidableEq

structure Encoded where
  header : Text
  omitted : Option Omitted

section Reading

variable {payload : Json}

theorem wellFormed_envelope (hwell : payload.WellFormed) : (envelope payload).WellFormed :=
  ⟨by simp, hwell, trivial⟩

/-- A client reads what has been encoded. -/
theorem decode_encode (hwell : payload.WellFormed) :
    decode (encode payload) = some (envelope payload) := by
  have hbytes : ∀ byte ∈ Utf8.encode (envelope payload).stringify.toList, byte < 256 := by
    intro byte hbyte
    obtain ⟨c, -, hc⟩ := List.mem_flatMap.mp hbyte
    exact Utf8.bytes_lt hc
  rw [decode, encode, Base64.decode_encode hbytes, Option.bind_some, Utf8.decode_encode,
    Option.bind_some, String.ofList_toList]
  exact Json.parse_stringify (wellFormed_envelope hwell)

end Reading

-- a header is known by its length and by what is read in it; nothing below evaluates one
attribute [local irreducible] encode decode

section Members

variable {members : List (String × Json)} {status : String}

end Members

/-- What a header says about its outcome.  Values that differ in the order of members are equal. -/
structure Honest (outcome : Json) (encoded : Encoded) (payload : Json) : Prop where
  bounded : encoded.header.length ≤ maxHeaderBytes
  decodes : decode encoded.header = some (envelope payload)
  complete : encoded.omitted = none ↔ payload.value = outcome.value
  identical : encoded.omitted = none → payload = outcome
  reasonOmitted : encoded.omitted = some .reason → outcome.isObject = true ∧
    ∀ name, payload.property name =
      if name = "detail_omitted" then some (.bool true)
      else if name = "reason" then none else outcome.property name
  status : ∀ status ∈ knownStatuses, outcome.property "status" = some (.str status) →
    payload.property "status" = some (.str status)

section Tiers

variable {members : List (String × Json)}

end Tiers

def rateLimited : Json :=
  .obj [("status", .str "rejected"), ("reason", .str "rate limit exceeded, retry later")]

end X402Facilitator.ExtensionResponses
