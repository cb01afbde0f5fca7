import X402Facilitator.App.ReplaySamePayment
import X402Facilitator.Library.JsonValue

/-!
# Keys of payments

Without an `Idempotency-Key` header the keys of a `/settle` request are digests of texts that
`JSON.stringify` prints.  These follow the order of the members and take in members that are
no part of the payment.  The transaction that `deriveIdempotencyKey` prefers is a member
beside `payload`, not the signed one in it.
-/

namespace X402Facilitator.Request

/-- A request to `/settle` without an `Idempotency-Key` header. -/
def ofBody (principal : Principal) (body : Json) : Request := ⟨principal, none, body⟩

/-- `paymentPayload.payload.transaction`, where it is a string. -/
def signedTransaction (request : Request) : Option String :=
  ((request.paymentPayload.member "payload").member "transaction").asString?

section Statement

variable (library : Library) (left right : Request)

/-- Equal payloads as JSON values, or one signed transaction. -/
def SamePayload : Prop :=
  left.paymentPayload.value = right.paymentPayload.value ∨
    ∃ transaction, left.signedTransaction = some transaction ∧
      right.signedTransaction = some transaction

def OtherTransaction : Prop :=
  ∃ transaction other, left.signedTransaction = some transaction ∧
    right.signedTransaction = some other ∧ transaction ≠ other

def Collides (text other : String) : Prop :=
  text ≠ other ∧ library.sha256Hex text = library.sha256Hex other

/-- The three keys of a payment are the same for the same payment, and differ for another
signed transaction unless SHA-256 collides. -/
def KeysIdentify : Prop :=
  (left.SamePayload right →
    left.deriveIdempotencyKey library = right.deriveIdempotencyKey library ∧
    left.keyFor library = right.keyFor library ∧
    left.lockKeyFor library = right.lockKeyFor library) ∧
  (left.OtherTransaction right →
    (left.deriveIdempotencyKey library ≠ right.deriveIdempotencyKey library ∨
      Collides library left.derivedText right.derivedText) ∧
    (left.keyFor library ≠ right.keyFor library ∨
      Collides library left.body.stringify right.body.stringify) ∧
    (left.lockKeyFor library ≠ right.lockKeyFor library ∨
      Collides library left.paymentPayload.stringify right.paymentPayload.stringify))

/-- A collision of two of the texts that are hashed. -/
def Collision : Prop :=
  Collides library left.derivedText right.derivedText ∨
    Collides library left.body.stringify right.body.stringify ∨
    Collides library left.paymentPayload.stringify right.paymentPayload.stringify

/-- One payment comes in one body, with its members in one order, and the payloads of two
signed transactions do not name one `transaction` beside them. -/
def OneSpelling : Prop :=
  (left.SamePayload right → left.body = right.body) ∧
    (left.OtherTransaction right → ¬ left.SamePayment right)

end Statement

section Keys

variable {library : Library} {left right : Request} {text other : String}

theorem derivedText_of_samePayment (hsame : left.SamePayment right) :
    left.derivedText = right.derivedText := by
  rw [derivedText_eq, derivedText_eq]
  cases hsame with
  | transaction hleft hright =>
      rw [hleft, hright]
      rfl
  | payload hpayload => rw [trimmedTransaction, trimmedTransaction, hpayload]
  | leftSpells hleft hright =>
      rw [hleft, hright]
      rfl
  | rightSpells hleft hright =>
      rw [hleft, hright]
      rfl

/-- Where two texts are no collision, their digests under one tag tell them apart. -/
theorem tagged_eq_iff (hnot : ¬ Collides library text other) (tag : String) :
    tag ++ library.sha256Hex text = tag ++ library.sha256Hex other ↔ text = other := by
  rw [String.append_right_inj]
  constructor
  · intro hdigest
    by_contra hne
    exact hnot ⟨hne, hdigest⟩
  · exact congrArg library.sha256Hex

theorem payload_ne (hother : left.OtherTransaction right) :
    left.paymentPayload ≠ right.paymentPayload := by
  rintro hpayload
  obtain ⟨transaction, other, hleft, hright, hne⟩ := hother
  rw [signedTransaction, hpayload] at hleft
  exact hne (Option.some.inj (hleft.symm.trans hright))

theorem body_ne (hother : left.OtherTransaction right) : left.body ≠ right.body :=
  fun hbody => payload_ne hother (congrArg (Json.member "paymentPayload") hbody)

end Keys

/-- Unless SHA-256 collides, the keys identify the payment exactly where it comes in one
spelling. -/
theorem keysIdentify_oneSpelling (library : Library) (principal caller : Principal)
    (body body' : Json) :
    Collision library (ofBody principal body) (ofBody caller body') ∨
      (KeysIdentify library (ofBody principal body) (ofBody caller body') ↔
        OneSpelling (ofBody principal body) (ofBody caller body')) := by
  by_cases hcollision : Collision library (ofBody principal body) (ofBody caller body')
  · exact .inl hcollision
  rw [Collision, not_or, not_or] at hcollision
  obtain ⟨hderived, hbody, hpayload⟩ := hcollision
  have hderive := tagged_eq_iff hderived "derived:"
  have hkey := tagged_eq_iff hbody "body:"
  have hlock := tagged_eq_iff hpayload "settle:"
  refine .inr ⟨?_, ?_⟩
  · rintro ⟨hsame, hother⟩
    refine ⟨fun hpayment => ?_, fun hpayment hshared => ?_⟩
    · exact Json.stringify_injective (hkey.mp (hsame hpayment).2.1)
    · rcases (hother hpayment).1 with hne | hcollides
      · exact hne (hderive.mpr (derivedText_of_samePayment hshared))
      · exact hderived hcollides
  · rintro ⟨hsame, hother⟩
    refine ⟨fun hpayment => ?_, fun hpayment => ⟨.inl ?_, .inl ?_, .inl ?_⟩⟩
    · obtain rfl : body = body' := hsame hpayment
      exact ⟨rfl, rfl, rfl⟩
    · exact fun hsameKey => hother hpayment (samePayment_of_derivedText_eq (hderive.mp hsameKey))
    · exact fun hsameKey =>
        body_ne hpayment (Json.stringify_injective (hkey.mp hsameKey))
    · exact fun hsameKey =>
        payload_ne hpayment (Json.stringify_injective (hlock.mp hsameKey))

/-- A payment with a transaction beside the signed one. -/
def paymentBody (transaction signed : String) : Json :=
  .obj [("paymentPayload", .obj [("transaction", .str transaction),
    ("payload", .obj [("transaction", .str signed)])])]

/-- The same members of the payload in the other order. -/
def reorderedBody (transaction signed : String) : Json :=
  .obj [("paymentPayload", .obj [("payload", .obj [("transaction", .str signed)]),
    ("transaction", .str transaction)])]

def plainLibrary : Library := ⟨id, id, fun _ => none⟩

theorem reordered_samePayload (principal : Principal) (transaction signed : String) :
    SamePayload (ofBody principal (paymentBody transaction signed))
      (ofBody principal (reorderedBody transaction signed)) := by
  left
  refine (Json.Reordered.value_eq (.members (List.Perm.swap _ _ [])) ?_).1
  exact ⟨by simp, trivial, ⟨by simp, trivial, trivial⟩, trivial⟩

/-- The keys of a payment that is printed in another order differ, and payments with other
signed transactions have one derived key. -/
theorem not_keysIdentify :
    ¬ KeysIdentify plainLibrary (ofBody .unauthenticated (paymentBody "AAAA" "AAAA"))
      (ofBody .unauthenticated (reorderedBody "AAAA" "AAAA")) ∧
    ¬ KeysIdentify plainLibrary (ofBody .unauthenticated (paymentBody "AAAA" "first"))
      (ofBody .unauthenticated (paymentBody "AAAA" "second")) := by
  constructor
  · rintro ⟨hsame, -⟩
    have hlock := (hsame (reordered_samePayload _ _ _)).2.2
    exact absurd hlock (by decide +kernel)
  · rintro ⟨-, hother⟩
    rcases (hother ⟨"first", "second", rfl, rfl, by decide⟩).1 with hne | ⟨hne, -⟩
    · exact hne (by decide +kernel)
    · exact hne (by decide +kernel)

end X402Facilitator.Request
