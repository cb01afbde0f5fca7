import X402Facilitator.RateLimit.Allowlist
import X402Facilitator.TrustProxy.Canonical
import X402Facilitator.TrustProxy.Selection

/-!
# Owners of buckets

A caller without a key is counted for the digest of the text that its request offers for its
address.  Two texts have one digest where they are one text, so that an address has as many
buckets as spellings, and a text that is no address has one as well.
-/

namespace X402Facilitator

namespace Text

theorem hex_cons (byte : UInt8) (bytes : List UInt8) : hex (byte :: bytes) =
    Nat.digitChar (byte.toNat / 16) :: Nat.digitChar (byte.toNat % 16) :: hex bytes := rfl

theorem take_hex (count : ℕ) (bytes : List UInt8) :
    (hex bytes).take (2 * count) = hex (bytes.take count) := by
  induction count generalizing bytes with
  | zero => rfl
  | succ count ih =>
      cases bytes with
      | nil => rfl
      | cons byte bytes =>
          rw [hex_cons, Nat.mul_succ, List.take_succ_cons, List.take_succ_cons, ih,
            List.take_succ_cons, hex_cons]

theorem digitChar_injective {m n : ℕ} (hm : m < 16) (hn : n < 16)
    (heq : Nat.digitChar m = Nat.digitChar n) : m = n := by
  have hall : ∀ m < 16, ∀ n < 16, Nat.digitChar m = Nat.digitChar n → m = n := by decide
  exact hall m hm n hn heq

theorem hex_injective : Function.Injective hex := by
  intro first
  induction first with
  | nil =>
      intro second heq
      cases second with
      | nil => rfl
      | cons byte bytes => cases heq
  | cons byte bytes ih =>
      intro second heq
      cases second with
      | nil => cases heq
      | cons other others =>
          rw [hex_cons, hex_cons] at heq
          obtain ⟨hhigh, hrest⟩ := List.cons.inj heq
          obtain ⟨hlow, htail⟩ := List.cons.inj hrest
          have hbyte := byte.toNat_lt
          have hother := other.toNat_lt
          have hdiv := digitChar_injective (by omega) (by omega) hhigh
          have hmod := digitChar_injective (by omega) (by omega) hlow
          rw [ih htail, UInt8.toNat_inj.mp (by omega : byte.toNat = other.toNat)]

end Text

namespace RateLimit

open TrustProxy (Thrown Trust FastifyRequest Crypto isIP canonical resolveClientIp trustProxyHook
  pseudonymHook pseudonymizeIp Selects resolveClientIp_iff)

def onRequest (crypto : Crypto) (secret : Option Text) (trust : Trust) (request : FastifyRequest) :
    Except Thrown FastifyRequest :=
  (trustProxyHook trust request).map (pseudonymHook crypto secret)

def ownerOf (crypto : Crypto) (secret : Option Text) (trust : Trust) (request : FastifyRequest) :
    Except Thrown Owner :=
  (onRequest crypto secret trust request).map fun request => (caller request).owner

def digestOf (crypto : Crypto) (secret : Option Text) (text : Text) : List UInt8 :=
  (match secret with
    | some key => crypto.hmacSha256 key text
    | none => crypto.sha256 text).take 12

def Collide (crypto : Crypto) (secret : Option Text) (a b : Text) : Prop :=
  a ≠ b ∧ digestOf crypto secret a = digestOf crypto secret b

/-- Two requests resolve to addresses.  They have one owner where these are the same address, and
otherwise only if the digests collide. -/
def OneBucket (crypto : Crypto) (secret : Option Text) (trust : Trust)
    (first second : FastifyRequest) : Prop :=
  ∃ a b, resolveClientIp first trust = .ok (some a) ∧
    resolveClientIp second trust = .ok (some b) ∧
    (isIP a).isSome = true ∧ (isIP b).isSome = true ∧
    (canonical a = canonical b →
      ownerOf crypto secret trust first = ownerOf crypto secret trust second) ∧
    (canonical a ≠ canonical b →
      ownerOf crypto secret trust first = ownerOf crypto secret trust second →
        Collide crypto secret a b)

section Owners

variable {crypto : Crypto} {secret : Option Text} {trust : Trust}
variable {request first second : FastifyRequest} {text : Text}

theorem pseudonymizeIp_eq (hne : text ≠ []) :
    pseudonymizeIp crypto secret (some text) = some (Text.hex (digestOf crypto secret text)) := by
  cases text with
  | nil => exact absurd rfl hne
  | cons c rest =>
      rw [digestOf.eq_def, ← Text.take_hex]
      rfl

theorem ne_nil_of_isIP (hip : (isIP text).isSome = true) : text ≠ [] := by
  rintro rfl
  cases hip

/-- The owner of a request without a key. -/
theorem ownerOf_eq (hkey : request.keyId = none) (hip : (isIP text).isSome = true)
    (hresolve : resolveClientIp request trust = .ok (some text)) :
    ownerOf crypto secret trust request =
      .ok (.ip (String.ofList (Text.hex (digestOf crypto secret text)))) := by
  have hhook : trustProxyHook trust request = .ok { request with ip := some text } := by
    rw [trustProxyHook, hresolve]
    rfl
  rw [ownerOf, onRequest, hhook]
  simp only [Except.map, pseudonymHook, pseudonymizeIp_eq (ne_nil_of_isIP hip), caller,
    Option.getD_some, Caller.owner, hkey]

theorem owner_eq_iff {a b : Text} :
    (Except.ok (Owner.ip (String.ofList (Text.hex (digestOf crypto secret a)))) :
        Except Thrown Owner) =
      .ok (.ip (String.ofList (Text.hex (digestOf crypto secret b)))) ↔
      a = b ∨ Collide crypto secret a b := by
  rw [Except.ok.injEq, Owner.ip.injEq, String.ofList_inj, Text.hex_injective.eq_iff, Collide]
  constructor
  · intro hdigest
    exact or_iff_not_imp_left.mpr fun hne => ⟨hne, hdigest⟩
  · rintro (rfl | ⟨-, hdigest⟩)
    · rfl
    · exact hdigest

/-- A caller has one bucket exactly where its requests offer addresses, and one address in one
spelling. -/
theorem oneBucket_iff (hfirst : first.keyId = none) (hsecond : second.keyId = none) :
    OneBucket crypto secret trust first second ↔
      ∃ a b, Selects first trust a ∧ Selects second trust b ∧
        (isIP a).isSome = true ∧ (isIP b).isSome = true ∧
        (canonical a = canonical b → a = b ∨ Collide crypto secret a b) := by
  simp only [OneBucket, resolveClientIp_iff]
  refine exists₂_congr fun a b => and_congr_right fun ha => and_congr_right fun hb =>
    and_congr_right fun hipA => and_congr_right fun hipB => ?_
  rw [ownerOf_eq hfirst hipA (resolveClientIp_iff.mpr ha),
    ownerOf_eq hsecond hipB (resolveClientIp_iff.mpr hb), owner_eq_iff]
  apply and_iff_left
  intro hdifferent hsame
  exact hsame.resolve_left fun heq => hdifferent (congrArg canonical heq)

def proxiedRequest (client : String) : FastifyRequest where
  ip := some "10.0.0.1".toList
  socketAddress := some "10.0.0.1".toList
  connectionAddress := none
  headers := fun name => if name = "x-forwarded-for" then some client.toList else none
  keyId := none

/-- Digests that are right for two spellings of an address. -/
def spellingDigest : Crypto where
  sha256 := fun text =>
    if text = "::ffff:192.0.2.1".toList then
      [69, 121, 141, 251, 103, 251, 89, 78, 173, 123, 186, 199, 140, 190, 106, 178, 94, 70, 188, 14,
        134, 240, 246, 131, 175, 50, 204, 10, 49, 133, 102, 195]
    else
      [55, 252, 255, 36, 191, 98, 3, 91, 43, 8, 2, 10, 252, 8, 180, 254, 205, 79, 207, 252, 229,
        122, 178, 53, 24, 227, 86, 31, 240, 254, 118, 185]
  hmacSha256 := fun _ _ => []

theorem oneBucket_iff_proxied :
    OneBucket spellingDigest none (.hops (.finite 1)) (proxiedRequest "192.0.2.1")
        (proxiedRequest "192.0.2.1") ↔
      ∃ a b, Selects (proxiedRequest "192.0.2.1") (.hops (.finite 1)) a ∧
        Selects (proxiedRequest "192.0.2.1") (.hops (.finite 1)) b ∧
        (isIP a).isSome = true ∧ (isIP b).isSome = true ∧
        (canonical a = canonical b → a = b ∨ Collide spellingDigest none a b) :=
  oneBucket_iff rfl rfl

/-- The mapped spelling of an address has a bucket of its own. -/
theorem spellings_not_oneBucket :
    ¬ OneBucket spellingDigest none (.hops (.finite 1)) (proxiedRequest "192.0.2.1")
      (proxiedRequest "::ffff:192.0.2.1") := by
  have hplain : resolveClientIp (proxiedRequest "192.0.2.1") (.hops (.finite 1)) =
      .ok (some "192.0.2.1".toList) := by decide +kernel
  have hmapped : resolveClientIp (proxiedRequest "::ffff:192.0.2.1") (.hops (.finite 1)) =
      .ok (some "::ffff:192.0.2.1".toList) := by decide +kernel
  rintro ⟨a, b, ha, hb, hipA, hipB, hsame, -⟩
  obtain rfl : a = "192.0.2.1".toList := Option.some.inj (Except.ok.inj (ha.symm.trans hplain))
  obtain rfl : b = "::ffff:192.0.2.1".toList :=
    Option.some.inj (Except.ok.inj (hb.symm.trans hmapped))
  have howner := hsame (by decide +kernel)
  rw [ownerOf_eq rfl hipA ha, ownerOf_eq rfl hipB hb, owner_eq_iff] at howner
  rcases howner with hequal | ⟨-, hcollide⟩
  · exact absurd hequal (by decide +kernel)
  · exact absurd hcollide (by decide +kernel)

end Owners

end RateLimit

end X402Facilitator
