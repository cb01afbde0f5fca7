import Mathlib.Data.Int.Bitwise
import X402Facilitator.Library.JsText

/-!
# Addresses and CIDRs

`net.isIP` accepts an IPv6 address with a zone, which the conversion to a number
does not expect: there it can throw.  A value is read in the space of its own
family, and an IPv4-mapped address can be compared as either.
-/

namespace X402Facilitator.TrustProxy

/-- What is thrown: by the service itself, or by a conversion. -/
inductive Thrown where
  | error (message : String)
  | syntaxError
  | rangeError
  | typeError
  deriving DecidableEq, Repr

/-- What `net.isIP` tells apart, where it does not answer zero. -/
inductive Family where
  | v4
  | v6
  deriving DecidableEq, Repr

def Family.bits : Family → ℕ
  | v4 => 32
  | v6 => 128

/-- One number of a dotted address: up to 255, without a leading zero. -/
def isOctet (text : Text) : Bool :=
  isNumeral 10 text && text.length ≤ 3 && (text.length = 1 || text.head? ≠ some '0') &&
    numeralValue 10 text ≤ 255

def isIPv4 (text : Text) : Bool :=
  let octets := text.splitOn '.'
  octets.length = 4 && octets.all isOctet

def isGroup (text : Text) : Bool := isNumeral 16 text && text.length ≤ 4

def groups (text : Text) : List Text := if text.isEmpty then [] else text.splitOn ':'

/-- How many groups a part stands for; where it is allowed, the last can be a
dotted address, which stands for two. -/
def width (dotted : Bool) (part : List Text) : Option ℕ :=
  if part.all isGroup then some part.length
  else if dotted && part.dropLast.all isGroup && (part.getLast?.map isIPv4).getD false then
    some (part.length + 1)
  else none

def isIPv6Body (body : Text) : Bool :=
  match Text.splitPair ':' body with
  | [whole] => width true (groups whole) = some 8
  | [left, right] =>
      match width false (groups left), width true (groups right) with
      | some before, some after => before + after ≤ 7
      | _, _ => false
  | _ => false

def isZoneChar (c : Char) : Bool :=
  ('0' ≤ c && c ≤ '9') || ('a' ≤ c && c ≤ 'z') || ('A' ≤ c && c ≤ 'Z') || c ∈ ['-', '.', ':']

/-- A zone is a percent sign and one character or more. -/
def isZone : Text → Bool
  | [] => true
  | _ :: zone => !zone.isEmpty && zone.all isZoneChar

def isIPv6 (text : Text) : Bool :=
  isIPv6Body (text.takeWhile (· ≠ '%')) && isZone (text.dropWhile (· ≠ '%'))

def isIP (text : Text) : Option Family :=
  if isIPv4 text then some .v4 else if isIPv6 text then some .v6 else none

/-- `{ kind, value }`. -/
structure Address where
  kind : Family
  value : ℤ
  deriving DecidableEq, Repr

def ipv4ToBigInt (ip : Text) : Except Thrown ℤ :=
  (ip.splitOn '.').foldlM (fun acc octet =>
    match bigIntOfText octet with
    | some value => .ok ((acc <<< (8 : ℕ)).lor value)
    | none => .error .syntaxError) 0

def groupsToBigInt (groups : List Text) : Except Thrown ℤ :=
  groups.foldlM (fun value group =>
    match (Number.parseHex group).toBigInt with
    | some number => .ok ((value <<< (16 : ℕ)).lor number)
    | none => .error .rangeError) 0

/-- The groups of the two sides of `::`, with the missing ones between them;
none for a count of groups that is refused. -/
def expandGroups (head : Text) : Option (List Text) :=
  match Text.splitPair ':' head with
  | [whole] => if (groups whole).length = 8 then some (groups whole) else none
  | [left, right] =>
      let present := (groups left).length + (groups right).length
      if present ≤ 8 then some (groups left ++ List.replicate (8 - present) ['0'] ++ groups right)
      else none
  | _ => none

def ipv6ToBigInt (ip : Text) : Except Thrown (Option ℤ) := do
  let tail := Text.afterLast ':' ip
  let tailValue ← if '.' ∈ tail then ipv4ToBigInt tail else pure 0
  let head := if '.' ∈ tail then Text.throughLast ':' ip ++ "0:0".toList else ip
  match expandGroups head with
  | none => pure none
  | some groups => do
      let value ← groupsToBigInt groups
      pure (some (value.lor tailValue))

def parseIp (ip : Text) : Except Thrown (Option Address) :=
  let trimmed := Text.trim ip
  match isIP trimmed with
  | some .v4 => (ipv4ToBigInt trimmed).map fun value => some ⟨.v4, value⟩
  | some .v6 => (ipv6ToBigInt trimmed).map fun value => value.map fun value => ⟨.v6, value⟩
  | none => .ok none

/-- Whether a value is in `::ffff:0:0/96`. -/
def isIpv4Mapped (value : ℤ) : Bool := value >>> (32 : ℕ) = 0xffff

def unmapped (value : ℤ) : Address := ⟨.v4, value.land 0xffffffff⟩

/-- Two addresses in one space, the mapped one as IPv4. -/
def unify (net addr : Address) : Option (Address × Address) :=
  if net.kind = addr.kind then some (net, addr)
  else if addr.kind = .v6 && isIpv4Mapped addr.value then some (net, unmapped addr.value)
  else if net.kind = .v6 && isIpv4Mapped net.value then some (unmapped net.value, addr)
  else none

def splitCidr (cidr : Text) : Text × Option Number :=
  match Text.splitLast '/' cidr with
  | none => (cidr, none)
  | some (network, length) => (network, some (Number.ofText length))

/-- The bits of an address that a length compares. -/
def mask (bits length : ℕ) : ℤ := ((1 : ℤ) <<< length - 1) <<< (bits - length)

def ipMatchesCidr (ip cidr : Text) : Except Thrown Bool := do
  let (network, length) := splitCidr cidr
  let networkIp ← parseIp network
  let address ← parseIp ip
  match networkIp, address with
  | some net, some addr =>
      match unify net addr with
      | none => pure false
      | some (net, addr) =>
          match length with
          | none => pure (addr.value = net.value)
          | some length =>
              if !length.isInteger || length.isNegative || length.exceeds net.kind.bits then
                pure false
              else
                let mask := mask net.kind.bits ((length.toBigInt.getD 0).toNat)
                pure (addr.value.land mask = net.value.land mask)
  | _, _ => pure false

theorem isIPv4_of_notMem {text : Text} (hdot : '.' ∉ text) : isIPv4 text = false := by
  rw [isIPv4, List.splitOn_eq_singleton hdot]
  rfl

theorem width_le {dotted : Bool} {part : List Text} {count : ℕ}
    (hwidth : width dotted part = some count) : count ≤ part.length + 1 := by
  rw [width] at hwidth
  split_ifs at hwidth
  · cases hwidth
    exact Nat.le_succ part.length
  · cases hwidth
    exact le_rfl

theorem isIPv6Body_of_notMem {body : Text} (hcolon : ':' ∉ body) : isIPv6Body body = false := by
  have hgroups : (groups body).length ≤ 1 := by
    rw [groups]
    split
    · exact Nat.zero_le 1
    · rw [List.splitOn_eq_singleton hcolon]
      rfl
  rw [isIPv6Body, Text.splitPair_of_notMem hcolon]
  apply decide_eq_false
  intro hwidth
  have hle := width_le hwidth
  omega

theorem isIPv6_of_notMem {text : Text} (hcolon : ':' ∉ text) : isIPv6 text = false := by
  rw [isIPv6, isIPv6Body_of_notMem fun hmem => hcolon (List.takeWhile_subset _ hmem)]
  rfl

theorem isIP_of_notMem {text : Text} (hdot : '.' ∉ text) (hcolon : ':' ∉ text) :
    isIP text = none := by
  rw [isIP, isIPv4_of_notMem hdot, isIPv6_of_notMem hcolon]
  rfl

theorem parseIp_of_notMem {text : Text} (hdot : '.' ∉ text) (hcolon : ':' ∉ text) :
    parseIp text = .ok none := by
  have htrimmed : isIP (Text.trim text) = none :=
    isIP_of_notMem (fun hmem => hdot (Text.mem_of_mem_trim hmem))
      (fun hmem => hcolon (Text.mem_of_mem_trim hmem))
  rw [parseIp]
  simp only [htrimmed]

/-- What is not an address is in no network. -/
theorem ipMatchesCidr_ne_true {ip : Text} (hip : parseIp ip = .ok none) (cidr : Text) :
    ipMatchesCidr ip cidr ≠ .ok true := by
  rw [ipMatchesCidr, hip]
  cases hnetwork : parseIp (splitCidr cidr).1 with
  | error thrown => simp [hnetwork, bind, Except.bind]
  | ok network => cases network <;> simp [hnetwork, bind, Except.bind, pure, Except.pure]

example : ipMatchesCidr "::ffff:10.1.2.3".toList "10.0.0.0/8".toList = .ok true := by
  decide +kernel

/-- A zone with a dot is taken for a dotted tail. -/
example : parseIp "fe80::1%eth0.100".toList = .error .syntaxError := by decide +kernel

end X402Facilitator.TrustProxy
