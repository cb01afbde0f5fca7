import X402Facilitator.TrustProxy.Canonical

/-!
# Networks

A network is the first bits of an address.  Where neither side has a zone, the comparison of the
code is the one of the canonical forms, but for an IPv4 address and an IPv6 network with a
prefix.
-/

namespace X402Facilitator.TrustProxy

section Comparisons

variable {width length value : ℕ}

def sameBits (width : ℕ) (length : Option ℕ) (a b : ℕ) : Bool :=
  match length with
  | none => a = b
  | some length => length ≤ width && a / 2 ^ (width - length) = b / 2 ^ (width - length)

def unified (net addr : ℕ) : Family → Family → Option (Family × ℕ × ℕ)
  | .v4, .v4 => some (.v4, net, addr)
  | .v6, .v6 => some (.v6, net, addr)
  | .v4, .v6 => if addr / 2 ^ 32 = 0xffff then some (.v4, net, addr % 2 ^ 32) else none
  | .v6, .v4 => if net / 2 ^ 32 = 0xffff then some (.v4, net % 2 ^ 32, addr) else none

def judged (netFamily addrFamily : Family) (net addr : ℕ) (length : Option ℕ) : Bool :=
  match unified net addr netFamily addrFamily with
  | none => false
  | some (family, net, addr) => sameBits family.bits length addr net

theorem mask_eq (width length : ℕ) :
    mask width length = (((2 ^ length - 1) <<< (width - length) : ℕ) : ℤ) := by
  have hone : (1 : ℤ) <<< length - 1 = ((2 ^ length - 1 : ℕ) : ℤ) := by
    have hshift : (1 : ℤ) <<< length = ((1 <<< length : ℕ) : ℤ) := rfl
    rw [hshift, Nat.one_shiftLeft, Nat.cast_sub (Nat.one_le_two_pow), Nat.cast_one]
  rw [mask, hone]
  rfl

theorem and_shiftLeft (value other shift : ℕ) :
    value &&& other <<< shift = ((value >>> shift) &&& other) <<< shift := by
  apply Nat.eq_of_testBit_eq
  intro index
  rw [Nat.testBit_and, Nat.testBit_shiftLeft, Nat.testBit_shiftLeft, Nat.testBit_and,
    Nat.testBit_shiftRight]
  by_cases hle : shift ≤ index
  · rw [Nat.add_sub_cancel' hle]
    simp [hle]
  · simp [hle]

/-- The bits that a mask leaves. -/
theorem land_mask (hlength : length ≤ width) (hvalue : value < 2 ^ width) :
    (value : ℤ).land (mask width length) =
      ((value / 2 ^ (width - length) * 2 ^ (width - length) : ℕ) : ℤ) := by
  have hland : ((value : ℤ)).land (((2 ^ length - 1) <<< (width - length) : ℕ) : ℤ) =
      ((value &&& (2 ^ length - 1) <<< (width - length) : ℕ) : ℤ) := rfl
  have hlt : value / 2 ^ (width - length) < 2 ^ length := by
    rw [Nat.div_lt_iff_lt_mul (Nat.two_pow_pos _), ← pow_add, Nat.add_sub_cancel' hlength]
    exact hvalue
  rw [mask_eq, hland, and_shiftLeft, Nat.and_two_pow_sub_one_eq_mod, Nat.shiftRight_eq_div_pow,
    Nat.mod_eq_of_lt hlt, Nat.shiftLeft_eq]

theorem land_mask_eq_iff {other : ℕ} (hlength : length ≤ width) (hvalue : value < 2 ^ width)
    (hother : other < 2 ^ width) :
    (value : ℤ).land (mask width length) = (other : ℤ).land (mask width length) ↔
      value / 2 ^ (width - length) = other / 2 ^ (width - length) := by
  rw [land_mask hlength hvalue, land_mask hlength hother, Nat.cast_inj,
    Nat.mul_left_inj (Nat.two_pow_pos _).ne']

theorem isIpv4Mapped_eq (value : ℕ) : isIpv4Mapped value = decide (value / 2 ^ 32 = 0xffff) := by
  have hshift : (value : ℤ) >>> (32 : ℕ) = ((value >>> 32 : ℕ) : ℤ) := rfl
  rw [isIpv4Mapped, hshift, Nat.shiftRight_eq_div_pow]
  exact decide_eq_decide.mpr (by exact_mod_cast Iff.rfl)

theorem unmapped_eq (value : ℕ) : unmapped value = ⟨.v4, ((value % 2 ^ 32 : ℕ) : ℤ)⟩ := by
  have hland : (value : ℤ).land 0xffffffff = ((value &&& 2 ^ 32 - 1 : ℕ) : ℤ) := rfl
  rw [unmapped, hland, Nat.and_two_pow_sub_one_eq_mod]

theorem unify_eq (net addr : ℕ) (netFamily addrFamily : Family) :
    unify ⟨netFamily, net⟩ ⟨addrFamily, addr⟩ =
      (unified net addr netFamily addrFamily).map fun both =>
        (⟨both.1, (both.2.1 : ℤ)⟩, ⟨both.1, (both.2.2 : ℤ)⟩) := by
  cases netFamily <;> cases addrFamily <;>
    simp only [unify, unified, isIpv4Mapped_eq, unmapped_eq] <;> simp

theorem unified_lt {net addr : ℕ} {netFamily addrFamily family : Family} {net' addr' : ℕ}
    (hnet : net < 2 ^ netFamily.bits) (haddr : addr < 2 ^ addrFamily.bits)
    (hunified : unified net addr netFamily addrFamily = some (family, net', addr')) :
    net' < 2 ^ family.bits ∧ addr' < 2 ^ family.bits := by
  have hlow : ∀ value, value % 2 ^ 32 < 2 ^ Family.v4.bits := fun value =>
    Nat.mod_lt value (Nat.two_pow_pos 32)
  cases netFamily <;> cases addrFamily <;> rw [unified] at hunified
  · cases hunified
    exact ⟨hnet, haddr⟩
  · split at hunified
    · cases hunified
      exact ⟨hnet, hlow addr⟩
    · cases hunified
  · split at hunified
    · cases hunified
      exact ⟨hlow net, haddr⟩
    · cases hunified
  · cases hunified
    exact ⟨hnet, haddr⟩

end Comparisons

section BareNetworks

variable {ip cidr network : Text} {length : Option ℕ} {netFamily addrFamily : Family}

/-- Two addresses that are read are judged. -/
theorem ipMatchesCidr_of_read {net addr : ℕ}
    (hsplit : splitCidr cidr = (network, length.map fun count => .finite count))
    (hnet : parseIp network = .ok (some ⟨netFamily, net⟩)) (hnetLt : net < 2 ^ netFamily.bits)
    (hip : parseIp ip = .ok (some ⟨addrFamily, addr⟩)) (haddrLt : addr < 2 ^ addrFamily.bits) :
    ipMatchesCidr ip cidr = .ok (judged netFamily addrFamily net addr length) := by
  rw [ipMatchesCidr, hsplit]
  simp only [hnet, hip]
  rw [judged]
  simp only [bind, Except.bind, unify_eq]
  cases hunified : unified net addr netFamily addrFamily with
  | none => rfl
  | some both =>
      obtain ⟨family, net', addr'⟩ := both
      obtain ⟨hnet', haddr'⟩ := unified_lt hnetLt haddrLt hunified
      simp only [Option.map_some]
      cases length with
      | none => exact congrArg Except.ok (decide_eq_decide.mpr Nat.cast_inj)
      | some count =>
          have hinteger : (Number.finite (count : ℚ)).isInteger = true := by
            simp [Number.isInteger, Rat.isInt]
          have hnegative : (Number.finite (count : ℚ)).isNegative = false := by
            simp [Number.isNegative]
          have hexceeds : (Number.finite (count : ℚ)).exceeds family.bits =
              decide (family.bits < count) := by
            simp [Number.exceeds]
          simp only [Option.map_some, hinteger, hnegative, hexceeds, Number.toBigInt_finite,
            Option.getD_some, Int.toNat_natCast, sameBits]
          by_cases hle : count ≤ family.bits
          · have hsame := land_mask_eq_iff hle haddr' hnet'
            simp only [hle, not_lt.mpr hle, decide_false, decide_true, Bool.not_true,
              Bool.or_false, Bool.false_eq_true, if_false, Bool.true_and]
            exact congrArg Except.ok (decide_eq_decide.mpr hsame)
          · simp [hle, not_le.mp hle]
            rfl

theorem ipMatchesCidr_of_none {net : Option Address}
    (hnet : parseIp (splitCidr cidr).1 = .ok net) (hip : parseIp ip = .ok none) :
    ipMatchesCidr ip cidr = .ok false := by
  simp only [ipMatchesCidr, hnet, hip]
  cases net <;> rfl

/-- There is an answer where both sides can be read. -/
theorem ipMatchesCidr_ok_iff : (∃ answer, ipMatchesCidr ip cidr = .ok answer) ↔
    (∃ net, parseIp (splitCidr cidr).1 = .ok net) ∧ ∃ address, parseIp ip = .ok address := by
  constructor
  · rintro ⟨answer, hanswer⟩
    cases hnet : parseIp (splitCidr cidr).1 with
    | error thrown =>
        simp only [ipMatchesCidr, hnet] at hanswer
        cases hanswer
    | ok net =>
        cases hip : parseIp ip with
        | error thrown =>
            simp only [ipMatchesCidr, hnet, hip] at hanswer
            cases hanswer
        | ok address => exact ⟨⟨net, rfl⟩, address, rfl⟩
  · rintro ⟨⟨net, hnet⟩, address, hip⟩
    simp only [ipMatchesCidr, hnet, hip]
    cases net with
    | none => exact ⟨false, rfl⟩
    | some net =>
        cases address with
        | none => exact ⟨false, rfl⟩
        | some address =>
            simp only [bind, Except.bind]
            cases unify net address with
            | none => exact ⟨false, rfl⟩
            | some both =>
                simp only
                split
                · exact ⟨_, rfl⟩
                · split_ifs <;> exact ⟨_, rfl⟩

theorem ipMatchesCidr_of_bare
    (hsplit : splitCidr cidr = (network, length.map fun count => .finite count))
    (hnetBare : '%' ∉ Text.trim network) (hnet : isIP (Text.trim network) = some netFamily)
    (hipBare : '%' ∉ Text.trim ip) (hip : isIP (Text.trim ip) = some addrFamily) :
    ipMatchesCidr ip cidr = .ok (judged netFamily addrFamily
      (ownValue (Text.trim network) netFamily) (ownValue (Text.trim ip) addrFamily) length) :=
  ipMatchesCidr_of_read hsplit (parseIp_of_bare hnetBare hnet) (ownValue_lt hnetBare hnet)
    (parseIp_of_bare hipBare hip) (ownValue_lt hipBare hip)

end BareNetworks

structure Network where
  address : ℕ
  bits : ℕ
  deriving DecidableEq

def Network.Contains (network : Network) (address : ℕ) : Prop :=
  address / 2 ^ (128 - network.bits) = network.address / 2 ^ (128 - network.bits)

instance (network : Network) (address : ℕ) : Decidable (network.Contains address) :=
  inferInstanceAs (Decidable (_ = _))

/-- A prefix of an IPv4 network counts from bit 96. -/
def networkOf (family : Family) (value : ℕ) : Option ℕ → Network
  | none => ⟨family.lift value, 128⟩
  | some length => ⟨family.lift value, 128 - family.bits + length⟩

section Judgements

variable {netFamily addrFamily : Family} {net addr count : ℕ} {length : Option ℕ}

theorem mapped_div (value : ℕ) (hcount : count ≤ 32) :
    (0xffff * 2 ^ 32 + value) / 2 ^ (32 - count) =
      0xffff * 2 ^ count + value / 2 ^ (32 - count) := by
  have hsplit : 0xffff * 2 ^ 32 = 2 ^ (32 - count) * (0xffff * 2 ^ count) := by
    rw [mul_left_comm, ← pow_add, Nat.sub_add_cancel hcount]
  rw [hsplit, Nat.mul_add_div (Nat.two_pow_pos _)]

/-- The value of a mapped address. -/
theorem mapped_eq (hmapped : addr / 2 ^ 32 = 0xffff) : addr = 0xffff * 2 ^ 32 + addr % 2 ^ 32 := by
  rw [← hmapped, Nat.div_add_mod']

theorem mapped_of_div_eq (hnet : net < 2 ^ 32) (hcount : count ≤ 32)
    (heq : addr / 2 ^ (32 - count) = (0xffff * 2 ^ 32 + net) / 2 ^ (32 - count)) :
    addr / 2 ^ 32 = 0xffff := by
  have hdiv : ∀ value, value / 2 ^ 32 = value / 2 ^ (32 - count) / 2 ^ count := by
    intro value
    rw [Nat.div_div_eq_div_mul, ← pow_add, Nat.sub_add_cancel hcount]
  rw [hdiv, heq, ← hdiv]
  omega

theorem sameBits_v4_iff (addr net : ℕ) (length : Option ℕ)
    (hlength : ∀ count ∈ length, count ≤ 32) :
    sameBits 32 length addr net = true ↔
      (networkOf .v4 net length).Contains (0xffff * 2 ^ 32 + addr) := by
  cases length with
  | none =>
      rw [sameBits, decide_eq_true_eq, networkOf, Network.Contains, Family.lift]
      simp only [Nat.sub_self, pow_zero, Nat.div_one]
      omega
  | some count =>
      have hcount := hlength count rfl
      have hbits : 128 - (128 - Family.v4.bits + count) = 32 - count := by
        rw [Family.bits]
        omega
      rw [sameBits, Bool.and_eq_true, decide_eq_true_eq, decide_eq_true_eq, networkOf,
        Network.Contains, Family.lift]
      simp only [hbits, mapped_div _ hcount, hcount, true_and]
      omega

/-- The code judges as the canonical forms do, but for IPv4 against IPv6 with a prefix. -/
theorem judged_iff (hnet : net < 2 ^ netFamily.bits) (haddr : addr < 2 ^ addrFamily.bits)
    (hlength : ∀ count ∈ length, count ≤ netFamily.bits)
    (hfamilies : netFamily = .v6 → addrFamily = .v4 → length = none) :
    judged netFamily addrFamily net addr length = true ↔
      (networkOf netFamily net length).Contains (addrFamily.lift addr) := by
  cases netFamily <;> cases addrFamily
  · exact sameBits_v4_iff addr net length hlength
  · rw [judged, unified]
    by_cases hmapped : addr / 2 ^ 32 = 0xffff
    · rw [if_pos hmapped]
      refine (sameBits_v4_iff (addr % 2 ^ 32) net length hlength).trans ?_
      rw [← mapped_eq hmapped]
      rfl
    · rw [if_neg hmapped]
      refine iff_of_false Bool.false_ne_true fun hcontains => hmapped ?_
      cases length with
      | none => exact mapped_of_div_eq hnet le_rfl hcontains
      | some count =>
          have hcount := hlength count rfl
          have hbits : 128 - (128 - Family.v4.bits + count) = 32 - count := by
            rw [Family.bits]
            omega
          rw [networkOf, Network.Contains] at hcontains
          simp only [hbits] at hcontains
          exact mapped_of_div_eq hnet hcount hcontains
  · obtain rfl := hfamilies rfl rfl
    rw [judged, unified, networkOf, Network.Contains]
    simp only [Nat.sub_self, pow_zero, Nat.div_one, Family.lift]
    have haddr' : addr < 2 ^ 32 := haddr
    by_cases hmapped : net / 2 ^ 32 = 0xffff
    · rw [if_pos hmapped]
      simp only [sameBits, decide_eq_true_eq]
      have hvalue := mapped_eq hmapped
      omega
    · rw [if_neg hmapped]
      refine iff_of_false Bool.false_ne_true fun heq => hmapped ?_
      omega
  · rw [judged, unified, networkOf.eq_def]
    cases length with
    | none =>
        rw [Network.Contains]
        simp only [sameBits, decide_eq_true_eq, Nat.sub_self, pow_zero, Nat.div_one, Family.lift]
    | some count =>
        have hcount := hlength count rfl
        have hbits : 128 - (128 - Family.v6.bits + count) = 128 - count := by
          rw [Family.bits]
          omega
        rw [Network.Contains]
        simp only [hbits, sameBits, hcount, decide_true, Bool.true_and, decide_eq_true_eq]
        rfl

theorem contains_v6_iff : (networkOf .v6 net (some count)).Contains addr ↔
    addr / 2 ^ (128 - count) = net / 2 ^ (128 - count) := by
  rw [networkOf, Network.Contains, Family.bits, Nat.sub_self, Nat.zero_add]
  rfl

theorem judged_of_unmapped (hmapped : net / 2 ^ 32 ≠ 0xffff) :
    judged .v6 .v4 net addr length = false := by
  rw [judged, unified, if_neg hmapped]

theorem judged_of_mapped (hmapped : net / 2 ^ 32 = 0xffff) :
    judged .v6 .v4 net addr (some count) = true ↔
      count ≤ 32 ∧ addr / 2 ^ (32 - count) = net % 2 ^ 32 / 2 ^ (32 - count) := by
  rw [judged, unified, if_pos hmapped]
  simp only [sameBits, Family.bits, Bool.and_eq_true]
  exact and_congr decide_eq_true_iff decide_eq_true_iff

/-- A mapped value has no bit in the first half of an address. -/
theorem div_of_mapped {value : ℕ} (hvalue : value < 2 ^ 32) (hcount : count ≤ 64) :
    (0xffff * 2 ^ 32 + value) / 2 ^ (128 - count) = 0 := by
  have hle : 2 ^ 64 ≤ 2 ^ (128 - count) := Nat.pow_le_pow_right (by decide) (by omega)
  apply Nat.div_eq_of_lt
  omega

/-- When an IPv4 address is judged rightly against an IPv6 network with a prefix. -/
theorem judged_iff_contains_iff (haddr : addr < 2 ^ 32) :
    (judged .v6 .v4 net addr (some count) = true ↔
        (networkOf .v6 net (some count)).Contains (0xffff * 2 ^ 32 + addr)) ↔
      ¬ (networkOf .v6 net (some count)).Contains (0xffff * 2 ^ 32 + addr) ∨
        net / 2 ^ 32 = 0xffff ∧ count ≤ 32 ∧
          addr / 2 ^ (32 - count) = net % 2 ^ 32 / 2 ^ (32 - count) := by
  have hjudged : judged .v6 .v4 net addr (some count) = true ↔
      net / 2 ^ 32 = 0xffff ∧ count ≤ 32 ∧
        addr / 2 ^ (32 - count) = net % 2 ^ 32 / 2 ^ (32 - count) := by
    by_cases hmapped : net / 2 ^ 32 = 0xffff
    · rw [judged_of_mapped hmapped, and_iff_right hmapped]
    · rw [judged_of_unmapped hmapped]
      exact iff_of_false Bool.false_ne_true fun hfirst => hmapped hfirst.1
  have hcontains : judged .v6 .v4 net addr (some count) = true →
      (networkOf .v6 net (some count)).Contains (0xffff * 2 ^ 32 + addr) := by
    intro htrue
    obtain ⟨hmapped, hcount, -⟩ := hjudged.mp htrue
    have hlow : net % 2 ^ 32 < 2 ^ 32 := Nat.mod_lt net (Nat.two_pow_pos 32)
    rw [contains_v6_iff, mapped_eq hmapped, div_of_mapped haddr (by omega),
      div_of_mapped hlow (by omega)]
  rw [← hjudged]
  tauto

end Judgements

/-- The network that a text writes: an address without a zone, alone or with a prefix in decimal
digits up to its length. -/
def written (cidr : Text) : Option Network :=
  match Text.splitLast '/' cidr with
  | none =>
      if '%' ∈ cidr then none
      else (isIP cidr).map fun family => networkOf family (ownValue cidr family) none
  | some (network, length) =>
      if '%' ∈ network then none
      else (isIP network).bind fun family =>
        if isNumeral 10 length ∧ numeralValue 10 length ≤ family.bits then
          some (networkOf family (ownValue network family) (some (numeralValue 10 length)))
        else none

/-- Whether a text, which blanks can surround, is an address of a network. -/
def Network.holds (network : Network) (ip : Text) : Bool :=
  (canonical (Text.trim ip)).any fun address => network.Contains address

section Written

variable {digits : Text} {bound : ℕ}

/-- Digits that are not read as more than a small bound are read as their value. -/
theorem number_of_numeral (hnumeral : isNumeral 10 digits = true)
    (hexceeds : (Number.ofText digits).exceeds bound = false) (hbound : bound ≤ 128) :
    Number.ofText digits = .finite (numeralValue 10 digits) ∧ numeralValue 10 digits ≤ bound := by
  obtain ⟨hne, hdigits⟩ := isNumeral_iff.mp hnumeral
  rw [Number.ofText_of_isDigits hne hdigits] at hexceeds ⊢
  rcases lt_or_ge (numeralValue 10 digits) (2 ^ 53) with hlt | hle
  · rw [Number.ofScientific_of_lt hlt] at hexceeds ⊢
    refine ⟨rfl, ?_⟩
    have hbelow := of_decide_eq_false hexceeds
    exact_mod_cast not_lt.mp hbelow
  · rcases Number.ofScientific_of_le hle with hinfinite | ⟨rounded, hrounded, hlarge⟩
    · rw [hinfinite] at hexceeds
      cases hexceeds
    · rw [hrounded] at hexceeds
      have hbelow := not_lt.mp (of_decide_eq_false hexceeds)
      have hboundRat : (bound : ℚ) ≤ 128 := by exact_mod_cast hbound
      have hcontra : (2 : ℚ) ^ 52 ≤ 128 := hlarge.trans (hbelow.trans hboundRat)
      norm_num at hcontra

theorem bits_le (family : Family) : family.bits ≤ 128 := by
  cases family <;> decide

def printIPv4 (value : ℕ) : Text :=
  Nat.toDigits 10 (value / 2 ^ 24) ++ '.' :: (Nat.toDigits 10 (value / 2 ^ 16 % 2 ^ 8) ++
    '.' :: (Nat.toDigits 10 (value / 2 ^ 8 % 2 ^ 8) ++ '.' :: Nat.toDigits 10 (value % 2 ^ 8)))

theorem splitOn_printIPv4 (value : ℕ) : (printIPv4 value).splitOn '.' =
    [Nat.toDigits 10 (value / 2 ^ 24), Nat.toDigits 10 (value / 2 ^ 16 % 2 ^ 8),
      Nat.toDigits 10 (value / 2 ^ 8 % 2 ^ 8), Nat.toDigits 10 (value % 2 ^ 8)] := by
  have hplain : ∀ n, (Nat.toDigits 10 n).splitOn '.' = [Nat.toDigits 10 n] := fun n =>
    List.splitOn_eq_singleton ((isDigits_toDigits n).notMem (by decide))
  rw [printIPv4, List.splitOn_append_cons_self, List.splitOn_append_cons_self,
    List.splitOn_append_cons_self, hplain, hplain, hplain, hplain]
  rfl

theorem isOctet_toDigits : ∀ n < 2 ^ 8, isOctet (Nat.toDigits 10 n) = true := by
  decide +kernel

theorem isIP_printIPv4 {value : ℕ} (hvalue : value < 2 ^ 32) :
    isIP (printIPv4 value) = some .v4 := by
  have hdotted : isIPv4 (printIPv4 value) = true := by
    rw [isIPv4, splitOn_printIPv4]
    simp only [List.length_cons, List.length_nil, List.all_cons, List.all_nil, Bool.and_true]
    rw [isOctet_toDigits _ (by omega), isOctet_toDigits _ (by omega),
      isOctet_toDigits _ (by omega), isOctet_toDigits _ (by omega)]
    rfl
  rw [isIP, if_pos hdotted]

theorem dottedValue_printIPv4 (value : ℕ) : dottedValue (printIPv4 value) = value := by
  rw [dottedValue, splitOn_printIPv4]
  simp only [List.foldl_cons, List.foldl_nil, numeralValue_toDigits]
  omega

theorem bare_printIPv4 (value : ℕ) : '%' ∉ printIPv4 value := by
  have hplain : ∀ n, '%' ∉ Nat.toDigits 10 n := fun n =>
    (isDigits_toDigits n).notMem (by decide)
  simp only [printIPv4, List.mem_append, List.mem_cons, not_or]
  exact ⟨hplain _, by decide, hplain _, by decide, hplain _, by decide, hplain _⟩

end Written

end X402Facilitator.TrustProxy
