import X402Facilitator.RateLimit.Allowlist
import X402Facilitator.TrustProxy.Matching

/-!
# Two validators of CIDRs

The allowlist of the limiter and the list of trusted proxies each check their entries.  They
accept the same texts with the same meaning where a prefix is written in digits, an address has
no zone, and an IPv6 network holds no IPv4 address.
-/

namespace X402Facilitator.RateLimit

open TrustProxy

section Entries

variable {entry network length : Text}

/-- Both validators accept an entry or neither does, and of the texts without a zone an accepted
one matches the addresses of the network that it writes. -/
structure SameLanguage (entry : Text) : Prop where
  accepted : (∃ allowlist, Allowlist.construct [entry] = .ok allowlist) ↔
    ∃ cidrs, compileTrustList [entry] = .ok cidrs
  meaning : (∃ allowlist, Allowlist.construct [entry] = .ok allowlist) →
    ∃ network, written entry = some network ∧
      ∀ ip, '%' ∉ ip → ipMatchesCidr ip entry = .ok (network.holds ip)

/-- No IPv4 address is in the IPv6 network of a prefix; a mapped one with prefix 0 holds all. -/
def Disjoint (network : Text) (length : ℕ) : Prop :=
  (∀ value < 2 ^ 32, ¬ (networkOf .v6 (ownValue network .v6) (some length)).Contains
    (0xffff * 2 ^ 32 + value)) ∨ (ownValue network .v6 / 2 ^ 32 = 0xffff ∧ length = 0)

/-- A valid entry with digits for a prefix, no zone, and no IPv4 address in an IPv6 network. -/
structure WellWritten (entry : Text) : Prop where
  bare : '%' ∉ entry
  digits : ∀ network length, Text.splitLast '/' entry = some (network, length) →
    isNumeral 10 length = true
  disjoint : ∀ network length, Text.splitLast '/' entry = some (network, length) →
    isIP network = some .v6 → Disjoint network (numeralValue 10 length)

theorem construct_iff :
    (∃ allowlist, Allowlist.construct [entry] = .ok allowlist) ↔ isValidCidr entry = true := by
  rw [Allowlist.construct]
  split
  · next found hfound =>
      have hinvalid := List.find?_some hfound
      obtain rfl := List.mem_singleton.mp (List.mem_of_find?_eq_some hfound)
      rw [Bool.not_eq_true'] at hinvalid
      rw [hinvalid]
      simp
  · next hnone =>
      rw [List.find?_eq_none] at hnone
      have hvalid := hnone entry (List.mem_singleton_self entry)
      simp at hvalid
      simp [hvalid]

theorem isTrustEntry_of_objectMember (hmember : String.ofList entry ∈ objectMembers) :
    isTrustEntry entry = false := by
  have hall : (objectMembers.all fun member => !isTrustEntry member.toList) = true := by
    decide +kernel
  have hentry := List.all_eq_true.mp hall _ hmember
  rw [String.toList_ofList] at hentry
  exact Bool.not_eq_true' _ ▸ hentry

theorem compile_iff (htrim : Text.trim entry = entry) (hpreset : netPreset entry = none) :
    (∃ cidrs, compileTrustList [entry] = .ok cidrs) ↔ isTrustEntry entry = true := by
  have hcompile : compileTrustList [entry] =
      (compileEntry entry).map fun cidrs => [cidrs].flatten := by
    rw [compileTrustList, List.mapM_cons]
    cases compileEntry entry <;> rfl
  rw [hcompile, compileEntry, hpreset, htrim]
  simp only
  split
  · next hmember =>
      rw [isTrustEntry_of_objectMember hmember]
      simp [Except.map]
  · split
    · next htrust => simp [htrust, Except.map]
    · next htrust => simp [htrust, Except.map]

theorem isTrustEntry_of_none (hsplit : Text.splitLast '/' entry = none) :
    isTrustEntry entry = isValidCidr entry := by
  rw [isTrustEntry, isValidCidr, hsplit]

/-- What the list accepts has digits for a prefix, and the allowlist accepts it. -/
theorem isTrustEntry_iff (hsplit : Text.splitLast '/' entry = some (network, length)) :
    isTrustEntry entry = true ↔ isValidCidr entry = true ∧ isNumeral 10 length = true := by
  rw [isTrustEntry, isValidCidr, hsplit]
  simp only
  cases isIP network with
  | none => simp
  | some family =>
      simp only [Bool.and_eq_true, Bool.not_eq_true']
      constructor
      · rintro ⟨⟨hnumeral, hinteger⟩, hexceeds⟩
        obtain ⟨hnumber, -⟩ := number_of_numeral hnumeral hexceeds (bits_le family)
        have hnegative : (Number.ofText length).isNegative = false := by
          rw [hnumber]
          simp [Number.isNegative]
        exact ⟨⟨⟨hinteger, hnegative⟩, hexceeds⟩, hnumeral⟩
      · rintro ⟨⟨⟨hinteger, -⟩, hexceeds⟩, hnumeral⟩
        exact ⟨⟨hnumeral, hinteger⟩, hexceeds⟩

/-- What is accepted is an address with a prefix up to its length. -/
theorem of_isValidCidr (hsplit : Text.splitLast '/' entry = some (network, length))
    (hvalid : isValidCidr entry = true) :
    ∃ family, isIP network = some family ∧ (Number.ofText length).exceeds family.bits = false := by
  rw [isValidCidr, hsplit] at hvalid
  simp only at hvalid
  cases hip : isIP network with
  | none =>
      rw [hip] at hvalid
      cases hvalid
  | some family =>
      rw [hip] at hvalid
      simp only [Bool.and_eq_true, Bool.not_eq_true'] at hvalid
      exact ⟨family, rfl, hvalid.2⟩

structure ReadAs (entry network : Text) (family : Family) (count : Option ℕ) : Prop where
  address : isIP network = some family
  bare : '%' ∉ network
  split : splitCidr entry = (network, count.map fun count => .finite count)
  inRange : ∀ bits ∈ count, bits ≤ family.bits
  written : written entry = some (networkOf family (ownValue network family) count)
  ofBits : ∀ bits ∈ count, ∃ length, Text.splitLast '/' entry = some (network, length) ∧
    bits = numeralValue 10 length
  ofSplit : ∀ other length, Text.splitLast '/' entry = some (other, length) →
    other = network ∧ count = some (numeralValue 10 length)

theorem notMem_of_splitLast (hbare : '%' ∉ entry)
    (hsplit : Text.splitLast '/' entry = some (network, length)) : '%' ∉ network := by
  rw [Text.eq_of_splitLast hsplit, List.mem_append, not_or] at hbare
  exact hbare.1

/-- A valid entry without a zone is read, where its prefix is in digits. -/
theorem exists_readAs (hvalid : isValidCidr entry = true) (hbare : '%' ∉ entry)
    (hdigits : ∀ network length, Text.splitLast '/' entry = some (network, length) →
      isNumeral 10 length = true) :
    ∃ network family count, ReadAs entry network family count := by
  cases hsplit : Text.splitLast '/' entry with
  | none =>
      have hip : (isIP entry).isSome = true := by
        rw [isValidCidr, hsplit] at hvalid
        exact hvalid
      obtain ⟨family, hfamily⟩ := Option.isSome_iff_exists.mp hip
      refine ⟨entry, family, none, hfamily, hbare, ?_, fun bits hbits => ?_, ?_,
        fun bits hbits => ?_, fun other length hother => ?_⟩
      · rw [splitCidr, hsplit]
        rfl
      · cases hbits
      · rw [written, hsplit]
        simp only [if_neg hbare, hfamily, Option.map_some]
      · cases hbits
      · rw [hsplit] at hother
        cases hother
  | some both =>
      obtain ⟨network, length⟩ := both
      obtain ⟨family, hfamily, hexceeds⟩ := of_isValidCidr hsplit hvalid
      have hnumeral := hdigits network length hsplit
      obtain ⟨hnumber, hle⟩ := number_of_numeral hnumeral hexceeds (bits_le family)
      have hinside := notMem_of_splitLast hbare hsplit
      refine ⟨network, family, some (numeralValue 10 length), hfamily, hinside, ?_,
        fun bits hbits => ?_, ?_, fun bits hbits => ?_, fun other digits hother => ?_⟩
      · rw [splitCidr, hsplit]
        simp only [hnumber, Option.map_some]
      · obtain rfl := Option.some.inj hbits
        exact hle
      · rw [written, hsplit]
        simp only [if_neg hinside, hfamily, Option.bind_some]
        rw [if_pos ⟨hnumeral, hle⟩]
      · exact ⟨length, hsplit, (Option.some.inj hbits).symm⟩
      · rw [hsplit] at hother
        cases hother
        exact ⟨rfl, rfl⟩

/-- How an address without a zone is judged. -/
theorem ReadAs.ipMatchesCidr {ip : Text} {family addrFamily : Family} {count : Option ℕ}
    (hread : ReadAs entry network family count) (hip : '%' ∉ Text.trim ip)
    (haddr : isIP (Text.trim ip) = some addrFamily) :
    ipMatchesCidr ip entry = .ok (judged family addrFamily (ownValue network family)
      (ownValue (Text.trim ip) addrFamily) count) := by
  have htrim : Text.trim network = network := trim_of_isIP (by rw [hread.address]; rfl)
  have hanswer := ipMatchesCidr_of_bare hread.split (by rw [htrim]; exact hread.bare)
    (by rw [htrim]; exact hread.address) hip haddr
  rw [htrim] at hanswer
  exact hanswer

/-- A text that is not an address is not matched. -/
theorem ReadAs.ipMatchesCidr_of_none {ip : Text} {family : Family} {count : Option ℕ}
    (hread : ReadAs entry network family count) (hip : isIP (Text.trim ip) = none) :
    TrustProxy.ipMatchesCidr ip entry = .ok false := by
  have htrim : Text.trim network = network := trim_of_isIP (by rw [hread.address]; rfl)
  have hnetwork : parseIp network = .ok (some ⟨family, (ownValue (Text.trim network) family : ℤ)⟩) :=
    parseIp_of_bare (by rw [htrim]; exact hread.bare) (by rw [htrim]; exact hread.address)
  have hnone : parseIp ip = .ok none := by
    rw [parseIp]
    simp only [hip]
  exact TrustProxy.ipMatchesCidr_of_none (by rw [hread.split]; exact hnetwork) hnone

/-- An IPv4 address against an IPv6 network with a prefix that holds none, or all. -/
theorem judged_iff_of_disjoint {addr count : ℕ} (haddr : addr < 2 ^ 32)
    (hdisjoint : Disjoint network count) :
    judged .v6 .v4 (ownValue network .v6) addr (some count) = true ↔
      (networkOf .v6 (ownValue network .v6) (some count)).Contains (0xffff * 2 ^ 32 + addr) := by
  rcases hdisjoint with hnone | ⟨hmapped, rfl⟩
  · have hunmapped : ownValue network .v6 / 2 ^ 32 ≠ 0xffff := by
      intro hmapped
      refine hnone (ownValue network .v6 % 2 ^ 32) (Nat.mod_lt _ (Nat.two_pow_pos 32)) ?_
      rw [← mapped_eq hmapped]
      exact contains_v6_iff.mpr rfl
    rw [judged_of_unmapped hunmapped]
    exact iff_of_false Bool.false_ne_true (hnone addr haddr)
  · have hlow : ownValue network .v6 % 2 ^ 32 < 2 ^ 32 := Nat.mod_lt _ (Nat.two_pow_pos 32)
    rw [judged_of_mapped hmapped, contains_v6_iff, mapped_eq hmapped,
      div_of_mapped haddr (Nat.zero_le 64), div_of_mapped hlow (Nat.zero_le 64)]
    refine iff_of_true ⟨Nat.zero_le 32, ?_⟩ rfl
    rw [Nat.sub_zero, Nat.div_eq_of_lt haddr, Nat.div_eq_of_lt (Nat.mod_lt _ (Nat.two_pow_pos 32))]

/-- Any other IPv6 network with a prefix misses an IPv4 address that it holds. -/
theorem exists_missed {count : ℕ} (hdisjoint : ¬ Disjoint network count) :
    ∃ value < 2 ^ 32, judged .v6 .v4 (ownValue network .v6) value (some count) = false ∧
      (networkOf .v6 (ownValue network .v6) (some count)).Contains (0xffff * 2 ^ 32 + value) := by
  rw [Disjoint, not_or] at hdisjoint
  obtain ⟨hsome, hcount⟩ := hdisjoint
  by_cases hmapped : ownValue network .v6 / 2 ^ 32 = 0xffff
  · have hpositive : count ≠ 0 := fun hzero => hcount ⟨hmapped, hzero⟩
    obtain ⟨low, hlow, hvalue⟩ : ∃ low < 2 ^ 32, ownValue network .v6 = 0xffff * 2 ^ 32 + low :=
      ⟨_, Nat.mod_lt _ (Nat.two_pow_pos 32), mapped_eq hmapped⟩
    rw [hvalue] at hmapped ⊢
    rcases Nat.lt_or_ge 32 count with hlong | hshort
    · refine ⟨low, hlow, ?_, contains_v6_iff.mpr rfl⟩
      rw [← Bool.not_eq_true, judged_of_mapped hmapped]
      exact fun hsame => absurd hsame.1 (not_le.mpr hlong)
    · -- the first bit of the address is the other one
      have hother : (low + 2 ^ 31) % 2 ^ 32 < 2 ^ 32 := Nat.mod_lt _ (Nat.two_pow_pos 32)
      refine ⟨(low + 2 ^ 31) % 2 ^ 32, hother, ?_, ?_⟩
      · rw [← Bool.not_eq_true, judged_of_mapped hmapped]
        rintro ⟨-, hsame⟩
        have hfirst : ∀ value, value / 2 ^ 31 = value / 2 ^ (32 - count) / 2 ^ (count - 1) := by
          intro value
          rw [Nat.div_div_eq_div_mul, ← pow_add]
          congr 2
          omega
        have hbit : (low + 2 ^ 31) % 2 ^ 32 / 2 ^ 31 =
            (0xffff * 2 ^ 32 + low) % 2 ^ 32 / 2 ^ 31 := by
          rw [hfirst, hsame, ← hfirst]
        omega
      · rw [contains_v6_iff, div_of_mapped hother (by omega), div_of_mapped hlow (by omega)]
  · simp only [not_forall, not_not] at hsome
    obtain ⟨value, hvalue, hcontains⟩ := hsome
    exact ⟨value, hvalue, judged_of_unmapped hmapped, hcontains⟩

/-- An entry with digits, no zone and no missed address matches the addresses of its network. -/
theorem ReadAs.ipMatchesCidr_of_wellWritten {ip : Text} {family : Family} {count : Option ℕ}
    (hread : ReadAs entry network family count) (hwell : WellWritten entry) (hip : '%' ∉ ip) :
    TrustProxy.ipMatchesCidr ip entry = .ok
      ((networkOf family (ownValue network family) count).holds ip) := by
  have hbare : '%' ∉ Text.trim ip := fun hmem => hip (Text.mem_of_mem_trim hmem)
  cases haddr : isIP (Text.trim ip) with
  | none =>
      rw [hread.ipMatchesCidr_of_none haddr, Network.holds, canonical, haddr]
      rfl
  | some addrFamily =>
      rw [hread.ipMatchesCidr hbare haddr, Network.holds, canonical_of_bare hbare haddr,
        Option.any_some]
      apply congrArg Except.ok
      rw [Bool.eq_iff_iff, decide_eq_true_eq]
      by_cases hfamilies : family = .v6 ∧ addrFamily = .v4 ∧ count ≠ none
      · obtain ⟨rfl, rfl, hsome⟩ := hfamilies
        obtain ⟨bits, rfl⟩ := Option.ne_none_iff_exists'.mp hsome
        obtain ⟨length, hsplit, rfl⟩ := hread.ofBits bits rfl
        exact judged_iff_of_disjoint (ownValue_lt hbare haddr)
          (hwell.disjoint network length hsplit hread.address)
      · refine judged_iff (ownValue_lt hread.bare hread.address) (ownValue_lt hbare haddr)
          hread.inRange fun hnet hfamily => ?_
        by_contra hsome
        exact hfamilies ⟨hnet, hfamily, hsome⟩

theorem SameLanguage.of_wellWritten (htrim : Text.trim entry = entry)
    (hpreset : netPreset entry = none)
    (hwritten : isValidCidr entry = true → WellWritten entry) : SameLanguage entry := by
  constructor
  · rw [construct_iff, compile_iff htrim hpreset]
    cases hsplit : Text.splitLast '/' entry with
    | none => rw [isTrustEntry_of_none hsplit]
    | some both =>
        rw [isTrustEntry_iff hsplit]
        exact ⟨fun hvalid => ⟨hvalid, (hwritten hvalid).digits _ _ hsplit⟩, And.left⟩
  · intro haccepted
    have hvalid := construct_iff.mp haccepted
    have hwell := hwritten hvalid
    obtain ⟨network, family, count, hread⟩ := exists_readAs hvalid hwell.bare hwell.digits
    exact ⟨_, hread.written, fun ip hip => hread.ipMatchesCidr_of_wellWritten hwell hip⟩

/-- What is written has no zone, also after the slash. -/
theorem notMem_of_written {result : Network} (hwritten : written entry = some result)
    (hdigits : ∀ network length, Text.splitLast '/' entry = some (network, length) →
      isNumeral 10 length = true) : '%' ∉ entry := by
  intro hmem
  rw [written] at hwritten
  cases hsplit : Text.splitLast '/' entry with
  | none =>
      rw [hsplit] at hwritten
      simp only [if_pos hmem] at hwritten
      cases hwritten
  | some both =>
      obtain ⟨network, length⟩ := both
      have hnumeral := isNumeral_iff.mp (hdigits network length hsplit)
      have hinside : '%' ∉ network := by
        intro hnetwork
        rw [hsplit] at hwritten
        simp only [if_pos hnetwork] at hwritten
        cases hwritten
      rw [Text.eq_of_splitLast hsplit, List.mem_append, List.mem_cons] at hmem
      rcases hmem with hbefore | hslash | hafter
      · exact hinside hbefore
      · exact absurd hslash (by decide)
      · exact absurd (hnumeral.2 '%' hafter) (by decide)

theorem SameLanguage.wellWritten (hsame : SameLanguage entry) (htrim : Text.trim entry = entry)
    (hpreset : netPreset entry = none) (hvalid : isValidCidr entry = true) :
    WellWritten entry := by
  have haccepted := construct_iff.mpr hvalid
  have htrust := (compile_iff htrim hpreset).mp (hsame.accepted.mp haccepted)
  have hdigits : ∀ network length, Text.splitLast '/' entry = some (network, length) →
      isNumeral 10 length = true := fun network length hsplit =>
    ((isTrustEntry_iff hsplit).mp htrust).2
  obtain ⟨result, hwritten, hmeaning⟩ := hsame.meaning haccepted
  have hbare := notMem_of_written hwritten hdigits
  refine ⟨hbare, hdigits, fun network length hsplit hfamily => ?_⟩
  by_contra hdisjoint
  obtain ⟨value, hvalue, hmissed, hcontains⟩ := exists_missed hdisjoint
  obtain ⟨other, family, count, hread⟩ := exists_readAs hvalid hbare hdigits
  obtain ⟨rfl, rfl⟩ := hread.ofSplit network length hsplit
  obtain rfl : .v6 = family := Option.some.inj (hfamily.symm.trans hread.address)
  obtain rfl := Option.some.inj (hread.written.symm.trans hwritten)
  -- the missed address, in decimal octets
  have hbareIp := bare_printIPv4 value
  have haddr := isIP_printIPv4 hvalue
  have htrimIp : Text.trim (printIPv4 value) = printIPv4 value :=
    trim_of_isIP (by rw [haddr]; rfl)
  have hjudged := @ReadAs.ipMatchesCidr _ _ (printIPv4 value) _ _ _ hread
    (by rw [htrimIp]; exact hbareIp) (by rw [htrimIp]; exact haddr)
  have hholds : (networkOf .v6 (ownValue network .v6) (some (numeralValue 10 length))).holds
      (printIPv4 value) = true := by
    rw [Network.holds, htrimIp, canonical_of_bare hbareIp haddr, Option.any_some, ownValue,
      dottedValue_printIPv4]
    exact decide_eq_true hcontains
  rw [hmeaning _ hbareIp, hholds, htrimIp, ownValue, dottedValue_printIPv4, hmissed] at hjudged
  cases hjudged

/-- The two validators agree on an entry, and it means what it writes, exactly where it is well
written or refused by the limiter. -/
theorem sameLanguage_iff (htrim : Text.trim entry = entry) (hpreset : netPreset entry = none) :
    SameLanguage entry ↔ (isValidCidr entry = true → WellWritten entry) :=
  ⟨fun hsame hvalid => hsame.wellWritten htrim hpreset hvalid,
    SameLanguage.of_wellWritten htrim hpreset⟩

end Entries

theorem sameLanguage_iff_subnet : SameLanguage "10.0.0.0/8".toList ↔
    (isValidCidr "10.0.0.0/8".toList = true → WellWritten "10.0.0.0/8".toList) :=
  sameLanguage_iff (by decide +kernel) (by decide +kernel)

/-- A bare slash is refused by the list of proxies, and taken by the allowlist for every IPv4
address. -/
theorem bare_slash_not_sameLanguage :
    (∃ allowlist, Allowlist.construct ["192.0.2.1/".toList] = .ok allowlist) ∧
      (¬ ∃ cidrs, compileTrustList ["192.0.2.1/".toList] = .ok cidrs) ∧
      ipMatchesCidr "8.8.8.8".toList "192.0.2.1/".toList = .ok true ∧
      ¬ SameLanguage "192.0.2.1/".toList := by
  have haccepted : ∃ allowlist, Allowlist.construct ["192.0.2.1/".toList] = .ok allowlist :=
    construct_iff.mpr (by decide +kernel)
  have hrefused : ¬ ∃ cidrs, compileTrustList ["192.0.2.1/".toList] = .ok cidrs := by
    rw [compile_iff (by decide +kernel) (by decide +kernel)]
    decide +kernel
  exact ⟨haccepted, hrefused, by decide +kernel, fun hsame =>
    hrefused (hsame.accepted.mp haccepted)⟩

end X402Facilitator.RateLimit
