import X402Facilitator.Library.AllOrNone
import X402Facilitator.TrustProxy.ClientIp
import X402Facilitator.TrustProxy.Matching

/-!
# Spellings of addresses

An address is matched whatever its spelling, where no zone is misread and no IPv4 address meets
an IPv6 network that holds it.
-/

namespace X402Facilitator.TrustProxy

def Compiled (cidr : Text) : Prop :=
  ∃ entries cidrs, compileTrustList entries = .ok cidrs ∧ cidr ∈ cidrs

def networkText (cidr : Text) : Text := (splitCidr cidr).1

def countOf (cidr : Text) : Option ℕ :=
  (Text.splitLast '/' cidr).map fun both => numeralValue 10 both.2

def unzonedValue (text : Text) (family : Family) : ℕ :=
  ownValue (text.takeWhile (· ≠ '%')) family

def networkIn (cidr : Text) : Option Network :=
  (isIP (networkText cidr)).map fun family =>
    networkOf family (unzonedValue (networkText cidr) family) (countOf cidr)

def bareAddress (ip : Text) : Option Address :=
  if '%' ∈ Text.trim ip then none
  else (isIP (Text.trim ip)).map fun family => ⟨family, (ownValue (Text.trim ip) family : ℤ)⟩

def networkAddress (cidr : Text) : Option Address :=
  (isIP (networkText cidr)).map fun family =>
    ⟨family, (unzonedValue (networkText cidr) family : ℤ)⟩

/-- The answer is no for what is not a bare address, and else whether the first bits agree. -/
def AnswersRight (ip cidr : Text) : Prop :=
  ipMatchesCidr ip cidr = .ok (decide ('%' ∉ Text.trim ip) &&
    (networkIn cidr).any fun network => network.holds ip)

/-- Where an IPv4 address meets an IPv6 network with a prefix, the network does not hold it, or is
mapped and has a prefix up to 32 whose bits agree with those of the address. -/
def Comparable (ip cidr : Text) : Prop :=
  isIP (Text.trim ip) = some .v4 → isIP (networkText cidr) = some .v6 →
    ∀ count ∈ countOf cidr,
      ¬ (networkOf .v6 (unzonedValue (networkText cidr) .v6) (some count)).Contains
          (0xffff * 2 ^ 32 + ownValue (Text.trim ip) .v4) ∨
        unzonedValue (networkText cidr) .v6 / 2 ^ 32 = 0xffff ∧ count ≤ 32 ∧
          ownValue (Text.trim ip) .v4 / 2 ^ (32 - count) =
            unzonedValue (networkText cidr) .v6 % 2 ^ 32 / 2 ^ (32 - count)

/-- The network has no zone, nor has an ip that is an address. -/
structure Zoneless (ip cidr : Text) : Prop where
  network : '%' ∉ networkText cidr
  address : '%' ∈ Text.trim ip → isIP (Text.trim ip) = none

section Compiled

variable {cidr : Text}

theorem isTrustEntry_of_preset {entry : Text} {ranges : List String}
    (hpreset : netPreset entry = some ranges) :
    ∀ range ∈ ranges, isTrustEntry range.toList = true := by
  have hranges : ∀ {members : List String},
      (members.all fun range => isTrustEntry range.toList) = true →
        ∀ range ∈ members, isTrustEntry range.toList = true := fun hall => List.all_eq_true.mp hall
  rw [netPreset] at hpreset
  split_ifs at hpreset <;> cases hpreset <;> exact hranges (by decide +kernel)

theorem isTrustEntry_of_compileEntry {entry : Text} {cidrs : List Text}
    (hcompile : compileEntry entry = .ok cidrs) : ∀ cidr ∈ cidrs, isTrustEntry cidr = true := by
  rw [compileEntry] at hcompile
  split at hcompile
  · next ranges hpreset =>
      cases hcompile
      intro cidr hcidr
      obtain ⟨range, hrange, rfl⟩ := List.mem_map.mp hcidr
      exact isTrustEntry_of_preset hpreset range hrange
  · split_ifs at hcompile with hmember htrust
    cases hcompile
    intro cidr hcidr
    rw [List.mem_singleton.mp hcidr]
    exact htrust

theorem Compiled.isTrustEntry (hcompiled : Compiled cidr) :
    TrustProxy.isTrustEntry cidr = true := by
  obtain ⟨entries, cidrs, hcompile, hmem⟩ := hcompiled
  rw [compileTrustList] at hcompile
  cases hmap : entries.mapM compileEntry with
  | error thrown =>
      rw [hmap] at hcompile
      cases hcompile
  | ok parts =>
      rw [hmap] at hcompile
      cases hcompile
      obtain ⟨part, hpart, hinside⟩ := List.mem_flatten.mp hmem
      obtain ⟨entry, -, hentry⟩ := exists_of_mapM_ok hmap part hpart
      exact isTrustEntry_of_compileEntry hentry cidr hinside

/-- A compiled entry is an address with a number of bits up to its length. -/
theorem Compiled.parts (hcompiled : Compiled cidr) :
    ∃ family, isIP (networkText cidr) = some family ∧
      splitCidr cidr = (networkText cidr, (countOf cidr).map fun count => .finite count) ∧
      ∀ count ∈ countOf cidr, count ≤ family.bits := by
  have htrust := hcompiled.isTrustEntry
  rw [TrustProxy.isTrustEntry] at htrust
  rw [networkText, countOf, splitCidr]
  cases hsplit : Text.splitLast '/' cidr with
  | none =>
      rw [hsplit] at htrust
      obtain ⟨family, hfamily⟩ := Option.isSome_iff_exists.mp htrust
      exact ⟨family, hfamily, rfl, fun count hcount => by cases hcount⟩
  | some both =>
      obtain ⟨network, length⟩ := both
      rw [hsplit] at htrust
      cases hfamily : isIP network with
      | none =>
          simp only [hfamily] at htrust
          cases htrust
      | some family =>
          simp only [hfamily, Bool.and_eq_true, Bool.not_eq_true'] at htrust
          obtain ⟨⟨hnumeral, -⟩, hexceeds⟩ := htrust
          obtain ⟨hnumber, hle⟩ := number_of_numeral hnumeral hexceeds (bits_le family)
          refine ⟨family, rfl, ?_, fun count hcount => ?_⟩
          · simp only [hnumber, Option.map_some]
          · obtain rfl := Option.some.inj hcount
            exact hle

end Compiled

section Readings

variable {text ip cidr : Text} {family : Family}

theorem notMem_of_isIPv4 {c : Char} (hdotted : isIPv4 text = true) (hdot : c ≠ '.')
    (hdigit : isDigitIn 10 c = false) : c ∉ text := by
  intro hmem
  rcases of_mem_isIPv4 hdotted hmem with heq | hin
  · exact hdot heq
  · rw [hdigit] at hin
    cases hin

/-- The part of an address in front of its zone is an address. -/
theorem isIP_takeWhile (hip : isIP text = some family) :
    isIP (text.takeWhile (· ≠ '%')) = some family := by
  cases family with
  | v4 =>
      have hbare := notMem_of_isIPv4 (c := '%') (of_isIP_v4 hip) (by decide) (by decide)
      rw [takeWhile_of_bare hbare, hip]
  | v6 =>
      have hbody := isIPv6Body_of_isIP hip
      have h4 : isIPv4 (text.takeWhile (· ≠ '%')) = false := by
        rw [← Bool.not_eq_true]
        intro h4
        have hcolon := notMem_of_isIPv4 (c := ':') h4 (by decide) (by decide)
        rw [isIPv6Body_of_notMem hcolon] at hbody
        cases hbody
      have hzone : (text.takeWhile (· ≠ '%')).dropWhile (· ≠ '%') = [] := by
        rw [List.dropWhile_eq_nil_iff]
        intro c hc
        simpa using List.mem_takeWhile_imp hc
      have h6 : isIPv6 (text.takeWhile (· ≠ '%')) = true := by
        rw [isIPv6, hzone, takeWhile_of_bare fun hmem => by simpa using List.mem_takeWhile_imp hmem,
          hbody]
        rfl
      rw [isIP, h4, h6]
      rfl

theorem unzonedValue_lt (hip : isIP text = some family) :
    unzonedValue text family < 2 ^ family.bits :=
  ownValue_lt (fun hmem => by simpa using List.mem_takeWhile_imp hmem) (isIP_takeWhile hip)

end Readings

section Answers

variable {ip cidr : Text}

/-- Two sides that are read as they are written are compared rightly where they can be. -/
theorem answersRight_iff_comparable (hcompiled : Compiled cidr)
    (hnet : parseIp (networkText cidr) = .ok (networkAddress cidr))
    (hip : parseIp ip = .ok (bareAddress ip)) : AnswersRight ip cidr ↔ Comparable ip cidr := by
  obtain ⟨netFamily, hfamily, hsplit, hcount⟩ := hcompiled.parts
  rw [networkAddress, hfamily, Option.map_some] at hnet
  have hnetLt := unzonedValue_lt hfamily
  rw [AnswersRight, Comparable, networkIn, hfamily, Option.map_some, Option.any_some]
  by_cases hbare : '%' ∈ Text.trim ip
  · rw [bareAddress, if_pos hbare] at hip
    rw [ipMatchesCidr_of_none hnet hip, decide_eq_false (not_not.mpr hbare), Bool.false_and]
    refine iff_of_true rfl fun haddr => ?_
    exact absurd hbare (notMem_of_isIPv4 (of_isIP_v4 haddr) (by decide) (by decide))
  · rw [decide_eq_true hbare, Bool.true_and, Network.holds]
    cases haddr : isIP (Text.trim ip) with
    | none =>
        rw [bareAddress, if_neg hbare, haddr] at hip
        rw [ipMatchesCidr_of_none hnet hip, canonical, haddr]
        exact iff_of_true rfl fun hfour => by cases hfour
    | some addrFamily =>
        rw [bareAddress, if_neg hbare, haddr, Option.map_some] at hip
        have haddrLt := ownValue_lt hbare haddr
        rw [ipMatchesCidr_of_read hsplit hnet hnetLt hip haddrLt, canonical_of_bare hbare haddr,
          Option.any_some, Except.ok.injEq, Bool.eq_iff_iff, decide_eq_true_eq]
        by_cases hfamilies : netFamily = .v6 ∧ addrFamily = .v4 ∧ countOf cidr ≠ none
        · obtain ⟨rfl, rfl, hsome⟩ := hfamilies
          obtain ⟨count, hcountOf⟩ := Option.ne_none_iff_exists'.mp hsome
          rw [hcountOf, Family.lift, judged_iff_contains_iff haddrLt]
          simp
        · refine iff_of_true (judged_iff hnetLt haddrLt hcount fun hnetSix haddrFour => ?_) ?_
          · by_contra hsome
            exact hfamilies ⟨hnetSix, haddrFour, hsome⟩
          · intro haddrFour hnetSix count hcountOf
            refine absurd ⟨Option.some.inj hnetSix, Option.some.inj haddrFour, ?_⟩ hfamilies
            rw [hcountOf]
            exact Option.some_ne_none count

/-- A network without a zone is read as it is written. -/
theorem parseIp_networkText (hcompiled : Compiled cidr) (hbare : '%' ∉ networkText cidr) :
    parseIp (networkText cidr) = .ok (networkAddress cidr) := by
  obtain ⟨family, hfamily, -, -⟩ := hcompiled.parts
  have htrim : Text.trim (networkText cidr) = networkText cidr :=
    trim_of_isIP (by rw [hfamily]; rfl)
  have hread : parseIp (networkText cidr) = _ :=
    parseIp_of_bare (by rwa [htrim]) (by rw [htrim, hfamily])
  rw [hread, networkAddress, hfamily, htrim, Option.map_some, unzonedValue,
    takeWhile_of_bare hbare]

/-- So is an ip without a zone, and one with a zone that is no address. -/
theorem parseIp_bareAddress (hzone : '%' ∈ Text.trim ip → isIP (Text.trim ip) = none) :
    parseIp ip = .ok (bareAddress ip) := by
  rw [bareAddress]
  by_cases hbare : '%' ∈ Text.trim ip
  · rw [if_pos hbare, parseIp, hzone hbare]
  · rw [if_neg hbare]
    cases hip : isIP (Text.trim ip) with
    | none => rw [parseIp, hip, Option.map_none]
    | some family => rw [parseIp_of_bare hbare hip, Option.map_some]

/-- Without zones the answer is right where the two sides can be compared, and nowhere else. -/
theorem answersRight_iff (hcompiled : Compiled cidr) :
    (Zoneless ip cidr ∧ Comparable ip cidr → AnswersRight ip cidr) ∧
      (AnswersRight ip cidr → Comparable ip cidr ∨ ¬ Zoneless ip cidr) := by
  have hiff : Zoneless ip cidr → (AnswersRight ip cidr ↔ Comparable ip cidr) :=
    fun hzoneless => answersRight_iff_comparable hcompiled
      (parseIp_networkText hcompiled hzoneless.network) (parseIp_bareAddress hzoneless.address)
  refine ⟨fun ⟨hzoneless, hcomparable⟩ => (hiff hzoneless).mpr hcomparable, fun hright => ?_⟩
  by_cases hzoneless : Zoneless ip cidr
  · exact .inl ((hiff hzoneless).mp hright)
  · exact .inr hzoneless

end Answers

theorem compiled_of_entry {entry : Text} (hcompile : compileTrustList [entry] = .ok [entry]) :
    Compiled entry :=
  ⟨[entry], [entry], hcompile, List.mem_singleton_self entry⟩

theorem answersRight_iff_documented :
    (Zoneless "2001:DB8::7".toList "2001:db8::/32".toList ∧
        Comparable "2001:DB8::7".toList "2001:db8::/32".toList →
          AnswersRight "2001:DB8::7".toList "2001:db8::/32".toList) ∧
      (AnswersRight "2001:DB8::7".toList "2001:db8::/32".toList →
        Comparable "2001:DB8::7".toList "2001:db8::/32".toList ∨
          ¬ Zoneless "2001:DB8::7".toList "2001:db8::/32".toList) :=
  answersRight_iff (compiled_of_entry (by decide +kernel))

/-- A mapped network matches no IPv4 address; an address with a zone is matched, or makes the
match fail. -/
theorem not_answersRight :
    (Compiled "::ffff:10.0.0.0/104".toList ∧
        ¬ AnswersRight "10.0.0.1".toList "::ffff:10.0.0.0/104".toList) ∧
      Compiled "fe80::/10".toList ∧
      ¬ AnswersRight "fe80::1%eth0".toList "fe80::/10".toList ∧
      ipMatchesCidr "fe80::1%eth0.1".toList "fe80::/10".toList = .error .syntaxError := by
  have hmapped : ipMatchesCidr "10.0.0.1".toList "::ffff:10.0.0.0/104".toList = .ok false := by
    decide +kernel
  have hzone : ipMatchesCidr "fe80::1%eth0".toList "fe80::/10".toList = .ok true := by
    decide +kernel
  refine ⟨⟨compiled_of_entry (by decide +kernel), fun hright => ?_⟩,
    compiled_of_entry (by decide +kernel), fun hright => ?_, by decide +kernel⟩
  · rw [AnswersRight, hmapped] at hright
    revert hright
    decide +kernel
  · rw [AnswersRight, hzone] at hright
    revert hright
    decide +kernel

end X402Facilitator.TrustProxy
