import X402Facilitator.TrustProxy.Matching
import X402Facilitator.TrustProxy.Selection

/-!
# Spoofed entries

The proxies append the addresses that they have seen to what the client has sent.  What is
resolved depends on these entries alone, where the peer and the listed networks can be read.
-/

namespace X402Facilitator.TrustProxy

/-- A header that proxies have appended their entries to, behind what the client has sent. -/
inductive Appended (front : Option Text) : List Text → Option Text → Prop where
  | nil : Appended front [] front
  | first {entry : Text} (hfront : front = none) : Appended front [entry] (some entry)
  | snoc {real : List Text} {header blanks entry : Text}
      (hheader : Appended front real (some header)) (hblanks : ∀ c ∈ blanks, isTrimmed c = true)
      (hcomma : ',' ∉ blanks) :
      Appended front (real ++ [entry]) (some (header ++ ',' :: (blanks ++ entry)))

/-- The conversion of a peer that is an address gives a value. -/
def Readable (peer : Text) : Prop :=
  isIP (Text.trim peer) = none ∨ ∃ address, parseIp (Text.trim peer) = .ok (some address)

/-- The conversion of a listed network does not fail. -/
def ReadableNetwork (cidr : Text) : Prop := ∃ net, parseIp (splitCidr cidr).1 = .ok net

def Trust.cidrs : Trust → List Text
  | list cidrs => cidrs
  | _ => []

/-- The address that a chain of proxies vouches for: the peer, the entry of a hop count from the
right, or the first one from the right that is not in the list. -/
inductive Expected (peer : Text) (real : List Text) : Trust → Text → Prop where
  | direct : Expected peer real .nothing peer
  | hop {count : Number} {n : ℕ} {entry : Text} (hcount : hopCount count = some (n + 1))
      (hentry : real.reverse[n]? = some entry) : Expected peer real (.hops count) entry
  | listed {cidrs before after : List Text} {entry : Text}
      (hchain : peer :: real.reverse = before ++ entry :: after)
      (hbefore : ∀ other ∈ before, isTrusted cidrs (some other) = .ok true)
      (hentry : isTrusted cidrs (some entry) ≠ .ok true) : Expected peer real (.list cidrs) entry

/-- No trust is configured, or the peer is not in the list. -/
def Unproxied (peer : Text) (trust : Trust) : Prop :=
  trust = .nothing ∨ ∃ cidrs, trust = .list cidrs ∧ isTrusted cidrs (some peer) ≠ .ok true

/-- The expected address is resolved whatever stands in front of the real entries, and the peer
whatever any header says where it is no proxy. -/
structure Steady (peer : Text) (real : List Text) (trust : Trust) (entry : Text) : Prop where
  entry : ∀ request front, request.peer = some peer →
    Appended front real (request.headers "x-forwarded-for") →
      resolveClientIp request trust = .ok (some entry)
  peer : Unproxied peer trust → ∀ request, request.peer = some peer →
    resolveClientIp request trust = .ok (some peer)

section Headers

variable {front raw : Option Text} {real : List Text} {entry : Text}

theorem trimStart_append {blanks text : Text} (hblanks : ∀ c ∈ blanks, isTrimmed c = true) :
    Text.trimStart (blanks ++ text) = Text.trimStart text :=
  List.dropWhile_append_of_pos hblanks

theorem trim_append {blanks text : Text} (hblanks : ∀ c ∈ blanks, isTrimmed c = true) :
    Text.trim (blanks ++ text) = Text.trim text := by
  rw [Text.trim, trimStart_append hblanks, ← Text.trim]

theorem notMem_of_bare (hip : (isIP entry).isSome = true) (hbare : '%' ∉ entry) : ',' ∉ entry := by
  intro hmem
  obtain ⟨family, hfamily⟩ := Option.isSome_iff_exists.mp hip
  cases family with
  | v4 =>
      rcases of_mem_isIPv4 (of_isIP_v4 hfamily) hmem with hdot | hdigit
      · exact absurd hdot (by decide)
      · exact absurd hdigit (by decide)
  | v6 =>
      rcases of_mem_isIPv6Body (of_isIP_v6 hbare hfamily) hmem with hcolon | hdot | hhex
      · exact absurd hcolon (by decide)
      · exact absurd hdot (by decide)
      · exact absurd hhex (by decide)

theorem isEmpty_of_isIP (hip : (isIP entry).isSome = true) : entry.isEmpty = false := by
  cases entry with
  | nil => cases hip
  | cons c rest => rfl

/-- An address that is appended is an entry of its own. -/
theorem parseForwardedFor_snoc {header blanks : Text} (hip : (isIP entry).isSome = true)
    (hbare : '%' ∉ entry) (hblanks : ∀ c ∈ blanks, isTrimmed c = true) (hcomma : ',' ∉ blanks) :
    parseForwardedFor (some (header ++ ',' :: (blanks ++ entry))) =
      parseForwardedFor (some header) ++ [entry] := by
  have hlast : (blanks ++ entry).splitOn ',' = [blanks ++ entry] := by
    apply List.splitOn_eq_singleton
    rw [List.mem_append, not_or]
    exact ⟨hcomma, notMem_of_bare hip hbare⟩
  simp only [parseForwardedFor]
  rw [List.splitOn_append_cons_self, hlast, List.map_append, List.filter_append]
  simp only [List.map_cons, List.map_nil, trim_append hblanks, trim_of_isIP hip, List.filter_cons,
    List.filter_nil, isEmpty_of_isIP hip, Bool.not_false, if_true]

theorem parseForwardedFor_singleton (hip : (isIP entry).isSome = true) (hbare : '%' ∉ entry) :
    parseForwardedFor (some entry) = [entry] := by
  simp only [parseForwardedFor]
  rw [List.splitOn_eq_singleton (notMem_of_bare hip hbare)]
  simp only [List.map_cons, List.map_nil, trim_of_isIP hip, List.filter_cons, List.filter_nil,
    isEmpty_of_isIP hip, Bool.not_false, if_true]

/-- The real entries are the last ones. -/
theorem parseForwardedFor_of_appended (happended : Appended front real raw)
    (hreal : ∀ entry ∈ real, (isIP entry).isSome = true ∧ '%' ∉ entry) :
    parseForwardedFor raw = parseForwardedFor front ++ real := by
  induction happended with
  | nil => rw [List.append_nil]
  | first hfront =>
      obtain ⟨hip, hbare⟩ := hreal _ (List.mem_singleton_self _)
      rw [hfront, parseForwardedFor_singleton hip hbare]
      rfl
  | snoc hheader hblanks hcomma ih =>
      obtain ⟨hip, hbare⟩ := hreal _ (List.mem_append_right _ (List.mem_singleton_self _))
      rw [parseForwardedFor_snoc hip hbare hblanks hcomma,
        ih fun other hother => hreal other (List.mem_append_left _ hother), List.append_assoc]

end Headers

section Lookups

variable {peer ip cidr : Text} {cidrs : List Text}

theorem anyM_ok {A : Type} {xs : List A} {f : A → Except Thrown Bool}
    (hall : ∀ x ∈ xs, ∃ answer, f x = .ok answer) : ∃ answer, xs.anyM f = .ok answer := by
  induction xs with
  | nil => exact ⟨false, rfl⟩
  | cons x xs ih =>
      obtain ⟨first, hfirst⟩ := hall x List.mem_cons_self
      obtain ⟨answer, hanswer⟩ := ih fun other hother => hall other (List.mem_cons_of_mem x hother)
      rw [List.anyM, hfirst]
      cases first with
      | true => exact ⟨true, rfl⟩
      | false => exact ⟨answer, hanswer⟩

/-- A list that is searched in vain has been read whole. -/
theorem of_anyM_false {xs : List Text} {f : Text → Except Thrown Bool}
    (hnone : xs.anyM f = .ok false) : ∀ x ∈ xs, f x = .ok false := by
  induction xs with
  | nil => exact fun x hx => absurd hx List.not_mem_nil
  | cons x xs ih =>
      rw [List.anyM] at hnone
      cases hfirst : f x with
      | error thrown =>
          rw [hfirst] at hnone
          cases hnone
      | ok first =>
          rw [hfirst] at hnone
          cases first with
          | true => cases hnone
          | false =>
              intro other hother
              rcases List.mem_cons.mp hother with rfl | hinside
              · exact hfirst
              · exact ih hnone other hinside

theorem isTrusted_ok (hip : ∃ address, parseIp ip = .ok address)
    (hcidrs : ∀ cidr ∈ cidrs, ReadableNetwork cidr) :
    ∃ answer, isTrusted cidrs (some ip) = .ok answer :=
  anyM_ok fun cidr hcidr => ipMatchesCidr_ok_iff.mpr ⟨hcidrs cidr hcidr, hip⟩

theorem readableNetwork_of_untrusted (huntrusted : isTrusted cidrs (some ip) = .ok false) :
    ∀ cidr ∈ cidrs, ReadableNetwork cidr := fun cidr hcidr =>
  (ipMatchesCidr_ok_iff.mp ⟨false, of_anyM_false huntrusted cidr hcidr⟩).1

theorem readable_ranges : ∀ range ∈ cloudflareIPv4Ranges ++ cloudflareIPv6Ranges,
    ReadableNetwork range.toList := by
  have hall : ((cloudflareIPv4Ranges ++ cloudflareIPv6Ranges).all fun range =>
      (parseIp (splitCidr range.toList).1).isOk) = true := by decide +kernel
  intro range hrange
  have hok := List.all_eq_true.mp hall range hrange
  cases hnet : parseIp (splitCidr range.toList).1 with
  | error thrown =>
      rw [hnet] at hok
      cases hok
  | ok net => exact ⟨net, hnet⟩

theorem ranges_ok {ranges : List String} (hparse : ∃ address, parseIp ip = .ok address)
    (hranges : ranges ⊆ cloudflareIPv4Ranges ++ cloudflareIPv6Ranges) :
    ∃ answer, (ranges.anyM fun range => ipMatchesCidr ip range.toList) = .ok answer :=
  anyM_ok fun range hrange =>
    ipMatchesCidr_ok_iff.mpr ⟨readable_ranges range (hranges hrange), hparse⟩

theorem parseIp_of_isIP_v4 (hip : isIP (Text.trim peer) = some .v4) :
    ∃ address, parseIp peer = .ok (some address) := by
  have hbare : '%' ∉ Text.trim peer := by
    intro hmem
    rcases of_mem_isIPv4 (of_isIP_v4 hip) hmem with hdot | hdigit
    · exact absurd hdot (by decide)
    · exact absurd hdigit (by decide)
  exact ⟨_, parseIp_of_bare hbare hip⟩

theorem trim_trim (hip : (isIP (Text.trim peer)).isSome = true) :
    Text.trim (Text.trim peer) = Text.trim peer := trim_of_isIP hip

theorem parseIp_trim (hip : (isIP (Text.trim peer)).isSome = true) :
    parseIp (Text.trim peer) = parseIp peer := by
  rw [parseIp, parseIp]
  simp only [trim_trim hip]

/-- Whether a peer is one of the edge is answered where the peer can be read. -/
theorem isCloudflareIp_ok_iff : (∃ answer, isCloudflareIp peer = .ok answer) ↔ Readable peer := by
  rw [Readable]
  cases hip : isIP (Text.trim peer) with
  | none =>
      simp only [isCloudflareIp, hip, true_or, iff_true]
      exact ⟨false, rfl⟩
  | some family =>
      have hsome : (isIP (Text.trim peer)).isSome = true := by
        rw [hip]
        rfl
      cases family with
      | v4 =>
          obtain ⟨address, haddress⟩ := parseIp_of_isIP_v4 hip
          rw [← parseIp_trim hsome] at haddress
          simp only [isCloudflareIp, hip, haddress]
          exact iff_of_true (ranges_ok ⟨_, haddress⟩ (List.subset_append_left _ _))
            (.inr ⟨address, rfl⟩)
      | v6 =>
          simp only [isCloudflareIp, hip]
          cases hparse : parseIp (Text.trim peer) with
          | error thrown =>
              refine iff_of_false ?_ ?_
              · rintro ⟨answer, hanswer⟩
                cases hanswer
              · rintro (hnone | ⟨address, haddress⟩)
                · cases hnone
                · cases haddress
          | ok value =>
              cases value with
              | none =>
                  refine iff_of_false ?_ ?_
                  · rintro ⟨answer, hanswer⟩
                    cases hanswer
                  · rintro (hnone | ⟨address, haddress⟩)
                    · cases hnone
                    · cases haddress
              | some address =>
                  refine iff_of_true (ranges_ok ⟨_, hparse⟩ ?_) (.inr ⟨address, rfl⟩)
                  split
                  · exact List.subset_append_left _ _
                  · exact List.subset_append_right _ _

/-- A peer that can be read is read with its blanks as well. -/
theorem parseIp_of_readable (hreadable : Readable peer) :
    ∃ address, parseIp peer = .ok address := by
  rcases hreadable with hnone | ⟨address, haddress⟩
  · refine ⟨none, ?_⟩
    rw [parseIp]
    simp only [hnone]
  · cases hip : isIP (Text.trim peer) with
    | none =>
        refine ⟨none, ?_⟩
        rw [parseIp]
        simp only [hip]
    | some family =>
        rw [parseIp_trim (by rw [hip]; rfl)] at haddress
        exact ⟨_, haddress⟩

end Lookups

section Steady

variable {peer entry : Text} {real : List Text} {trust : Trust} {request : FastifyRequest}

theorem plain_of_readable (houtside : isCloudflareIp peer ≠ .ok true) (hreadable : Readable peer)
    (hpeer : request.peer = some peer) : Plain request := by
  intro other hother
  rw [hpeer] at hother
  obtain rfl := Option.some.inj hother
  obtain ⟨answer, hanswer⟩ := isCloudflareIp_ok_iff.mpr hreadable
  refine ⟨answer, hanswer, fun htrue => ?_⟩
  rw [htrue] at hanswer
  exact absurd hanswer houtside

def requestWith (peer : Text) (header : Option Text) : FastifyRequest where
  ip := some peer
  socketAddress := some peer
  connectionAddress := none
  headers := fun name => if name = "x-forwarded-for" then header else none
  keyId := none

/-- Each list of real entries has a header. -/
theorem exists_appended (real : List Text) : ∃ raw, Appended none real raw := by
  have hsome : ∀ rest : List Text, ∀ first header, Appended none first (some header) →
      ∃ raw, Appended none (first ++ rest) raw := by
    intro rest
    induction rest with
    | nil =>
        intro first header hheader
        rw [List.append_nil]
        exact ⟨some header, hheader⟩
    | cons entry rest ih =>
        intro first header hheader
        obtain ⟨raw, hraw⟩ := ih (first ++ [entry]) _
          (@Appended.snoc none first header [] entry hheader
            (fun c hc => absurd hc List.not_mem_nil) List.not_mem_nil)
        rw [List.append_assoc] at hraw
        exact ⟨raw, hraw⟩
  cases real with
  | nil => exact ⟨none, .nil⟩
  | cons entry rest => exact hsome rest [entry] entry (.first rfl)

/-- The chain of a request is the peer, the real entries and what the client has sent. -/
theorem chain_of_appended {front : Option Text} (hpeer : request.peer = some peer)
    (happended : Appended front real (request.headers "x-forwarded-for"))
    (hreal : ∀ entry ∈ real, (isIP entry).isSome = true ∧ '%' ∉ entry) :
    request.peer :: request.forwarded.reverse.map some =
      ((peer :: real.reverse) ++ (parseForwardedFor front).reverse).map some := by
  rw [FastifyRequest.forwarded, parseForwardedFor_of_appended happended hreal, hpeer,
    List.reverse_append]
  rfl

/-- The peer and the real entries can be looked up. -/
theorem parseIp_of_mem_chain (hreadable : Readable peer)
    (hreal : ∀ entry ∈ real, (isIP entry).isSome = true ∧ '%' ∉ entry)
    (hmem : entry ∈ peer :: real.reverse) : ∃ address, parseIp entry = .ok address := by
  rcases List.mem_cons.mp hmem with rfl | hinside
  · exact parseIp_of_readable hreadable
  · obtain ⟨hip, hbare⟩ := hreal entry (List.mem_reverse.mp hinside)
    obtain ⟨family, hfamily⟩ := Option.isSome_iff_exists.mp hip
    have htrim := trim_of_isIP hip
    exact ⟨_, parseIp_of_bare (by rw [htrim]; exact hbare) (by rw [htrim]; exact hfamily)⟩

theorem untrusted_of_readable {cidrs : List Text} (hparse : ∃ address, parseIp entry = .ok address)
    (hcidrs : ∀ cidr ∈ cidrs, ReadableNetwork cidr)
    (huntrusted : isTrusted cidrs (some entry) ≠ .ok true) :
    isTrusted cidrs (some entry) = .ok false := by
  obtain ⟨answer, hanswer⟩ := isTrusted_ok hparse hcidrs
  cases answer with
  | false => exact hanswer
  | true => exact absurd hanswer huntrusted

theorem readable_of_plain (hplain : Plain request) (hpeer : request.peer = some peer) :
    Readable peer := by
  obtain ⟨answer, hanswer, -⟩ := hplain peer hpeer
  exact isCloudflareIp_ok_iff.mp ⟨answer, hanswer⟩

/-- A steady answer has read the peer and the list. -/
theorem Steady.readable (hsteady : Steady peer real trust entry)
    (houtside : isCloudflareIp peer ≠ .ok true)
    (hreal : ∀ entry ∈ real, (isIP entry).isSome = true ∧ '%' ∉ entry)
    (hexpected : Expected peer real trust entry) :
    Readable peer ∧ ∀ cidr ∈ trust.cidrs, ReadableNetwork cidr := by
  obtain ⟨raw, hraw⟩ := exists_appended real
  have hpeer : (requestWith peer raw).peer = some peer := rfl
  have hresolve := resolveClientIp_iff.mp (hsteady.entry (requestWith peer raw) none hpeer hraw)
  cases hresolve with
  | edge hother hedge htext =>
      obtain rfl := Option.some.inj hother
      exact absurd hedge houtside
  | direct hplain htext | hop hplain hcount htext | short hplain hcount htext =>
      exact ⟨readable_of_plain hplain hpeer, fun cidr hcidr => absurd hcidr List.not_mem_nil⟩
  | untrusted hplain hchain hbefore htext =>
      exact ⟨readable_of_plain hplain hpeer, readableNetwork_of_untrusted htext⟩
  | trusted hplain hall hlast =>
      cases hexpected with
      | listed hchain hbefore hentry =>
          refine absurd (hall (some entry) ?_) hentry
          rw [chain_of_appended hpeer hraw hreal, hchain]
          simp

theorem Expected.steady (hexpected : Expected peer real trust entry)
    (houtside : isCloudflareIp peer ≠ .ok true)
    (hreal : ∀ entry ∈ real, (isIP entry).isSome = true ∧ '%' ∉ entry) (hreadable : Readable peer)
    (hcidrs : ∀ cidr ∈ trust.cidrs, ReadableNetwork cidr) : Steady peer real trust entry := by
  constructor
  · intro request front hpeer happended
    rw [resolveClientIp_of_plain (plain_of_readable houtside hreadable hpeer)]
    cases hexpected with
    | direct => rw [behindProxies, hpeer]
    | @hop count n entry hcount hentry =>
        obtain ⟨hlt, -⟩ := List.getElem?_eq_some_iff.mp hentry
        have hindex : request.forwarded.reverse[n]? = some entry := by
          rw [FastifyRequest.forwarded, parseForwardedFor_of_appended happended hreal,
            List.reverse_append, List.getElem?_append_left hlt, hentry]
        rw [behindProxies, hopAddress_eq, hcount]
        simp only [hindex]
        rfl
    | @listed cidrs before after entry hchain hbefore hentry =>
        have hmem : entry ∈ peer :: real.reverse := by
          rw [hchain]
          exact List.mem_append_right before List.mem_cons_self
        have huntrusted := untrusted_of_readable (parseIp_of_mem_chain hreadable hreal hmem) hcidrs
          hentry
        have hwhole := chain_of_appended hpeer happended hreal
        rw [hchain, List.append_assoc, List.cons_append, List.map_append, List.map_cons] at hwhole
        refine behindProxies_list_of_untrusted hwhole (fun other hother => ?_) huntrusted
        obtain ⟨text, htext, rfl⟩ := List.mem_map.mp hother
        exact hbefore text htext
  · intro hunproxied request hpeer
    rw [resolveClientIp_of_plain (plain_of_readable houtside hreadable hpeer)]
    rcases hunproxied with rfl | ⟨cidrs, rfl, huntrusted⟩
    · rw [behindProxies, hpeer]
    · have hanswer : isTrusted cidrs (some peer) = .ok false :=
        untrusted_of_readable (parseIp_of_readable hreadable) hcidrs huntrusted
      have hchain : request.peer :: request.forwarded.reverse.map some =
          [] ++ some peer :: request.forwarded.reverse.map some := by
        rw [hpeer]
        rfl
      rw [behindProxies_list_of_untrusted hchain
        (fun other hother => absurd hother List.not_mem_nil) hanswer]
      rfl

/-- What a client sends in front of the real entries changes nothing, exactly where the peer and
the listed networks can be read. -/
theorem steady_iff (houtside : isCloudflareIp peer ≠ .ok true)
    (hreal : ∀ entry ∈ real, (isIP entry).isSome = true ∧ '%' ∉ entry)
    (hexpected : Expected peer real trust entry) :
    Steady peer real trust entry ↔
      Readable peer ∧ ∀ cidr ∈ trust.cidrs, ReadableNetwork cidr :=
  ⟨fun hsteady => hsteady.readable houtside hreal hexpected,
    fun hreadable => hexpected.steady houtside hreal hreadable.1 hreadable.2⟩

end Steady

theorem steady_iff_hop :
    Steady "10.0.0.1".toList ["192.0.2.1".toList, "10.0.0.2".toList] (.hops (.finite 2))
        "192.0.2.1".toList ↔
      Readable "10.0.0.1".toList ∧
        ∀ cidr ∈ (Trust.hops (.finite 2)).cidrs, ReadableNetwork cidr :=
  steady_iff (by decide +kernel) (by decide +kernel) (.hop (n := 1) (by decide +kernel) rfl)

/-- A peer on an interface whose name has a dot. -/
theorem zone_not_steady :
    isCloudflareIp "fe80::1%eth0.100".toList ≠ .ok true ∧
      Expected "fe80::1%eth0.100".toList [] .nothing "fe80::1%eth0.100".toList ∧
      ¬ Steady "fe80::1%eth0.100".toList [] .nothing "fe80::1%eth0.100".toList := by
  have hedge : isCloudflareIp "fe80::1%eth0.100".toList = .error .syntaxError := by decide +kernel
  refine ⟨by rw [hedge]; exact fun heq => (by cases heq), .direct, fun hsteady => ?_⟩
  have hresolve := hsteady.entry (requestWith "fe80::1%eth0.100".toList none) none rfl .nil
  rw [resolveClientIp_of_error rfl hedge] at hresolve
  cases hresolve

end X402Facilitator.TrustProxy
