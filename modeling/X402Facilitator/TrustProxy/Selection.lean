import X402Facilitator.TrustProxy.ClientIp

/-!
# Selected texts

Which text of a request is taken for the address of its client: that of the edge, the peer, an
entry counted from the right, or the first one from the right that is not trusted.
-/

namespace X402Facilitator.TrustProxy

/-- The socket's address, or that of the connection. -/
def FastifyRequest.peer (request : FastifyRequest) : Option Text :=
  request.socketAddress <|> request.connectionAddress

/-- The entries of `X-Forwarded-For`. -/
def FastifyRequest.forwarded (request : FastifyRequest) : List Text :=
  parseForwardedFor (request.headers "x-forwarded-for")

def Plain (request : FastifyRequest) : Prop :=
  ∀ peer ∈ request.peer, ∃ cloudflare, isCloudflareIp peer = .ok cloudflare ∧
    (cloudflare = true → cfConnectingIp request = none)

/-- The text that a request offers for the address of its client. -/
inductive Selects (request : FastifyRequest) : Trust → Text → Prop where
  | edge {trust : Trust} {peer text : Text} (hpeer : peer ∈ request.peer)
      (hedge : isCloudflareIp peer = .ok true) (htext : cfConnectingIp request = some text) :
      Selects request trust text
  | direct {text : Text} (hplain : Plain request) (hpeer : request.peer = some text) :
      Selects request .nothing text
  | hop {count : Number} {n : ℕ} {text : Text} (hplain : Plain request)
      (hcount : hopCount count = some (n + 1)) (htext : request.forwarded.reverse[n]? = some text) :
      Selects request (.hops count) text
  | short {count : Number} {text : Text} (hplain : Plain request)
      (hcount : ∀ n, hopCount count = some (n + 1) → request.forwarded.length ≤ n)
      (hpeer : request.peer = some text) : Selects request (.hops count) text
  | untrusted {cidrs : List Text} {before after : List (Option Text)} {text : Text}
      (hplain : Plain request)
      (hchain : request.peer :: request.forwarded.reverse.map some = before ++ some text :: after)
      (hbefore : ∀ entry ∈ before, isTrusted cidrs entry = .ok true)
      (htext : isTrusted cidrs (some text) = .ok false) : Selects request (.list cidrs) text
  | trusted {cidrs : List Text} {text : Text} (hplain : Plain request)
      (hchain : ∀ entry ∈ request.peer :: request.forwarded.reverse.map some,
        isTrusted cidrs entry = .ok true)
      (hlast : (request.peer :: request.forwarded.reverse.map some).getLast? = some (some text)) :
      Selects request (.list cidrs) text

section Walks

variable {cidrs : List Text} {chain : List (Option Text)} {entry : Option Text}

theorem firstUntrusted_cons_of_trusted (hentry : isTrusted cidrs entry = .ok true) :
    firstUntrusted cidrs (entry :: chain) = firstUntrusted cidrs chain := by
  rw [firstUntrusted, hentry]
  rfl

theorem firstUntrusted_cons_of_untrusted (hentry : isTrusted cidrs entry = .ok false) :
    firstUntrusted cidrs (entry :: chain) = .ok (some entry) := by
  rw [firstUntrusted, hentry]
  rfl

theorem firstUntrusted_cons_of_error {thrown : Thrown}
    (hentry : isTrusted cidrs entry = .error thrown) :
    firstUntrusted cidrs (entry :: chain) = .error thrown := by
  rw [firstUntrusted, hentry]
  rfl

theorem firstUntrusted_append {before : List (Option Text)}
    (hbefore : ∀ entry ∈ before, isTrusted cidrs entry = .ok true) :
    firstUntrusted cidrs (before ++ chain) = firstUntrusted cidrs chain := by
  induction before with
  | nil => rfl
  | cons first before ih =>
      rw [List.cons_append, firstUntrusted_cons_of_trusted (hbefore first List.mem_cons_self)]
      exact ih fun other hother => hbefore other (List.mem_cons_of_mem first hother)

/-- A walk that ends in front of the end of its chain. -/
theorem firstUntrusted_eq_some_iff : firstUntrusted cidrs chain = .ok (some entry) ↔
    ∃ before after, chain = before ++ entry :: after ∧
      (∀ other ∈ before, isTrusted cidrs other = .ok true) ∧
      isTrusted cidrs entry = .ok false := by
  constructor
  · intro hwalk
    induction chain with
    | nil => cases hwalk
    | cons first chain ih =>
        cases hfirst : isTrusted cidrs first with
        | error thrown =>
            rw [firstUntrusted_cons_of_error hfirst] at hwalk
            cases hwalk
        | ok trusted =>
            cases trusted with
            | false =>
                rw [firstUntrusted_cons_of_untrusted hfirst] at hwalk
                cases hwalk
                exact ⟨[], chain, rfl, fun other hother => absurd hother List.not_mem_nil, hfirst⟩
            | true =>
                rw [firstUntrusted_cons_of_trusted hfirst] at hwalk
                obtain ⟨before, after, rfl, hbefore, hentry⟩ := ih hwalk
                refine ⟨first :: before, after, rfl, fun other hother => ?_, hentry⟩
                rcases List.mem_cons.mp hother with rfl | hinside
                · exact hfirst
                · exact hbefore other hinside
  · rintro ⟨before, after, rfl, hbefore, hentry⟩
    rw [firstUntrusted_append hbefore, firstUntrusted_cons_of_untrusted hentry]

/-- A walk that reaches the end of its chain. -/
theorem firstUntrusted_eq_none_iff : firstUntrusted cidrs chain = .ok none ↔
    ∀ entry ∈ chain, isTrusted cidrs entry = .ok true := by
  constructor
  · intro hwalk
    induction chain with
    | nil => exact fun entry hentry => absurd hentry List.not_mem_nil
    | cons first chain ih =>
        cases hfirst : isTrusted cidrs first with
        | error thrown =>
            rw [firstUntrusted_cons_of_error hfirst] at hwalk
            cases hwalk
        | ok trusted =>
            cases trusted with
            | false =>
                rw [firstUntrusted_cons_of_untrusted hfirst] at hwalk
                cases hwalk
            | true =>
                rw [firstUntrusted_cons_of_trusted hfirst] at hwalk
                intro entry hentry
                rcases List.mem_cons.mp hentry with rfl | hinside
                · exact hfirst
                · exact ih hwalk entry hinside
  · intro hchain
    have hwalk : firstUntrusted cidrs (chain ++ []) = .ok none := firstUntrusted_append hchain
    rw [List.append_nil] at hwalk
    exact hwalk

end Walks

section Resolution

variable {request : FastifyRequest} {trust : Trust} {count : Number} {cidrs : List Text}
variable {text peer : Text}

def behindProxies (request : FastifyRequest) : Trust → Except Thrown (Option Text)
  | .nothing => .ok request.peer
  | .hops count => .ok (hopAddress count request.forwarded request.peer)
  | .list cidrs => do
      let chain := request.peer :: request.forwarded.reverse.map some
      match ← firstUntrusted cidrs chain with
      | some entry => pure (entry <|> request.peer)
      | none => pure (chain.getLast?.join <|> request.peer)

theorem resolveClientIp_of_none (hpeer : request.peer = none) :
    resolveClientIp request trust = behindProxies request trust := by
  rw [FastifyRequest.peer] at hpeer
  simp only [resolveClientIp, hpeer]
  cases trust <;> simp only [behindProxies, FastifyRequest.peer, hpeer] <;> rfl

theorem resolveClientIp_of_some {cloudflare : Bool} (hpeer : request.peer = some peer)
    (hedge : isCloudflareIp peer = .ok cloudflare) :
    resolveClientIp request trust =
      match if cloudflare then cfConnectingIp request else none with
      | some candidate => .ok (some candidate)
      | none => behindProxies request trust := by
  rw [FastifyRequest.peer] at hpeer
  simp only [resolveClientIp, hpeer, hedge]
  cases trust <;> simp only [behindProxies, FastifyRequest.peer, hpeer] <;> rfl

theorem resolveClientIp_of_error {thrown : Thrown} (hpeer : request.peer = some peer)
    (hedge : isCloudflareIp peer = .error thrown) :
    resolveClientIp request trust = .error thrown := by
  rw [FastifyRequest.peer] at hpeer
  simp only [resolveClientIp, hpeer, hedge]
  rfl

theorem resolveClientIp_of_plain (hplain : Plain request) :
    resolveClientIp request trust = behindProxies request trust := by
  cases hpeer : request.peer with
  | none => exact resolveClientIp_of_none hpeer
  | some peer =>
      obtain ⟨cloudflare, hcloudflare, hnone⟩ := hplain peer hpeer
      rw [resolveClientIp_of_some hpeer hcloudflare]
      cases cloudflare with
      | false => rfl
      | true =>
          rw [hnone rfl]
          rfl

theorem resolveClientIp_of_edge (hpeer : request.peer = some peer)
    (hedge : isCloudflareIp peer = .ok true) (htext : cfConnectingIp request = some text) :
    resolveClientIp request trust = .ok (some text) := by
  rw [resolveClientIp_of_some hpeer hedge, htext]
  rfl

/-- An edge vouches for the answer, or it is that of the proxies. -/
theorem resolveClientIp_cases {answer : Option Text}
    (hresolve : resolveClientIp request trust = .ok answer) :
    (∃ peer text, request.peer = some peer ∧ isCloudflareIp peer = .ok true ∧
        cfConnectingIp request = some text ∧ answer = some text) ∨
      (Plain request ∧ behindProxies request trust = .ok answer) := by
  cases hpeer : request.peer with
  | none =>
      right
      refine ⟨fun peer hmem => ?_, by rw [← resolveClientIp_of_none hpeer, hresolve]⟩
      rw [hpeer] at hmem
      cases hmem
  | some peer =>
      cases hedge : isCloudflareIp peer with
      | error thrown =>
          rw [resolveClientIp_of_error hpeer hedge] at hresolve
          cases hresolve
      | ok cloudflare =>
          by_cases hvouched : cloudflare = true ∧ (cfConnectingIp request).isSome = true
          · obtain ⟨rfl, hsome⟩ := hvouched
            obtain ⟨text, htext⟩ := Option.isSome_iff_exists.mp hsome
            rw [resolveClientIp_of_edge hpeer hedge htext] at hresolve
            exact .inl ⟨peer, text, rfl, hedge, htext, (Except.ok.inj hresolve).symm⟩
          · have hplain : Plain request := by
              intro other hother
              rw [hpeer] at hother
              obtain rfl := Option.some.inj hother
              refine ⟨cloudflare, hedge, fun htrue => ?_⟩
              rw [← Option.not_isSome_iff_eq_none]
              exact fun hsome => hvouched ⟨htrue, hsome⟩
            exact .inr ⟨hplain, by rw [← resolveClientIp_of_plain hplain, hresolve]⟩

/-- The entries behind the peer, from the right. -/
theorem hopAddress_eq (count : Number) (forwarded : List Text) (peer : Option Text) :
    hopAddress count forwarded peer =
      match hopCount count with
      | some (n + 1) => forwarded.reverse[n]? <|> peer
      | _ => peer := by
  rw [hopAddress]
  cases hopCount count with
  | none => rfl
  | some hops =>
      simp only
      cases hops with
      | zero =>
          rw [if_neg (Nat.not_lt_zero _), Nat.sub_zero,
            List.getElem?_append_right (by rw [List.length_map]), List.length_map, Nat.sub_self]
          cases peer <;> rfl
      | succ n =>
          split
          · next hshort =>
              have hnone : forwarded.reverse[n]? = none :=
                List.getElem?_eq_none (by rw [List.length_reverse]; omega)
              simp only [hnone]
              rfl
          · next hlong =>
              have hindex : forwarded.reverse[n]? = forwarded[forwarded.length - 1 - n]? :=
                List.getElem?_reverse (by omega)
              rw [List.getElem?_append_left (by rw [List.length_map]; omega), List.getElem?_map]
              simp only [hindex, Nat.sub_sub, Nat.add_comm 1 n]
              cases forwarded[forwarded.length - (n + 1)]? <;> rfl

theorem behindProxies_list_of_untrusted {before after : List (Option Text)} {entry : Option Text}
    (hchain : request.peer :: request.forwarded.reverse.map some = before ++ entry :: after)
    (hbefore : ∀ entry ∈ before, isTrusted cidrs entry = .ok true)
    (hentry : isTrusted cidrs entry = .ok false) :
    behindProxies request (.list cidrs) = .ok (entry <|> request.peer) := by
  have hwalk := firstUntrusted_eq_some_iff.mpr ⟨before, after, rfl, hbefore, hentry⟩
  rw [← hchain] at hwalk
  simp only [behindProxies, hwalk]
  rfl

theorem behindProxies_list_of_trusted
    (hchain : ∀ entry ∈ request.peer :: request.forwarded.reverse.map some,
      isTrusted cidrs entry = .ok true) :
    behindProxies request (.list cidrs) =
      .ok ((request.peer :: request.forwarded.reverse.map some).getLast?.join <|>
        request.peer) := by
  simp only [behindProxies, firstUntrusted_eq_none_iff.mpr hchain]
  rfl

theorem Selects.of_hops (hplain : Plain request)
    (haddress : hopAddress count request.forwarded request.peer = some text) :
    Selects request (.hops count) text := by
  rw [hopAddress_eq] at haddress
  cases hcount : hopCount count with
  | none =>
      rw [hcount] at haddress
      exact .short hplain (fun n hn => by rw [hcount] at hn; cases hn) haddress
  | some hops =>
      rw [hcount] at haddress
      cases hops with
      | zero => exact .short hplain (fun n hn => by rw [hcount] at hn; cases hn) haddress
      | succ n =>
          cases hindex : request.forwarded.reverse[n]? with
          | none =>
              simp only [hindex] at haddress
              refine .short hplain (fun m hm => ?_) haddress
              rw [hcount] at hm
              cases hm
              rw [List.getElem?_eq_none_iff, List.length_reverse] at hindex
              exact hindex
          | some entry =>
              simp only [hindex] at haddress
              obtain rfl := Option.some.inj haddress
              exact .hop hplain hcount hindex

/-- An entry that is missing is only the peer's. -/
theorem peer_of_none_mem
    (hmem : none ∈ request.peer :: request.forwarded.reverse.map some) : request.peer = none := by
  rcases List.mem_cons.mp hmem with hpeer | hentry
  · exact hpeer.symm
  · obtain ⟨entry, -, hentry⟩ := List.mem_map.mp hentry
    cases hentry

theorem Selects.of_list (hplain : Plain request)
    (hbehind : behindProxies request (.list cidrs) = .ok (some text)) :
    Selects request (.list cidrs) text := by
  simp only [behindProxies] at hbehind
  cases hwalk : firstUntrusted cidrs (request.peer :: request.forwarded.reverse.map some) with
  | error thrown =>
      rw [hwalk] at hbehind
      cases hbehind
  | ok found =>
      rw [hwalk] at hbehind
      cases found with
      | none =>
          have hanswer : ((request.peer :: request.forwarded.reverse.map some).getLast?.join <|>
            request.peer) = some text := Except.ok.inj hbehind
          have hchain := firstUntrusted_eq_none_iff.mp hwalk
          have hne : request.peer :: request.forwarded.reverse.map some ≠ [] :=
            List.cons_ne_nil _ _
          have hlast := List.getLast?_eq_some_getLast hne
          cases hentry : (request.peer :: request.forwarded.reverse.map some).getLast hne with
          | none =>
              have htrusted := hchain _ (List.getLast_mem hne)
              rw [hentry] at htrusted
              cases htrusted
          | some entry =>
              rw [hentry] at hlast
              rw [hlast] at hanswer
              obtain rfl := Option.some.inj hanswer
              exact .trusted hplain hchain hlast
      | some entry =>
          have hanswer : (entry <|> request.peer) = some text := Except.ok.inj hbehind
          obtain ⟨before, after, hchain, hbefore, huntrusted⟩ := firstUntrusted_eq_some_iff.mp hwalk
          cases entry with
          | none =>
              have hpeer : request.peer = none := peer_of_none_mem (by rw [hchain]; simp)
              rw [hpeer] at hanswer
              cases hanswer
          | some entry =>
              obtain rfl := Option.some.inj hanswer
              exact .untrusted hplain hchain hbefore huntrusted

/-- The text that is resolved is the one that the request offers. -/
theorem resolveClientIp_iff :
    resolveClientIp request trust = .ok (some text) ↔ Selects request trust text := by
  constructor
  · intro hresolve
    rcases resolveClientIp_cases hresolve with
      ⟨peer, candidate, hpeer, hedge, htext, hanswer⟩ | ⟨hplain, hbehind⟩
    · obtain rfl := Option.some.inj hanswer
      exact .edge hpeer hedge htext
    · cases trust with
      | nothing => exact .direct hplain (Except.ok.inj hbehind)
      | hops count => exact .of_hops hplain (Except.ok.inj hbehind)
      | list cidrs => exact .of_list hplain hbehind
  · intro hselects
    cases hselects with
    | edge hpeer hedge htext => exact resolveClientIp_of_edge hpeer hedge htext
    | direct hplain hpeer =>
        rw [resolveClientIp_of_plain hplain, behindProxies, hpeer]
    | hop hplain hcount htext =>
        rw [resolveClientIp_of_plain hplain, behindProxies, hopAddress_eq, hcount]
        simp only [htext]
        rfl
    | short hplain hcount hpeer =>
        rw [resolveClientIp_of_plain hplain, behindProxies, hopAddress_eq, hpeer]
        split
        · next n hn =>
            have hindex : request.forwarded.reverse[n]? = none :=
              List.getElem?_eq_none (by rw [List.length_reverse]; exact hcount n hn)
            rw [hindex]
            rfl
        · rfl
    | untrusted hplain hchain hbefore htext =>
        rw [resolveClientIp_of_plain hplain, behindProxies_list_of_untrusted hchain hbefore htext]
        rfl
    | trusted hplain hchain hlast =>
        rw [resolveClientIp_of_plain hplain, behindProxies_list_of_trusted hchain, hlast]
        rfl

end Resolution

end X402Facilitator.TrustProxy
