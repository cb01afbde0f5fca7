import X402Facilitator.TrustProxy.Addresses

/-!
# Client addresses

Two hooks see a request before any route does.  The first resolves the address of
the client behind the trusted proxies, the second replaces it by a pseudonym: the
hexadecimal digest that everything after it takes for the address.
-/

namespace X402Facilitator.TrustProxy

def cloudflareIPv4Ranges : List String :=
  ["173.245.48.0/20", "103.21.244.0/22", "103.22.200.0/22", "103.31.4.0/22", "141.101.64.0/18",
    "108.162.192.0/18", "190.93.240.0/20", "188.114.96.0/20", "197.234.240.0/22",
    "198.41.128.0/17", "162.158.0.0/15", "104.16.0.0/13", "104.24.0.0/14", "172.64.0.0/13",
    "131.0.72.0/22"]

def cloudflareIPv6Ranges : List String :=
  ["2400:cb00::/32", "2606:4700::/32", "2803:f800::/32", "2405:b500::/32", "2405:8100::/32",
    "2a06:98c0::/29", "2c0f:f248::/32"]

/-- The members that every object inherits; none of them can be spread. -/
def objectMembers : List String :=
  ["constructor", "hasOwnProperty", "isPrototypeOf", "propertyIsEnumerable", "toLocaleString",
    "toString", "valueOf", "__defineGetter__", "__defineSetter__", "__lookupGetter__",
    "__lookupSetter__", "__proto__"]

/-- `NET_PRESETS`. -/
def netPreset (entry : Text) : Option (List String) :=
  if entry = "loopback".toList then some ["127.0.0.1/8", "::1/128"]
  else if entry = "linklocal".toList then some ["169.254.0.0/16", "fe80::/10"]
  else if entry = "uniquelocal".toList then
    some ["10.0.0.0/8", "172.16.0.0/12", "192.168.0.0/16", "fc00::/7"]
  else none

/-- Whether a trimmed entry of the list is an address or a CIDR. -/
def isTrustEntry (cidr : Text) : Bool :=
  match Text.splitLast '/' cidr with
  | none => (isIP cidr).isSome
  | some (network, length) =>
      match isIP network with
      | none => false
      | some family =>
          isNumeral 10 length && (Number.ofText length).isInteger &&
            !(Number.ofText length).exceeds family.bits

def compileEntry (entry : Text) : Except Thrown (List Text) :=
  match netPreset entry with
  | some ranges => .ok (ranges.map String.toList)
  | none =>
      if String.ofList entry ∈ objectMembers then .error .typeError
      else if isTrustEntry (Text.trim entry) then .ok [Text.trim entry]
      else .error (.error ("TRUST_PROXY list entries must be IPs, CIDRs, or presets — got \"" ++
        String.ofList entry ++ "\"."))

def compileTrustList (trust : List Text) : Except Thrown (List Text) :=
  (trust.mapM compileEntry).map List.flatten

inductive Setting where
  | unset
  | hops (count : Number)
  | list (entries : List Text)

inductive Trust where
  | nothing
  | hops (count : Number)
  | list (cidrs : List Text)

def Setting.compile : Setting → Except Thrown Trust
  | unset => .ok .nothing
  | hops count => .ok (.hops count)
  | list entries => (compileTrustList entries).map .list

/-- What is read of a request; `ip` is what `req.ip` gives. -/
structure FastifyRequest where
  ip : Option Text
  socketAddress : Option Text
  connectionAddress : Option Text
  headers : String → Option Text
  keyId : Option String

def parseForwardedFor (raw : Option Text) : List Text :=
  match raw with
  | none => []
  | some raw => ((raw.splitOn ',').map Text.trim).filter fun entry => !entry.isEmpty

def isCloudflareIp (ip : Text) : Except Thrown Bool := do
  let trimmed := Text.trim ip
  match isIP trimmed with
  | none => pure false
  | some .v4 => cloudflareIPv4Ranges.anyM fun cidr => ipMatchesCidr trimmed cidr.toList
  | some .v6 =>
      match ← parseIp trimmed with
      | none => throw .typeError
      | some address =>
          let ranges := if isIpv4Mapped address.value then cloudflareIPv4Ranges
            else cloudflareIPv6Ranges
          ranges.anyM fun cidr => ipMatchesCidr trimmed cidr.toList

/-- `CF-Connecting-IP`, where it is an address. -/
def cfConnectingIp (request : FastifyRequest) : Option Text :=
  ((request.headers "cf-connecting-ip").map Text.trim).filter fun candidate =>
    (isIP candidate).isSome

/-- `Math.max(0, Math.floor(trust))`, none for a count that no chain reaches. -/
def hopCount : Number → Option ℕ
  | .nan => none
  | .infinity negative => if negative then some 0 else none
  | .finite value => some value.floor.toNat

/-- The entry left of the trusted hops, of which the peer is the first. -/
def hopAddress (count : Number) (forwarded : List Text) (peer : Option Text) : Option Text :=
  match hopCount count with
  | none => peer
  | some hops =>
      if forwarded.length < hops then peer
      else ((forwarded.map some ++ [peer])[forwarded.length - hops]?).join <|> peer

def isTrusted (cidrs : List Text) : Option Text → Except Thrown Bool
  | none => .ok false
  | some ip => cidrs.anyM (ipMatchesCidr ip)

/-- The first entry of a chain that the list does not trust. -/
def firstUntrusted (cidrs : List Text) : List (Option Text) → Except Thrown (Option (Option Text))
  | [] => .ok none
  | entry :: rest => do
      if ← isTrusted cidrs entry then firstUntrusted cidrs rest else pure (some entry)

def resolveClientIp (request : FastifyRequest) (trust : Trust) : Except Thrown (Option Text) := do
  let peer := request.socketAddress <|> request.connectionAddress
  let cloudflare ← match peer with
    | none => pure false
    | some address => isCloudflareIp address
  match if cloudflare then cfConnectingIp request else none with
  | some candidate => pure (some candidate)
  | none =>
      let forwarded := parseForwardedFor (request.headers "x-forwarded-for")
      match trust with
      | .nothing => pure peer
      | .hops count => pure (hopAddress count forwarded peer)
      | .list cidrs => do
          let chain := peer :: forwarded.reverse.map some
          match ← firstUntrusted cidrs chain with
          | some entry => pure (entry <|> peer)
          | none => pure (chain.getLast?.join <|> peer)

/-- The hook of `createTrustProxyHook`. -/
def trustProxyHook (trust : Trust) (request : FastifyRequest) : Except Thrown FastifyRequest := do
  match ← resolveClientIp request trust with
  | some ip => pure { request with ip := some ip }
  | none => pure request

/-- The digests of `node:crypto`, without and with a key. -/
structure Crypto where
  sha256 : Text → List UInt8
  hmacSha256 : Text → Text → List UInt8

/-- An address that is absent or empty stays as it is. -/
def pseudonymizeIp (crypto : Crypto) (secret : Option Text) : Option Text → Option Text
  | none => none
  | some [] => some []
  | some ip =>
      let digest := match secret with
        | some key => crypto.hmacSha256 key ip
        | none => crypto.sha256 ip
      some ((Text.hex digest).take 24)

def pseudonymHook (crypto : Crypto) (secret : Option Text) (request : FastifyRequest) :
    FastifyRequest :=
  match pseudonymizeIp crypto secret request.ip with
  | some pseudonym => { request with ip := some pseudonym }
  | none => request

variable (crypto : Crypto) (secret : Option Text)

theorem pseudonymHook_ip (request : FastifyRequest) :
    (pseudonymHook crypto secret request).ip = pseudonymizeIp crypto secret request.ip := by
  rw [pseudonymHook]
  cases hip : request.ip with
  | none => exact hip
  | some ip => cases ip <;> rfl

/-- No pseudonym is an address. -/
theorem parseIp_pseudonym {ip : Option Text} {pseudonym : Text}
    (hpseudonym : pseudonymizeIp crypto secret ip = some pseudonym) :
    parseIp pseudonym = .ok none := by
  have hdigits : ∀ c ∈ pseudonym, isDigitIn 16 c = true := by
    intro c hc
    match ip, hpseudonym with
    | some [], rfl => cases hc
    | some (_ :: _), rfl => exact Text.isDigitIn_of_mem_hex (List.mem_of_mem_take hc)
  apply parseIp_of_notMem
  · intro hdot
    exact absurd (hdigits '.' hdot) (by decide)
  · intro hcolon
    exact absurd (hdigits ':' hcolon) (by decide)

end X402Facilitator.TrustProxy
