import Mathlib.Logic.Function.Basic
import X402Facilitator.Cors.Patterns
import X402Facilitator.Library.Cuts

/-!
# Granted origins

The hook reflects an origin that a pattern matches as a whole, or whose host name ends with a
match at a dot.  Patterns that spell one text each grant these texts and the hosts below them.
-/

namespace X402Facilitator.Cors

open JsString

def dot : UInt16 := 0x2E

/-- What the platform has: an engine for the patterns that are not read here, with the message
where it throws, and the host name of what parses as a URL. -/
structure Platform where
  regExp : JsString → Except JsString (JsString → Bool)
  hostname : JsString → Option JsString

/-- `new RegExp(...)` on an entry between its anchors, as the test on a whole string. -/
def compilePattern (platform : Platform) (entry : JsString) :
    Except JsString (JsString → Bool) :=
  match readPattern entry with
  | some regex => .ok regex.accepts
  | none =>
      match platform.regExp entry with
      | .ok test => .ok test
      | .error message => .error (js "CORS_ALLOWED_ORIGINS entry \"" ++ entry ++
          js "\" is not a valid regular expression: " ++ message)

def compileOriginPatterns (platform : Platform) (entries : List JsString) :
    Except JsString (List (JsString → Bool)) :=
  entries.mapM (compilePattern platform)

def suffixes (hostname : JsString) : List JsString :=
  let labels := hostname.splitOn dot
  (List.range labels.length).map fun i => List.intercalate [dot] (labels.drop i)

def originMatches (platform : Platform) (patterns : List (JsString → Bool))
    (origin : Option JsString) : Bool :=
  match origin with
  | none | some [] => false
  | some (unit :: rest) =>
      if patterns.any fun test => test (unit :: rest) then true
      else match platform.hostname (unit :: rest) with
        | none => false
        | some hostname =>
            (suffixes hostname).any fun suffix => patterns.any fun test => test suffix

inductive Policy where
  | publicReads
  | authenticated
  deriving DecidableEq

inductive HeaderName where
  | exposeHeaders
  | vary
  | allowOrigin
  | allowCredentials
  | allowMethods
  | allowHeaders
  | maxAge
  deriving DecidableEq

structure Reply where
  headers : HeaderName → Option JsString
  code : Option ℕ

namespace Reply

def fresh : Reply := ⟨fun _ => none, none⟩

def header (reply : Reply) (name : HeaderName) (value : JsString) : Reply :=
  { reply with headers := Function.update reply.headers name (some value) }

@[simp]
theorem header_self (reply : Reply) (name : HeaderName) (value : JsString) :
    (reply.header name value).headers name = some value := Function.update_self ..

@[simp]
theorem header_of_ne (reply : Reply) {name other : HeaderName} (value : JsString)
    (hne : other ≠ name) : (reply.header name value).headers other = reply.headers other :=
  Function.update_of_ne hne ..

end Reply

def exposedHeaders : JsString :=
  js "RateLimit-Limit, RateLimit-Remaining, RateLimit-Reset, Retry-After, EXTENSION-RESPONSES"

def wildcard : JsString := js "*"

def granted (allowlisted : Bool) (unconfigured : Bool) (policy : Policy)
    (origin : Option JsString) : Option JsString :=
  match policy with
  | .publicReads =>
      if allowlisted then origin else if unconfigured then some wildcard else none
  | .authenticated => if allowlisted then origin else none

/-- The headers of a grant that is a nonempty string. -/
def grant (reply : Reply) : Option JsString → Reply
  | none | some [] => reply
  | some (unit :: rest) =>
      let reply := reply.header .allowOrigin (unit :: rest)
      if unit :: rest ≠ wildcard then reply.header .allowCredentials (js "true") else reply

/-- The hook of a policy, on the patterns of the allowlist. -/
def cors (platform : Platform) (patterns : List (JsString → Bool)) (unconfigured : Bool)
    (policy : Policy) (origin : Option JsString) (reply : Reply) : Reply :=
  let reply := reply.header .exposeHeaders exposedHeaders
  let allowlisted := originMatches platform patterns origin
  grant (reply.header .vary (js "Origin")) (granted allowlisted unconfigured policy origin)

def createCorsHook (platform : Platform) (allowedOrigins : List JsString) :
    Except JsString (Policy → Option JsString → Reply → Reply) :=
  (compileOriginPatterns platform allowedOrigins).map fun patterns =>
    cors platform patterns allowedOrigins.isEmpty

/-- `methods ?? ...` -/
def allowMethods (policy : Policy) (methods : Option JsString) : JsString :=
  methods.getD (match policy with
    | .publicReads => js "GET, OPTIONS"
    | .authenticated => js "POST, OPTIONS")

def preflight (hook : Policy → Option JsString → Reply → Reply) (policy : Policy)
    (methods origin : Option JsString) (reply : Reply) : Reply :=
  let reply := hook policy origin reply
  let reply := reply.header .allowMethods (allowMethods policy methods)
  let reply := reply.header .allowHeaders (js "Authorization, Content-Type, X-402-Payment")
  let reply := reply.header .maxAge (js "86400")
  { reply with code := some 204 }

def createPreflightHandler (platform : Platform) (allowedOrigins : List JsString) :
    Except JsString (Policy → Option JsString → Option JsString → Reply → Reply) :=
  (createCorsHook platform allowedOrigins).map preflight

section Suffixes

variable {hostname string : JsString}

/-- The texts from the second label on are those behind a dot. -/
theorem exists_drop_iff : (∃ i, i + 1 < (hostname.splitOn dot).length ∧
      List.intercalate [dot] ((hostname.splitOn dot).drop (i + 1)) = string) ↔
    dot :: string <:+ hostname := by
  induction hostname with
  | nil => simp
  | cons unit hostname ih =>
      rw [splitOn_cons, List.suffix_cons_iff]
      split
      · next hdot =>
          have hwhole : List.intercalate [dot] (hostname.splitOn dot) = hostname :=
            List.intercalate_splitOn dot
          rw [← ih, hdot, List.cons.injEq, and_iff_right rfl]
          constructor
          · rintro ⟨i, hlength, hstring⟩
            cases i with
            | zero => exact .inl (hstring.symm.trans hwhole)
            | succ i => exact .inr ⟨i, Nat.lt_of_succ_lt_succ hlength, hstring⟩
          · rintro (rfl | ⟨i, hlength, hstring⟩)
            · have hpositive : 0 < (string.splitOn dot).length :=
                List.length_pos_of_ne_nil (List.splitOnP_ne_nil _ _)
              exact ⟨0, Nat.succ_lt_succ hpositive, hwhole⟩
            · exact ⟨i + 1, Nat.succ_lt_succ hlength, hstring⟩
      · next hunit =>
          have hne : ¬ dot :: string = unit :: hostname := fun heq =>
            hunit (List.cons.inj heq).1.symm
          rw [or_iff_right hne, ← ih, List.length_modifyHead]
          cases hostname.splitOn dot with
          | nil => rfl
          | cons first labels => rfl

/-- The host name and what is behind each of its dots. -/
theorem mem_suffixes_iff :
    string ∈ suffixes hostname ↔ hostname = string ∨ dot :: string <:+ hostname := by
  have hpositive : 0 < (hostname.splitOn dot).length :=
    List.length_pos_of_ne_nil (List.splitOnP_ne_nil _ _)
  rw [suffixes, List.mem_map, ← exists_drop_iff]
  constructor
  · rintro ⟨i, hi, rfl⟩
    cases i with
    | zero => exact .inl (List.intercalate_splitOn dot).symm
    | succ i => exact .inr ⟨i, List.mem_range.mp hi, rfl⟩
  · rintro (rfl | ⟨i, hlength, rfl⟩)
    · exact ⟨0, List.mem_range.mpr hpositive, List.intercalate_splitOn dot⟩
    · exact ⟨i + 1, List.mem_range.mpr hlength, rfl⟩

end Suffixes

end X402Facilitator.Cors
