import X402Facilitator.Catalog.Memory
import X402Facilitator.Library.JsonObject
import X402Facilitator.Mcp.Server

/-!
# Checks of what an agent sends

A parameter is stripped of what a reader does not see, and refused where it does not have
the format of its field.
-/

namespace X402Facilitator.Mcp

/-- `TAG_CHARS` -/
def isTagChar (c : Char) : Bool := 0xE0000 ≤ c.toNat && c.toNat ≤ 0xE007F

/-- `INVISIBLE_CHARS` -/
def isInvisible (c : Char) : Bool :=
  (0x200B ≤ c.toNat && c.toNat ≤ 0x200F) || (0x202A ≤ c.toNat && c.toNat ≤ 0x202E) ||
    (0x2060 ≤ c.toNat && c.toNat ≤ 0x2064) || c.toNat = 0xFEFF

/-- `CONTROL_CHARS` -/
def isControl (c : Char) : Bool :=
  c.toNat ≤ 8 || c.toNat = 11 || c.toNat = 12 || (14 ≤ c.toNat && c.toNat ≤ 31) ||
    (127 ≤ c.toNat && c.toNat ≤ 159)

/-- What may be left of a text after at most so many of its first characters, the least
first. -/
def upTo (admits : Char → Bool) : ℕ → Text → List Text
  | limit + 1, c :: rest =>
      if admits c then upTo admits limit rest ++ [c :: rest] else [c :: rest]
  | _, text => [text]

def isAnsiOpener (c : Char) : Bool := c ∈ ['[', ']', '(', ')', '#', ';', '?']

def isAnsiFinal (c : Char) : Bool :=
  c.isDigit || ('A' ≤ c && c ≤ 'P') || ('R' ≤ c && c ≤ 'T') || c = 'Z' || c = 'c' ||
    ('f' ≤ c && c ≤ 'n') || ('q' ≤ c && c ≤ 'u') || c ∈ ['y', '=', '>', '<']

/-- `(?:;[0-9]{0,4})*` -/
def ansiParameters : ℕ → Text → List Text
  | limit + 1, ';' :: rest =>
      (upTo Char.isDigit 4 rest).flatMap (ansiParameters limit) ++ [';' :: rest]
  | _, text => [text]

/-- `(?:[0-9]{1,4}(?:;[0-9]{0,4})*)?` -/
def ansiNumbers : Text → List Text
  | c :: rest =>
      (if c.isDigit then
        (upTo Char.isDigit 3 rest).flatMap fun left => ansiParameters left.length left
      else []) ++ [c :: rest]
  | [] => [[]]

def afterAnsi (text : Text) : Option Text :=
  ((upTo isAnsiOpener text.length text).flatMap ansiNumbers).findSome? fun left =>
    match left with
    | c :: rest => if isAnsiFinal c then some rest else none
    | [] => none

/-- `replace(ANSI_ESCAPES, '')`, of a text of at most this length. -/
def stripAnsi : ℕ → Text → Text
  | length + 1, c :: rest =>
      if c.toNat = 0x1B || c.toNat = 0x9B then
        match afterAnsi rest with
        | some left => stripAnsi length left
        | none => c :: stripAnsi length rest
      else c :: stripAnsi length rest
  | _, text => text

/-- `replace(/\r\n?/g, '\n')` -/
def replaceReturns : Text → Text
  | '\r' :: '\n' :: rest => '\n' :: replaceReturns rest
  | '\r' :: rest => '\n' :: replaceReturns rest
  | c :: rest => c :: replaceReturns rest
  | [] => []

def stripUnsafeCharacters (value : String) : String :=
  let tagless := value.toList.filter fun c => !isTagChar c
  let visible := (stripAnsi tagless.length tagless).filter fun c => !isInvisible c
  String.ofList (replaceReturns (visible.filter fun c => !isControl c))

mutual

def scrub : Json → Json
  | .str value => .str (stripUnsafeCharacters value)
  | .arr items => .arr (scrubItems items)
  | .obj members => .obj (scrubMembers members [])
  | value => value

def scrubItems : List Json → List Json
  | [] => []
  | item :: items => scrub item :: scrubItems items

def scrubMembers : List (String × Json) → List (String × Json) → List (String × Json)
  | [], out => out
  | (name, value) :: members, out =>
      scrubMembers members (Json.assign out (stripUnsafeCharacters name) (scrub value))

end

/-- `new McpInputError(message, details)` -/
def mcpInputError (message : String) (details : List (String × Json)) : Thrown where
  isToolError := true
  payload := .json (.obj ([("code", .str "invalid_input"), ("message", .str message)] ++ details))
  message := message
  asText := "McpInputError: " ++ message

def fieldError (field rest : String) : Thrown :=
  mcpInputError ("'" ++ field ++ "' " ++ rest) [("field", .str field)]

/-- `length` -/
def unitLength (text : String) : ℕ := (text.toList.flatMap Catalog.codeUnits).length

structure TextOptions where
  field : String
  maxLength : ℕ := 512
  required : Bool := false
  pattern : Option (String → Bool) := none
  patternHint : String := ""

/-- `assertSafeText`; none is `undefined`. -/
def assertSafeText (value : Option Json) (options : TextOptions) : Except Thrown String :=
  match value with
  | none | some .null | some (.str "") =>
      if options.required then .error (fieldError options.field "is required") else .ok ""
  | some (.str text) =>
      let cleaned := String.ofList (Text.trim (stripUnsafeCharacters text).toList)
      if options.required && cleaned = "" then
        .error (fieldError options.field "must not be blank")
      else if options.maxLength < unitLength cleaned then
        .error (fieldError options.field
          ("must be at most " ++ toString options.maxLength ++ " characters"))
      else if options.pattern.any fun matches_ => !matches_ cleaned then
        .error (fieldError options.field
          (if options.patternHint = "" then "is malformed"
          else "is malformed: " ++ options.patternHint))
      else .ok cleaned
  | some _ => .error (fieldError options.field "must be a string")

def networkNames : List String := ["stellar:testnet", "stellar:pubnet", "stellar:soroban-testnet"]

def assertNetwork (value : String) : Except Thrown String :=
  assertSafeText (some (.str value))
    { field := "network", maxLength := 64, pattern := some (· ∈ networkNames)
      patternHint :=
        "expected one of stellar:testnet, stellar:pubnet, stellar:soroban-testnet" }

structure Url where
  protocol : String
  hostname : String
  pathname : String
  searchParams : List (String × String)
  href : String

/-- `assertHttpUrl`, over the platform's parser of addresses. -/
def assertHttpUrl (parseUrl : String → Option Url) (value : Option Json) (field : String) :
    Except Thrown Url := do
  let raw ← assertSafeText value { field := field, required := true, maxLength := 2048 }
  match parseUrl raw with
  | none => .error (fieldError field "must be an absolute URL")
  | some url =>
      if url.protocol ≠ "http:" && url.protocol ≠ "https:" then
        .error (fieldError field "must use one of: http:, https:")
      else if url.hostname = "" then .error (fieldError field "must include a host")
      else .ok url

end X402Facilitator.Mcp
