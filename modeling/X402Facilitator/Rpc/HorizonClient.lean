import Mathlib.Data.Nat.Notation
import X402Facilitator.Library.InsertionMap

/-!
# The pooled fetch

`pooledBreakerFetch` goes through the circuit breaker of an origin.  A breaker runs one action
on the argument that it is fired with; a call that has an `init` fires it with a closure.
-/

namespace X402Facilitator.HorizonClient

/-- `new URL(text).origin`, none for a `TypeError`. -/
structure Urls where
  origin : String → Option String
  named : ∀ text, origin text ≠ some "unknown"
  empty : origin "" = none

/-- A `URL`, which has an origin, and no member `url`. -/
structure UrlObject (urls : Urls) where
  href : String
  origin : String
  parsed : urls.origin href = some origin

/-- The members of `init` that a fetch reads. -/
structure Init where
  method : Option String
  headers : List (String × String)
  body : Option String
  signal : Option ℕ
  deriving DecidableEq

inductive Input (urls : Urls) where
  | text (value : String)
  | url (object : UrlObject urls)
  | request (url : String) (init : Init)

variable {urls : Urls}

/-- The text that `originOf` parses. -/
def Input.address? : Input urls → Option String
  | .text value => some value
  | .url _ => none
  | .request address _ => some address

def originOf (input : Input urls) : String :=
  ((input.address?.filter (· ≠ "")).bind urls.origin).getD "unknown"

def Input.origin? : Input urls → Option String
  | .text value => urls.origin value
  | .url object => some object.origin
  | .request address _ => urls.origin address

/-- Inputs that name no origin count as one origin of their own. -/
def Input.ownOrigin (input : Input urls) : String := input.origin?.getD "unknown"

def Input.isUrlObject : Input urls → Bool
  | .url _ => true
  | _ => false

/-- The circuit breaker of the library: a call that it admits runs the action once, and ends as
the action does or with an error of its own after the timeout. -/
structure Opossum where
  timeout : Option ℕ
  State : Type
  initial : State
  opened : State
  admits : State → Bool
  after : State → Bool → State
  admits_initial : admits initial = true
  admits_opened : admits opened = false

/-- An `init` with the dispatcher of the pool. -/
structure FetchInit (Agent : Type) where
  init : Option Init
  dispatcher : Agent

/-- What the action is run on: an input, or a function of its own. -/
inductive Argument (urls : Urls) (Agent : Type) where
  | input (input : Input urls)
  | closure (input : Input urls) (init : FetchInit Agent)

structure Fetch (urls : Urls) (Agent : Type) where
  argument : Argument urls Agent
  init : FetchInit Agent

/-- When a fetch settles, in milliseconds, and with what. -/
inductive Ending (Answer : Type) where
  | settles (after : ℕ) (answer : Answer)
  | hangs

inductive Outcome (Answer : Type) where
  | refused (origin : String)
  | ended (answer : Answer)
  | timedOut
  | waiting

def Outcome.ofEnding {Answer : Type} : Ending Answer → Outcome Answer
  | .settles _ answer => .ended answer
  | .hangs => .waiting

/-- The fetch settles before the timeout, or there is none. -/
def Ending.inTime {Answer : Type} (timeout : Option ℕ) : Ending Answer → Bool
  | .settles after _ => timeout.all fun ms => decide (after < ms)
  | .hangs => timeout.isNone

/-- How a call ends, the fetches that it has made, and the breakers after it. -/
structure Call (urls : Urls) (opossum : Opossum) (Agent Answer : Type) where
  outcome : Outcome Answer
  fetches : List (Fetch urls Agent)
  breakers : InsertionMap String opossum.State

section Client

variable {Agent Answer : Type} (opossum : Opossum) (agent : Agent)
variable (originalFetch : Fetch urls Agent → Ending Answer) (succeeds : Answer → Bool)
variable (breakers : InsertionMap String opossum.State)

def breakerFor (origin : String) : opossum.State := (breakers.get origin).getD opossum.initial

/-- `fire`, with the action of the constructor. -/
def fire (origin : String) (argument : Argument urls Agent) : Call urls opossum Agent Answer :=
  let breaker := breakerFor opossum breakers origin
  if opossum.admits breaker then
    let fetch : Fetch urls Agent := ⟨argument, ⟨none, agent⟩⟩
    let ending := originalFetch fetch
    if ending.inTime opossum.timeout then
      ⟨.ofEnding ending, [fetch], breakers.set origin (match ending with
        | .settles _ answer => opossum.after breaker (succeeds answer)
        | .hangs => breaker)⟩
    else ⟨.timedOut, [fetch], breakers.set origin (opossum.after breaker false)⟩
  else ⟨.refused origin, [], breakers.set origin breaker⟩

def argumentOf (input : Input urls) : Option Init → Argument urls Agent
  | none => .input input
  | some init => .closure input ⟨some init, agent⟩

def pooledBreakerFetch (input : Input urls) (init : Option Init) :
    Call urls opossum Agent Answer :=
  fire opossum agent originalFetch succeeds breakers (originOf input) (argumentOf agent input init)

/-- A call is refused by the breaker of its own origin, or it makes the one fetch that was
asked for and ends as that does; it leaves the breakers of other origins alone. -/
def TransparentIn (input : Input urls) (init : Option Init) : Prop :=
  let call := pooledBreakerFetch opossum agent originalFetch succeeds breakers input init
  let fetch : Fetch urls Agent := ⟨.input input, ⟨init, agent⟩⟩
  (call.outcome = .refused input.ownOrigin ∧ call.fetches = [] ∨
    call.outcome = .ofEnding (originalFetch fetch) ∧ call.fetches = [fetch]) ∧
  ∀ origin, origin ≠ input.ownOrigin → call.breakers.get origin = breakers.get origin

/-- Transparency at any state of the breakers, and breakers of their own for any two origins. -/
def Transparent (input : Input urls) (init : Option Init) : Prop :=
  (∀ breakers, TransparentIn opossum agent originalFetch succeeds breakers input init) ∧
  ∀ (other : Input urls) (origin otherOrigin : String), input.origin? = some origin →
    other.origin? = some otherOrigin → otherOrigin ≠ origin → originOf other ≠ originOf input

end Client

variable {Agent Answer : Type} {opossum : Opossum} {agent : Agent}
variable {originalFetch : Fetch urls Agent → Ending Answer} {succeeds : Answer → Bool}
variable {input : Input urls} {init : Option Init}

theorem originOf_of_address {address : String} (haddress : input.address? = some address) :
    originOf input = (urls.origin address).getD "unknown" := by
  rw [originOf, haddress]
  by_cases hempty : address = ""
  · subst hempty
    rw [urls.empty]
    rfl
  · rw [Option.filter_some, decide_eq_true hempty]
    rfl

/-- The origin of a text or a request is its own. -/
theorem originOf_eq (hinput : input.isUrlObject = false) : originOf input = input.ownOrigin := by
  cases input with
  | text value => exact originOf_of_address rfl
  | url object => cases hinput
  | request address init => exact originOf_of_address rfl

theorem originOf_url (object : UrlObject urls) : originOf (.url object) = "unknown" := rfl

theorem ne_unknown_of_origin {input : Input urls} {origin : String}
    (horigin : input.origin? = some origin) : origin ≠ "unknown" := by
  rintro rfl
  cases input with
  | text value => exact urls.named value horigin
  | url object => exact urls.named object.href (object.parsed.trans horigin)
  | request address init => exact urls.named address horigin

/-- What one call of a breaker does. -/
theorem fire_cases (opossum : Opossum) (agent : Agent)
    (originalFetch : Fetch urls Agent → Ending Answer) (succeeds : Answer → Bool)
    (breakers : InsertionMap String opossum.State) (origin : String)
    (argument : Argument urls Agent) :
    (opossum.admits (breakerFor opossum breakers origin) = true ∧
      (fire opossum agent originalFetch succeeds breakers origin argument).outcome =
        (if (originalFetch ⟨argument, ⟨none, agent⟩⟩).inTime opossum.timeout then
          .ofEnding (originalFetch ⟨argument, ⟨none, agent⟩⟩)
        else .timedOut) ∧
      (fire opossum agent originalFetch succeeds breakers origin argument).fetches =
        [⟨argument, ⟨none, agent⟩⟩]) ∨
    (opossum.admits (breakerFor opossum breakers origin) = false ∧
      (fire opossum agent originalFetch succeeds breakers origin argument).outcome =
        .refused origin ∧
      (fire opossum agent originalFetch succeeds breakers origin argument).fetches = []) := by
  cases hadmits : opossum.admits (breakerFor opossum breakers origin) with
  | true =>
      left
      simp only [fire, hadmits, if_true, true_and]
      split
      · exact ⟨rfl, rfl⟩
      · exact ⟨rfl, rfl⟩
  | false =>
      right
      simp only [fire, hadmits, Bool.false_eq_true, if_false, and_self]

/-- A call touches the breaker of one origin. -/
theorem breakers_fire (breakers : InsertionMap String opossum.State) {origin other : String}
    (argument : Argument urls Agent) (hother : other ≠ origin) :
    (fire opossum agent originalFetch succeeds breakers origin argument).breakers.get other =
      breakers.get other := by
  rw [fire]
  split
  · dsimp only
    split
    · exact InsertionMap.get_set_of_ne breakers _ hother
    · exact InsertionMap.get_set_of_ne breakers _ hother
  · exact InsertionMap.get_set_of_ne breakers _ hother

def openedAt (opossum : Opossum) (origin : String) : InsertionMap String opossum.State :=
  InsertionMap.empty.set origin opossum.opened

theorem breakerFor_openedAt (origin : String) :
    breakerFor opossum (openedAt opossum origin) origin = opossum.opened := by
  rw [breakerFor, openedAt, InsertionMap.get_set_self]
  rfl

/-- A closure is no input. -/
theorem not_transparentIn_closure (input : Input urls) (init : Init) :
    ¬ TransparentIn opossum agent originalFetch succeeds .empty input (some init) := by
  rintro ⟨hcall, -⟩
  rcases fire_cases opossum agent originalFetch succeeds .empty (originOf input)
    (.closure input ⟨some init, agent⟩) with ⟨-, -, hfetches⟩ | ⟨hrefused, -⟩
  · rcases hcall with ⟨-, hnone⟩ | ⟨-, hsame⟩
    · cases hfetches.symm.trans hnone
    · cases hfetches.symm.trans hsame
  · have hadmits := opossum.admits_initial
    rw [breakerFor, InsertionMap.get_empty, Option.getD_none, hadmits] at hrefused
    cases hrefused

theorem ofEnding_ne_refused (ending : Ending Answer) (origin : String) :
    Outcome.ofEnding ending ≠ .refused origin := by
  cases ending <;> simp [Outcome.ofEnding]

theorem ofEnding_ne_timedOut (ending : Ending Answer) :
    Outcome.ofEnding ending ≠ .timedOut := by
  cases ending <;> simp [Outcome.ofEnding]

/-- A `URL` is refused by a breaker that is not of its origin. -/
theorem not_transparentIn_url (object : UrlObject urls) (init : Option Init) :
    ¬ TransparentIn opossum agent originalFetch succeeds (openedAt opossum "unknown")
      (.url object) init := by
  rintro ⟨hcall, -⟩
  rcases fire_cases opossum agent originalFetch succeeds
    (openedAt opossum "unknown") (originOf (.url object)) (argumentOf agent (.url object) init) with
    ⟨hadmits, -⟩ | ⟨-, hrefused, -⟩
  · rw [originOf_url, breakerFor_openedAt, opossum.admits_opened] at hadmits
    cases hadmits
  · rcases hcall with ⟨hown, -⟩ | ⟨hended, -⟩
    · have horigin : "unknown" = object.origin :=
        Outcome.refused.inj (hrefused.symm.trans hown)
      have hnamed : (Input.url object).origin? = some object.origin := rfl
      exact ne_unknown_of_origin hnamed horigin.symm
    · exact absurd (hrefused.symm.trans hended).symm (ofEnding_ne_refused _ _)

theorem originOf_ne {other : Input urls} {origin otherOrigin : String}
    (hinput : input.isUrlObject = false) (hnamed : input.origin? = some origin)
    (hother : other.origin? = some otherOrigin) (hne : otherOrigin ≠ origin) :
    originOf other ≠ originOf input := by
  have hown : originOf input = origin := by
    rw [originOf_eq hinput, Input.ownOrigin, hnamed]
    rfl
  rw [hown]
  cases hkind : other.isUrlObject with
  | true =>
      cases other with
      | url object => exact (ne_unknown_of_origin hnamed).symm
      | text value => cases hkind
      | request address init => cases hkind
  | false =>
      rw [originOf_eq hkind, Input.ownOrigin, hother]
      exact hne

/-- The fetch of a call without an `init`. -/
def plainFetch (agent : Agent) (input : Input urls) : Fetch urls Agent :=
  ⟨.input input, ⟨none, agent⟩⟩

/-- A fetch that takes longer than the breaker waits ends in another way. -/
theorem inTime_of_transparentIn (input : Input urls)
    (htransparent : TransparentIn opossum agent originalFetch succeeds .empty input none) :
    (originalFetch (plainFetch agent input)).inTime opossum.timeout = true := by
  obtain ⟨hcall, -⟩ := htransparent
  rcases fire_cases opossum agent originalFetch succeeds .empty (originOf input) (.input input) with
    ⟨-, hended, hfetches⟩ | ⟨hrefused, -⟩
  · rcases hcall with ⟨-, hnone⟩ | ⟨hsame, -⟩
    · cases hfetches.symm.trans hnone
    · by_contra hlate
      have houtcome := hended.symm.trans hsame
      rw [plainFetch] at hlate
      rw [if_neg hlate] at houtcome
      exact ofEnding_ne_timedOut _ houtcome.symm
  · rw [breakerFor, InsertionMap.get_empty, Option.getD_none, opossum.admits_initial] at hrefused
    cases hrefused

/-- The pooled fetch is transparent exactly without an `init`, for a text or a request whose fetch
settles before the timeout of the breaker. -/
theorem transparent_iff (opossum : Opossum) (agent : Agent)
    (originalFetch : Fetch urls Agent → Ending Answer) (succeeds : Answer → Bool) (input : Input urls)
    (init : Option Init) :
    Transparent opossum agent originalFetch succeeds input init ↔
      init = none ∧ input.isUrlObject = false ∧
        (originalFetch (plainFetch agent input)).inTime opossum.timeout = true := by
  constructor
  · rintro ⟨hcalls, -⟩
    cases init with
    | some init => exact absurd (hcalls .empty) (not_transparentIn_closure input init)
    | none =>
      refine ⟨rfl, ?_, inTime_of_transparentIn input (hcalls .empty)⟩
      cases input with
      | url object => exact absurd (hcalls _) (not_transparentIn_url object none)
      | text value => rfl
      | request address init => rfl
  · rintro ⟨rfl, hinput, hintime⟩
    have horigin := originOf_eq hinput
    refine ⟨fun breakers => ⟨?_, fun other hother => ?_⟩, ?_⟩
    · rcases fire_cases opossum agent originalFetch succeeds breakers (originOf input)
        (.input input) with ⟨-, hended, hfetches⟩ | ⟨-, hrefused⟩
      · rw [plainFetch] at hintime
        rw [if_pos hintime] at hended
        exact .inr ⟨hended, hfetches⟩
      · rw [← horigin]
        exact .inl hrefused
    · rw [← horigin] at hother
      exact breakers_fire breakers _ hother
    · intro other origin otherOrigin hnamed hother hne
      exact originOf_ne hinput hnamed hother hne

def testUrls : Urls where
  origin address := if address = "https://rpc.example/" then some "https://rpc.example" else none
  named address := by
    split
    · decide
    · decide
  empty := rfl

/-- A breaker with a switch and the default timeout. -/
def testOpossum : Opossum := ⟨some 15000, Bool, true, false, id, fun _ succeeded => succeeded, rfl, rfl⟩

def testInput : Input testUrls := .text "https://rpc.example/"

/-- A `POST` to the server is fetched from a function in place of its address. -/
theorem not_transparent_init :
    ¬ Transparent testOpossum () (fun _ => .settles 100 ()) (fun _ => true) testInput
      (some ⟨some "POST", [], some "{}", none⟩) :=
  fun htransparent => not_transparentIn_closure _ _ (htransparent.1 .empty)

end X402Facilitator.HorizonClient
