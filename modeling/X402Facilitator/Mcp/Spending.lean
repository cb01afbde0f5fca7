import X402Facilitator.Library.Execution
import X402Facilitator.Library.Json
import X402Facilitator.Library.JsText
import X402Facilitator.Library.Table

/-!
# The spend caps of the agent

`call_paid_resource` checks the price of a resource against the caps, has the payment
client sign, sends the paid request and records the amount once it has been answered
with 200.  Any number of calls are interleaved at their awaits.  The price is read
from the first entry of the requirements, and the client signs for any of them.
-/

namespace X402Facilitator.Mcp

namespace Spending

open Execution

/-- A value in stroops: a string of decimal digits, with white space around it. -/
def parseStroopsLimit : Json → Option ℕ
  | .str raw =>
      let text := Text.trim raw.toList
      if isNumeral 10 text then some (numeralValue 10 text) else none
  | _ => none

structure Caps where
  maxFeePerCallStroops : ℕ
  maxSessionSpendStroops : ℕ

/-- Why a call is refused before anything is signed. -/
inductive Refusal where
  | noRequirements
  | invalidAmount (amount : Json)
  | exceedsPerCallLimit (amount : ℕ)
  | exceedsSessionBudget (amount spent : ℕ)
  | invalidMaxFee (maxFeeStroops : Json)
  | exceedsMaxFee (amount : ℕ) (maxFeeStroops : Json)

def assertCanSpend (caps : Caps) (sessionSpendStroops amount : ℕ) : Except Refusal Unit :=
  if caps.maxFeePerCallStroops < amount then .error (.exceedsPerCallLimit amount)
  else if caps.maxSessionSpendStroops < sessionSpendStroops + amount then
    .error (.exceedsSessionBudget amount sessionSpendStroops)
  else .ok ()

/-- `req0.maxAmountRequired || req0.price?.amount || '0'` -/
def amountOf (req0 : Json) : Json :=
  (req0.member "maxAmountRequired").orFalsy
    (((req0.member "price").member "amount").orFalsy (.str "0"))

/-- The handler from the payment requirements to the signature: the amount that has
been checked. -/
def authorize (caps : Caps) (sessionSpendStroops : ℕ) (maxFeeStroops : Json)
    (accepts : List Json) : Except Refusal ℕ :=
  match accepts with
  | [] => .error .noRequirements
  | req0 :: _ =>
      if req0.truthy then
        match parseStroopsLimit (amountOf req0) with
        | none => .error (.invalidAmount (amountOf req0))
        | some amount =>
            match assertCanSpend caps sessionSpendStroops amount with
            | .error refusal => .error refusal
            | .ok () =>
                if maxFeeStroops.truthy then
                  match parseStroopsLimit maxFeeStroops with
                  | none => .error (.invalidMaxFee maxFeeStroops)
                  | some cap =>
                      if cap < amount then .error (.exceedsMaxFee amount maxFeeStroops)
                      else .ok amount
                else .ok amount
      else .error .noRequirements

/-- An amount that is given as a string or as a number. -/
def stroopsOf : Json → Option ℕ
  | .num value => if isNumeral 10 value.chars then some (numeralValue 10 value.chars) else none
  | amount => parseStroopsLimit amount

/-- The prices an entry carries, one of which the client signs for. -/
def prices (entry : Json) : List ℕ :=
  [entry.member "amount", entry.member "maxAmountRequired",
    (entry.member "price").member "amount"].filterMap stroopsOf

/-- How far a call has got, with the amount that was checked.  `lost` is a call that
failed after its payment had been signed. -/
inductive Stage where
  | fetching
  | signing (accepts : List Json) (amount : ℕ)
  | paying (amount : ℕ)
  | recorded (amount : ℕ)
  | lost (amount : ℕ)
  | ended

structure Call where
  maxFeeStroops : Json
  stage : Stage

/-- A payment that was signed: the call, and its price. -/
structure Signature where
  call : ℕ
  amount : ℕ
  deriving DecidableEq, Repr

structure System where
  sessionSpendStroops : ℕ
  calls : List Call
  signed : List Signature

def System.init : System := ⟨0, [], []⟩

/-- `answered402` is the answer to the unpaid request, `paid` the one to the paid
request.  Any await may fail. -/
inductive Action where
  | call (maxFeeStroops : Json)
  | answered402 (id : ℕ) (accepts : List Json)
  | signs (id price : ℕ)
  | paid (id status : ℕ)
  | fails (id : ℕ)

def System.setStage (s : System) (id : ℕ) (call : Call) (stage : Stage) : System :=
  { s with calls := s.calls.set id { call with stage := stage } }

def step (caps : Caps) (s : System) : Action → Option System
  | .call maxFeeStroops =>
      some { s with calls := s.calls ++ [⟨maxFeeStroops, .fetching⟩] }
  | .answered402 id accepts =>
      match s.calls[id]? with
      | some call =>
          match call.stage with
          | .fetching =>
              match authorize caps s.sessionSpendStroops call.maxFeeStroops accepts with
              | .error _ => some (s.setStage id call .ended)
              | .ok amount => some (s.setStage id call (.signing accepts amount))
          | _ => none
      | none => none
  | .signs id price =>
      match s.calls[id]? with
      | some call =>
          match call.stage with
          | .signing accepts amount =>
              if price ∈ accepts.flatMap prices then
                some { s.setStage id call (.paying amount) with
                  signed := s.signed ++ [⟨id, price⟩] }
              else none
          | _ => none
      | none => none
  | .paid id status =>
      match s.calls[id]? with
      | some call =>
          match call.stage with
          | .paying amount =>
              if status = 200 then
                some { s.setStage id call (.recorded amount) with
                  sessionSpendStroops := s.sessionSpendStroops + amount }
              else some (s.setStage id call (.lost amount))
          | _ => none
      | none => none
  | .fails id =>
      match s.calls[id]? with
      | some call =>
          match call.stage with
          | .fetching | .signing _ _ => some (s.setStage id call .ended)
          | .paying amount => some (s.setStage id call (.lost amount))
          | _ => none
      | none => none

section Statement

/-- Every signed amount is within the limits of its call, and all of them together are
within the limit of the session. -/
structure CapsHold (caps : Caps) (s : System) : Prop where
  perCall : ∀ signature ∈ s.signed, signature.amount ≤ caps.maxFeePerCallStroops
  stated : ∀ signature ∈ s.signed, ∃ call ∈ s.calls[signature.call]?,
    ∀ cap ∈ stroopsOf call.maxFeeStroops, signature.amount ≤ cap
  session : (s.signed.map Signature.amount).sum ≤ caps.maxSessionSpendStroops

def CapsAlwaysHold (caps : Caps) (meets : System → Action → Prop) : Prop :=
  ∀ s, Reaches (step caps) meets .init s → CapsHold caps s

/-- What a call that has passed the check may spend, or has spent, without a record. -/
def Stage.outstanding : Stage → ℕ
  | .signing _ amount | .paying amount | .lost amount => amount
  | _ => 0

def System.outstanding (s : System) : ℕ :=
  (s.calls.map fun call => call.stage.outstanding).sum

/-- A check passes only if its amount fits beside what is outstanding, and for a call
that does not state its limit as the number zero; and the client signs for no more
than was checked. -/
def SpendsWhatWasChecked (caps : Caps) (s : System) : Action → Prop
  | .answered402 id accepts => ∀ call ∈ s.calls[id]?, ∀ amount,
      authorize caps s.sessionSpendStroops call.maxFeeStroops accepts = .ok amount →
      s.sessionSpendStroops + s.outstanding + amount ≤ caps.maxSessionSpendStroops ∧
        ((stroopsOf call.maxFeeStroops).isSome = true → call.maxFeeStroops.truthy = true)
  | .signs id price => ∀ call ∈ s.calls[id]?, ∀ accepts amount,
      call.stage = .signing accepts amount → price ≤ amount
  | _ => True

end Statement

variable {caps : Caps} {s s' : System} {action : Action} {id : ℕ} {call : Call} {stage : Stage}

theorem le_of_assertCanSpend {spent amount : ℕ}
    (hspend : assertCanSpend caps spent amount = .ok ()) :
    amount ≤ caps.maxFeePerCallStroops := by
  rw [assertCanSpend] at hspend
  split at hspend
  · cases hspend
  · next hle => exact Nat.le_of_not_lt hle

/-- An authorized amount is within the limit for a call, and within a limit that is
stated other than as the number zero. -/
theorem authorize_le {spent amount : ℕ} {maxFeeStroops : Json} {accepts : List Json}
    (hauthorize : authorize caps spent maxFeeStroops accepts = .ok amount)
    (hstated : (stroopsOf maxFeeStroops).isSome = true → maxFeeStroops.truthy = true) :
    amount ≤ caps.maxFeePerCallStroops ∧ ∀ cap ∈ stroopsOf maxFeeStroops, amount ≤ cap := by
  cases accepts with
  | nil => cases hauthorize
  | cons req0 rest =>
      simp only [authorize] at hauthorize
      split at hauthorize
      · split at hauthorize
        · cases hauthorize
        · split at hauthorize
          · cases hauthorize
          · next hspend =>
              split at hauthorize
              · split at hauthorize
                · cases hauthorize
                · next cap hcap =>
                    split at hauthorize
                    · cases hauthorize
                    · next hle =>
                        cases hauthorize
                        refine ⟨le_of_assertCanSpend hspend, fun found hfound => ?_⟩
                        have hsame : stroopsOf maxFeeStroops = some cap := by
                          cases maxFeeStroops <;> first | exact hcap | cases hcap
                        obtain rfl := Option.some.inj (hsame.symm.trans hfound)
                        exact Nat.le_of_not_lt hle
              · next hfalsy =>
                  cases hauthorize
                  refine ⟨le_of_assertCanSpend hspend, fun cap hcap => ?_⟩
                  exact absurd (hstated (Option.isSome_of_mem hcap)) hfalsy
      · cases hauthorize

def Stage.unsigned : Stage → ℕ
  | .signing _ amount => amount
  | _ => 0

def System.unsigned (s : System) : ℕ := (s.calls.map fun call => call.stage.unsigned).sum

theorem outstanding_setStage (stage : Stage) (hcall : s.calls[id]? = some call) :
    (s.setStage id call stage).outstanding + call.stage.outstanding =
      s.outstanding + stage.outstanding :=
  Table.sum_map_set (fun call => call.stage.outstanding) hcall

theorem unsigned_setStage (stage : Stage) (hcall : s.calls[id]? = some call) :
    (s.setStage id call stage).unsigned + call.stage.unsigned = s.unsigned + stage.unsigned :=
  Table.sum_map_set (fun call => call.stage.unsigned) hcall

structure Sound (caps : Caps) (s : System) : Prop where
  covered : (s.signed.map Signature.amount).sum + s.unsigned ≤
    s.sessionSpendStroops + s.outstanding
  within : s.sessionSpendStroops + s.outstanding ≤ caps.maxSessionSpendStroops
  checked : ∀ (id : ℕ) (call : Call) (accepts : List Json) (amount : ℕ),
    s.calls[id]? = some call → call.stage = .signing accepts amount →
    amount ≤ caps.maxFeePerCallStroops ∧ ∀ cap ∈ stroopsOf call.maxFeeStroops, amount ≤ cap
  perCall : ∀ signature ∈ s.signed, signature.amount ≤ caps.maxFeePerCallStroops
  stated : ∀ signature ∈ s.signed, ∃ call ∈ s.calls[signature.call]?,
    ∀ cap ∈ stroopsOf call.maxFeeStroops, signature.amount ≤ cap

/-- The signatures of a call keep its limit. -/
theorem stated_setStage {signature : Signature} (hcall : s.calls[id]? = some call)
    (hstated : ∃ found ∈ s.calls[signature.call]?,
      ∀ cap ∈ stroopsOf found.maxFeeStroops, signature.amount ≤ cap) :
    ∃ found ∈ (s.setStage id call stage).calls[signature.call]?,
      ∀ cap ∈ stroopsOf found.maxFeeStroops, signature.amount ≤ cap := by
  obtain ⟨found, hfound, hcaps⟩ := hstated
  by_cases hid : id = signature.call
  · subst hid
    obtain rfl := Option.some.inj (hcall.symm.trans hfound)
    refine ⟨{ call with stage := stage }, ?_, hcaps⟩
    exact List.getElem?_set_self (List.getElem?_eq_some_iff.mp hcall).1
  · exact ⟨found, (List.getElem?_set_ne hid).trans hfound, hcaps⟩

/-- A call moves on.  What it newly signs or may sign is covered by what it newly spends
or may spend, and that fits. -/
theorem Sound.setStage (hs : Sound caps s) (stage : Stage) (spent : ℕ) (news : List Signature)
    (hcall : s.calls[id]? = some call)
    (hcovered : (news.map Signature.amount).sum + stage.unsigned +
        (s.sessionSpendStroops + call.stage.outstanding) ≤
      spent + stage.outstanding + call.stage.unsigned)
    (hwithin : spent + s.outstanding + stage.outstanding ≤
      caps.maxSessionSpendStroops + call.stage.outstanding)
    (hchecked : ∀ accepts amount, stage = .signing accepts amount →
      amount ≤ caps.maxFeePerCallStroops ∧ ∀ cap ∈ stroopsOf call.maxFeeStroops, amount ≤ cap)
    (hnews : ∀ signature ∈ news, signature.call = id ∧
      signature.amount ≤ caps.maxFeePerCallStroops ∧
      ∀ cap ∈ stroopsOf call.maxFeeStroops, signature.amount ≤ cap) :
    Sound caps { s.setStage id call stage with
      sessionSpendStroops := spent
      signed := s.signed ++ news } := by
  have houtstanding := outstanding_setStage stage hcall
  have hunsigned := unsigned_setStage stage hcall
  have hbefore := hs.covered
  constructor
  · rw [List.map_append, List.sum_append]
    change _ + _ + (s.setStage id call stage).unsigned ≤
      spent + (s.setStage id call stage).outstanding
    omega
  · change spent + (s.setStage id call stage).outstanding ≤ _
    omega
  · intro other found accepts amount hfound hsigning
    rcases Table.getElem?_set_cases hfound with ⟨-, rfl⟩ | ⟨-, hold⟩
    · exact hchecked accepts amount hsigning
    · exact hs.checked other found accepts amount hold hsigning
  · intro signature hsignature
    rcases List.mem_append.mp hsignature with hold | hnew
    · exact hs.perCall signature hold
    · exact (hnews signature hnew).2.1
  · intro signature hsignature
    rcases List.mem_append.mp hsignature with hold | hnew
    · exact stated_setStage hcall (hs.stated signature hold)
    · obtain ⟨rfl, -, hcaps⟩ := hnews signature hnew
      exact stated_setStage hcall ⟨call, hcall, hcaps⟩

/-- A call moves on and nothing is signed. -/
theorem Sound.setStage_unsigned (hs : Sound caps s) (stage : Stage) (spent : ℕ)
    (hcall : s.calls[id]? = some call)
    (hcovered : stage.unsigned + (s.sessionSpendStroops + call.stage.outstanding) ≤
      spent + stage.outstanding + call.stage.unsigned)
    (hwithin : spent + s.outstanding + stage.outstanding ≤
      caps.maxSessionSpendStroops + call.stage.outstanding)
    (hchecked : ∀ accepts amount, stage = .signing accepts amount →
      amount ≤ caps.maxFeePerCallStroops ∧ ∀ cap ∈ stroopsOf call.maxFeeStroops, amount ≤ cap) :
    Sound caps { s.setStage id call stage with sessionSpendStroops := spent } := by
  have hmoved := hs.setStage stage spent [] hcall
    (by rwa [List.map_nil, List.sum_nil, Nat.zero_add]) hwithin hchecked
    (fun _ hnone => by cases hnone)
  rw [List.append_nil] at hmoved
  exact hmoved

/-- A call ends, or its payment is lost: nothing is spent and nothing signed. -/
theorem Sound.leave (hs : Sound caps s) (hcall : s.calls[id]? = some call)
    (hkeeps : stage.unsigned + call.stage.outstanding ≤
      stage.outstanding + call.stage.unsigned)
    (hleaves : stage.outstanding ≤ call.stage.outstanding)
    (hstage : ∀ accepts amount, stage ≠ .signing accepts amount) :
    Sound caps (s.setStage id call stage) := by
  have hwithin := hs.within
  exact hs.setStage_unsigned stage s.sessionSpendStroops hcall (by omega) (by omega)
    (fun accepts amount hsigning => absurd hsigning (hstage accepts amount))

theorem sound_step (hs : Sound caps s) (hmeets : SpendsWhatWasChecked caps s action)
    (hstep : step caps s action = some s') : Sound caps s' := by
  have hwithin := hs.within
  cases action with
  | call maxFeeStroops =>
      cases hstep
      refine ⟨?_, ?_, ?_, hs.perCall, ?_⟩
      · simpa [System.unsigned, System.outstanding, Stage.unsigned, Stage.outstanding] using
          hs.covered
      · simpa [System.outstanding, Stage.outstanding] using hwithin
      · intro id call accepts amount hcall hsigning
        rcases Table.getElem?_concat_cases hcall with hold | ⟨-, rfl⟩
        · exact hs.checked id call accepts amount hold hsigning
        · cases hsigning
      · intro signature hsignature
        obtain ⟨call, hcall, hcaps⟩ := hs.stated signature hsignature
        exact ⟨call, Table.getElem?_concat_of_some _ hcall, hcaps⟩
  | answered402 id accepts =>
      simp only [step] at hstep
      split at hstep
      · next call hcall =>
          split at hstep
          · next hstage =>
              split at hstep
              · cases hstep
                exact hs.leave hcall (by rw [hstage]; exact le_rfl) (Nat.zero_le _) (by simp)
              · next amount hauthorize =>
                  cases hstep
                  obtain ⟨hfits, hstated⟩ := hmeets call hcall amount hauthorize
                  refine hs.setStage_unsigned (.signing accepts amount) s.sessionSpendStroops
                    hcall ?_ ?_ ?_
                  · rw [hstage]
                    simp only [Stage.outstanding, Stage.unsigned]
                    omega
                  · exact hfits.trans (Nat.le_add_right _ _)
                  · intro _ _ hsigning
                    cases hsigning
                    exact authorize_le hauthorize hstated
          · cases hstep
      · cases hstep
  | signs id price =>
      simp only [step] at hstep
      split at hstep
      · next call hcall =>
          split at hstep
          · next accepts amount hstage =>
              split at hstep
              · cases hstep
                have hprice := hmeets call hcall accepts amount hstage
                obtain ⟨hperCall, hstated⟩ := hs.checked id call accepts amount hcall hstage
                refine hs.setStage (.paying amount) s.sessionSpendStroops [⟨id, price⟩] hcall
                  ?_ ?_ (fun _ _ hsigning => by cases hsigning) ?_
                · rw [hstage, List.map_singleton, List.sum_singleton]
                  simp only [Stage.outstanding, Stage.unsigned]
                  omega
                · rw [hstage]
                  exact Nat.add_le_add_right hwithin _
                · intro signature hsignature
                  obtain rfl := List.mem_singleton.mp hsignature
                  exact ⟨rfl, hprice.trans hperCall,
                    fun cap hcap => hprice.trans (hstated cap hcap)⟩
              · cases hstep
          · cases hstep
      · cases hstep
  | paid id status =>
      simp only [step] at hstep
      split at hstep
      · next call hcall =>
          split at hstep
          · next amount hstage =>
              split at hstep
              · cases hstep
                refine hs.setStage_unsigned (.recorded amount) (s.sessionSpendStroops + amount)
                  hcall ?_ ?_ (fun _ _ hsigning => by cases hsigning)
                · rw [hstage]
                  simp only [Stage.outstanding, Stage.unsigned]
                  omega
                · rw [hstage]
                  simp only [Stage.outstanding]
                  omega
              · cases hstep
                exact hs.leave hcall (by rw [hstage]; exact (Nat.zero_add _).le)
                  (by rw [hstage]; exact le_rfl) (by simp)
          · cases hstep
      · cases hstep
  | fails id =>
      simp only [step] at hstep
      split at hstep
      · next call hcall =>
          split at hstep
          · next hstage =>
              cases hstep
              exact hs.leave hcall (by rw [hstage]; exact le_rfl) (Nat.zero_le _) (by simp)
          · next hstage =>
              cases hstep
              exact hs.leave hcall (by rw [hstage]; exact le_rfl) (Nat.zero_le _) (by simp)
          · next hstage =>
              cases hstep
              exact hs.leave hcall (by rw [hstage]; exact (Nat.zero_add _).le)
                (by rw [hstage]; exact le_rfl) (by simp)
          · cases hstep
      · cases hstep

theorem sound_init : Sound caps .init where
  covered := le_rfl
  within := Nat.zero_le _
  checked := by
    intro id call accepts amount hcall
    cases hcall
  perCall := by
    intro signature hsignature
    cases hsignature
  stated := by
    intro signature hsignature
    cases hsignature

/-- As long as no more is signed than was checked against all that is outstanding, the
caps hold. -/
theorem capsAlwaysHold_spendsWhatWasChecked (caps : Caps) :
    CapsAlwaysHold caps (SpendsWhatWasChecked caps) := by
  intro s hreach
  have hs : Sound caps s :=
    hreach.preserves (fun _ _ _ hs hmeets hstep => sound_step hs hmeets hstep) sound_init
  exact ⟨hs.perCall, hs.stated,
    (Nat.le_add_right _ _).trans (hs.covered.trans hs.within)⟩

def defaultCaps : Caps := ⟨1000, 10000⟩

def secondVersion : Json := .obj [("scheme", .str "exact"), ("amount", .str "100000000")]

def oversigned : List Action :=
  [.call .null, .answered402 0 [secondVersion], .signs 0 100000000]

/-- The amount of a requirement of the second version is taken for zero, and the
payment is signed. -/
theorem not_capsAlwaysHold_anyStep : ¬ ∀ caps, CapsAlwaysHold caps anyStep := by
  intro hholds
  have hrun : (run (step defaultCaps) .init oversigned).map (fun s => s.signed) =
      some [⟨0, 100000000⟩] := by decide
  obtain ⟨s, hreach, hsigned⟩ := exists_reaches_of_run hrun
  have hsession := (hholds defaultCaps s hreach).session
  rw [hsigned] at hsession
  revert hsession
  decide

end Spending

end X402Facilitator.Mcp
