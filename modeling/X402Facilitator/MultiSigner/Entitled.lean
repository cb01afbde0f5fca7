import X402Facilitator.MultiSigner.Engine

/-!
# Entitled submissions

An envelope is assembled only in time, with enough signatures of signers it allows, and
with the last signature of each.  The deadline is checked before a signature is
recorded and before an envelope is assembled, and nothing takes the mark of an expired
envelope away.
-/

namespace X402Facilitator.MultiSigner

open Execution

section Statement

variable {Signer Time : Type*} [LinearOrder Signer] [ToString Signer]
variable [LinearOrder Time] [Add Time]

/-- The signature that has been recorded last for a signer of an envelope. -/
def lastRecorded (recorded : List (ℕ × Signer × String)) (ref : ℕ) (signer : Signer) :
    Option String :=
  (recorded.reverse.find? fun entry => entry.1 = ref ∧ entry.2.1 = signer).map fun entry =>
    entry.2.2

/-- The envelope under `id` may be submitted as it has been assembled. -/
structure Entitled (s : System Signer Time) (ref : ℕ) (envelope : Envelope Signer Time)
    (assembled : Assembled Signer) : Prop where
  inTime : s.now ≤ envelope.expiresAt
  reached : envelope.threshold ≤ assembled.signatures.length
  allowed : ∀ signers ∈ envelope.requiredSigners, ∀ entry ∈ assembled.signatures,
    Given.text entry.1 ∈ signers
  ordered : (assembled.signatures.map Prod.fst).Pairwise (· < ·)
  last : ∀ signer signature, (signer, signature) ∈ assembled.signatures ↔
    lastRecorded s.recorded ref signer = some signature
  transaction : assembled.transactionXdr = envelope.transactionXdr

def EntitledUnder (s : System Signer Time) (id : String) (assembled : Assembled Signer) : Prop :=
  ∃ ref envelope, s.find id = some (ref, envelope) ∧ Entitled s ref envelope assembled

/-- What an envelope keeps from `s` on. -/
structure Kept (s : System Signer Time) (envelope envelope' : Envelope Signer Time) : Prop where
  deadline : envelope'.expiresAt = envelope.expiresAt
  signatures : envelope.expiresAt < s.now → envelope'.signatures = envelope.signatures
  expired : envelope.status = .expired → envelope'.status = .expired

/-- What an envelope has become when the system has moved from `s` to `s'`. -/
structure Later (s s' : System Signer Time) (ref : ℕ) (envelope envelope' : Envelope Signer Time) :
    Prop extends Kept s envelope envelope' where
  unassembled : envelope.expiresAt < s.now → ∀ id, s'.find id = some (ref, envelope') →
    ∃ message, (s'.assembleEnvelope id).2 = .error message

structure Safe (options : Options Time) (s : System Signer Time) : Prop where
  assembled : ∀ id assembled s', s.assembleEnvelope id = (s', .ok assembled) →
    EntitledUnder s id assembled
  submitted : ∀ action s', step options s action = some s' → s'.submitted = s.submitted ∨
    ∃ id assembled, s'.submitted = s.submitted ++ [assembled] ∧ EntitledUnder s id assembled
  stays : ∀ s', Reaches (step options) anyStep s s' →
    ∀ (ref : ℕ) (envelope : Envelope Signer Time), s.envelopes[ref]? = some envelope →
      ∃ envelope', s'.envelopes[ref]? = some envelope' ∧ Later s s' ref envelope envelope'

variable (Signer) in
def AlwaysSafe (options : Options Time) : Prop :=
  ∀ (now : Time) (s : System Signer Time), Reaches (step options) anyStep (.init now) s →
    Safe options s

end Statement

variable {Signer Time : Type*} {s s' : System Signer Time} {ref : ℕ}
variable {envelope : Envelope Signer Time} {id : String}

theorem envelope_of_find (hfind : s.find id = some (ref, envelope)) :
    s.envelopes[ref]? = some envelope := by
  rw [System.find] at hfind
  obtain ⟨other, -, hmap⟩ := Option.bind_eq_some_iff.mp hfind
  obtain ⟨found, hfound, hpair⟩ := Option.map_eq_some_iff.mp hmap
  cases hpair
  exact hfound

theorem envelopeOf_fresh [Add Time] {options : Options Time} {now : Time}
    {input : EnvelopeInput Signer Time} (hnew : envelopeOf options now input = .ok envelope) :
    envelope.signatures = .empty ∧ envelope.status = .pending := by
  rw [envelopeOf.eq_def] at hnew
  split at hnew
  · split at hnew
    · cases hnew
    · split at hnew
      · cases hnew
      · cases hnew
        exact ⟨rfl, rfl⟩
  · cases hnew
  · cases hnew

section Recorded

variable [LinearOrder Signer]

theorem lastRecorded_concat (recorded : List (ℕ × Signer × String)) (ref other : ℕ)
    (signer found : Signer) (signature : String) :
    lastRecorded (recorded ++ [(ref, signer, signature)]) other found =
      if ref = other ∧ signer = found then some signature
      else lastRecorded recorded other found := by
  rw [lastRecorded, List.reverse_append, List.reverse_singleton, List.singleton_append,
    List.find?_cons]
  by_cases hsame : ref = other ∧ signer = found
  · rw [if_pos hsame, decide_eq_true hsame]
    rfl
  · rw [if_neg hsame, decide_eq_false hsame]
    rfl

theorem lastRecorded_eq_none {recorded : List (ℕ × Signer × String)} (signer : Signer)
    (hnone : ∀ entry ∈ recorded, entry.1 ≠ ref) : lastRecorded recorded ref signer = none := by
  rw [lastRecorded, Option.map_eq_none_iff, List.find?_eq_none]
  intro entry hentry hfound
  exact hnone entry (List.mem_reverse.mp hentry) (of_decide_eq_true hfound).1

structure Sound (s : System Signer Time) : Prop where
  kept : ∀ (ref : ℕ) (envelope : Envelope Signer Time), s.envelopes[ref]? = some envelope →
    ∀ signer, envelope.signatures.get signer = lastRecorded s.recorded ref signer
  known : ∀ entry ∈ s.recorded, entry.1 < s.envelopes.length
  allowed : ∀ (ref : ℕ) (envelope : Envelope Signer Time), s.envelopes[ref]? = some envelope →
    ∀ signer signature, envelope.signatures.get signer = some signature →
      envelope.allows signer = true

theorem sound_init (now : Time) : Sound (System.init now : System Signer Time) where
  kept := fun _ _ henvelope => by cases henvelope
  known := fun _ hentry => by cases hentry
  allowed := fun _ _ henvelope => by cases henvelope

/-- Marks and the collections around the envelopes do not matter. -/
theorem Sound.relabel (hs : Sound s) (hrecorded : s'.recorded = s.recorded)
    (hlength : s'.envelopes.length = s.envelopes.length)
    (hsame : ∀ (ref : ℕ) (envelope' : Envelope Signer Time),
      s'.envelopes[ref]? = some envelope' → ∃ envelope, s.envelopes[ref]? = some envelope ∧
        envelope'.signatures = envelope.signatures ∧
        envelope'.requiredSigners = envelope.requiredSigners) : Sound s' where
  kept := by
    intro ref envelope' henvelope' signer
    obtain ⟨envelope, henvelope, hsignatures, -⟩ := hsame ref envelope' henvelope'
    rw [hsignatures, hrecorded]
    exact hs.kept ref envelope henvelope signer
  known := by
    intro entry hentry
    rw [hlength]
    exact hs.known entry (hrecorded ▸ hentry)
  allowed := by
    intro ref envelope' henvelope' signer signature hsignature
    obtain ⟨envelope, henvelope, hsignatures, hrequired⟩ := hsame ref envelope' henvelope'
    rw [Envelope.allows, hrequired]
    exact hs.allowed ref envelope henvelope signer signature (hsignatures ▸ hsignature)

theorem Sound.modify (hs : Sound s) (ref : ℕ)
    {change : Envelope Signer Time → Envelope Signer Time}
    (hsignatures : ∀ envelope, (change envelope).signatures = envelope.signatures)
    (hrequired : ∀ envelope, (change envelope).requiredSigners = envelope.requiredSigners) :
    Sound (s.modify ref change) := by
  refine hs.relabel rfl (List.length_modify ..) fun other envelope' henvelope' => ?_
  rcases Table.getElem?_modify_cases henvelope' with ⟨rfl, before, hbefore, rfl⟩ | ⟨-, hold⟩
  · exact ⟨before, hbefore, hsignatures before, hrequired before⟩
  · exact ⟨envelope', hold, rfl, rfl⟩

theorem Sound.create (hs : Sound s) (pending : InsertionMap String ℕ)
    (hempty : envelope.signatures = .empty) :
    Sound { s with envelopes := s.envelopes ++ [envelope], pending := pending } where
  kept := by
    intro ref found hfound signer
    rcases Table.getElem?_concat_cases hfound with hold | ⟨rfl, rfl⟩
    · exact hs.kept ref found hold signer
    · rw [hempty, InsertionMap.get_empty]
      refine (lastRecorded_eq_none signer fun entry hentry => ?_).symm
      exact Nat.ne_of_lt (hs.known entry hentry)
  known := by
    intro entry hentry
    rw [List.length_append]
    exact Nat.lt_of_lt_of_le (hs.known entry hentry) (Nat.le_add_right _ _)
  allowed := by
    intro ref found hfound signer signature hsignature
    rcases Table.getElem?_concat_cases hfound with hold | ⟨rfl, rfl⟩
    · exact hs.allowed ref found hold signer signature hsignature
    · rw [hempty] at hsignature
      cases hsignature

theorem Sound.record (hs : Sound s) {signer : Signer} {signature : String}
    (henvelope : s.envelopes[ref]? = some envelope) (hallows : envelope.allows signer = true) :
    Sound (s.record ref signer signature) where
  kept := by
    intro other found hfound other_signer
    change found.signatures.get other_signer =
      lastRecorded (s.recorded ++ [(ref, signer, signature)]) other other_signer
    rw [lastRecorded_concat]
    rcases Table.getElem?_modify_cases hfound with ⟨rfl, before, hbefore, rfl⟩ | ⟨hne, hold⟩
    · rw [Envelope.sign, InsertionMap.get_set, hs.kept other before hbefore]
      simp [eq_comm]
    · rw [if_neg fun hsame => hne hsame.1.symm]
      exact hs.kept other found hold other_signer
  known := by
    intro entry hentry
    change entry.1 < (s.envelopes.modify ref _).length
    rw [List.length_modify]
    rcases List.mem_append.mp hentry with hold | hnew
    · exact hs.known entry hold
    · rw [List.mem_singleton.mp hnew]
      exact (List.getElem?_eq_some_iff.mp henvelope).1
  allowed := by
    intro other found hfound other_signer other_signature hsignature
    rcases Table.getElem?_modify_cases hfound with ⟨rfl, before, hbefore, rfl⟩ | ⟨-, hold⟩
    · obtain rfl := Option.some.inj (henvelope.symm.trans hbefore)
      rw [Envelope.sign] at hsignature
      rcases InsertionMap.get_set_cases hsignature with ⟨rfl, -⟩ | ⟨-, hbefore⟩
      · exact hallows
      · exact hs.allowed other envelope henvelope other_signer other_signature hbefore
    · exact hs.allowed other found hold other_signer other_signature hsignature

theorem mem_inSignerOrder {signer : Signer} {signature : String} :
    (signer, signature) ∈ envelope.inSignerOrder ↔
      envelope.signatures.get signer = some signature := by
  rw [Envelope.inSignerOrder, List.mem_mergeSort]
  exact ⟨envelope.signatures.get_of_mem, InsertionMap.mem_of_lookup⟩

/-- The signers of a map are distinct, so their order is strict. -/
theorem ordered_inSignerOrder (envelope : Envelope Signer Time) :
    (envelope.inSignerOrder.map Prod.fst).Pairwise (· < ·) := by
  have hperm : (envelope.inSignerOrder.map Prod.fst).Perm
      (envelope.signatures.entries.map Prod.fst) := (List.mergeSort_perm _ _).map Prod.fst
  have hnodup : (envelope.inSignerOrder.map Prod.fst).Nodup :=
    hperm.nodup_iff.mpr envelope.signatures.keysNodup
  have hsorted : (envelope.inSignerOrder.map Prod.fst).Pairwise (· ≤ ·) := by
    rw [List.pairwise_map]
    refine (List.pairwise_mergeSort ?_ ?_ _).imp fun hle => of_decide_eq_true hle
    · intro a b c hab hbc
      exact decide_eq_true ((of_decide_eq_true hab).trans (of_decide_eq_true hbc))
    · intro a b
      rcases le_total a.1 b.1 with hle | hle <;> simp [hle]
  exact hsorted.imp₂ (fun _ _ hle hne => lt_of_le_of_ne hle hne) hnodup

theorem length_inSignerOrder (envelope : Envelope Signer Time) :
    envelope.inSignerOrder.length = envelope.signatures.size :=
  List.length_mergeSort ..

end Recorded

variable [LinearOrder Signer] [LinearOrder Time]

theorem assembleEnvelope_cases {assembled : Assembled Signer}
    (hassembled : s.assembleEnvelope id = (s', .ok assembled)) :
    ∃ ref envelope, s.find id = some (ref, envelope) ∧ s.isExpired envelope = false ∧
      envelope.threshold ≤ envelope.signatures.size ∧ assembled = envelope.assembled ∧
      s' = s.modify ref Envelope.complete := by
  rw [System.assembleEnvelope] at hassembled
  split at hassembled
  · cases hassembled
  · next ref envelope hfind =>
      split at hassembled
      · cases hassembled
      · next hlive =>
          split at hassembled
          · cases hassembled
          · next hreached =>
              cases hassembled
              exact ⟨ref, envelope, hfind, Bool.eq_false_of_not_eq_true hlive,
                Nat.not_lt.mp hreached, rfl, rfl⟩

section Steps

variable [Add Time] {options : Options Time} {action : Action Signer Time}

inductive Asks (s : System Signer Time) (id : String) (signer : Signer) (signature : String) :
    Action Signer Time → Prop where
  | adds : Asks s id signer signature (.addSignature id (.text signer) (.text signature))
  | replies {index : ℕ} {flight : Flight Signer} (hflight : s.flights[index]? = some flight)
      (hid : flight.envelopeId = id) :
      Asks s id signer signature (.receive index (.body (.text signer) (.text signature)))

/-- A call changes one envelope, marks those that are purged, or creates one.  What it
does to the requests in flight is left open. -/
inductive Moves (options : Options Time) (s : System Signer Time) :
    Action Signer Time → System Signer Time → Prop where
  | same {action : Action Signer Time} (flights : List (Flight Signer)) :
      Moves options s action { s with flights := flights }
  | creates {input : EnvelopeInput Signer Time} {envelope : Envelope Signer Time}
      (hnew : envelopeOf options s.now input = .ok envelope) :
      Moves options s (.createEnvelope input) { s with
        envelopes := s.envelopes ++ [envelope]
        pending := s.pending.set envelope.id s.envelopes.length }
  | records {action : Action Signer Time} (flights : List (Flight Signer)) {id : String} {ref : ℕ}
      {envelope : Envelope Signer Time} {signer : Signer} {signature : String}
      (hasks : Asks s id signer signature action)
      (hfind : s.find id = some (ref, envelope)) (hlive : s.isExpired envelope = false)
      (hallows : envelope.allows signer = true) :
      Moves options s action { s.record ref signer signature with flights := flights }
  | expires {action : Action Signer Time} (flights : List (Flight Signer)) {id : String} {ref : ℕ}
      {envelope : Envelope Signer Time} (hfind : s.find id = some (ref, envelope))
      (hexpired : s.isExpired envelope = true) :
      Moves options s action { s.modify ref Envelope.expire with flights := flights }
  | purges {action : Action Signer Time} : Moves options s action s.purgeExpired.1
  | assembles {action : Action Signer Time} {id : String} {ref : ℕ}
      {envelope : Envelope Signer Time}
      (hfind : s.find id = some (ref, envelope)) (hlive : s.isExpired envelope = false)
      (hreached : envelope.threshold ≤ envelope.signatures.size) :
      Moves options s action (s.modify ref Envelope.complete)
  | submits {action : Action Signer Time} {id : String} {ref : ℕ}
      {envelope : Envelope Signer Time}
      (hfind : s.find id = some (ref, envelope)) (hlive : s.isExpired envelope = false)
      (hreached : envelope.threshold ≤ envelope.signatures.size) :
      Moves options s action { s.modify ref Envelope.complete with
        submitted := s.submitted ++ [envelope.assembled] }
  | ticks {action : Action Signer Time} {now : Time} (hnow : s.now ≤ now) :
      Moves options s action { s with now := now }

theorem moves_unassembled {message : String}
    (hassembled : s.assembleEnvelope id = (s', .error message)) :
    Moves options s action s' := by
  rw [System.assembleEnvelope] at hassembled
  split at hassembled
  · cases hassembled
    exact .same _
  · next ref envelope hfind =>
      split at hassembled
      · next hexpired =>
          cases hassembled
          exact .expires _ hfind hexpired
      · split at hassembled
        · cases hassembled
          exact .same _
        · cases hassembled

variable [ToString Signer]

theorem moves_addSignature (flights : List (Flight Signer)) {signer : Given Signer}
    {signature : Given String}
    (hasks : ∀ signer' signature', signer = .text signer' → signature = .text signature' →
      Asks s id signer' signature' action) :
    Moves options s action { (s.addSignature id signer signature).1 with flights := flights } := by
  rw [System.addSignature.eq_def]
  cases hfind : s.find id with
  | none => exact .same flights
  | some found =>
      obtain ⟨ref, envelope⟩ := found
      cases hexpired : s.isExpired envelope with
      | true =>
          simp only [hexpired, if_true]
          exact .expires flights hfind hexpired
      | false =>
          simp only [hexpired, Bool.false_eq_true, if_false]
          split
          · split
            · next hallows => exact .records flights (hasks _ _ rfl rfl) hfind hexpired hallows
            · exact .same flights
          · exact .same flights
          · exact .same flights

theorem moves_receive {index : ℕ} {flight : Flight Signer}
    (hflight : s.flights[index]? = some flight) (reply : Reply Signer) :
    Moves options s (.receive index reply) (s.receive index flight reply) := by
  cases reply with
  | rejects message => exact .same _
  | refuses status => exact .same _
  | unreadable message => exact .same _
  | body signer signature =>
      have hadded : ∀ flights, Moves options s (.receive index (.body signer signature))
          { (s.addSignature flight.envelopeId signer signature).1 with flights := flights } := by
        intro flights
        refine moves_addSignature flights ?_
        rintro signer' signature' rfl rfl
        exact .replies hflight rfl
      rw [System.receive.eq_def]
      split
      · exact .same _
      · exact .same _
      · exact .same _
      · exact .same _
      · exact .same _
      · next hreply =>
          cases hreply
          split
          · next t updated hpair =>
              rw [hpair] at hadded
              exact hadded _
          · next t message hpair =>
              rw [hpair] at hadded
              exact hadded _

theorem moves_of_step (hstep : step options s action = some s') : Moves options s action s' := by
  cases action with
  | createEnvelope input =>
      cases hstep
      rw [System.createEnvelope]
      split
      · exact .same _
      · next hnew => exact .creates hnew
  | addSignature id signer signature =>
      cases hstep
      refine moves_addSignature _ ?_
      rintro signer' signature' rfl rfl
      exact .adds
  | requestSignatures id endpoints =>
      cases hstep
      rw [System.requestSignatures]
      split
      · exact .same _
      · next ref envelope hfind =>
          split
          · next hexpired => exact .expires _ hfind hexpired
          · split
            · exact .same _
            · exact .same _
  | receive index reply =>
      simp only [step] at hstep
      split at hstep
      · next flight hflight =>
          split at hstep
          · cases hstep
            exact moves_receive hflight reply
          · cases hstep
      · cases hstep
  | isComplete id =>
      cases hstep
      rw [System.isComplete]
      split
      · exact .same _
      · next ref envelope hfind =>
          split
          · next hexpired => exact .expires _ hfind hexpired
          · exact .same _
  | listPending | purgeExpired =>
      cases hstep
      exact .purges
  | getEnvelope id =>
      cases hstep
      exact .same _
  | assembleEnvelope id =>
      cases hstep
      cases hassembled : s.assembleEnvelope id with
      | mk t outcome =>
          cases outcome with
          | ok assembled =>
              obtain ⟨ref, envelope, hfind, hlive, hreached, -, rfl⟩ :=
                assembleEnvelope_cases hassembled
              exact .assembles hfind hlive hreached
          | error message => exact moves_unassembled hassembled
  | submitMultiSignerEnvelope id =>
      cases hstep
      rw [System.submitMultiSignerEnvelope]
      split
      · next hassembled =>
          obtain ⟨ref, envelope, hfind, hlive, hreached, rfl, rfl⟩ :=
            assembleEnvelope_cases hassembled
          exact .submits hfind hlive hreached
      · next hassembled => exact moves_unassembled hassembled
  | tick now =>
      simp only [step] at hstep
      split at hstep
      · next hnow =>
          cases hstep
          exact .ticks hnow
      · cases hstep

end Steps

theorem Sound.purgeExpired (hs : Sound s) : Sound s.purgeExpired.1 := by
  refine hs.relabel rfl (List.length_mapIdx ..) fun ref envelope' henvelope' => ?_
  have hupdated : (Table.updateWhere (s.purges · = true) Envelope.expire s.envelopes)[ref]? =
      some envelope' := henvelope'
  rw [Table.getElem?_updateWhere] at hupdated
  split at hupdated
  · obtain ⟨envelope, henvelope, rfl⟩ := Option.map_eq_some_iff.mp hupdated
    exact ⟨envelope, henvelope, rfl, rfl⟩
  · exact ⟨envelope', hupdated, rfl, rfl⟩

section Invariant

variable [Add Time] {options : Options Time} {action : Action Signer Time}

theorem Sound.moves (hs : Sound s) (hmoves : Moves options s action s') : Sound s' := by
  cases hmoves with
  | same flights => exact ⟨hs.kept, hs.known, hs.allowed⟩
  | creates hnew => exact hs.create _ (envelopeOf_fresh hnew).1
  | @records _ flights id ref envelope signer signature hasks hfind hlive hallows =>
      have hrecorded : Sound (s.record ref signer signature) :=
        hs.record (envelope_of_find hfind) hallows
      exact ⟨hrecorded.kept, hrecorded.known, hrecorded.allowed⟩
  | @expires _ flights id ref envelope hfind hexpired =>
      have hmarked : Sound (s.modify ref Envelope.expire) :=
        hs.modify ref (fun _ => rfl) (fun _ => rfl)
      exact ⟨hmarked.kept, hmarked.known, hmarked.allowed⟩
  | purges => exact hs.purgeExpired
  | assembles => exact hs.modify _ (fun _ => rfl) (fun _ => rfl)
  | @submits _ id ref envelope hfind hlive hreached =>
      have hmarked : Sound (s.modify ref Envelope.complete) :=
        hs.modify ref (fun _ => rfl) (fun _ => rfl)
      exact ⟨hmarked.kept, hmarked.known, hmarked.allowed⟩
  | ticks hnow => exact ⟨hs.kept, hs.known, hs.allowed⟩

theorem Moves.now_le (hmoves : Moves options s action s') : s.now ≤ s'.now := by
  cases hmoves with
  | ticks hnow => exact hnow
  | same | creates | records | expires | purges | assembles | submits => exact le_refl s.now

section

omit [LinearOrder Signer] [Add Time]

theorem not_expired_of_live (hlive : s.isExpired envelope = false) :
    envelope.status ≠ .expired ∧ s.now ≤ envelope.expiresAt := by
  rw [System.isExpired, Bool.or_eq_false_iff, decide_eq_false_iff_not, decide_eq_false_iff_not]
    at hlive
  exact ⟨hlive.1, not_lt.mp hlive.2⟩

theorem Kept.refl (s : System Signer Time) (envelope : Envelope Signer Time) :
    Kept s envelope envelope := ⟨rfl, fun _ => rfl, id⟩

theorem Kept.trans {envelope' envelope'' : Envelope Signer Time} (hnow : s.now ≤ s'.now)
    (hfirst : Kept s envelope envelope') (hsecond : Kept s' envelope' envelope'') :
    Kept s envelope envelope'' where
  deadline := hsecond.deadline.trans hfirst.deadline
  signatures := by
    intro hlate
    have hlater : envelope'.expiresAt < s'.now := by
      rw [hfirst.deadline]
      exact lt_of_lt_of_le hlate hnow
    exact (hsecond.signatures hlater).trans (hfirst.signatures hlate)
  expired := fun hexpired => hsecond.expired (hfirst.expired hexpired)

/-- A change of the envelope under an id that keeps what it has to. -/
theorem kept_modify {change : Envelope Signer Time → Envelope Signer Time} {other : ℕ}
    {found : Envelope Signer Time} (hfound : s.envelopes[other]? = some found)
    (hkept : other = ref → Kept s found (change found)) :
    ∃ envelope', (s.modify ref change).envelopes[other]? = some envelope' ∧
      Kept s found envelope' := by
  by_cases hother : ref = other
  · subst hother
    refine ⟨change found, ?_, hkept rfl⟩
    change (s.envelopes.modify ref change)[ref]? = _
    rw [Table.getElem?_modify_self, hfound]
    rfl
  · refine ⟨found, ?_, Kept.refl s found⟩
    change (s.envelopes.modify ref change)[other]? = _
    rw [Table.getElem?_modify_of_ne hother]
    exact hfound

end

theorem Moves.kept (hmoves : Moves options s action s')
    (hfound : s.envelopes[ref]? = some envelope) :
    ∃ envelope', s'.envelopes[ref]? = some envelope' ∧ Kept s envelope envelope' := by
  cases hmoves with
  | same | ticks => exact ⟨envelope, hfound, Kept.refl s envelope⟩
  | creates hnew =>
      exact ⟨envelope, Table.getElem?_concat_of_some _ hfound, Kept.refl s envelope⟩
  | @records _ flights id other live signer signature hasks hfind hlive hallows =>
      refine kept_modify hfound fun hsame => ?_
      subst hsame
      obtain rfl := Option.some.inj (hfound.symm.trans (envelope_of_find hfind))
      obtain ⟨hstatus, hinTime⟩ := not_expired_of_live hlive
      exact ⟨rfl, fun hlate => absurd hlate (not_lt.mpr hinTime),
        fun hexpired => absurd hexpired hstatus⟩
  | expires flights hfind hexpired =>
      exact kept_modify hfound fun _ => ⟨rfl, fun _ => rfl, fun _ => rfl⟩
  | purges =>
      have hupdated : s.purgeExpired.1.envelopes[ref]? =
          if s.purges ref = true then s.envelopes[ref]?.map Envelope.expire
          else s.envelopes[ref]? := Table.getElem?_updateWhere ..
      rw [hupdated, hfound]
      split
      · exact ⟨envelope.expire, rfl, rfl, fun _ => rfl, fun _ => rfl⟩
      · exact ⟨envelope, rfl, Kept.refl s envelope⟩
  | assembles hfind hlive | submits hfind hlive =>
      refine kept_modify hfound fun hsame => ?_
      subst hsame
      obtain rfl := Option.some.inj (hfound.symm.trans (envelope_of_find hfind))
      exact ⟨rfl, fun _ => rfl, fun hexpired => absurd hexpired (not_expired_of_live hlive).1⟩

variable [ToString Signer]

theorem sound_reached {now : Time} (hreach : Reaches (step options) anyStep (.init now) s) :
    Sound s :=
  hreach.preserves (fun _ _ _ hs _ hstep => hs.moves (moves_of_step hstep)) (sound_init now)

theorem kept_reached (hreach : Reaches (step options) anyStep s s')
    (hfound : s.envelopes[ref]? = some envelope) :
    s.now ≤ s'.now ∧
      ∃ envelope', s'.envelopes[ref]? = some envelope' ∧ Kept s envelope envelope' := by
  induction hreach with
  | refl => exact ⟨le_refl s.now, envelope, hfound, Kept.refl s envelope⟩
  | tail _ hlast ih =>
      obtain ⟨hnow, envelope', hfound', hkept⟩ := ih
      obtain ⟨action, -, hnext⟩ := hlast
      have hmoves := moves_of_step hnext
      obtain ⟨envelope'', hfound'', hkept'⟩ := hmoves.kept hfound'
      exact ⟨hnow.trans hmoves.now_le, envelope'', hfound'', hkept.trans hnow hkept'⟩

end Invariant

/-- What is assembled has been checked, and its order is that of its signers. -/
theorem Sound.entitled (hs : Sound s) (hfind : s.find id = some (ref, envelope))
    (hlive : s.isExpired envelope = false)
    (hreached : envelope.threshold ≤ envelope.signatures.size) :
    EntitledUnder s id envelope.assembled := by
  have henvelope := envelope_of_find hfind
  refine ⟨ref, envelope, hfind, (not_expired_of_live hlive).2, ?_, ?_,
    ordered_inSignerOrder envelope, ?_, rfl⟩
  · change envelope.threshold ≤ envelope.inSignerOrder.length
    rw [length_inSignerOrder]
    exact hreached
  · rintro signers hsigners ⟨signer, signature⟩ hentry
    have hallows := hs.allowed ref envelope henvelope signer signature
      (mem_inSignerOrder.mp hentry)
    rw [Envelope.allows, Option.mem_def.mp hsigners] at hallows
    exact of_decide_eq_true hallows
  · intro signer signature
    rw [← hs.kept ref envelope henvelope signer]
    exact mem_inSignerOrder

theorem assembleEnvelope_of_expired (hfind : s.find id = some (ref, envelope))
    (hlate : envelope.expiresAt < s.now) :
    ∃ message, (s.assembleEnvelope id).2 = .error message := by
  have hexpired : s.isExpired envelope = true := by
    rw [System.isExpired, decide_eq_true hlate, Bool.or_true]
  refine ⟨envelopeExpired envelope.id, ?_⟩
  rw [System.assembleEnvelope, hfind]
  simp only [hexpired, if_true]

/-- Only a submission submits. -/
theorem Moves.submitted [Add Time] {options : Options Time} {action : Action Signer Time}
    (hmoves : Moves options s action s')
    (hs : Sound s) : s'.submitted = s.submitted ∨
      ∃ id assembled, s'.submitted = s.submitted ++ [assembled] ∧
        EntitledUnder s id assembled := by
  cases hmoves with
  | same | creates | records | expires | purges | assembles | ticks => exact Or.inl rfl
  | @submits _ id ref envelope hfind hlive hreached =>
      exact Or.inr ⟨id, envelope.assembled, rfl, hs.entitled hfind hlive hreached⟩

/-- In every run an envelope is submitted, and assembled, only when it is entitled to
be, and never after its deadline. -/
theorem alwaysSafe [ToString Signer] [Add Time] (options : Options Time) :
    AlwaysSafe Signer options := by
  intro now s hreach
  have hs := sound_reached hreach
  refine ⟨?_, fun action s' hstep => (moves_of_step hstep).submitted hs, ?_⟩
  · intro id assembled s' hassembled
    obtain ⟨ref, envelope, hfind, hlive, hreached, rfl, -⟩ := assembleEnvelope_cases hassembled
    exact hs.entitled hfind hlive hreached
  · intro s' hlater ref envelope hfound
    obtain ⟨hnow, envelope', hfound', hkept⟩ := kept_reached hlater hfound
    refine ⟨envelope', hfound', hkept, fun hlate id hfind => ?_⟩
    apply assembleEnvelope_of_expired hfind
    rw [hkept.deadline]
    exact lt_of_lt_of_le hlate hnow

end X402Facilitator.MultiSigner
