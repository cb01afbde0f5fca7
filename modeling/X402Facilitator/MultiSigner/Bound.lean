import X402Facilitator.MultiSigner.Entitled
import Mathlib.Data.List.Dedup

/-!
# Signatures and their transactions

A reply is recorded under the id of its request, and an id may have got another
envelope since.  A new envelope starts without signatures, and its threshold is
compared with the length of the list of signers, not with how many signers it names.
-/

namespace X402Facilitator.MultiSigner

open Execution

variable {Signer Time : Type*} [LinearOrder Signer] [ToString Signer]
variable [LinearOrder Time] [Add Time]

section Statement

variable (signs : String → String → Prop) (options : Options Time)

/-- The signatures of every envelope that can be assembled are of its transaction. -/
def Produced (s : System Signer Time) : Prop :=
  ∀ id assembled s', s.assembleEnvelope id = (s', .ok assembled) →
    ∀ entry ∈ assembled.signatures, signs entry.2 assembled.transactionXdr

/-- The signatures of a live envelope under the id are there after it has been created
again for the same transaction. -/
def Preserved (s s' : System Signer Time) (created : Snapshot Signer Time) : Prop :=
  ∀ ref envelope, s.find created.id = some (ref, envelope) → s.isExpired envelope = false →
    envelope.transactionXdr = created.transactionXdr →
      ∃ ref' envelope', s'.find created.id = some (ref', envelope') ∧
        ∀ signer signature, envelope.signatures.get signer = some signature →
          envelope'.signatures.get signer = some signature

def addition (id : String) (entry : Signer × String) : Action Signer Time :=
  .addSignature id (.text entry.1) (.text entry.2)

/-- Some calls of authorised signers complete the envelope. -/
def Completable (s' : System Signer Time) (created : Snapshot Signer Time) : Prop :=
  ∀ signers ∈ created.requiredSigners, ∃ additions : List (Signer × String),
    (∀ entry ∈ additions, Given.text entry.1 ∈ signers) ∧
      ∃ s'', run (step options) s' (additions.map (addition created.id)) = some s'' ∧
        (s''.isComplete created.id).2 = true

/-- Signatures stay bound to their transactions in every run whose steps meet a guard. -/
def AlwaysBound (meets : System Signer Time → Action Signer Time → Prop) : Prop :=
  ∀ (now : Time) (s : System Signer Time), Reaches (step options) meets (.init now) s →
    Produced signs s ∧ ∀ input, meets s (.createEnvelope input) →
      ∀ s' created, s.createEnvelope options input = (s', .ok created) →
        Preserved s s' created ∧ Completable options s' created

/-- An endpoint signs the transaction it has been sent, and a caller adds a signature of
the transaction that the envelope is for. -/
def Honest (s : System Signer Time) : Action Signer Time → Prop
  | .receive index (.body _ (.text signature)) =>
      ∀ flight ∈ s.flights[index]?, signs signature flight.transactionXdr
  | .addSignature id _ (.text signature) =>
      ∀ found ∈ s.find id, signs signature found.2.transactionXdr
  | _ => True

def Given.value? {A : Type*} : Given A → Option A
  | .text value => some value
  | _ => none

def named (signers : List (Given Signer)) : List Signer := (signers.filterMap Given.value?).dedup

/-- No signature comes for an id that has got an envelope for another transaction; no live
envelope with signatures is created again for its transaction; and an envelope with a
list of signers is not created past its deadline, nor with fewer different names in the
list than its threshold. -/
def Orderly (s : System Signer Time) : Action Signer Time → Prop
  | .receive index (.body (.text _) (.text _)) =>
      ∀ flight ∈ s.flights[index]?, ∀ found ∈ s.find flight.envelopeId,
        found.2.transactionXdr = flight.transactionXdr
  | .createEnvelope input => ∀ envelope, envelopeOf options s.now input = .ok envelope →
      (∀ found ∈ s.find envelope.id, s.isExpired found.2 = false →
        found.2.transactionXdr = envelope.transactionXdr → found.2.signatures = .empty) ∧
      ∀ signers ∈ envelope.requiredSigners,
        s.now ≤ envelope.expiresAt ∧ envelope.threshold ≤ (named signers).length
  | _ => True

end Statement

variable {signs : String → String → Prop} {options : Options Time} {s s' : System Signer Time}
variable {action : Action Signer Time} {ref : ℕ} {envelope : Envelope Signer Time} {id : String}

def Faithful (signs : String → String → Prop) (s : System Signer Time) : Prop :=
  ∀ (ref : ℕ) (envelope : Envelope Signer Time), s.envelopes[ref]? = some envelope →
    ∀ signer signature, envelope.signatures.get signer = some signature →
      signs signature envelope.transactionXdr

omit [ToString Signer] [LinearOrder Time] [Add Time] in
theorem Faithful.modify (hs : Faithful signs s) (ref : ℕ)
    {change : Envelope Signer Time → Envelope Signer Time}
    (hchange : ∀ envelope, (change envelope).signatures = envelope.signatures ∧
      (change envelope).transactionXdr = envelope.transactionXdr) :
    Faithful signs (s.modify ref change) := by
  intro other found hfound signer signature hsignature
  rcases Table.getElem?_modify_cases hfound with ⟨rfl, before, hbefore, rfl⟩ | ⟨-, hold⟩
  · obtain ⟨hsignatures, htransaction⟩ := hchange before
    rw [hsignatures] at hsignature
    rw [htransaction]
    exact hs other before hbefore signer signature hsignature
  · exact hs other found hold signer signature hsignature

variable {signer : Signer} {created : Snapshot Signer Time} {input : EnvelopeInput Signer Time}
  {signers : List (Given Signer)}

omit [ToString Signer] in
/-- A signature that is asked for is of the transaction of the envelope it is for. -/
theorem signs_of_asks {signature : String} (hasks : Asks s id signer signature action)
    (hhonest : Honest signs s action) (horderly : Orderly options s action)
    (hfind : s.find id = some (ref, envelope)) : signs signature envelope.transactionXdr := by
  cases hasks with
  | adds => exact hhonest _ hfind
  | replies hflight hid =>
      subst hid
      rw [horderly _ hflight _ hfind]
      exact hhonest _ hflight

omit [ToString Signer] in
theorem faithful_moves (hs : Faithful signs s) (hhonest : Honest signs s action)
    (horderly : Orderly options s action) (hmoves : Moves options s action s') :
    Faithful signs s' := by
  cases hmoves with
  | same | ticks => exact hs
  | creates hnew =>
      intro ref found hfound signer signature hsignature
      rcases Table.getElem?_concat_cases hfound with hold | ⟨-, rfl⟩
      · exact hs ref found hold signer signature hsignature
      · rw [(envelopeOf_fresh hnew).1] at hsignature
        cases hsignature
  | @records _ flights id ref envelope signer signature hasks hfind hlive hallows =>
      intro other found hfound found_signer found_signature hsignature
      rcases Table.getElem?_modify_cases hfound with ⟨rfl, before, hbefore, rfl⟩ | ⟨-, hold⟩
      · obtain rfl := Option.some.inj ((envelope_of_find hfind).symm.trans hbefore)
        rw [Envelope.sign] at hsignature
        rcases InsertionMap.get_set_cases hsignature with ⟨rfl, rfl⟩ | ⟨-, hold⟩
        · have hsigns := signs_of_asks hasks hhonest horderly hfind
          exact hsigns
        · exact hs _ _ hbefore found_signer found_signature hold
      · exact hs other found hold found_signer found_signature hsignature
  | expires => exact hs.modify _ fun _ => ⟨rfl, rfl⟩
  | purges =>
      intro ref found hfound signer signature hsignature
      have hupdated : (Table.updateWhere (s.purges · = true) Envelope.expire s.envelopes)[ref]? =
          some found := hfound
      rw [Table.getElem?_updateWhere] at hupdated
      split at hupdated
      · obtain ⟨before, hbefore, rfl⟩ := Option.map_eq_some_iff.mp hupdated
        exact hs ref before hbefore signer signature hsignature
      · exact hs ref found hupdated signer signature hsignature
  | assembles | submits => exact hs.modify _ fun _ => ⟨rfl, rfl⟩

omit [ToString Signer] [Add Time] in
theorem Faithful.produced (hs : Faithful signs s) : Produced signs s := by
  intro id assembled s' hassembled entry hentry
  obtain ⟨ref, envelope, hfind, -, -, rfl, -⟩ := assembleEnvelope_cases hassembled
  exact hs ref envelope (envelope_of_find hfind) entry.1 entry.2 (mem_inSignerOrder.mp hentry)

omit [LinearOrder Signer] [ToString Signer] [LinearOrder Time] in
theorem createEnvelope_cases (hcreated : s.createEnvelope options input = (s', .ok created)) :
    ∃ envelope, envelopeOf options s.now input = .ok envelope ∧ created = envelope.snapshot ∧
      s'.now = s.now ∧ s'.find envelope.id = some (s.envelopes.length, envelope) := by
  rw [System.createEnvelope] at hcreated
  split at hcreated
  · cases hcreated
  · next envelope hnew =>
      cases hcreated
      refine ⟨envelope, hnew, rfl, rfl, ?_⟩
      rw [System.find, InsertionMap.get_set_self, Option.bind_some]
      change (s.envelopes ++ [envelope])[s.envelopes.length]?.map _ = _
      rw [List.getElem?_concat_length]
      rfl

omit [Add Time] in
/-- An authorised call for a live envelope. -/
theorem addSignature_of_allows (signature : String) (hfind : s.find id = some (ref, envelope))
    (hlive : s.isExpired envelope = false) (hallows : envelope.allows signer = true) :
    (s.addSignature id (.text signer) (.text signature)).1 = s.record ref signer signature := by
  rw [System.addSignature, hfind]
  simp only [hlive, Bool.false_eq_true, if_false, hallows, if_true]

omit [ToString Signer] [LinearOrder Time] [Add Time] in
theorem find_record (signature : String) (hfind : s.find id = some (ref, envelope)) :
    (s.record ref signer signature).find id = some (ref, envelope.sign signer signature) := by
  have henvelope := envelope_of_find hfind
  rw [System.find] at hfind ⊢
  obtain ⟨other, hpending, hmap⟩ := Option.bind_eq_some_iff.mp hfind
  obtain ⟨found, hfound, hpair⟩ := Option.map_eq_some_iff.mp hmap
  cases hpair
  change (s.pending.get id).bind _ = _
  rw [hpending, Option.bind_some]
  change (s.envelopes.modify ref _)[ref]?.map _ = _
  rw [Table.getElem?_modify_self, henvelope]
  rfl

omit [ToString Signer] [Add Time] in
theorem isExpired_sign (signature : String) (hlive : s.isExpired envelope = false) :
    (s.record ref signer signature).isExpired (envelope.sign signer signature) = false := by
  obtain ⟨hstatus, hinTime⟩ := not_expired_of_live hlive
  rw [System.isExpired, Bool.or_eq_false_iff, decide_eq_false_iff_not, decide_eq_false_iff_not]
  refine ⟨?_, not_lt.mpr hinTime⟩
  rw [Envelope.sign]
  change (if _ then Status.complete else envelope.status) ≠ .expired
  split
  · simp
  · exact hstatus

omit [LinearOrder Time] [Add Time] [ToString Signer] in
theorem keys_sign {other : Signer} (signature : String) :
    other ∈ (envelope.sign signer signature).signatures.keys ↔
      other = signer ∨ other ∈ envelope.signatures.keys :=
  InsertionMap.mem_keys_setEntries ..

/-- Authorised calls for a live envelope collect all their signers. -/
theorem exists_run_additions (additions : List (Signer × String))
    (hfind : s.find id = some (ref, envelope)) (hlive : s.isExpired envelope = false)
    (hallows : ∀ entry ∈ additions, envelope.allows entry.1 = true) :
    ∃ s' envelope', run (step options) s (additions.map (addition id)) = some s' ∧
      s'.find id = some (ref, envelope') ∧ s'.isExpired envelope' = false ∧
      envelope'.threshold = envelope.threshold ∧
      ∀ signer, signer ∈ envelope.signatures.keys ∨ signer ∈ additions.map Prod.fst →
        signer ∈ envelope'.signatures.keys := by
  induction additions generalizing s envelope with
  | nil =>
      refine ⟨s, envelope, rfl, hfind, hlive, rfl, fun signer hsigner => ?_⟩
      exact hsigner.resolve_right (by simp)
  | cons entry additions ih =>
      obtain ⟨signer, signature⟩ := entry
      have hadded := addSignature_of_allows signature hfind hlive
        (hallows _ List.mem_cons_self)
      obtain ⟨s', envelope', hrun, hfind', hlive', hthreshold, hkeys⟩ :=
        ih (find_record signature hfind) (isExpired_sign signature hlive)
          fun entry hentry => hallows entry (List.mem_cons_of_mem _ hentry)
      refine ⟨s', envelope', ?_, hfind', hlive', hthreshold, fun other hother => ?_⟩
      · rw [← hadded] at hrun
        exact hrun
      · apply hkeys other
        rw [keys_sign]
        rcases hother with hold | hnew
        · exact Or.inl (Or.inr hold)
        · rcases List.mem_cons.mp hnew with rfl | hrest
          · exact Or.inl (Or.inl rfl)
          · exact Or.inr hrest

omit [ToString Signer] [LinearOrder Time] [Add Time] in
theorem mem_named : signer ∈ named signers ↔ .text signer ∈ signers := by
  rw [named, List.mem_dedup, List.mem_filterMap]
  constructor
  · rintro ⟨given, hgiven, hvalue⟩
    cases given <;> cases hvalue
    exact hgiven
  · exact fun hsigner => ⟨_, hsigner, rfl⟩

omit [LinearOrder Signer] [ToString Signer] [LinearOrder Time] [Add Time] in
theorem length_le_size {signers : List Signer} (hnodup : signers.Nodup)
    (hkeys : ∀ signer ∈ signers, signer ∈ envelope.signatures.keys) :
    signers.length ≤ envelope.signatures.size := by
  rw [InsertionMap.size_eq_length_keys]
  exact (List.subperm_of_subset hnodup hkeys).length_le

/-- A list with enough different names completes the envelope. -/
theorem completable_of_named (hfind : s.find id = some (ref, envelope))
    (hlive : s.isExpired envelope = false) (hsigners : envelope.requiredSigners = some signers)
    (hnamed : envelope.threshold ≤ (named signers).length) :
    ∃ additions : List (Signer × String), (∀ entry ∈ additions, Given.text entry.1 ∈ signers) ∧
      ∃ s', run (step options) s (additions.map (addition id)) = some s' ∧
        (s'.isComplete id).2 = true := by
  have hmem : ∀ entry ∈ (named signers).map fun signer => (signer, "signature"),
      Given.text entry.1 ∈ signers := by
    intro entry hentry
    obtain ⟨signer, hsigner, rfl⟩ := List.mem_map.mp hentry
    exact mem_named.mp hsigner
  have hallows : ∀ entry ∈ (named signers).map fun signer => (signer, "signature"),
      envelope.allows entry.1 = true := by
    intro entry hentry
    rw [Envelope.allows, hsigners]
    exact decide_eq_true (hmem entry hentry)
  obtain ⟨s', envelope', hrun, hfind', hlive', hthreshold, hkeys⟩ :=
    exists_run_additions _ hfind hlive hallows
  refine ⟨_, hmem, s', hrun, ?_⟩
  have hsize : (named signers).length ≤ envelope'.signatures.size := by
    refine length_le_size (List.nodup_dedup _) fun signer hsigner => ?_
    exact hkeys signer (Or.inr (List.mem_map.mpr ⟨_, List.mem_map_of_mem hsigner, rfl⟩))
  rw [System.isComplete, hfind']
  simp only [hlive', Bool.false_eq_true, if_false]
  rw [hthreshold]
  exact decide_eq_true (hnamed.trans hsize)

theorem bound_createEnvelope (horderly : Orderly options s (.createEnvelope input))
    (hcreated : s.createEnvelope options input = (s', .ok created)) :
    Preserved s s' created ∧ Completable options s' created := by
  obtain ⟨envelope, hnew, rfl, hnow, hfind⟩ := createEnvelope_cases hcreated
  obtain ⟨hfresh, hreachable⟩ := horderly envelope hnew
  constructor
  · intro ref old hold hlive htransaction
    refine ⟨_, envelope, hfind, fun signer signature hsignature => ?_⟩
    have hempty := hfresh _ hold hlive htransaction
    rw [hempty] at hsignature
    cases hsignature
  · intro signers hsigners
    obtain ⟨hinTime, hnamed⟩ := hreachable signers hsigners
    refine completable_of_named hfind ?_ hsigners hnamed
    rw [System.isExpired, (envelopeOf_fresh hnew).2, hnow, decide_eq_false (not_lt.mpr hinTime)]
    rfl

/-- Signatures stay bound to their transactions in every orderly run. -/
theorem alwaysBound_orderly (signs : String → String → Prop) (options : Options Time) :
    AlwaysBound signs options (fun (s : System Signer Time) action =>
      Honest signs s action ∧ Orderly options s action) := by
  intro now s hreach
  have hs : Faithful signs s := hreach.preserves
    (fun _ _ _ hs hmeets hstep => faithful_moves hs hmeets.1 hmeets.2 (moves_of_step hstep))
    (fun _ _ henvelope => by cases henvelope)
  exact ⟨hs.produced, fun input hmeets s' created => bound_createEnvelope hmeets.2⟩

def oneSignature : Options ℕ := ⟨1, ["https://cosigner.example"], 60000, true, Nat.le_refl 1⟩

def inputFor (transactionXdr : String) : EnvelopeInput ℕ ℕ :=
  ⟨.text "envelope", .text transactionXdr, none, none, none⟩

def usedAgain : List (Action ℕ ℕ) :=
  [.createEnvelope (inputFor "first"), .requestSignatures "envelope" none,
    .createEnvelope (inputFor "second")]

def firstSigned : Action ℕ ℕ := .receive 0 (.body (.text 1) (.text "first"))

omit [ToString Signer] [Add Time] in
theorem assembleEnvelope_of_reached (hfind : s.find id = some (ref, envelope))
    (hlive : s.isExpired envelope = false)
    (hreached : envelope.threshold ≤ envelope.signatures.size) :
    s.assembleEnvelope id = (s.modify ref Envelope.complete, .ok envelope.assembled) := by
  rw [System.assembleEnvelope, hfind]
  simp only [hlive, Bool.false_eq_true, if_false, Nat.not_lt.mpr hreached]

/-- Where a transaction is signed by its own text, the second one gets the signature of
the first. -/
theorem not_alwaysBound_honest : ¬ ∀ signs options,
    AlwaysBound signs options (Honest signs : System ℕ ℕ → Action ℕ ℕ → Prop) := by
  intro hbound
  have hfirst : (run (step oneSignature) (.init 0) usedAgain).map (fun s =>
      s.flights[0]?.map fun flight => flight.transactionXdr) = some (some "first") := by decide
  have hsecond : (run (step oneSignature) (.init 0) (usedAgain ++ [firstSigned])).map (fun s =>
      (s.find "envelope").map fun found => (found.2.transactionXdr, found.2.signatures.get 1,
        s.isExpired found.2, decide (found.2.threshold ≤ found.2.signatures.size))) =
      some (some ("second", some "first", false, true)) := by decide
  obtain ⟨s, hs, hflight⟩ := Option.map_eq_some_iff.mp hfirst
  obtain ⟨s', hs', hfound⟩ := Option.map_eq_some_iff.mp hsecond
  rw [run_append, hs, Option.bind_some] at hs'
  have hreach : Reaches (step oneSignature) (Honest (· = ·)) (.init 0) s := by
    refine reaches_of_run_of_forall (fun action haction state => ?_) hs
    simp only [usedAgain, List.mem_cons, List.not_mem_nil, or_false] at haction
    rcases haction with rfl | rfl | rfl <;> trivial
  have hhonest : Honest (· = ·) s firstSigned := by
    intro flight hmem
    rw [Option.mem_def.mp hmem] at hflight
    exact (Option.some.inj hflight).symm
  obtain ⟨next, hstep, hlast⟩ := Option.bind_eq_some_iff.mp hs'
  obtain rfl : next = s' := Option.some.inj hlast
  obtain ⟨⟨ref, envelope⟩, hfind, hvalues⟩ := Option.map_eq_some_iff.mp hfound
  simp only [Prod.mk.injEq, decide_eq_true_eq] at hvalues
  obtain ⟨htransaction, hsignature, hlive, hreached⟩ := hvalues
  have hsame := (hbound (· = ·) oneSignature 0 next (hreach.tail hhonest hstep)).1 "envelope" _ _
    (assembleEnvelope_of_reached hfind hlive hreached) (1, "first")
    (mem_inSignerOrder.mpr hsignature)
  change "first" = envelope.transactionXdr at hsame
  rw [htransaction] at hsame
  exact absurd hsame (by decide)

end X402Facilitator.MultiSigner
