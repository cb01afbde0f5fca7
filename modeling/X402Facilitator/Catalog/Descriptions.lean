import X402Facilitator.Catalog.Policy
import X402Facilitator.Library.CharacterReferences

/-!
# Descriptions without markup

The pattern knows the references that end with a semicolon and whose names are in lower case.
A consumer decodes others too, and it decodes what a less-than sign is followed by.
-/

namespace X402Facilitator.Catalog

open CharacterReferences JsString

section Pattern

variable {text more : Text}

theorem isPadded_append {first : Char} {second : List Char}
    (hpadded : isPadded first second text = true) (more : Text) :
    isPadded first second (text ++ more) = true := by
  rw [isPadded] at hpadded ⊢
  split at hpadded
  · next c d rest hdrop =>
      rw [List.dropWhile_append, hdrop]
      exact hpadded
  · cases hpadded

theorem isMarkupEntity_hash {c : Char} (hlower : c ≠ 'x') (hupper : c ≠ 'X') (rest : Text) :
    isMarkupEntity ('#' :: c :: rest) = isPadded '6' ['0', '2'] (c :: rest) := by
  rw [isMarkupEntity]
  · exact fun _ heq => hlower (List.cons.inj heq).1
  · exact fun _ heq => hupper (List.cons.inj heq).1

theorem isMarkupEntity_append (hentity : isMarkupEntity text = true) (more : Text) :
    isMarkupEntity (text ++ more) = true := by
  rw [isMarkupEntity.eq_def] at hentity
  split at hentity
  · rfl
  · rfl
  · exact isPadded_append hentity more
  · exact isPadded_append hentity more
  · next rest hlower hupper =>
      cases rest with
      | nil => cases hentity
      | cons c rest =>
          rw [List.cons_append, List.cons_append, isMarkupEntity_hash]
          · exact isPadded_append hentity more
          · exact fun hc => hlower rest (by rw [hc])
          · exact fun hc => hupper rest (by rw [hc])
  · cases hentity

theorem startsMarkup_append (hstarts : startsMarkup text = true) (more : Text) :
    startsMarkup (text ++ more) = true := by
  rw [startsMarkup.eq_def] at hstarts
  split at hstarts
  · exact hstarts
  · exact isMarkupEntity_append hstarts more
  · cases hstarts

/-- What the pattern finds in the front of a description it finds in the whole. -/
theorem hasMarkup_of_start {stored description : JsString} (hstart : stored <+: description)
    (hmarkup : hasMarkup stored = true) : hasMarkup description = true := by
  obtain ⟨more, rfl⟩ := hstart
  obtain ⟨tail, htail, hstarts⟩ := List.any_eq_true.mp hmarkup
  obtain ⟨front, hfront⟩ := (List.mem_tails tail _).mp htail
  refine List.any_eq_true.mpr ⟨tail ++ chars more, (List.mem_tails _ _).mpr ⟨front, ?_⟩,
    startsMarkup_append hstarts _⟩
  rw [← List.append_assoc, hfront, chars, chars, chars, List.map_append]

theorem startsMarkup_of_startsPair (hstarts : startsPair isTagChar text = true) :
    startsMarkup text = true := by
  rw [startsPair.eq_def] at hstarts
  split at hstarts
  · exact hstarts
  · cases hstarts

end Pattern

/-- The front of a text is a less-than sign that the pattern misses, spelled or followed by a
reference, in front of a letter, `/` or `!`. -/
def missesTag : Text → Bool
  | '<' :: '&' :: rest => (reference rest).any fun read => isTagChar read.1
  | '&' :: rest => !isMarkupEntity rest &&
      (reference rest).any fun read => read.1 = '<' && (first (rest.drop read.2)).any isTagChar
  | _ => false

theorem missesTag_less {c : Char} (hc : c ≠ '&') (rest : Text) :
    missesTag ('<' :: c :: rest) = false := by
  rw [missesTag]
  · exact fun _ heq => hc (List.cons.inj (List.cons.inj heq).2).1
  · exact fun _ heq => absurd (List.cons.inj heq).1 (by decide)

theorem missesTag_of_ne {c : Char} (hless : c ≠ '<') (hamp : c ≠ '&') (rest : Text) :
    missesTag (c :: rest) = false := by
  rw [missesTag]
  · exact fun _ heq => hless (List.cons.inj heq).1
  · exact fun _ heq => hamp (List.cons.inj heq).1

/-- Where the pattern finds nothing, these are all the ways to spell the start of a tag. -/
theorem spellsPair_eq {text : Text} (hstarts : startsMarkup text = false) :
    spellsPair isTagChar text = missesTag text := by
  cases text with
  | nil => rfl
  | cons c rest =>
      by_cases hless : c = '<'
      · subst hless
        cases rest with
        | nil => rfl
        | cons d rest =>
            by_cases hamp : d = '&'
            · subst hamp
              rw [spellsPair, missesTag, first, if_pos rfl]
              cases reference rest <;> rfl
            · rw [spellsPair, first, if_neg hamp, missesTag_less hamp]
              exact hstarts
      · by_cases hamp : c = '&'
        · subst hamp
          rw [spellsPair, missesTag, show isMarkupEntity rest = false from hstarts]
          rfl
        · rw [spellsPair_of_ne isTagChar hless hamp, missesTag_of_ne hless hamp]

section Descriptions

def HasTag (text : Text) : Prop := hasPair isTagChar text = true

instance (text : Text) : Decidable (HasTag text) :=
  inferInstanceAs (Decidable (hasPair isTagChar text = true))

/-- Neither a description nor what it is decoded to has the start of a tag. -/
structure Clean (description : JsString) : Prop where
  plain : ¬ HasTag description.chars
  decoded : ¬ HasTag (decode description.chars)

/-- A description that is kept is stored without markup, also where it had none and has been
trimmed and cut. -/
structure KeptClean (rawDescription stored : JsString) : Prop where
  clean : Clean stored
  unspoilt : Clean rawDescription → Clean stored

theorem truncateDescription_start (value : JsString) : truncateDescription value <+: value := by
  rw [truncateDescription]
  split
  · exact List.prefix_refl value
  · exact List.take_prefix _ value

theorem hasMarkup_of_notMem {description : JsString} (hless : unitOf '<' ∉ description)
    (hamp : unitOf '&' ∉ description) : hasMarkup description = false := by
  have hnot : ∀ c : Char, c.toNat ≠ 0 → unitOf c ∉ description → c ∉ description.chars := by
    intro c hzero hunit hmem
    obtain ⟨unit, hin, hchar⟩ := List.mem_map.mp hmem
    exact hunit (eq_unitOf hchar hzero ▸ hin)
  rw [hasMarkup, List.any_eq_false]
  intro tail htail hstarts
  obtain ⟨front, hfront⟩ := (List.mem_tails tail _).mp htail
  rw [startsMarkup.eq_def] at hstarts
  split at hstarts
  · exact hnot '<' (by decide) hless (hfront ▸ List.mem_append_right front List.mem_cons_self)
  · exact hnot '&' (by decide) hamp (hfront ▸ List.mem_append_right front List.mem_cons_self)
  · cases hstarts

/-- What is kept of a description, and that the pattern found nothing. -/
theorem checkDescription_text {Other : Type*} {extracted : Option (Field Other)}
    {rawDescription stored : JsString}
    (hkept : (checkDescription extracted (some (.text rawDescription))).description =
      some (.text stored)) :
    stored = truncateDescription rawDescription.trim ∧
      hasMarkup rawDescription.trim = false := by
  simp only [checkDescription] at hkept
  split at hkept
  · cases hkept
  · next hnot =>
      have hnone : hasMarkup rawDescription.trim = false := by
        by_contra hmarkup
        rw [Bool.not_eq_false] at hmarkup
        refine hnot ⟨?_, hmarkup⟩
        by_contra hneither
        obtain ⟨hless, hamp⟩ := not_or.mp hneither
        rw [hasMarkup_of_notMem hless hamp] at hmarkup
        cases hmarkup
      split at hkept
      · cases hkept
        exact ⟨rfl, hnone⟩
      · next hshort =>
          cases hkept
          rw [truncateDescription, if_pos (not_lt.mp hshort)]
          exact ⟨rfl, hnone⟩

theorem clean_iff {stored : JsString} (hnone : hasMarkup stored = false) :
    Clean stored ↔ stored.chars.tails.all (fun tail => !missesTag tail) = true := by
  have htails : ∀ tail ∈ stored.chars.tails, startsMarkup tail = false := fun tail htail =>
    Bool.eq_false_iff.mpr (List.any_eq_false.mp hnone tail htail)
  have hplain : ¬ HasTag stored.chars := by
    intro htag
    obtain ⟨tail, htail, hstarts⟩ := List.any_eq_true.mp htag
    exact absurd (startsMarkup_of_startsPair hstarts) (by rw [htails tail htail]; decide)
  have hdecoded : hasPair isTagChar (decode stored.chars) = stored.chars.tails.any missesTag := by
    rw [hasPair_decode, Bool.eq_iff_iff, List.any_eq_true, List.any_eq_true]
    apply exists_congr
    intro tail
    apply and_congr_right
    intro htail
    rw [spellsPair_eq (htails tail htail)]
  rw [List.all_eq_not_any_not]
  simp only [Bool.not_not, ← hdecoded]
  exact ⟨fun hclean => by simpa [HasTag] using hclean.decoded,
    fun hclear => ⟨hplain, by simpa [HasTag] using hclear⟩⟩

variable {Other : Type*} {library : DiscoveryLibrary Other} {payload : PaymentPayload Other}
variable {requirements : PaymentRequirements Other} {assetDecimalsMap : Option (PlainObject ℕ)}
variable {listing : CheckedListing Other} {rawDescription stored : JsString}

/-- The description of a listing is the one that was checked. -/
theorem description_of_resource
    (hlisting : (validateForCatalog library payload requirements assetDecimalsMap).resource =
      some listing) : ∃ extracted, listing.description =
        (checkDescription extracted payload.resource.description).description := by
  have hmade : ∀ {extracted : Extracted Other} {dropped : Bool},
      (checkedListing library payload requirements extracted dropped).resource = some listing →
      listing.description =
        (checkDescription extracted.description payload.resource.description).description := by
    intro extracted dropped heq
    rw [← Option.some.inj heq]
  rw [validateForCatalog, validatePolicy] at hlisting
  split at hlisting
  · cases hlisting
  · cases hlisting
  · cases hlisting
  · next extracted _ =>
      split at hlisting
      · cases hlisting
      · split at hlisting
        · exact ⟨_, hmade hlisting⟩
        · split at hlisting
          · exact ⟨_, hmade hlisting⟩
          · split at hlisting
            · cases hlisting
            · exact ⟨_, hmade hlisting⟩

/-- A description that the policy keeps is stored without markup just where the pattern misses
none in what trimming and truncation leave of it. -/
theorem keptClean_iff (hraw : payload.resource.description = some (.text rawDescription))
    (hlisting : (validateForCatalog library payload requirements assetDecimalsMap).resource =
      some listing)
    (hkept : listing.description = some (.text stored)) :
    KeptClean rawDescription stored ↔
      (truncateDescription rawDescription.trim).chars.tails.all (fun tail => !missesTag tail) =
        true := by
  obtain ⟨extracted, hchecked⟩ := description_of_resource hlisting
  rw [hraw, hkept] at hchecked
  obtain ⟨rfl, hnone⟩ := checkDescription_text hchecked.symm
  have hstart := truncateDescription_start rawDescription.trim
  have hstored : hasMarkup (truncateDescription rawDescription.trim) = false := by
    by_contra hmarkup
    rw [hasMarkup_of_start hstart (Bool.eq_true_of_not_eq_false hmarkup)] at hnone
    cases hnone
  rw [← clean_iff hstored]
  exact ⟨KeptClean.clean, fun hclean => ⟨hclean, fun _ => hclean⟩⟩

end Descriptions

namespace Sample

def described (description : JsString) : PaymentPayload Unit where
  bazaar := none
  resource := ⟨none, none, some (.text description), none⟩
  content := ()

/-- A description that is cut after the first digits of a number. -/
def cutDescription : JsString := List.replicate 195 (unitOf 'a') ++ js "<&#970;"

end Sample

/-- A reference in upper case is stored, and a number is cut to that of a letter. -/
theorem not_keptClean :
    (∃ listing, (validateForCatalog Sample.library (Sample.described (js "1 &LT;b"))
        Sample.requirements none).resource = some listing ∧
      listing.description = some (.text (js "1 &LT;b")) ∧
      ¬ KeptClean (js "1 &LT;b") (js "1 &LT;b")) ∧
    ∃ listing, (validateForCatalog Sample.library (Sample.described Sample.cutDescription)
        Sample.requirements none).resource = some listing ∧
      listing.description = some (.text (Sample.cutDescription.take 200)) ∧
      Clean Sample.cutDescription ∧ ¬ Clean (Sample.cutDescription.take 200) := by
  refine ⟨⟨_, rfl, by decide, fun hkept => ?_⟩, _, rfl, by decide +kernel, ⟨?_, ?_⟩,
    fun hclean => ?_⟩
  · exact hkept.clean.decoded (by decide)
  · decide +kernel
  · decide +kernel
  · exact hclean.decoded (by decide +kernel)

theorem keptClean_lessThan : KeptClean (js " 1 < 2 ") (js "1 < 2") :=
  (keptClean_iff
    (show (Sample.described (js " 1 < 2 ")).resource.description = some (.text _) from rfl)
    (show (validateForCatalog Sample.library _ Sample.requirements none).resource = some _ from rfl)
    (by decide)).mpr (by decide)

end X402Facilitator.Catalog
