import X402Facilitator.Library.Cuts
import X402Facilitator.Mcp.CodeUnits

/-!
# Stripped strings

The pass for tag characters comes first, and the passes after it can join the two halves of
one.  The isolates among the bidirectional controls are in no class at all.  Other than that
a stripped string has nothing unsafe, and is not changed again.
-/

namespace X402Facilitator.Mcp

open JsString

/-- A C0 or C1 control, other than a tab and a newline, or a delete. -/
def isUnsafeControl (unit : UInt16) : Bool :=
  (unit < 0x20 && unit != 9 && unit != 10) || (0x7F ≤ unit && unit ≤ 0x9F)

/-- Zero-width spaces and joiners, the invisible operators and the byte order mark. -/
def isZeroWidth (unit : UInt16) : Bool :=
  (0x200B ≤ unit && unit ≤ 0x200D) || (0x2060 ≤ unit && unit ≤ 0x2064) || unit = 0xFEFF

def isIsolate (unit : UInt16) : Bool :=
  unit = 0x061C || unit = 0x2066 || unit = 0x2067 || unit = 0x2068 || unit = 0x2069

def isBidiControl (unit : UInt16) : Bool :=
  isIsolate unit || unit = 0x200E || unit = 0x200F || (0x202A ≤ unit && unit ≤ 0x202E)

def isUnsafe (unit : UInt16) : Bool :=
  isUnsafeControl unit || isZeroWidth unit || isBidiControl unit

def HasTag (string : JsString) : Prop :=
  ∃ low, isTagLow low = true ∧ [tagHigh, low] <:+: string

/-- Nothing unsafe, and so no escape sequence: there is no escape. -/
def Safe (string : JsString) : Prop :=
  (∀ unit ∈ string, isUnsafe unit = false) ∧ ¬ HasTag string

/-- Stripping is complete and idempotent, and leaves what is safe. -/
def StripsWell (string : JsString) : Prop :=
  Safe (stripUnits string) ∧ stripUnits (stripUnits string) = stripUnits string ∧
    (Safe string → stripUnits string = string)

/-- The two halves of a tag character, in the string without its tag characters, have nothing
between them that the other passes leave. -/
def Parted (string : JsString) : Prop :=
  ∃ before between low after, stripTags string = before ++ tagHigh :: (between ++ low :: after) ∧
    isTagLow low = true ∧ stripHidden between = []

theorem isUnsafe_eq (unit : UInt16) : isUnsafe unit =
    (isInvisibleUnit unit || isControlUnit unit || unit = 13 || isIsolate unit) := by
  simp only [isUnsafe, isUnsafeControl, isZeroWidth, isBidiControl, isIsolate, isInvisibleUnit,
    isControlUnit]
  rw [Bool.eq_iff_iff]
  simp only [Bool.or_eq_true, Bool.and_eq_true, decide_eq_true_eq, bne_iff_ne, ne_eq,
    UInt16.le_iff_toNat_le, UInt16.lt_iff_toNat_lt, ← UInt16.toNat_inj, UInt16.reduceToNat]
  omega

section Units

variable {unit : UInt16} {string : JsString}

theorem mem_of_mem_stripEscapes {limit : ℕ} (hunit : unit ∈ stripEscapes limit string) :
    unit ∈ string := by
  induction limit generalizing string with
  | zero => exact hunit
  | succ limit ih =>
      cases string with
      | nil => exact hunit
      | cons first rest =>
          have hkept : unit ∈ first :: stripEscapes limit rest → unit ∈ first :: rest := by
            intro hmem
            rcases List.mem_cons.mp hmem with rfl | hlater
            · exact List.mem_cons_self
            · exact List.mem_cons_of_mem _ (ih hlater)
          rw [stripEscapes] at hunit
          split at hunit
          · cases hleft : afterEscape rest with
            | none =>
                rw [hleft] at hunit
                exact hkept hunit
            | some left =>
                rw [hleft] at hunit
                obtain ⟨text, -, rfl⟩ := Option.map_eq_some_iff.mp hleft
                exact List.mem_cons_of_mem _ (List.mem_of_mem_drop (ih hunit))
          · exact hkept hunit

theorem mem_stripHidden (hunit : unit ∈ stripHidden string) :
    unit ∈ string ∧ isInvisibleUnit unit = false ∧ isControlUnit unit = false := by
  obtain ⟨hvisible, hplain⟩ := List.mem_filter.mp hunit
  obtain ⟨hmem, hseen⟩ := List.mem_filter.mp hvisible
  exact ⟨mem_of_mem_stripEscapes hmem, by simpa using hseen, by simpa using hplain⟩

theorem mem_breakLines {returned : Bool} (hunit : unit ∈ breakLines returned string) :
    unit ≠ 13 ∧ (unit ∈ string ∨ unit = 10) := by
  induction string generalizing returned with
  | nil => cases hunit
  | cons first rest ih =>
      have hlater : ∀ {returned}, unit ∈ breakLines returned rest →
          unit ≠ 13 ∧ (unit ∈ first :: rest ∨ unit = 10) := fun hmem =>
        ⟨(ih hmem).1, (ih hmem).2.imp_left (List.mem_cons_of_mem first)⟩
      rw [breakLines] at hunit
      split at hunit
      · rcases List.mem_cons.mp hunit with rfl | hmem
        · exact ⟨by decide, .inr rfl⟩
        · exact hlater hmem
      · next hreturn =>
          split at hunit
          · exact hlater hunit
          · rcases List.mem_cons.mp hunit with rfl | hmem
            · exact ⟨hreturn, .inl List.mem_cons_self⟩
            · exact hlater hmem

theorem mem_of_mem_stripTags (hunit : unit ∈ stripTags string) : unit ∈ string := by
  induction string using stripTags.induct with
  | case1 => exact hunit
  | case2 _ => exact hunit
  | case3 high low rest htag ih =>
      rw [stripTags, if_pos htag] at hunit
      exact List.mem_cons_of_mem _ (List.mem_cons_of_mem _ (ih hunit))
  | case4 high low rest htag ih =>
      rw [stripTags, if_neg htag] at hunit
      rcases List.mem_cons.mp hunit with rfl | hlater
      · exact List.mem_cons_self
      · exact List.mem_cons_of_mem _ (ih hlater)

/-- What is no part of a tag character stays. -/
theorem mem_stripTags (hhigh : unit ≠ tagHigh) (hlow : isTagLow unit = false)
    (hunit : unit ∈ string) : unit ∈ stripTags string := by
  induction string using stripTags.induct with
  | case1 => exact hunit
  | case2 _ => exact hunit
  | case3 high low rest htag ih =>
      rw [stripTags, if_pos htag]
      rcases List.mem_cons.mp hunit with rfl | hlater
      · exact absurd htag.1 hhigh
      · rcases List.mem_cons.mp hlater with rfl | hrest
        · rw [htag.2] at hlow
          cases hlow
        · exact ih hrest
  | case4 high low rest htag ih =>
      rw [stripTags, if_neg htag]
      rcases List.mem_cons.mp hunit with rfl | hlater
      · exact List.mem_cons_self
      · exact List.mem_cons_of_mem _ (ih hlater)

theorem breakLines_append {c : UInt16} (hreturn : c ≠ 13) (hline : c ≠ 10) (returned : Bool)
    (x y : JsString) :
    breakLines returned (x ++ c :: y) = breakLines returned x ++ c :: breakLines false y := by
  induction x generalizing returned with
  | nil => simp [breakLines, hreturn, hline]
  | cons first x ih =>
      rw [List.cons_append, breakLines, breakLines, ih, ih]
      split
      · rfl
      · split <;> rfl

end Units

def isFirm (unit : UInt16) : Bool := isCutUnit unit && unit != 13 && unit != 10

theorem respectsCuts_passes :
    RespectsCuts isFirm fun string => breakLines false (stripHidden string) where
  append {c} hc x y := by
    rw [isFirm, Bool.and_eq_true, Bool.and_eq_true, bne_iff_ne, bne_iff_ne] at hc
    rw [stripHidden_cut hc.1.1, breakLines_append hc.1.2 hc.2]
  mem {c string} hc hmem := by
    rw [isFirm, Bool.and_eq_true, bne_iff_ne] at hc
    exact (mem_stripHidden ((mem_breakLines hmem).2.resolve_right hc.2)).1

/-- A test on single characters sees nothing in a surrogate. -/
theorem charOf_surrogate {unit : UInt16} (hge : 0xD800 ≤ unit.toNat) (hle : unit.toNat ≤ 0xDFFF) :
    charOf unit = Char.ofNat 0 := by
  rw [charOf, Char.ofNat, dif_neg]
  · rfl
  · simp only [Nat.isValidChar]
    omega

theorem isFirm_surrogate {unit : UInt16} (hge : 0xD800 ≤ unit.toNat)
    (hle : unit.toNat ≤ 0xDFFF) : isFirm unit = true := by
  rw [isFirm, isCutUnit, charOf_surrogate hge hle]
  have hcut : isCut (Char.ofNat 0) = true := by decide
  rw [hcut]
  simp only [isEscape, isInvisibleUnit, isControlUnit, Bool.true_and, Bool.and_eq_true,
    Bool.not_eq_true', Bool.or_eq_false_iff, Bool.and_eq_false_iff, decide_eq_false_iff_not,
    bne_iff_ne, ne_eq, UInt16.le_iff_toNat_le, ← UInt16.toNat_inj, UInt16.reduceToNat]
  omega

theorem isFirm_tagHigh : isFirm tagHigh = true := isFirm_surrogate (by decide) (by decide)

theorem isFirm_of_isTagLow {unit : UInt16} (hlow : isTagLow unit = true) : isFirm unit = true := by
  simp only [isTagLow, Bool.and_eq_true, decide_eq_true_eq, UInt16.le_iff_toNat_le,
    UInt16.reduceToNat] at hlow
  exact isFirm_surrogate (by omega) (by omega)

theorem isFirm_of_isIsolate {unit : UInt16} (hisolate : isIsolate unit = true) :
    isFirm unit = true := by
  simp only [isIsolate, Bool.or_eq_true, decide_eq_true_eq] at hisolate
  rcases hisolate with (((rfl | rfl) | rfl) | rfl) | rfl <;> decide

section Stripped

variable {string : JsString}

theorem hasTag_iff :
    HasTag string ↔ ∃ before low after, string = before ++ tagHigh :: low :: after ∧
      isTagLow low = true := by
  constructor
  · rintro ⟨low, hlow, before, after, heq⟩
    refine ⟨before, low, after, ?_, hlow⟩
    rw [← heq, List.append_assoc]
    rfl
  · rintro ⟨before, low, after, rfl, hlow⟩
    exact ⟨low, hlow, before, after, List.append_assoc _ _ _⟩

theorem breakLines_eq_nil_iff : breakLines false string = [] ↔ string = [] := by
  cases string with
  | nil => exact ⟨fun _ => rfl, fun _ => rfl⟩
  | cons first rest =>
      rw [breakLines]
      split
      · simp
      · simp

/-- A tag character is left exactly where its halves have been joined. -/
theorem hasTag_stripUnits_iff : HasTag (stripUnits string) ↔ Parted string := by
  rw [hasTag_iff]
  constructor
  · rintro ⟨before, low, after, heq, hlow⟩
    obtain ⟨x, rest, htags, -, hrest⟩ :=
      respectsCuts_passes.exists_of_eq_append isFirm_tagHigh (stripTags string) heq
    have hnext : breakLines false (stripHidden rest) = [] ++ low :: after := hrest
    obtain ⟨between, y, hbetween, hnothing, -⟩ :=
      respectsCuts_passes.exists_of_eq_append (isFirm_of_isTagLow hlow) rest hnext
    exact ⟨x, between, low, y, hbetween ▸ htags, hlow, breakLines_eq_nil_iff.mp hnothing⟩
  · rintro ⟨before, between, low, after, htags, hlow, hnothing⟩
    refine ⟨breakLines false (stripHidden before), low, breakLines false (stripHidden after), ?_,
      hlow⟩
    have hhigh := respectsCuts_passes.append isFirm_tagHigh before (between ++ low :: after)
    have hjoined := respectsCuts_passes.append (isFirm_of_isTagLow hlow) between after
    rw [stripUnits, htags, hhigh, hjoined, hnothing]
    rfl

theorem mem_stripUnits_of_isIsolate {unit : UInt16} (hisolate : isIsolate unit = true) :
    unit ∈ stripUnits string ↔ unit ∈ string := by
  have hhigh : unit ≠ tagHigh := by
    rintro rfl
    exact absurd hisolate (by decide)
  have hlow : isTagLow unit = false := by
    simp only [isIsolate, Bool.or_eq_true, decide_eq_true_eq] at hisolate
    rcases hisolate with (((rfl | rfl) | rfl) | rfl) | rfl <;> decide
  have hpasses := respectsCuts_passes.mem_iff (isFirm_of_isIsolate hisolate) (stripTags string)
  exact hpasses.trans ⟨mem_of_mem_stripTags, mem_stripTags hhigh hlow⟩

/-- Units of a stripped string are safe, but for the isolates. -/
theorem isUnsafe_of_mem_stripUnits {unit : UInt16} (hunit : unit ∈ stripUnits string) :
    isUnsafe unit = isIsolate unit := by
  obtain ⟨hreturn, hmem⟩ := mem_breakLines hunit
  rw [isUnsafe_eq]
  rcases hmem with hhidden | rfl
  · obtain ⟨-, hvisible, hplain⟩ := mem_stripHidden hhidden
    simp [hvisible, hplain, hreturn]
  · decide

theorem safe_stripUnits_iff :
    Safe (stripUnits string) ↔ (∀ unit ∈ string, isIsolate unit = false) ∧ ¬ Parted string := by
  refine and_congr ⟨fun hsafe unit hunit => ?_, fun hnone unit hunit => ?_⟩
    (not_congr hasTag_stripUnits_iff)
  · by_contra hisolate
    rw [Bool.not_eq_false] at hisolate
    have hstays := (mem_stripUnits_of_isIsolate hisolate).mpr hunit
    rw [← isUnsafe_of_mem_stripUnits hstays, hsafe unit hstays] at hisolate
    cases hisolate
  · rw [isUnsafe_of_mem_stripUnits hunit]
    by_contra hisolate
    rw [Bool.not_eq_false] at hisolate
    rw [hnone unit ((mem_stripUnits_of_isIsolate hisolate).mp hunit)] at hisolate
    cases hisolate

theorem stripTags_of_not_hasTag (htag : ¬ HasTag string) : stripTags string = string := by
  rw [hasTag_iff] at htag
  induction string using stripTags.induct with
  | case1 => rfl
  | case2 _ => rfl
  | case3 high low rest hpair ih =>
      exact absurd ⟨[], low, rest, by rw [hpair.1]; rfl, hpair.2⟩ htag
  | case4 high low rest hpair ih =>
      rw [stripTags, if_neg hpair, ih]
      rintro ⟨before, other, after, heq, hother⟩
      exact htag ⟨high :: before, other, after, by rw [heq]; rfl, hother⟩

theorem stripEscapes_of_forall {limit : ℕ} (hnone : ∀ unit ∈ string, isEscape unit = false) :
    stripEscapes limit string = string := by
  induction limit generalizing string with
  | zero => rfl
  | succ limit ih =>
      cases string with
      | nil => rfl
      | cons first rest =>
          have hfirst := hnone first List.mem_cons_self
          rw [stripEscapes, if_neg (by simp [hfirst]),
            ih fun unit hunit => hnone unit (List.mem_cons_of_mem _ hunit)]

theorem breakLines_of_forall (hnone : ∀ unit ∈ string, unit ≠ 13) :
    breakLines false string = string := by
  induction string with
  | nil => rfl
  | cons first rest ih =>
      have hrest := ih fun unit hunit => hnone unit (List.mem_cons_of_mem _ hunit)
      simp [breakLines, hnone first List.mem_cons_self, hrest]

/-- What is safe is not changed. -/
theorem stripUnits_of_safe (hsafe : Safe string) : stripUnits string = string := by
  have hunits : ∀ unit ∈ string, isInvisibleUnit unit = false ∧ isControlUnit unit = false ∧
      unit ≠ 13 := by
    intro unit hunit
    have hrest := hsafe.1 unit hunit
    rw [isUnsafe_eq, Bool.or_eq_false_iff, Bool.or_eq_false_iff, Bool.or_eq_false_iff,
      decide_eq_false_iff_not] at hrest
    exact ⟨hrest.1.1.1, hrest.1.1.2, hrest.1.2⟩
  have hescapes : ∀ unit ∈ string, isEscape unit = false := by
    intro unit hunit
    by_contra hescape
    simp only [isEscape, Bool.not_eq_false, Bool.or_eq_true, decide_eq_true_eq] at hescape
    rcases hescape with rfl | rfl <;> exact absurd (hunits _ hunit).2.1 (by decide)
  have hhidden : stripHidden string = string := by
    rw [stripHidden, stripEscapes_of_forall hescapes, List.filter_filter]
    refine List.filter_eq_self.mpr fun unit hunit => ?_
    simp [hunits unit hunit]
  rw [stripUnits, stripTags_of_not_hasTag hsafe.2, hhidden,
    breakLines_of_forall fun unit hunit => (hunits unit hunit).2.2]

/-- Stripping is complete and idempotent exactly for the strings without isolates and without
a tag character in two parts. -/
theorem stripsWell_iff (string : JsString) :
    StripsWell string ↔ (∀ unit ∈ string, isIsolate unit = false) ∧ ¬ Parted string := by
  rw [StripsWell, safe_stripUnits_iff]
  refine and_iff_left_of_imp fun hwhole => ⟨?_, stripUnits_of_safe⟩
  exact stripUnits_of_safe (safe_stripUnits_iff.mpr hwhole)

/-- The halves of a tag character around a zero-width space, and an isolate. -/
theorem not_stripsWell :
    ¬ StripsWell [0xDB40, 0x200B, 0xDC41] ∧ ¬ StripsWell [0x2066] := by
  constructor
  · intro hwell
    refine hwell.1.2 ⟨0xDC41, by decide, [], [], ?_⟩
    decide +kernel
  · intro hwell
    exact absurd (hwell.1.1 0x2066 (by decide +kernel)) (by decide)

end Stripped

end X402Facilitator.Mcp
