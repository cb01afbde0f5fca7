import X402Facilitator.Mcp.Sanitize

/-!
# Unsafe characters, in code units

A string from outside need not be well formed, and a pass over it that removes characters
can join what stood apart.  The passes are those of `stripUnsafeCharacters`, of which only the
first reads surrogates in pairs.
-/

namespace X402Facilitator.Mcp

open JsString

def isCut (c : Char) : Bool :=
  !isAnsiOpener c && !c.isDigit && c != ';' && !isAnsiFinal c

section Cuts

variable {admits : Char → Bool} {c d : Char} {x y left text : Text}

theorem upTo_cut (hd : admits d = false) (limit : ℕ) (x y : Text) :
    upTo admits limit (x ++ d :: y) = (upTo admits limit x).map (· ++ d :: y) := by
  induction x generalizing limit with
  | nil =>
      cases limit with
      | zero => rfl
      | succ limit => simp [upTo, hd]
  | cons c x ih =>
      cases limit with
      | zero => rfl
      | succ limit =>
          rw [List.cons_append, upTo, upTo]
          split
          · rw [ih, List.map_append]
            rfl
          · rfl

theorem upTo_limit {limit limit' : ℕ} (hlimit : text.length ≤ limit)
    (hlimit' : text.length ≤ limit') : upTo admits limit text = upTo admits limit' text := by
  induction text generalizing limit limit' with
  | nil => cases limit <;> cases limit' <;> rfl
  | cons c text ih =>
      obtain ⟨limit, rfl⟩ := Nat.exists_eq_add_of_le' (Nat.one_le_of_lt hlimit)
      obtain ⟨limit', rfl⟩ := Nat.exists_eq_add_of_le' (Nat.one_le_of_lt hlimit')
      rw [upTo, upTo, ih (Nat.le_of_succ_le_succ hlimit) (Nat.le_of_succ_le_succ hlimit')]

theorem isSuffix_of_mem_upTo {limit : ℕ} (hleft : left ∈ upTo admits limit text) :
    left <:+ text := by
  induction text generalizing limit with
  | nil =>
      cases limit <;> exact List.mem_singleton.mp hleft ▸ List.suffix_refl _
  | cons c text ih =>
      cases limit with
      | zero => exact List.mem_singleton.mp hleft ▸ List.suffix_refl _
      | succ limit =>
          rw [upTo] at hleft
          split at hleft
          · rcases List.mem_append.mp hleft with hlater | hall
            · exact (ih hlater).trans (List.suffix_cons c text)
            · exact List.mem_singleton.mp hall ▸ List.suffix_refl _
          · exact List.mem_singleton.mp hleft ▸ List.suffix_refl _

theorem ansiParameters_cut (hsemicolon : d ≠ ';') (hdigit : d.isDigit = false) (limit : ℕ)
    (x y : Text) :
    ansiParameters limit (x ++ d :: y) = (ansiParameters limit x).map (· ++ d :: y) := by
  induction limit generalizing x with
  | zero => rfl
  | succ limit ih =>
      cases x with
      | nil => simp [ansiParameters, hsemicolon]
      | cons c x =>
          by_cases hc : c = ';'
          · subst hc
            rw [List.cons_append, ansiParameters, ansiParameters, upTo_cut hdigit, List.map_append,
              List.flatMap_map, List.map_flatMap]
            simp only [ih]
            rfl
          · simp [ansiParameters, hc]

theorem ansiParameters_limit {limit limit' : ℕ} (hlimit : text.length ≤ limit)
    (hlimit' : text.length ≤ limit') : ansiParameters limit text = ansiParameters limit' text := by
  induction limit generalizing limit' text with
  | zero =>
      rw [List.eq_nil_of_length_eq_zero (Nat.le_zero.mp hlimit)]
      cases limit' <;> rfl
  | succ limit ih =>
      cases text with
      | nil => cases limit' <;> rfl
      | cons c text =>
          obtain ⟨limit', rfl⟩ := Nat.exists_eq_add_of_le' (Nat.one_le_of_lt hlimit')
          by_cases hc : c = ';'
          · subst hc
            rw [ansiParameters, ansiParameters]
            congr 1
            refine List.flatMap_congr fun left hleft => ih ?_ ?_
            · exact ((isSuffix_of_mem_upTo hleft).length_le).trans (Nat.le_of_succ_le_succ hlimit)
            · exact ((isSuffix_of_mem_upTo hleft).length_le).trans (Nat.le_of_succ_le_succ hlimit')
          · simp [ansiParameters, hc]

theorem isSuffix_of_mem_ansiParameters {limit : ℕ} (hleft : left ∈ ansiParameters limit text) :
    left <:+ text := by
  induction limit generalizing text with
  | zero => exact List.mem_singleton.mp hleft ▸ List.suffix_refl _
  | succ limit ih =>
      cases text with
      | nil => exact List.mem_singleton.mp hleft ▸ List.suffix_refl _
      | cons c text =>
          by_cases hc : c = ';'
          · subst hc
            rw [ansiParameters] at hleft
            rcases List.mem_append.mp hleft with hlater | hall
            · obtain ⟨middle, hmiddle, hlast⟩ := List.mem_flatMap.mp hlater
              exact ((ih hlast).trans (isSuffix_of_mem_upTo hmiddle)).trans
                (List.suffix_cons _ text)
            · exact List.mem_singleton.mp hall ▸ List.suffix_refl _
          · have hall : left ∈ [c :: text] := by simpa [ansiParameters, hc] using hleft
            exact List.mem_singleton.mp hall ▸ List.suffix_refl _

theorem ansiNumbers_cut (hsemicolon : d ≠ ';') (hdigit : d.isDigit = false) (x y : Text) :
    ansiNumbers (x ++ d :: y) = (ansiNumbers x).map (· ++ d :: y) := by
  cases x with
  | nil => simp [ansiNumbers, hdigit]
  | cons c x =>
      rw [List.cons_append, ansiNumbers, ansiNumbers, List.map_append]
      congr 1
      split
      · rw [upTo_cut hdigit, List.flatMap_map, List.map_flatMap]
        refine List.flatMap_congr fun left _ => ?_
        rw [ansiParameters_cut hsemicolon hdigit]
        congr 1
        refine ansiParameters_limit ?_ le_rfl
        rw [List.length_append]
        exact Nat.le_add_right _ _
      · rfl

theorem isSuffix_of_mem_ansiNumbers (hleft : left ∈ ansiNumbers text) : left <:+ text := by
  cases text with
  | nil => exact List.mem_singleton.mp hleft ▸ List.suffix_refl _
  | cons c text =>
      rw [ansiNumbers] at hleft
      rcases List.mem_append.mp hleft with hnumbers | hall
      · split at hnumbers
        · obtain ⟨middle, hmiddle, hlast⟩ := List.mem_flatMap.mp hnumbers
          exact ((isSuffix_of_mem_ansiParameters hlast).trans (isSuffix_of_mem_upTo hmiddle)).trans
            (List.suffix_cons c text)
        · cases hnumbers
      · exact List.mem_singleton.mp hall ▸ List.suffix_refl _

def ansiEnd (text : Text) : Option Text :=
  if text.head?.any isAnsiFinal then some text.tail else none

theorem afterAnsi_eq (text : Text) :
    afterAnsi text =
      ((upTo isAnsiOpener text.length text).flatMap ansiNumbers).findSome? ansiEnd := by
  rw [afterAnsi]
  congr 1
  funext left
  cases left <;> rfl

/-- A sequence is left with less. -/
theorem isSuffix_of_afterAnsi (hleft : afterAnsi text = some left) :
    left <:+ text ∧ left.length < text.length := by
  rw [afterAnsi_eq] at hleft
  obtain ⟨numbers, hmem, hend⟩ := List.exists_of_findSome?_eq_some hleft
  obtain ⟨opened, hopened, hnumbers⟩ := List.mem_flatMap.mp hmem
  have hsuffix := (isSuffix_of_mem_ansiNumbers hnumbers).trans (isSuffix_of_mem_upTo hopened)
  cases numbers with
  | nil => cases hend
  | cons c rest =>
      obtain ⟨-, hrest⟩ := Option.ite_none_right_eq_some.mp hend
      obtain rfl : rest = left := Option.some.inj hrest
      exact ⟨(List.suffix_cons c rest).trans hsuffix, hsuffix.length_le⟩

/-- What comes from a cut on has no part in a sequence before it. -/
theorem afterAnsi_cut (hcut : isCut d = true) (x y : Text) :
    afterAnsi (x ++ d :: y) = (afterAnsi x).map (· ++ d :: y) := by
  rw [isCut, Bool.and_eq_true, Bool.and_eq_true, Bool.and_eq_true] at hcut
  obtain ⟨⟨⟨hopener, hdigit⟩, hsemicolon⟩, hfinal⟩ := hcut
  rw [Bool.not_eq_true'] at hopener hdigit hfinal
  have hne : d ≠ ';' := by simpa using hsemicolon
  have hopened : upTo isAnsiOpener (x ++ d :: y).length (x ++ d :: y) =
      (upTo isAnsiOpener x.length x).map (· ++ d :: y) := by
    rw [upTo_cut hopener, upTo_limit _ le_rfl]
    rw [List.length_append]
    exact Nat.le_add_right _ _
  rw [afterAnsi_eq, afterAnsi_eq, hopened, List.flatMap_map]
  simp only [ansiNumbers_cut hne hdigit]
  rw [← List.map_flatMap, List.findSome?_map, List.map_findSome?]
  congr 1
  funext left
  cases left with
  | nil => simp [ansiEnd, hfinal]
  | cons c rest =>
      show (if isAnsiFinal c then some (rest ++ d :: y) else none) =
        (if isAnsiFinal c then some rest else none).map (· ++ d :: y)
      split <;> rfl

end Cuts

def tagHigh : UInt16 := 0xDB40

def isTagLow (unit : UInt16) : Bool := 0xDC00 ≤ unit && unit ≤ 0xDC7F

/-- `replace(TAG_CHARS, '')` -/
def stripTags : JsString → JsString
  | [] => []
  | [unit] => [unit]
  | high :: low :: rest =>
      if high = tagHigh ∧ isTagLow low then stripTags rest else high :: stripTags (low :: rest)

def isEscape (unit : UInt16) : Bool := unit = 0x1B || unit = 0x9B

def afterEscape (string : JsString) : Option JsString :=
  (afterAnsi string.chars).map fun left => string.drop (string.length - left.length)

/-- `replace(ANSI_ESCAPES, '')`, of a string of at most this length. -/
def stripEscapes : ℕ → JsString → JsString
  | length + 1, unit :: rest =>
      if isEscape unit then
        match afterEscape rest with
        | some left => stripEscapes length left
        | none => unit :: stripEscapes length rest
      else unit :: stripEscapes length rest
  | _, string => string

/-- `INVISIBLE_CHARS` -/
def isInvisibleUnit (unit : UInt16) : Bool :=
  (0x200B ≤ unit && unit ≤ 0x200F) || (0x202A ≤ unit && unit ≤ 0x202E) ||
    (0x2060 ≤ unit && unit ≤ 0x2064) || unit = 0xFEFF

/-- `CONTROL_CHARS` -/
def isControlUnit (unit : UInt16) : Bool :=
  unit ≤ 8 || unit = 11 || unit = 12 || (14 ≤ unit && unit ≤ 31) || (127 ≤ unit && unit ≤ 159)

def stripHidden (string : JsString) : JsString :=
  ((stripEscapes string.length string).filter fun unit => !isInvisibleUnit unit).filter
    fun unit => !isControlUnit unit

/-- `replace(/\r\n?/g, '\n')`, where the unit before may be a carriage return. -/
def breakLines (returned : Bool) : JsString → JsString
  | [] => []
  | unit :: rest =>
      if unit = 13 then 10 :: breakLines true rest
      else if unit = 10 ∧ returned then breakLines false rest
      else unit :: breakLines false rest

/-- `stripUnsafeCharacters` -/
def stripUnits (string : JsString) : JsString := breakLines false (stripHidden (stripTags string))

def isCutUnit (unit : UInt16) : Bool :=
  isCut (charOf unit) && !isEscape unit && !isInvisibleUnit unit && !isControlUnit unit

section Passes

variable {unit : UInt16} {x y string left : JsString}

theorem length_lt_of_afterEscape (hleft : afterEscape string = some left) :
    left.length < string.length := by
  obtain ⟨text, htext, rfl⟩ := Option.map_eq_some_iff.mp hleft
  have hlt := (isSuffix_of_afterAnsi htext).2
  rw [chars, List.length_map] at hlt
  rw [List.length_drop]
  omega

theorem afterEscape_cut (hcut : isCut (charOf unit) = true) (x y : JsString) :
    afterEscape (x ++ unit :: y) = (afterEscape x).map (· ++ unit :: y) := by
  have hchars : chars (x ++ unit :: y) = chars x ++ charOf unit :: chars y := by
    rw [chars, List.map_append]
    rfl
  rw [afterEscape, afterEscape, hchars, afterAnsi_cut hcut, Option.map_map, Option.map_map]
  refine Option.map_congr fun left hleft => ?_
  have hle := (isSuffix_of_afterAnsi hleft).1.length_le
  rw [chars, List.length_map] at hle
  have hlength : (x ++ unit :: y).length - (left ++ charOf unit :: chars y).length =
      x.length - left.length := by
    rw [List.length_append, List.length_append, List.length_cons, List.length_cons, chars,
      List.length_map]
    omega
  show (x ++ unit :: y).drop _ = x.drop _ ++ unit :: y
  rw [hlength, List.drop_append_of_le_length (Nat.sub_le _ _)]

/-- More than the length of a string is not needed. -/
theorem stripEscapes_limit {limit limit' : ℕ} (hlimit : string.length ≤ limit)
    (hlimit' : string.length ≤ limit') :
    stripEscapes limit string = stripEscapes limit' string := by
  induction limit generalizing limit' string with
  | zero =>
      rw [List.eq_nil_of_length_eq_zero (Nat.le_zero.mp hlimit)]
      cases limit' <;> rfl
  | succ limit ih =>
      cases string with
      | nil => cases limit' <;> rfl
      | cons unit rest =>
          obtain ⟨limit', rfl⟩ := Nat.exists_eq_add_of_le' (Nat.one_le_of_lt hlimit')
          rw [List.length_cons] at hlimit hlimit'
          have hrest : stripEscapes limit rest = stripEscapes limit' rest :=
            ih (Nat.le_of_succ_le_succ hlimit) (Nat.le_of_succ_le_succ hlimit')
          rw [stripEscapes, stripEscapes, hrest]
          cases hleft : afterEscape rest with
          | none => rfl
          | some left =>
              have hlt := length_lt_of_afterEscape hleft
              have hsame : stripEscapes limit left = stripEscapes limit' left :=
                ih (by omega) (by omega)
              simp only [hsame]

theorem stripEscapes_cut (hcut : isCut (charOf unit) = true) (hescape : isEscape unit = false)
    {limit limit' limit'' : ℕ} (hlimit : (x ++ unit :: y).length ≤ limit)
    (hlimit' : x.length ≤ limit') (hlimit'' : y.length ≤ limit'') :
    stripEscapes limit (x ++ unit :: y) =
      stripEscapes limit' x ++ unit :: stripEscapes limit'' y := by
  induction limit generalizing limit' x with
  | zero =>
      rw [List.length_append, List.length_cons] at hlimit
      omega
  | succ limit ih =>
      cases x with
      | nil =>
          have hnil : stripEscapes limit' [] = [] := by cases limit' <;> rfl
          rw [hnil, List.nil_append, List.nil_append, stripEscapes, if_neg (by simp [hescape]),
            stripEscapes_limit _ hlimit'']
          simpa using hlimit
      | cons first x =>
          obtain ⟨limit', rfl⟩ := Nat.exists_eq_add_of_le' (Nat.one_le_of_lt hlimit')
          rw [List.cons_append, List.length_cons] at hlimit
          rw [List.length_cons] at hlimit'
          have hrest : stripEscapes limit (x ++ unit :: y) =
              stripEscapes limit' x ++ unit :: stripEscapes limit'' y :=
            ih (Nat.le_of_succ_le_succ hlimit) (Nat.le_of_succ_le_succ hlimit')
          rw [List.cons_append, stripEscapes, stripEscapes, afterEscape_cut hcut, hrest]
          cases hleft : afterEscape x with
          | none =>
              simp only [Option.map_none]
              split <;> rfl
          | some left =>
              have hlt := length_lt_of_afterEscape hleft
              have hsame : stripEscapes limit (left ++ unit :: y) =
                  stripEscapes limit' left ++ unit :: stripEscapes limit'' y := by
                refine ih ?_ (by omega)
                rw [List.length_append, List.length_cons] at hlimit ⊢
                omega
              simp only [Option.map_some, hsame]
              split <;> rfl

/-- The passes see the two sides of a cut apart. -/
theorem stripHidden_cut (hcut : isCutUnit unit = true) (x y : JsString) :
    stripHidden (x ++ unit :: y) = stripHidden x ++ unit :: stripHidden y := by
  rw [isCutUnit, Bool.and_eq_true, Bool.and_eq_true, Bool.and_eq_true, Bool.not_eq_true'] at hcut
  obtain ⟨⟨⟨hchar, hescape⟩, hvisible⟩, hplain⟩ := hcut
  rw [stripHidden, stripHidden, stripHidden,
    stripEscapes_cut hchar hescape le_rfl le_rfl le_rfl, List.filter_append,
    List.filter_cons_of_pos (p := fun unit => !isInvisibleUnit unit) hvisible, List.filter_append,
    List.filter_cons_of_pos (p := fun unit => !isControlUnit unit) hplain]

end Passes

end X402Facilitator.Mcp
