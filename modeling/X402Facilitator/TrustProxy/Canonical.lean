import X402Facilitator.Library.Doubles
import X402Facilitator.TrustProxy.Addresses

/-!
# The canonical form of an address

An address stands for 128 bits, an IPv4 address for those of its mapping.  The conversion of an
address without a zone gives these bits, whatever spelling is used.
-/

namespace X402Facilitator

namespace Text

section LastParts

variable {c : Char} {text last tail : Text} {parts : List Text}

theorem throughLast_append_afterLast (c : Char) (text : Text) :
    throughLast c text ++ afterLast c text = text := by
  rw [throughLast, afterLast, ← List.reverse_append, List.takeWhile_append_dropWhile,
    List.reverse_reverse]

theorem notMem_afterLast (c : Char) (text : Text) : c ∉ afterLast c text := by
  intro hmem
  have hne := List.mem_takeWhile_imp (List.mem_reverse.mp hmem)
  simp at hne

theorem getLast?_throughLast (c : Char) (text : Text) :
    throughLast c text = [] ∨ (throughLast c text).getLast? = some c := by
  rw [throughLast, List.getLast?_reverse, List.reverse_eq_nil_iff]
  cases hdrop : text.reverse.dropWhile (· ≠ c) with
  | nil => exact .inl rfl
  | cons d rest =>
      right
      have hhead := List.head?_dropWhile_not (· ≠ c) text.reverse
      rw [hdrop] at hhead
      simpa using hhead

theorem eq_of_splitLast {before after : Text} (hsplit : splitLast c text = some (before, after)) :
    text = before ++ c :: after := by
  rw [splitLast] at hsplit
  split at hsplit
  · next hmem =>
      cases hsplit
      have hwhole := throughLast_append_afterLast c text
      rcases getLast?_throughLast c text with hnil | hlast
      · rw [hnil, List.nil_append] at hwhole
        rw [← hwhole] at hmem
        exact absurd hmem (notMem_afterLast c text)
      · conv_lhs => rw [← hwhole, ← List.dropLast_append_getLast? c hlast]
        rw [List.append_assoc, List.singleton_append]
  · cases hsplit

theorem splitPair_ne_nil (c : Char) (text : Text) : splitPair c text ≠ [] := by
  induction text using splitPair.induct c with
  | case1 => exact List.cons_ne_nil _ _
  | case2 d => exact List.cons_ne_nil _ _
  | case3 d e rest hpair ih =>
      rw [splitPair, if_pos hpair]
      exact List.cons_ne_nil _ _
  | case4 d e rest hpair ih =>
      rw [splitPair, if_neg hpair]
      intro hnil
      cases hsplit : splitPair c (e :: rest) with
      | nil => exact ih hsplit
      | cons first parts =>
          rw [hsplit] at hnil
          cases hnil

theorem of_singleton_eq_concat {α : Type*} {a last : α} {parts : List α}
    (heq : [a] = parts ++ [last]) : parts = [] ∧ last = a := by
  cases parts with
  | nil => exact ⟨rfl, (List.cons.inj heq).1.symm⟩
  | cons first parts => simp at heq

/-- A character in front of the first of several parts. -/
theorem of_modifyHead_eq_concat {d : Char} {split : List Text}
    (heq : split.modifyHead (d :: ·) = parts ++ [last]) (hne : split ≠ []) :
    (∃ rest, split = [rest] ∧ parts = [] ∧ last = d :: rest) ∨
      ∃ first rest, split = first :: rest ++ [last] ∧ parts = (d :: first) :: rest := by
  cases split with
  | nil => exact absurd rfl hne
  | cons first others =>
      rw [List.modifyHead_cons] at heq
      cases parts with
      | nil =>
          obtain ⟨hlast, hothers⟩ := List.cons.inj heq
          subst hothers
          exact .inl ⟨first, rfl, rfl, hlast.symm⟩
      | cons part parts =>
          obtain ⟨hpart, hothers⟩ := List.cons.inj heq
          exact .inr ⟨first, parts, by rw [hothers]; rfl, by rw [hpart]⟩

/-- What is appended without a separator belongs to the last part. -/
theorem splitPair_append (hsolid : splitPair c tail = [tail]) (hhead : tail.head? ≠ some c)
    (hne : tail ≠ []) (hsplit : splitPair c text = parts ++ [last]) :
    splitPair c (text ++ tail) = parts ++ [last ++ tail] := by
  obtain ⟨first, rest, rfl⟩ := List.exists_cons_of_ne_nil hne
  have hfirst : first ≠ c := fun heq => hhead (congrArg some heq)
  induction text using splitPair.induct c generalizing parts last with
  | case1 =>
      obtain ⟨rfl, rfl⟩ := of_singleton_eq_concat hsplit
      exact hsolid
  | case2 d =>
      obtain ⟨rfl, rfl⟩ := of_singleton_eq_concat hsplit
      rw [List.singleton_append, splitPair, if_neg fun hpair => hfirst hpair.2, hsolid]
      rfl
  | case3 d e others hpair ih =>
      rw [splitPair, if_pos hpair] at hsplit
      rw [List.cons_append, List.cons_append, splitPair, if_pos hpair]
      cases parts with
      | nil => exact absurd (List.cons.inj hsplit).2 (splitPair_ne_nil c others)
      | cons part parts =>
          obtain ⟨rfl, hothers⟩ := List.cons.inj hsplit
          rw [ih hothers]
          rfl
  | case4 d e others hpair ih =>
      rw [splitPair, if_neg hpair] at hsplit
      rw [List.cons_append, List.cons_append, splitPair, if_neg hpair, ← List.cons_append]
      rcases of_modifyHead_eq_concat hsplit (splitPair_ne_nil c _) with
        ⟨only, honly, rfl, rfl⟩ | ⟨head, middle, hseveral, rfl⟩
      · have hthere : splitPair c (e :: others) = [] ++ [only] := honly
        rw [ih hthere]
        rfl
      · rw [ih hseveral]
        rfl

/-- A text without the separator is its only part. -/
theorem eq_of_splitPair {only : Text} (hsplit : splitPair c text = [only]) : only = text := by
  induction text using splitPair.induct c generalizing only with
  | case1 => exact (List.cons.inj hsplit).1.symm
  | case2 d => exact (List.cons.inj hsplit).1.symm
  | case3 d e others hpair ih =>
      rw [splitPair, if_pos hpair] at hsplit
      exact absurd (List.cons.inj hsplit).2 (splitPair_ne_nil c others)
  | case4 d e others hpair ih =>
      rw [splitPair, if_neg hpair] at hsplit
      have hconcat : (splitPair c (e :: others)).modifyHead (d :: ·) = [] ++ [only] := hsplit
      rcases of_modifyHead_eq_concat hconcat (splitPair_ne_nil c _) with
        ⟨rest, hrest, -, rfl⟩ | ⟨head, middle, -, hparts⟩
      · rw [ih hrest]
      · cases hparts

/-- The last part is an end of the text. -/
theorem isSuffix_of_splitPair (hsplit : splitPair c text = parts ++ [last]) : last <:+ text := by
  induction text using splitPair.induct c generalizing parts last with
  | case1 | case2 d =>
      obtain ⟨rfl, rfl⟩ := of_singleton_eq_concat hsplit
      exact List.suffix_rfl
  | case3 d e others hpair ih =>
      rw [splitPair, if_pos hpair] at hsplit
      cases parts with
      | nil => exact absurd (List.cons.inj hsplit).2 (splitPair_ne_nil c others)
      | cons part parts =>
          obtain ⟨rfl, hothers⟩ := List.cons.inj hsplit
          exact (ih hothers).trans ((List.suffix_cons e others).trans (List.suffix_cons d _))
  | case4 d e others hpair ih =>
      rw [splitPair, if_neg hpair] at hsplit
      rcases of_modifyHead_eq_concat hsplit (splitPair_ne_nil c _) with
        ⟨only, honly, rfl, rfl⟩ | ⟨head, middle, hseveral, rfl⟩
      · rw [eq_of_splitPair honly]
      · exact (ih hseveral).trans (List.suffix_cons d _)

/-- An end of a text without the separator comes after its last occurrence. -/
theorem isSuffix_afterLast (hsuffix : tail <:+ text) (hnot : c ∉ tail) :
    tail <:+ afterLast c text := by
  obtain ⟨before, rfl⟩ := hsuffix
  have hall : ∀ d ∈ tail.reverse, (decide (d ≠ c)) = true := by
    intro d hd
    rw [decide_eq_true_eq]
    rintro rfl
    exact hnot (List.mem_reverse.mp hd)
  rw [afterLast, List.reverse_append, List.takeWhile_append_of_pos hall, List.reverse_append,
    List.reverse_reverse]
  exact List.suffix_append _ _

theorem getLast?_splitOn (c : Char) (text : Text) :
    (text.splitOn c).getLast? = some (afterLast c text) := by
  have hafter : (afterLast c text).splitOn c = [afterLast c text] :=
    List.splitOn_eq_singleton (notMem_afterLast c text)
  have hwhole := throughLast_append_afterLast c text
  rcases getLast?_throughLast c text with hnil | hlast
  · rw [hnil, List.nil_append] at hwhole
    rw [hwhole] at hafter ⊢
    rw [hafter]
    rfl
  · have hbefore := List.dropLast_append_getLast? c hlast
    rw [← hbefore, List.append_assoc, List.singleton_append] at hwhole
    conv_lhs => rw [← hwhole]
    rw [List.splitOn_append_cons_self, hafter, List.getLast?_append]
    rfl

end LastParts

end Text

namespace TrustProxy

def dottedValue (text : Text) : ℕ :=
  (text.splitOn '.').foldl (fun value octet => value * 2 ^ 8 + numeralValue 10 octet) 0

/-- The numbers of a group; a dotted address stands for two. -/
def groupNumbers (group : Text) : List ℕ :=
  if '.' ∈ group then [dottedValue group / 2 ^ 16, dottedValue group % 2 ^ 16]
  else [numeralValue 16 group]

def partNumbers (part : Text) : List ℕ := (groups part).flatMap groupNumbers

/-- The eight numbers of an address, with zeros for `::`. -/
def bodyNumbers (body : Text) : List ℕ :=
  match Text.splitPair ':' body with
  | [left, right] =>
      partNumbers left ++
        List.replicate (8 - (partNumbers left).length - (partNumbers right).length) 0 ++
          partNumbers right
  | parts => parts.flatMap partNumbers

def joined (numbers : List ℕ) : ℕ := numbers.foldl (fun value number => value * 2 ^ 16 + number) 0

/-- The bits of an address, without its zone; an IPv4 address is mapped. -/
def canonical (text : Text) : Option ℕ :=
  (isIP text).map fun family => match family with
    | .v4 => 0xffff * 2 ^ 32 + dottedValue text
    | .v6 => joined (bodyNumbers (text.takeWhile (· ≠ '%')))

/-! ## Conversions -/

section Conversions

variable {text : Text}

theorem lor_shift (value : ℕ) {bits number : ℕ} (hlt : number < 2 ^ bits) :
    ((value : ℤ) <<< bits).lor (number : ℤ) = ((value * 2 ^ bits + number : ℕ) : ℤ) := by
  have hshift : (value : ℤ) <<< bits = ((value <<< bits : ℕ) : ℤ) := rfl
  have hor : ((value <<< bits : ℕ) : ℤ).lor (number : ℤ) =
      ((value <<< bits ||| number : ℕ) : ℤ) := rfl
  rw [hshift, hor, ← Nat.shiftLeft_add_eq_or_of_lt hlt, Nat.shiftLeft_eq]

theorem lor_high (value : ℕ) {bits number : ℕ} (hlt : number < 2 ^ bits) :
    ((value * 2 ^ bits : ℕ) : ℤ).lor (number : ℤ) = ((value * 2 ^ bits + number : ℕ) : ℤ) := by
  rw [← lor_shift value hlt, ← Nat.shiftLeft_eq]
  rfl

theorem of_isOctet {octet : Text} (hoctet : isOctet octet = true) :
    bigIntOfText octet = some (numeralValue 10 octet : ℤ) ∧ numeralValue 10 octet < 2 ^ 8 := by
  rw [isOctet, Bool.and_eq_true, Bool.and_eq_true, Bool.and_eq_true] at hoctet
  obtain ⟨⟨⟨hnumeral, -⟩, -⟩, hle⟩ := hoctet
  refine ⟨bigIntOfText_of_isDigits (isNumeral_iff.mp hnumeral).2, ?_⟩
  have hbound := of_decide_eq_true hle
  omega

/-- A fold whose steps do not fail. -/
theorem foldlM_ok {f : ℤ → Text → Except Thrown ℤ} {g : ℕ → Text → ℕ} {parts : List Text}
    (hstep : ∀ part ∈ parts, ∀ start : ℕ, f start part = .ok ((g start part : ℕ) : ℤ))
    (start : ℕ) :
    parts.foldlM f (start : ℤ) = .ok ((parts.foldl g start : ℕ) : ℤ) := by
  induction parts generalizing start with
  | nil => rfl
  | cons part parts ih =>
      rw [List.foldlM_cons, hstep part List.mem_cons_self]
      exact ih (fun other hother => hstep other (List.mem_cons_of_mem part hother)) _

/-- The reading of an IPv4 address does not fail. -/
theorem ipv4ToBigInt_eq (hdotted : isIPv4 text = true) :
    ipv4ToBigInt text = .ok (dottedValue text : ℤ) := by
  rw [isIPv4, Bool.and_eq_true] at hdotted
  have hoctets := List.all_eq_true.mp hdotted.2
  rw [ipv4ToBigInt, dottedValue]
  generalize text.splitOn '.' = octets at hoctets
  refine foldlM_ok (fun octet hoctet start => ?_) 0
  obtain ⟨hvalue, hlt⟩ := of_isOctet (hoctets octet hoctet)
  rw [hvalue]
  exact congrArg Except.ok (lor_shift start hlt)

theorem dottedValue_lt (hdotted : isIPv4 text = true) : dottedValue text < 2 ^ 32 := by
  rw [isIPv4, Bool.and_eq_true] at hdotted
  have hoctets := List.all_eq_true.mp hdotted.2
  have hlength : (text.splitOn '.').length = 4 := of_decide_eq_true hdotted.1
  rw [dottedValue]
  generalize text.splitOn '.' = octets at hoctets hlength
  obtain ⟨a, rest, rfl, hrest⟩ := List.length_eq_succ_iff.mp hlength
  obtain ⟨b, c, d, rfl⟩ := List.length_eq_three.mp hrest
  have ha := (of_isOctet (hoctets a (by simp))).2
  have hb := (of_isOctet (hoctets b (by simp))).2
  have hc := (of_isOctet (hoctets c (by simp))).2
  have hd := (of_isOctet (hoctets d (by simp))).2
  simp only [List.foldl_cons, List.foldl_nil]
  omega

theorem of_isGroup {group : Text} (hgroup : isGroup group = true) :
    (Number.parseHex group).toBigInt = some (numeralValue 16 group : ℤ) ∧
      numeralValue 16 group < 2 ^ 16 ∧ '.' ∉ group := by
  rw [isGroup, Bool.and_eq_true, isNumeral, Bool.and_eq_true, Bool.not_eq_true',
    List.isEmpty_eq_false_iff] at hgroup
  obtain ⟨⟨hne, hhex⟩, hlength⟩ := hgroup
  have hdigits := List.all_eq_true.mp hhex
  have hlt : numeralValue 16 group < 2 ^ 16 := by
    refine (Number.numeralValue_lt_of_isHex hdigits).trans_le ?_
    have hpow : 16 ^ group.length ≤ 16 ^ 4 :=
      Nat.pow_le_pow_right (by decide) (of_decide_eq_true hlength)
    exact hpow.trans (by decide)
  refine ⟨?_, hlt, fun hdot => absurd (hdigits '.' hdot) (by decide)⟩
  rw [Number.parseHex_of_isHex hne hdigits,
    Number.ofScientific_of_lt (hlt.trans (by decide)), Number.toBigInt_finite]

/-- The reading of groups does not fail. -/
theorem groupsToBigInt_eq {parts : List Text} (hgroups : ∀ group ∈ parts, isGroup group = true) :
    groupsToBigInt parts = .ok (joined (parts.map (numeralValue 16)) : ℤ) := by
  rw [groupsToBigInt, joined]
  rw [List.foldl_map]
  refine foldlM_ok (fun group hgroup start => ?_) 0
  obtain ⟨hvalue, hlt, -⟩ := of_isGroup (hgroups group hgroup)
  rw [hvalue]
  exact congrArg Except.ok (lor_shift start hlt)

end Conversions

section Bodies

variable {text last tail : Text} {part : List Text} {count : ℕ}

theorem of_width_false (hwidth : width false part = some count) :
    (∀ group ∈ part, isGroup group = true) ∧ count = part.length := by
  rw [width] at hwidth
  split_ifs at hwidth with hall hdotted
  · exact ⟨List.all_eq_true.mp hall, (Option.some.inj hwidth).symm⟩
  · simp at hdotted

theorem of_width_plain (hwidth : width true part = some count)
    (hlast : ∀ group ∈ part.getLast?, '.' ∉ group) :
    (∀ group ∈ part, isGroup group = true) ∧ count = part.length := by
  rw [width] at hwidth
  split_ifs at hwidth with hall hdotted
  · exact ⟨List.all_eq_true.mp hall, (Option.some.inj hwidth).symm⟩
  · rw [Bool.and_eq_true] at hdotted
    cases hgroup : part.getLast? with
    | none => simp [hgroup] at hdotted
    | some group =>
        rw [hgroup] at hdotted
        have hdot := isIPv4_of_notMem (hlast group hgroup)
        rw [Option.map_some, Option.getD_some, hdot] at hdotted
        exact absurd hdotted.2 Bool.false_ne_true

theorem of_width_dotted (hdot : '.' ∈ tail) (hwidth : width true (part ++ [tail]) = some count) :
    (∀ group ∈ part, isGroup group = true) ∧ isIPv4 tail = true ∧ count = part.length + 2 := by
  rw [width] at hwidth
  split_ifs at hwidth with hall hdotted
  · have htail := List.all_eq_true.mp hall tail
      (List.mem_append_right _ (List.mem_singleton_self _))
    exact absurd hdot (of_isGroup htail).2.2
  · rw [Bool.true_and, Bool.and_eq_true, List.dropLast_concat, List.getLast?_concat] at hdotted
    refine ⟨List.all_eq_true.mp hdotted.1, hdotted.2, ?_⟩
    have hcount := Option.some.inj hwidth
    rw [List.length_append, List.length_singleton] at hcount
    exact hcount.symm

theorem of_isIPv6Body (hbody : isIPv6Body text = true) :
    (∃ whole, Text.splitPair ':' text = [whole] ∧ width true (groups whole) = some 8) ∨
      ∃ left right before after, Text.splitPair ':' text = [left, right] ∧
        width false (groups left) = some before ∧ width true (groups right) = some after ∧
          before + after ≤ 7 := by
  rw [isIPv6Body] at hbody
  split at hbody
  · next whole hsplit => exact .inl ⟨whole, hsplit, of_decide_eq_true hbody⟩
  · next left right hsplit =>
      split at hbody
      · next before after hbefore hafter =>
          exact .inr ⟨left, right, before, after, hsplit, hbefore, hafter, of_decide_eq_true hbody⟩
      · cases hbody
  · cases hbody

theorem partNumbers_eq {part : Text} (hgroups : ∀ group ∈ groups part, isGroup group = true) :
    partNumbers part = (groups part).map (numeralValue 16) := by
  rw [partNumbers, List.map_eq_flatMap]
  refine List.flatMap_congr fun group hgroup => ?_
  rw [groupNumbers, if_neg (of_isGroup (hgroups group hgroup)).2.2]

/-- The last group of a part is an end of the address. -/
theorem getLast?_groups (hsuffix : last <:+ text) :
    ∀ group ∈ (groups last).getLast?, group <:+ Text.afterLast ':' text := by
  intro group hgroup
  rw [groups] at hgroup
  split at hgroup
  · cases hgroup
  · rw [Text.getLast?_splitOn] at hgroup
    obtain rfl := Option.some.inj hgroup
    have hend : Text.afterLast ':' last <:+ last :=
      ⟨_, Text.throughLast_append_afterLast ':' last⟩
    exact Text.isSuffix_afterLast (hend.trans hsuffix) (Text.notMem_afterLast ':' last)

theorem joined_append_pair (numbers : List ℕ) (high low : ℕ) :
    joined (numbers ++ [high, low]) = joined numbers * 2 ^ 32 + (high * 2 ^ 16 + low) := by
  rw [joined, List.foldl_append, joined]
  simp only [List.foldl_cons, List.foldl_nil]
  ring

/-- An address without a dotted tail. -/
theorem ipv6ToBigInt_plain (hbody : isIPv6Body text = true)
    (hdot : '.' ∉ Text.afterLast ':' text) :
    ipv6ToBigInt text = .ok (some (joined (bodyNumbers text) : ℤ)) := by
  have hzero : isGroup ['0'] = true := by decide
  have hlast : ∀ {parts : List Text} {last : Text}, Text.splitPair ':' text = parts ++ [last] →
      ∀ group ∈ (groups last).getLast?, '.' ∉ group := by
    intro parts last hsplit group hgroup hmem
    have hsuffix := getLast?_groups (Text.isSuffix_of_splitPair hsplit) group hgroup
    exact hdot (hsuffix.subset hmem)
  have hread : ∀ {numbers : List Text}, expandGroups text = some numbers →
      (∀ group ∈ numbers, isGroup group = true) →
      ipv6ToBigInt text = .ok (some (joined (numbers.map (numeralValue 16)) : ℤ)) := by
    intro numbers hexpand hgroups
    rw [ipv6ToBigInt]
    simp only [if_neg hdot, hexpand, groupsToBigInt_eq hgroups]
    exact congrArg (fun value : ℕ => Except.ok (some (value : ℤ))) (Nat.or_zero _)
  rcases of_isIPv6Body hbody with ⟨whole, hsplit, hwidth⟩ |
    ⟨left, right, before, after, hsplit, hbefore, hafter, hle⟩
  · have hplain : Text.splitPair ':' text = [] ++ [whole] := hsplit
    obtain ⟨hgroups, hcount⟩ := of_width_plain hwidth (hlast hplain)
    have hexpand : expandGroups text = some (groups whole) := by
      rw [expandGroups, hsplit]
      exact if_pos hcount.symm
    rw [hread hexpand hgroups, bodyNumbers, hsplit]
    simp only [List.flatMap_cons, List.flatMap_nil, List.append_nil, partNumbers_eq hgroups]
  · have hpair : Text.splitPair ':' text = [left] ++ [right] := hsplit
    obtain ⟨hleft, hbeforeCount⟩ := of_width_false hbefore
    obtain ⟨hright, hafterCount⟩ := of_width_plain hafter (hlast hpair)
    have hexpand : expandGroups text = some (groups left ++
        List.replicate (8 - ((groups left).length + (groups right).length)) ['0'] ++
          groups right) := by
      rw [expandGroups, hsplit]
      exact if_pos (by omega)
    have hgroups : ∀ group ∈ groups left ++
        List.replicate (8 - ((groups left).length + (groups right).length)) ['0'] ++
          groups right, isGroup group = true := by
      intro group hgroup
      rcases List.mem_append.mp hgroup with hfirst | hsecond
      · rcases List.mem_append.mp hfirst with hinLeft | hmiddle
        · exact hleft group hinLeft
        · rw [List.eq_of_mem_replicate hmiddle]
          exact hzero
      · exact hright group hsecond
    rw [hread hexpand hgroups, bodyNumbers, hsplit]
    simp only [partNumbers_eq hleft, partNumbers_eq hright, List.map_append, List.map_replicate,
      List.length_map, Nat.sub_sub]
    rfl

def stem (part : Text) : List Text := if part = [] then [] else part.dropLast.splitOn ':'

theorem groups_append (hpart : last = [] ∨ last.getLast? = some ':') (hne : tail ≠ []) :
    groups (last ++ tail) = stem last ++ tail.splitOn ':' := by
  have hwhole : (last ++ tail).isEmpty = false :=
    List.isEmpty_eq_false_iff.mpr (List.append_ne_nil_of_right_ne_nil last hne)
  rw [groups, hwhole, if_neg Bool.false_ne_true, stem]
  rcases hpart with rfl | hcolon
  · rw [if_pos rfl]
    rfl
  · have hsplit := List.dropLast_append_getLast? ':' hcolon
    have hlast : last ≠ [] := by
      rintro rfl
      cases hcolon
    rw [if_neg hlast]
    conv_lhs => rw [← hsplit]
    rw [List.append_assoc, List.singleton_append, List.splitOn_append_cons_self]

/-- An address with a dotted tail, which two zero groups stand for first. -/
theorem ipv6ToBigInt_dotted (hbody : isIPv6Body text = true)
    (hdot : '.' ∈ Text.afterLast ':' text) :
    ipv6ToBigInt text = .ok (some (joined (bodyNumbers text) : ℤ)) := by
  have hwhole := Text.throughLast_append_afterLast ':' text
  have hcolon := Text.notMem_afterLast ':' text
  have hend := Text.getLast?_throughLast ':' text
  generalize hhead : Text.throughLast ':' text = head at hwhole hend
  generalize htail : Text.afterLast ':' text = tail at hwhole hcolon hdot
  have hne : tail ≠ [] := List.ne_nil_of_mem hdot
  obtain ⟨parts, last, hparts⟩ : ∃ parts last, Text.splitPair ':' head = parts ++ [last] :=
    ⟨_, _, (List.dropLast_append_getLast (Text.splitPair_ne_nil ':' head)).symm⟩
  have hlast : last = [] ∨ last.getLast? = some ':' := by
    obtain ⟨before, hbefore⟩ := Text.isSuffix_of_splitPair hparts
    cases hlastEnd : last.getLast? with
    | none => exact .inl (List.getLast?_eq_none_iff.mp hlastEnd)
    | some d =>
        right
        have hheadEnd : head.getLast? = some d := by
          rw [← hbefore, List.getLast?_append, hlastEnd, Option.some_or]
        rcases hend with hnil | hcolonEnd
        · rw [hnil] at hheadEnd
          cases hheadEnd
        · exact hheadEnd.symm.trans hcolonEnd
  have hsplit : Text.splitPair ':' text = parts ++ [last ++ tail] := by
    rw [← hwhole]
    refine Text.splitPair_append (Text.splitPair_of_notMem hcolon) ?_ hne hparts
    intro hfirst
    exact hcolon (List.mem_of_mem_head? hfirst)
  have hzeros : Text.splitPair ':' (head ++ "0:0".toList) = parts ++ [last ++ "0:0".toList] :=
    Text.splitPair_append (by decide) (by decide) (by decide) hparts
  have htailGroups : groups (last ++ tail) = stem last ++ [tail] := by
    rw [groups_append hlast hne, List.splitOn_eq_singleton hcolon]
  have hzeroGroups : groups (last ++ "0:0".toList) = stem last ++ [['0'], ['0']] := by
    rw [groups_append hlast (by decide)]
    rfl
  have hzero : isGroup ['0'] = true := by decide
  have hread : ∀ {front : List Text}, isIPv4 tail = true →
      expandGroups (head ++ "0:0".toList) = some (front ++ [['0'], ['0']]) →
      (∀ group ∈ front, isGroup group = true) → ipv6ToBigInt text =
        .ok (some (joined (front.map (numeralValue 16) ++ groupNumbers tail) : ℤ)) := by
    intro front hdotted hexpand hfront
    have hgroups : ∀ group ∈ front ++ [['0'], ['0']], isGroup group = true := by
      intro group hgroup
      rcases List.mem_append.mp hgroup with hbefore | hzeroGroup
      · exact hfront group hbefore
      · rcases List.mem_cons.mp hzeroGroup with rfl | hsecond
        · exact hzero
        · rw [List.mem_singleton.mp hsecond]
          exact hzero
    have hvalue : joined ((front ++ [['0'], ['0']]).map (numeralValue 16)) =
        joined (front.map (numeralValue 16)) * 2 ^ 32 := by
      have hpair : ([['0'], ['0']] : List Text).map (numeralValue 16) = [0, 0] := by decide
      rw [List.map_append, hpair, joined_append_pair, Nat.zero_mul, Nat.add_zero]
    rw [ipv6ToBigInt]
    simp only [htail, hhead, if_pos hdot, ipv4ToBigInt_eq hdotted, hexpand,
      groupsToBigInt_eq hgroups, hvalue]
    have htailNumbers : groupNumbers tail =
        [dottedValue tail / 2 ^ 16, dottedValue tail % 2 ^ 16] := if_pos hdot
    have hlor : ((joined (front.map (numeralValue 16)) * 2 ^ 32 : ℕ) : ℤ).lor
        (dottedValue tail : ℤ) =
          ((joined (front.map (numeralValue 16)) * 2 ^ 32 + dottedValue tail : ℕ) : ℤ) :=
      lor_high _ (dottedValue_lt hdotted)
    rw [htailNumbers, joined_append_pair, Nat.div_add_mod', ← hlor]
    rfl
  have hpartNumbers : (∀ group ∈ stem last, isGroup group = true) → partNumbers (last ++ tail) =
      (stem last).map (numeralValue 16) ++ groupNumbers tail := by
    intro hstem
    rw [partNumbers, htailGroups, List.flatMap_append, List.flatMap_singleton, List.map_eq_flatMap]
    congr 1
    refine List.flatMap_congr fun group hgroup => ?_
    rw [groupNumbers, if_neg (of_isGroup (hstem group hgroup)).2.2]
  rcases of_isIPv6Body hbody with ⟨whole, hwhole', hwidth⟩ |
    ⟨left, right, before, after, hpair, hbefore, hafter, hle⟩
  · rw [hsplit] at hwhole'
    have hnil : parts = [] := by
      cases parts with
      | nil => rfl
      | cons first parts => simp at hwhole'
    subst hnil
    obtain rfl : last ++ tail = whole := (List.cons.inj hwhole').1
    rw [htailGroups] at hwidth
    obtain ⟨hstem, hdotted, hcount⟩ := of_width_dotted hdot hwidth
    have hexpand : expandGroups (head ++ "0:0".toList) = some (stem last ++ [['0'], ['0']]) := by
      rw [expandGroups, hzeros]
      simp only [List.nil_append, hzeroGroups]
      exact if_pos (by simpa using hcount.symm)
    rw [hread hdotted hexpand hstem, bodyNumbers, hsplit]
    simp only [List.nil_append, List.flatMap_cons, List.flatMap_nil, List.append_nil,
      hpartNumbers hstem]
  · rw [hsplit] at hpair
    obtain ⟨hparts', hlast'⟩ : parts = [left] ∧ last ++ tail = right := by
      cases parts with
      | nil => simp at hpair
      | cons first rest =>
          cases rest with
          | nil =>
              obtain ⟨hfirst, hrest⟩ := List.cons.inj hpair
              exact ⟨by rw [hfirst], (List.cons.inj hrest).1⟩
          | cons second rest => simp at hpair
    subst hparts' hlast'
    rw [htailGroups] at hafter
    obtain ⟨hstem, hdotted, hcount⟩ := of_width_dotted hdot hafter
    obtain ⟨hleft, hleftCount⟩ := of_width_false hbefore
    have hexpand : expandGroups (head ++ "0:0".toList) = some ((groups left ++
        List.replicate (8 - ((groups left).length + (stem last).length + 2)) ['0'] ++
          stem last) ++ [['0'], ['0']]) := by
      rw [expandGroups, hzeros]
      simp only [List.singleton_append, hzeroGroups]
      rw [if_pos (by simp; omega)]
      simp [Nat.add_assoc]
    have hfront : ∀ group ∈ groups left ++
        List.replicate (8 - ((groups left).length + (stem last).length + 2)) ['0'] ++ stem last,
          isGroup group = true := by
      intro group hgroup
      rcases List.mem_append.mp hgroup with hfirst | hsecond
      · rcases List.mem_append.mp hfirst with hinLeft | hmiddle
        · exact hleft group hinLeft
        · rw [List.eq_of_mem_replicate hmiddle]
          exact hzero
      · exact hstem group hsecond
    rw [hread hdotted hexpand hfront, bodyNumbers, hsplit]
    have htwo : (groupNumbers tail).length = 2 := by
      rw [groupNumbers, if_pos hdot]
      rfl
    simp only [List.singleton_append, partNumbers_eq hleft, hpartNumbers hstem, List.map_append,
      List.map_replicate, List.length_append, List.length_map, htwo, Nat.sub_sub,
      List.append_assoc, Nat.add_assoc]
    rfl

/-- The conversion of an IPv6 address without a zone. -/
theorem ipv6ToBigInt_eq (hbody : isIPv6Body text = true) :
    ipv6ToBigInt text = .ok (some (joined (bodyNumbers text) : ℤ)) := by
  by_cases hdot : '.' ∈ Text.afterLast ':' text
  · exact ipv6ToBigInt_dotted hbody hdot
  · exact ipv6ToBigInt_plain hbody hdot

end Bodies

section Widths

/-- The groups of a part that has a width, and how many numbers they stand for. -/
theorem of_width {dotted : Bool} {part : List Text} {count : ℕ}
    (hwidth : width dotted part = some count) :
    (∀ group ∈ part, isGroup group = true ∨ isIPv4 group = true) ∧
      (part.flatMap groupNumbers).length = count := by
  have hplain : ∀ {part : List Text}, (∀ group ∈ part, isGroup group = true) →
      (part.flatMap groupNumbers).length = part.length := by
    intro part hgroups
    have hsame : part.flatMap groupNumbers = part.map (numeralValue 16) := by
      rw [List.map_eq_flatMap]
      refine List.flatMap_congr fun group hgroup => ?_
      rw [groupNumbers, if_neg (of_isGroup (hgroups group hgroup)).2.2]
    rw [hsame, List.length_map]
  rw [width] at hwidth
  split at hwidth
  · next hall =>
      have hgroups := List.all_eq_true.mp hall
      exact ⟨fun group hgroup => .inl (hgroups group hgroup),
        (hplain hgroups).trans (Option.some.inj hwidth)⟩
  · split at hwidth
    · next hdotted =>
        rw [Bool.and_eq_true, Bool.and_eq_true] at hdotted
        obtain ⟨⟨-, hfront⟩, hlast⟩ := hdotted
        have hgroups := List.all_eq_true.mp hfront
        cases hend : part.getLast? with
        | none =>
            rw [hend] at hlast
            cases hlast
        | some last =>
            rw [hend] at hlast
            have hdottedLast : isIPv4 last = true := hlast
            have hdot : '.' ∈ last := by
              by_contra hnot
              rw [isIPv4_of_notMem hnot] at hdottedLast
              cases hdottedLast
            have hsplit := List.dropLast_append_getLast? last hend
            have htwo : (groupNumbers last).length = 2 := by
              rw [groupNumbers, if_pos hdot]
              rfl
            constructor
            · intro group hgroup
              rw [← hsplit] at hgroup
              rcases List.mem_append.mp hgroup with hbefore | hsame
              · exact .inl (hgroups group hbefore)
              · rw [List.mem_singleton.mp hsame]
                exact .inr hdottedLast
            · have hcount := Option.some.inj hwidth
              rw [← hsplit, List.length_append, List.length_singleton] at hcount
              rw [← hsplit, List.flatMap_append, List.length_append, hplain hgroups,
                List.flatMap_singleton, htwo]
              exact hcount
    · cases hwidth

end Widths

/-! ## Characters -/

section Characters

variable {text : Text} {c : Char}

theorem mem_of_mem_intercalate {separator : Char} {parts : List Text}
    (hmem : c ∈ List.intercalate [separator] parts) : c = separator ∨ ∃ part ∈ parts, c ∈ part := by
  induction parts with
  | nil => cases hmem
  | cons part parts ih =>
      cases parts with
      | nil =>
          rw [List.intercalate_singleton] at hmem
          exact .inr ⟨part, List.mem_cons_self, hmem⟩
      | cons second parts =>
          rw [List.intercalate_cons_cons] at hmem
          rcases List.mem_append.mp hmem with hfirst | hlater
          · rcases List.mem_append.mp hfirst with hpart | hseparator
            · exact .inr ⟨part, List.mem_cons_self, hpart⟩
            · exact .inl (List.mem_singleton.mp hseparator)
          · rcases ih hlater with hsame | ⟨other, hother, hc⟩
            · exact .inl hsame
            · exact .inr ⟨other, List.mem_cons_of_mem _ hother, hc⟩

theorem mem_splitOn_cases (separator : Char) (hc : c ∈ text) :
    c = separator ∨ ∃ part ∈ text.splitOn separator, c ∈ part := by
  rw [← @List.intercalate_splitOn _ text _ _ separator] at hc
  exact mem_of_mem_intercalate hc

theorem mem_splitPair_cases (separator : Char) (hc : c ∈ text) :
    c = separator ∨ ∃ part ∈ Text.splitPair separator text, c ∈ part := by
  induction text using Text.splitPair.induct separator with
  | case1 => cases hc
  | case2 d => exact .inr ⟨[d], List.mem_singleton_self _, hc⟩
  | case3 d e rest hpair ih =>
      rw [Text.splitPair, if_pos hpair]
      rcases List.mem_cons.mp hc with rfl | hlater
      · exact .inl hpair.1
      · rcases List.mem_cons.mp hlater with rfl | hrest
        · exact .inl hpair.2
        · rcases ih hrest with heq | ⟨part, hpart, hmem⟩
          · exact .inl heq
          · exact .inr ⟨part, List.mem_cons_of_mem _ hpart, hmem⟩
  | case4 d e rest hpair ih =>
      rw [Text.splitPair, if_neg hpair]
      obtain ⟨first, parts, hsplit⟩ :=
        List.exists_cons_of_ne_nil (Text.splitPair_ne_nil separator (e :: rest))
      rw [hsplit, List.modifyHead_cons]
      rcases List.mem_cons.mp hc with rfl | hlater
      · exact .inr ⟨c :: first, List.mem_cons_self, List.mem_cons_self⟩
      · rw [hsplit] at ih
        rcases ih hlater with heq | ⟨part, hpart, hmem⟩
        · exact .inl heq
        · right
          rcases List.mem_cons.mp hpart with rfl | hother
          · exact ⟨d :: part, List.mem_cons_self, List.mem_cons_of_mem d hmem⟩
          · exact ⟨part, List.mem_cons_of_mem _ hother, hmem⟩

theorem isTrimmed_of_isHex (hhex : isDigitIn 16 c = true) : isTrimmed c = false := by
  have hrange := Number.toNat_of_isHex hhex
  simp only [isTrimmed, List.mem_cons, List.not_mem_nil, or_false, Bool.or_eq_false_iff,
    decide_eq_false_iff_not, Bool.and_eq_false_iff]
  omega

theorem of_mem_isIPv4 (hdotted : isIPv4 text = true) (hc : c ∈ text) :
    c = '.' ∨ isDigitIn 10 c = true := by
  rw [isIPv4, Bool.and_eq_true] at hdotted
  rcases mem_splitOn_cases '.' hc with hdot | ⟨octet, hoctet, hmem⟩
  · exact .inl hdot
  · have hnumeral := List.all_eq_true.mp hdotted.2 octet hoctet
    rw [isOctet, Bool.and_eq_true, Bool.and_eq_true, Bool.and_eq_true] at hnumeral
    exact .inr ((isNumeral_iff.mp hnumeral.1.1.1).2 c hmem)

theorem isTrimmed_of_isIPv4 (hdotted : isIPv4 text = true) (hc : c ∈ text) :
    isTrimmed c = false := by
  rcases of_mem_isIPv4 hdotted hc with rfl | hdigit
  · decide
  · exact isTrimmed_of_isDigitIn hdigit

theorem isHex_of_isDigit (hdigit : isDigitIn 10 c = true) : isDigitIn 16 c = true := by
  rw [isDigitIn] at hdigit ⊢
  cases hvalue : digitValue c with
  | none =>
      rw [hvalue] at hdigit
      cases hdigit
  | some value =>
      rw [hvalue] at hdigit
      exact decide_eq_true ((of_decide_eq_true hdigit).trans (by decide))

/-- An IPv6 address is written in colons, dots and hexadecimal digits. -/
theorem of_mem_isIPv6Body (hbody : isIPv6Body text = true) (hc : c ∈ text) :
    c = ':' ∨ c = '.' ∨ isDigitIn 16 c = true := by
  have hpart : ∀ {part : Text} {dotted : Bool} {count : ℕ},
      width dotted (groups part) = some count → c ∈ part →
        c = ':' ∨ c = '.' ∨ isDigitIn 16 c = true := by
    intro part dotted count hwidth hmem
    have hgroups := (of_width hwidth).1
    rw [groups, if_neg (by rw [List.isEmpty_iff]; exact List.ne_nil_of_mem hmem)] at hgroups
    rcases mem_splitOn_cases ':' hmem with hcolon | ⟨group, hgroup, hinside⟩
    · exact .inl hcolon
    · rcases hgroups group hgroup with hplain | hdotted
      · rw [isGroup, Bool.and_eq_true, isNumeral, Bool.and_eq_true] at hplain
        exact .inr (.inr (List.all_eq_true.mp hplain.1.2 c hinside))
      · exact .inr ((of_mem_isIPv4 hdotted hinside).imp_right isHex_of_isDigit)
  rcases mem_splitPair_cases ':' hc with hcolon | ⟨part, hmem, hinside⟩
  · exact .inl hcolon
  · rcases of_isIPv6Body hbody with ⟨whole, hsplit, hwidth⟩ |
      ⟨left, right, before, after, hsplit, hbefore, hafter, -⟩
    · rw [hsplit] at hmem
      obtain rfl := List.mem_singleton.mp hmem
      exact hpart hwidth hinside
    · rw [hsplit] at hmem
      rcases List.mem_cons.mp hmem with rfl | hsecond
      · exact hpart hbefore hinside
      · obtain rfl := List.mem_singleton.mp hsecond
        exact hpart hafter hinside

theorem isTrimmed_of_isZoneChar (hzone : isZoneChar c = true) : isTrimmed c = false := by
  have hle : ∀ {a b : Char}, a ≤ b ↔ a.toNat ≤ b.toNat := UInt32.le_iff_toNat_le
  simp only [isZoneChar, Bool.or_eq_true, Bool.and_eq_true, decide_eq_true_eq, hle] at hzone
  rcases hzone with ((hdigit | hlower) | hupper) | hmark
  · simp [isTrimmed] at hdigit ⊢
    omega
  · simp [isTrimmed] at hlower ⊢
    omega
  · simp [isTrimmed] at hupper ⊢
    omega
  · simp only [List.mem_cons, List.not_mem_nil, or_false] at hmark
    rcases hmark with rfl | rfl | rfl <;> decide

theorem isTrimmed_of_isIPv6Body (hbody : isIPv6Body text = true) (hc : c ∈ text) :
    isTrimmed c = false := by
  rcases of_mem_isIPv6Body hbody hc with rfl | rfl | hhex
  · decide
  · decide
  · exact isTrimmed_of_isHex hhex

/-- No character of an address is blank. -/
theorem isTrimmed_of_isIP (hip : (isIP text).isSome = true) (hc : c ∈ text) :
    isTrimmed c = false := by
  by_cases h4 : isIPv4 text = true
  · exact isTrimmed_of_isIPv4 h4 hc
  · by_cases h6 : isIPv6 text = true
    · rw [isIPv6, Bool.and_eq_true] at h6
      rw [← List.takeWhile_append_dropWhile (p := (· ≠ '%')) (l := text)] at hc
      rcases List.mem_append.mp hc with hbody | hzone
      · exact isTrimmed_of_isIPv6Body h6.1 hbody
      · have hhead := List.head?_dropWhile_not (· ≠ '%') text
        generalize text.dropWhile (· ≠ '%') = rest at hzone h6 hhead
        cases rest with
        | nil => cases hzone
        | cons percent zone =>
            have hpercent : percent = '%' := by simpa using hhead
            rcases List.mem_cons.mp hzone with rfl | hinside
            · rw [hpercent]
              decide
            · have hall := h6.2
              rw [isZone, Bool.and_eq_true] at hall
              exact isTrimmed_of_isZoneChar (List.all_eq_true.mp hall.2 c hinside)
    · rw [isIP, if_neg h4, if_neg h6] at hip
      cases hip

theorem trim_of_isIP (hip : (isIP text).isSome = true) : Text.trim text = text := by
  have hstart : ∀ rest : Text, (∀ c ∈ rest, isTrimmed c = false) →
      Text.trimStart rest = rest := by
    intro rest hrest
    cases rest with
    | nil => rfl
    | cons c others =>
        rw [Text.trimStart, List.dropWhile_cons_of_neg
          (by rw [hrest c List.mem_cons_self]; exact Bool.false_ne_true)]
  have hall : ∀ c ∈ text, isTrimmed c = false := fun c hc => isTrimmed_of_isIP hip hc
  rw [Text.trim, hstart text hall, hstart text.reverse fun c hc => hall c (List.mem_reverse.mp hc),
    List.reverse_reverse]

end Characters

section Bare

variable {text : Text} {family : Family}

/-- The value of a bare address in the space of its family. -/
def ownValue (text : Text) : Family → ℕ
  | .v4 => dottedValue text
  | .v6 => joined (bodyNumbers text)

def Family.lift (value : ℕ) : Family → ℕ
  | v4 => 0xffff * 2 ^ 32 + value
  | v6 => value

theorem takeWhile_of_bare (hbare : '%' ∉ text) : text.takeWhile (· ≠ '%') = text := by
  rw [List.takeWhile_eq_self_iff]
  intro c hc
  rw [decide_eq_true_eq]
  rintro rfl
  exact hbare hc

theorem canonical_of_bare (hbare : '%' ∉ text) (hip : isIP text = some family) :
    canonical text = some (family.lift (ownValue text family)) := by
  rw [canonical, hip, takeWhile_of_bare hbare]
  cases family <;> rfl

theorem isIPv6Body_of_isIP (hip : isIP text = some .v6) :
    isIPv6Body (text.takeWhile (· ≠ '%')) = true := by
  by_cases h4 : isIPv4 text = true
  · rw [isIP, if_pos h4] at hip
    cases hip
  · by_cases h6 : isIPv6 text = true
    · rw [isIPv6, Bool.and_eq_true] at h6
      exact h6.1
    · rw [isIP, if_neg h4, if_neg h6] at hip
      cases hip

theorem of_isIP_v6 (hbare : '%' ∉ text) (hip : isIP text = some .v6) : isIPv6Body text = true := by
  rw [← takeWhile_of_bare hbare]
  exact isIPv6Body_of_isIP hip

theorem of_isIP_v4 (hip : isIP text = some .v4) : isIPv4 text = true := by
  by_contra h4
  rw [isIP, if_neg h4] at hip
  split at hip <;> cases hip

/-- The parser reads a bare address, which blanks can surround. -/
theorem parseIp_of_bare (hbare : '%' ∉ Text.trim text) (hip : isIP (Text.trim text) = some family) :
    parseIp text = .ok (some ⟨family, (ownValue (Text.trim text) family : ℤ)⟩) := by
  rw [parseIp]
  simp only [hip]
  cases family with
  | v4 =>
      simp only [ipv4ToBigInt_eq (of_isIP_v4 hip)]
      rfl
  | v6 =>
      simp only [ipv6ToBigInt_eq (of_isIP_v6 hbare hip)]
      rfl

theorem joined_lt {numbers : List ℕ} (hnumbers : ∀ number ∈ numbers, number < 2 ^ 16) :
    joined numbers < 2 ^ (16 * numbers.length) := by
  induction numbers using List.reverseRecOn with
  | nil => decide
  | append_singleton numbers last ih =>
      have hrest := ih fun number hnumber => hnumbers number (List.mem_append_left _ hnumber)
      have hlast := hnumbers last (List.mem_append_right _ (List.mem_singleton_self _))
      have hjoined : joined (numbers ++ [last]) = joined numbers * 2 ^ 16 + last :=
        List.foldl_concat ..
      rw [hjoined, List.length_append, List.length_singleton, Nat.mul_add, Nat.mul_one, pow_add]
      have hstep : joined numbers * 2 ^ 16 + 2 ^ 16 ≤ 2 ^ (16 * numbers.length) * 2 ^ 16 := by
        have hmul := Nat.mul_le_mul_right (2 ^ 16) (Nat.succ_le_of_lt hrest)
        rw [Nat.succ_mul] at hmul
        exact hmul
      omega

theorem groupNumbers_lt {group : Text} (hgroup : isGroup group = true ∨ isIPv4 group = true) :
    ∀ number ∈ groupNumbers group, number < 2 ^ 16 := by
  intro number hnumber
  rw [groupNumbers] at hnumber
  split at hnumber
  · next hdot =>
      rcases hgroup with hplain | hdotted
      · exact absurd hdot (of_isGroup hplain).2.2
      · have hlt := dottedValue_lt hdotted
        rcases List.mem_cons.mp hnumber with rfl | hlow
        · omega
        · rw [List.mem_singleton.mp hlow]
          omega
  · next hdot =>
      rw [List.mem_singleton.mp hnumber]
      rcases hgroup with hplain | hdotted
      · exact (of_isGroup hplain).2.1
      · rw [isIPv4_of_notMem hdot] at hdotted
        cases hdotted

/-- An IPv6 address has eight numbers of 16 bits. -/
theorem of_bodyNumbers (hbody : isIPv6Body text = true) :
    (bodyNumbers text).length = 8 ∧ ∀ number ∈ bodyNumbers text, number < 2 ^ 16 := by
  have hpart : ∀ {part : Text} {dotted : Bool} {count : ℕ},
      width dotted (groups part) = some count →
        (partNumbers part).length = count ∧ ∀ number ∈ partNumbers part, number < 2 ^ 16 := by
    intro part dotted count hwidth
    obtain ⟨hgroups, hlength⟩ := of_width hwidth
    refine ⟨hlength, fun number hnumber => ?_⟩
    obtain ⟨group, hgroup, hmem⟩ := List.mem_flatMap.mp hnumber
    exact groupNumbers_lt (hgroups group hgroup) number hmem
  rcases of_isIPv6Body hbody with ⟨whole, hsplit, hwidth⟩ |
    ⟨left, right, before, after, hsplit, hbefore, hafter, hle⟩
  · obtain ⟨hlength, hnumbers⟩ := hpart hwidth
    rw [bodyNumbers, hsplit]
    simp only [List.flatMap_cons, List.flatMap_nil, List.append_nil]
    exact ⟨hlength, hnumbers⟩
  · obtain ⟨hleftLength, hleft⟩ := hpart hbefore
    obtain ⟨hrightLength, hright⟩ := hpart hafter
    rw [bodyNumbers, hsplit]
    constructor
    · simp only [List.length_append, List.length_replicate]
      omega
    · intro number hnumber
      rcases List.mem_append.mp hnumber with hfirst | hsecond
      · rcases List.mem_append.mp hfirst with hinLeft | hzero
        · exact hleft number hinLeft
        · rw [List.eq_of_mem_replicate hzero]
          decide
      · exact hright number hsecond

theorem ownValue_lt (hbare : '%' ∉ text) (hip : isIP text = some family) :
    ownValue text family < 2 ^ family.bits := by
  cases family with
  | v4 => exact dottedValue_lt (of_isIP_v4 hip)
  | v6 =>
      obtain ⟨hlength, hnumbers⟩ := of_bodyNumbers (of_isIP_v6 hbare hip)
      have hlt := joined_lt hnumbers
      rw [hlength] at hlt
      exact hlt

end Bare

end TrustProxy

end X402Facilitator
