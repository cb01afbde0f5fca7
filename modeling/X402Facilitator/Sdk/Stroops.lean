import X402Facilitator.Sdk.Sep7RoundTrip

/-!
# Stroops and their decimal amounts

A stroop count becomes a decimal amount by a quotient and a remainder that is padded and
stripped, and is read back by padding again.  A negative count leaves its sign in one of the
two, which no amount may have.
-/

namespace X402Facilitator.Sdk

namespace Sep7

open JsString

/-- The amount of a payment request: a string or a `BigInt`. -/
inductive StroopAmount where
  | text (value : JsString)
  | bigint (value : ℤ)

/-- `BigInt(amount)`, none for a `SyntaxError`. -/
def StroopAmount.toBigInt : StroopAmount → Option ℤ
  | text value => bigIntOfText value.chars
  | bigint value => some value

structure Requirements where
  payTo : JsString
  amount : Option StroopAmount

inductive PayError where
  | build (error : BuildError)
  | syntaxError
  deriving DecidableEq

/-- The fraction of a stroop count, without the zeros at its end. -/
def fractionOf (stroops : ℤ) : Text :=
  stripZeros
    ((printInt (stroops.tmod (10 ^ STELLAR_DECIMALS))).leftpad STELLAR_DECIMALS '0')

def decimalAmount (stroops : ℤ) : Text :=
  printInt (stroops.tdiv (10 ^ STELLAR_DECIMALS)) ++
    if fractionOf stroops = [] then [] else '.' :: fractionOf stroops

/-- `{ destination: payTo, ...extra }`, with the amount if there is one. -/
def requestParams (payTo : JsString) (amount : Option JsString) (extra : Params) : Params where
  keys := js "destination" :: extra.keys ++ (if amount.isSome then [js "amount"] else [])
  values := fun field =>
    match field with
    | .amount => (amount.map Value.text).or (extra.values .amount)
    | .destination =>
        if js "destination" ∈ extra.keys then extra.values .destination else some (.text payTo)
    | field => extra.values field
  typed := by
    intro field value hvalue
    cases field with
    | amount =>
        cases amount with
        | none => exact extra.typed .amount value hvalue
        | some amount => exact .inl ⟨amount, (Option.some.inj hvalue).symm⟩
    | destination =>
        by_cases hkey : js "destination" ∈ extra.keys
        · exact extra.typed .destination value ((if_pos hkey).symm.trans hvalue)
        · exact .inl ⟨payTo, (Option.some.inj ((if_neg hkey).symm.trans hvalue)).symm⟩
    | _ => exact extra.typed _ value hvalue

def payUriFromRequirements (platform : Platform) (requirements : Requirements) (extra : Params) :
    Except PayError JsString :=
  match requirements.amount with
  | none => (buildPayUri platform (requestParams requirements.payTo none extra)).mapError .build
  | some amount =>
      match amount.toBigInt with
      | none => .error .syntaxError
      | some stroops =>
          (buildPayUri platform (requestParams requirements.payTo
            (some (ofText (decimalAmount stroops))) extra)).mapError .build

def noExtra : Params where
  keys := []
  values := fun _ => none
  typed := fun _ _ hnone => nomatch hnone

section Counts

variable {n : ℕ}

theorem tmod_natCast (n : ℕ) : (n : ℤ).tmod (10 ^ STELLAR_DECIMALS) =
    (n % 10 ^ STELLAR_DECIMALS : ℕ) := by
  rw [Int.tmod_eq_emod_of_nonneg (Int.natCast_nonneg n)]
  norm_cast

theorem tdiv_natCast (n : ℕ) : (n : ℤ).tdiv (10 ^ STELLAR_DECIMALS) =
    (n / 10 ^ STELLAR_DECIMALS : ℕ) := by
  rw [Int.tdiv_eq_ediv_of_nonneg (Int.natCast_nonneg n)]
  norm_cast

def paddedDigits (n : ℕ) : Text :=
  (Nat.toDigits 10 (n % 10 ^ STELLAR_DECIMALS)).leftpad STELLAR_DECIMALS '0'

theorem fractionOf_natCast (n : ℕ) : fractionOf n = stripZeros (paddedDigits n) := by
  rw [fractionOf, tmod_natCast, printInt_natCast, paddedDigits]

theorem length_paddedDigits (n : ℕ) : (paddedDigits n).length = STELLAR_DECIMALS := by
  have hlt : n % 10 ^ STELLAR_DECIMALS < 10 ^ STELLAR_DECIMALS := Nat.mod_lt _ (by decide)
  have hle := (Nat.length_toDigits_le_iff (b := 10) (by decide) (by decide)).mpr hlt
  rw [paddedDigits, List.leftpad, List.length_append, List.length_replicate]
  omega

theorem isDigits_paddedDigits (n : ℕ) : IsDigits (paddedDigits n) :=
  (isDigits_zeros _).append (isDigits_toDigits _)

theorem numeralValue_paddedDigits (n : ℕ) :
    numeralValue 10 (paddedDigits n) = n % 10 ^ STELLAR_DECIMALS := by
  rw [paddedDigits, List.leftpad, numeralValue_zeros_append, numeralValue_toDigits]

def amountOf (n : ℕ) : Decimal where
  sign := []
  whole := Nat.toDigits 10 (n / 10 ^ STELLAR_DECIMALS)
  fraction := if fractionOf n = [] then none else some (fractionOf n)
  sign_valid := signText_valid false
  whole_valid := isNumeral_toDigits _
  fraction_valid := by
    intro digits hdigits
    split at hdigits
    · cases hdigits
    · next hne =>
        obtain rfl := Option.some.inj hdigits
        refine isNumeral_iff.mpr ⟨hne, ?_⟩
        rw [fractionOf_natCast]
        exact (isDigits_paddedDigits n).stripZeros

theorem text_amountOf (n : ℕ) : (amountOf n).text = decimalAmount n := by
  rw [decimalAmount, tdiv_natCast, printInt_natCast, Decimal.text, Decimal.unsigned, amountOf]
  by_cases hnil : fractionOf n = []
  · simp [hnil]
  · simp [hnil]

theorem places_amountOf (n : ℕ) : (amountOf n).places = stripZeros (paddedDigits n) := by
  rw [← fractionOf_natCast, Decimal.places, amountOf]
  by_cases hnil : fractionOf n = []
  · simp [hnil]
  · simp [hnil]

/-- The amount is read back as the count. -/
theorem stroopsOf_amountOf (n : ℕ) : stroopsOf (amountOf n) = n := by
  have hpadded := rightpad_stripZeros (paddedDigits n)
  have hlength := length_stripZeros_le (paddedDigits n)
  rw [length_paddedDigits] at hpadded hlength
  rw [stroopsOf, places_amountOf, List.take_of_length_le hlength, hpadded, numeralValue_append,
    length_paddedDigits, numeralValue_paddedDigits, amountOf, numeralValue_toDigits]
  exact Nat.div_add_mod' n _

/-- How many zeros a count of the least place ends in, of all its places. -/
def trailingZeros (n : ℕ) : ℕ :=
  Nat.findGreatest (fun zeros => 10 ^ zeros ∣ n % 10 ^ STELLAR_DECIMALS) STELLAR_DECIMALS

/-- The length of the shortest numeral of a count. -/
def amountLength (n : ℕ) : ℕ :=
  (Nat.toDigits 10 (n / 10 ^ STELLAR_DECIMALS)).length +
    if n % 10 ^ STELLAR_DECIMALS = 0 then 0 else 1 + (STELLAR_DECIMALS - trailingZeros n)

theorem getLast?_stripZeros (digits : Text) : (stripZeros digits).getLast? ≠ some '0' := by
  intro hlast
  have hne : stripZeros digits ≠ [] := by
    intro hnil
    rw [hnil] at hlast
    cases hlast
  have hzero := List.rdropWhile_last_not (· = '0') digits hne
  rw [List.getLast?_eq_getLast_of_ne_nil hne] at hlast
  exact hzero (decide_eq_true (Option.some.inj hlast))

/-- A numeral that does not end in a zero is not divisible by ten. -/
theorem not_ten_dvd_of_getLast? {digits : Text} (hdigits : IsDigits digits) (hne : digits ≠ [])
    (hlast : digits.getLast? ≠ some '0') : ¬ 10 ∣ numeralValue 10 digits := by
  obtain ⟨front, last, rfl⟩ := (List.eq_nil_or_concat' digits).resolve_left hne
  have hdigit := isDigit_of_isDigitIn (hdigits last (by simp))
  have hrange := toNat_of_isDigit hdigit
  have hzero : last.toNat ≠ 48 := by
    intro heq
    have hchar : last = '0' := by rw [← Char.ofNat_toNat last, heq]
    exact hlast (by rw [hchar, List.getLast?_concat])
  have hvalue : numeralValue 10 [last] = last.toNat - 48 := by
    simp [numeralValue, digitValue_of_isDigit hdigit]
  rw [numeralValue_append, List.length_singleton, pow_one, hvalue]
  omega

theorem length_fractionOf (n : ℕ) :
    (fractionOf n).length = STELLAR_DECIMALS - trailingZeros n := by
  have hlength := length_stripZeros_le (paddedDigits n)
  have hpadded := rightpad_stripZeros (paddedDigits n)
  rw [length_paddedDigits] at hlength hpadded
  have hvalue : n % 10 ^ STELLAR_DECIMALS = numeralValue 10 (stripZeros (paddedDigits n)) *
      10 ^ (STELLAR_DECIMALS - (stripZeros (paddedDigits n)).length) := by
    rw [← numeralValue_append_zeros, ← numeralValue_paddedDigits]
    exact congrArg (numeralValue 10) hpadded.symm
  have hzeros : trailingZeros n = STELLAR_DECIMALS - (stripZeros (paddedDigits n)).length := by
    rw [trailingZeros, Nat.findGreatest_eq_iff]
    refine ⟨Nat.sub_le _ _, fun _ => hvalue ▸ Nat.dvd_mul_left _ _, fun more hmore hle hdvd => ?_⟩
    have hne : stripZeros (paddedDigits n) ≠ [] := by
      intro hnil
      rw [hnil] at hmore
      exact absurd hmore (not_lt.mpr hle)
    refine not_ten_dvd_of_getLast? (isDigits_paddedDigits n).stripZeros hne
      (getLast?_stripZeros _) ?_
    have hsucc := (pow_dvd_pow 10 hmore).trans hdvd
    rw [hvalue, Nat.succ_eq_add_one, pow_succ, Nat.mul_comm] at hsucc
    exact Nat.dvd_of_mul_dvd_mul_right (by positivity) hsucc
  rw [fractionOf_natCast, hzeros]
  omega

theorem length_decimalAmount (n : ℕ) : (decimalAmount n).length = amountLength n := by
  have hfraction := length_fractionOf n
  have hzero : fractionOf n = [] ↔ n % 10 ^ STELLAR_DECIMALS = 0 := by
    constructor
    · intro hnil
      have hpadded := rightpad_stripZeros (paddedDigits n)
      rw [← fractionOf_natCast, hnil] at hpadded
      rw [← numeralValue_paddedDigits, ← hpadded]
      exact numeralValue_zeros _
    · intro hnil
      rw [fractionOf_natCast, paddedDigits, hnil]
      decide
  rw [decimalAmount, tdiv_natCast, printInt_natCast, amountLength, List.length_append]
  by_cases hnil : fractionOf n = []
  · rw [if_pos hnil, if_pos (hzero.mp hnil)]
    rfl
  · rw [if_neg hnil, if_neg fun h => hnil (hzero.mpr h), List.length_cons, hfraction]
    omega

/-- A count that is negative leaves a sign in its amount. -/
theorem minus_mem_decimalAmount {stroops : ℤ} (hnegative : stroops < 0) :
    '-' ∈ decimalAmount stroops := by
  have hscale : (0 : ℤ) < 10 ^ STELLAR_DECIMALS := by decide
  have hprinted : ∀ value : ℤ, value < 0 → '-' ∈ printInt value := by
    intro value hvalue
    rw [printInt, decide_eq_true hvalue]
    exact List.mem_cons_self
  have hparts := Int.tdiv_mul_add_tmod stroops (10 ^ STELLAR_DECIMALS)
  rw [decimalAmount]
  by_cases hremainder : stroops.tmod (10 ^ STELLAR_DECIMALS) = 0
  · have hquotient : stroops.tdiv (10 ^ STELLAR_DECIMALS) < 0 := by
      rw [hremainder, add_zero] at hparts
      by_contra hpositive
      have := mul_nonneg (not_lt.mp hpositive) hscale.le
      omega
    exact List.mem_append_left _ (hprinted _ hquotient)
  · have hnonpos : stroops.tmod (10 ^ STELLAR_DECIMALS) ≤ 0 := by
      have hflip := Int.tmod_nonneg (10 ^ STELLAR_DECIMALS) (neg_nonneg.mpr hnegative.le)
      rw [Int.neg_tmod] at hflip
      exact neg_nonneg.mp hflip
    have hpadded : '-' ∈ (printInt (stroops.tmod (10 ^ STELLAR_DECIMALS))).leftpad
        STELLAR_DECIMALS '0' :=
      List.mem_append_right _ (hprinted _ (lt_of_le_of_ne hnonpos hremainder))
    have hfraction : '-' ∈ fractionOf stroops := by
      rw [← rightpad_stripZeros ((printInt _).leftpad _ _), List.rightpad] at hpadded
      rcases List.mem_append.mp hpadded with hmem | hzero
      · exact hmem
      · exact absurd (List.eq_of_mem_replicate hzero) (by decide)
    rw [if_neg (List.ne_nil_of_mem hfraction)]
    exact List.mem_append_right _ (List.mem_cons_of_mem _ hfraction)

theorem notMem_of_nonneg {decimal : Decimal} (hpositive : decimal.isNegative = false) :
    '-' ∉ decimal.text := by
  have hsign : '-' ∉ decimal.sign := by
    have hsigns : ∀ sign ∈ [[], ['+'], ['-']], decide (sign = ['-']) = false → '-' ∉ sign := by
      decide
    exact hsigns _ decimal.sign_valid hpositive
  have hplaces := decimal.isDigits_places
  rw [Decimal.text, Decimal.unsigned, List.mem_append, not_or]
  refine ⟨hsign, ?_⟩
  rw [Decimal.places] at hplaces
  cases hfraction : decimal.fraction with
  | none => exact decimal.isDigits_whole.notMem (by decide)
  | some digits =>
      rw [hfraction, Option.getD_some] at hplaces
      simp only [List.mem_append, List.mem_cons, not_or]
      exact ⟨decimal.isDigits_whole.notMem (by decide), by decide, hplaces.notMem (by decide)⟩

/-- The characters of an amount have one code unit each. -/
theorem toNat_lt_of_mem_decimalAmount {stroops : ℤ} {c : Char}
    (hc : c ∈ decimalAmount stroops) : c.toNat < 0x10000 := by
  have hprinted : ∀ value : ℤ, c ∈ printInt value → c.toNat < 0x10000 := by
    intro value hmem
    have htext : (Decimal.ofInt value).text = printInt value := rfl
    exact ((Decimal.ofInt value).toNat_lt_of_mem_text (htext ▸ hmem)).trans (by decide)
  rw [decimalAmount] at hc
  rcases List.mem_append.mp hc with hmem | hmem
  · exact hprinted _ hmem
  · split at hmem
    · cases hmem
    · rcases List.mem_cons.mp hmem with rfl | hmem
      · decide
      · have hpadded := (List.rdropWhile_prefix _ _).subset hmem
        rcases List.mem_append.mp hpadded with hzero | hmem
        · rw [List.eq_of_mem_replicate hzero]
          decide
        · exact hprinted _ hmem

end Counts

/-- A payment request: an address that is valid, and an amount that is a stroop count. -/
structure Payment (platform : Platform) where
  payTo : JsString
  amount : StroopAmount
  stroops : ℤ
  nonempty : payTo ≠ []
  valid : isValidDestination platform payTo = true
  reads : amount.toBigInt = some stroops

namespace Payment

variable {platform : Platform}

def params (payment : Payment platform) : Params :=
  requestParams payment.payTo (some (ofText (decimalAmount payment.stroops))) noExtra

def uri (payment : Payment platform) : Except PayError JsString :=
  payUriFromRequirements platform ⟨payment.payTo, some payment.amount⟩ noExtra

/-- The URI of a count is parsed as an amount of so many stroops, with no more decimals than
it needs; a negative count is refused. -/
structure Exact (payment : Payment platform) : Prop where
  paid : 0 ≤ payment.stroops → ∃ uri texts amount, payment.uri = .ok uri ∧
    parsePayUri platform uri = .ok texts ∧ texts .amount = some amount ∧
      toStroops (some (.text amount)) = .ok (printInt payment.stroops) ∧
        ∃ decimal : Decimal, amount.chars = decimal.text ∧
          decimal.places.length ≤ STELLAR_DECIMALS ∧ decimal.places.getLast? ≠ some '0'
  refused : payment.stroops < 0 →
    ∃ errors, payment.uri = .error (.build (.sep7Error errors))

theorem uri_eq (payment : Payment platform) :
    payment.uri = (buildPayUri platform payment.params).mapError .build := by
  rw [uri, payUriFromRequirements]
  simp only [payment.reads]
  rfl

theorem textsOf_params (payment : Payment platform) :
    textsOf payment.params.values .destination = some payment.payTo ∧
      textsOf payment.params.values .amount = some (ofText (decimalAmount payment.stroops)) :=
  ⟨rfl, rfl⟩

theorem chars_amount (stroops : ℤ) :
    (ofText (decimalAmount stroops)).chars = decimalAmount stroops :=
  chars_ofText fun _ hc => toNat_lt_of_mem_decimalAmount hc

theorem buildErrors_params (payment : Payment platform) :
    buildErrors platform payment.params =
      validateAmountParam (some (.text (ofText (decimalAmount payment.stroops)))) := by
  have hdestination : validateDestination platform (some (.text payment.payTo)) = [] := by
    rw [validateDestination, Value.toJsString, if_neg payment.nonempty, if_pos payment.valid]
  have hkeys : payment.params.keys = [js "destination", js "amount"] := rfl
  have hknown : [js "destination", js "amount"].filter
      (fun key => fields.all fun field => field.property ≠ key) = [] := by
    decide
  have hvalid : validateParams platform payment.params.values =
      validateDestination platform (some (.text payment.payTo)) ++
        validateAmountParam (some (.text (ofText (decimalAmount payment.stroops)))) := by
    rw [validateParams]
    simp only [params, requestParams, noExtra]
    simp [checkValue, validateMemoParam]
  rw [buildErrors, hkeys, hknown, hvalid, hdestination]
  rfl

/-- The amount of a count is accepted, unless the count is negative. -/
theorem validateAmountParam_amount (stroops : ℤ) :
    validateAmountParam (some (.text (ofText (decimalAmount stroops)))) = [] ↔ 0 ≤ stroops := by
  constructor
  · intro haccepted
    by_contra hnegative
    rw [validateAmountParam, Option.isNone_some, if_neg Bool.false_ne_true,
      List.append_eq_nil_iff, List.map_eq_nil_iff] at haccepted
    obtain ⟨decimal, htext, hpositive⟩ := exists_of_validateAmount haccepted.1
    rw [chars_amount] at htext
    exact notMem_of_nonneg hpositive (htext ▸ minus_mem_decimalAmount (not_le.mp hnegative))
  · intro hnonneg
    obtain ⟨n, rfl⟩ := Int.eq_ofNat_of_zero_le hnonneg
    have htext := (chars_amount n).trans (text_amountOf n).symm
    refine (validateAmountParam_text htext).mpr ⟨rfl, ?_⟩
    rw [places_amountOf]
    exact (length_stripZeros_le _).trans (length_paddedDigits n).le

def length (payment : Payment platform) : ℕ :=
  36 + encodedLength payment.payTo + amountLength payment.stroops.natAbs

theorem isUnreserved_of_mem_decimalAmount {n : ℕ} {c : Char} (hc : c ∈ decimalAmount n) :
    isUnreserved c = true := by
  have hdigits := (isDigits_paddedDigits n).stripZeros
  rw [decimalAmount, fractionOf_natCast, tdiv_natCast, printInt_natCast] at hc
  rcases List.mem_append.mp hc with hc | hc
  · exact isUnreserved_of_isDigitIn (isDigits_toDigits _ c hc)
  · split at hc
    · cases hc
    · rcases List.mem_cons.mp hc with rfl | hc
      · decide
      · exact isUnreserved_of_isDigitIn (hdigits c hc)

theorem canonicalLength_params (payment : Payment platform) (hnonneg : 0 ≤ payment.stroops) :
    canonicalLength (textsOf payment.params.values) = payment.length := by
  have hdefined : definedFields (textsOf payment.params.values) = [.destination, .amount] := rfl
  obtain ⟨n, hn⟩ := Int.eq_ofNat_of_zero_le hnonneg
  have hamount : encodedLength (ofText (decimalAmount payment.stroops)) =
      amountLength payment.stroops.natAbs := by
    rw [hn, Int.natAbs_natCast,
      encodedLength_ofText fun c hc => isUnreserved_of_mem_decimalAmount hc,
      length_decimalAmount]
  obtain ⟨hdestination, hpaid⟩ := payment.textsOf_params
  have hkeys : Field.destination.key.length = 11 ∧ Field.amount.key.length = 6 := by decide
  rw [canonicalLength, hdefined, length]
  simp only [List.map_cons, List.map_nil, List.sum_cons, List.sum_nil, partLength, textAt,
    hdestination, hpaid, Option.getD_some, hamount, hkeys, List.length_cons, List.length_nil]
  omega

theorem allWellFormed_params (payment : Payment platform) :
    AllWellFormed (textsOf payment.params.values) ↔ payment.payTo.isWellFormed = true := by
  obtain ⟨hdestination, hpaid⟩ := payment.textsOf_params
  constructor
  · intro hwell
    exact hwell .destination _ hdestination
  · intro hpayTo field text htext
    cases field with
    | destination =>
        rw [← Option.some.inj htext]
        exact hpayTo
    | amount =>
        rw [← Option.some.inj htext, Value.toJsString, isWellFormed, toText?_ofText]
        rfl
    | _ => cases htext

theorem allNonempty_params (payment : Payment platform) :
    AllNonempty (textsOf payment.params.values) := by
  intro field text htext
  cases field with
  | destination =>
      rw [← Option.some.inj htext]
      exact payment.nonempty
  | amount =>
      rw [← Option.some.inj htext, Value.toJsString]
      intro hnil
      have hamount : decimalAmount payment.stroops = [] := ofText_injective hnil
      rw [decimalAmount, printInt] at hamount
      obtain ⟨⟨-, hdigits⟩, -⟩ := List.append_eq_nil_iff.mp hamount |>.imp_left
        List.append_eq_nil_iff.mp
      exact Nat.toDigits_ne_nil hdigits
  | _ => cases htext

/-- A payment is exact where its count is negative, or its address has no surrogate alone
and the URI is not too long. -/
theorem exact_iff (payment : Payment platform) : payment.Exact ↔ payment.stroops < 0 ∨
    payment.payTo.isWellFormed = true ∧ payment.length ≤ MAX_URI_LENGTH := by
  have herrors := (validateAmountParam_amount payment.stroops)
  rw [← payment.buildErrors_params] at herrors
  by_cases hnegative : payment.stroops < 0
  · have hrefused := buildPayUri_of_errors (mt herrors.mp (not_le.mpr hnegative))
    refine ⟨fun _ => .inl hnegative, fun _ => ⟨fun hnonneg => absurd hnonneg (not_le.mpr hnegative),
      fun _ => ⟨buildErrors platform payment.params, ?_⟩⟩⟩
    rw [uri_eq, hrefused]
    rfl
  · have hnonneg := not_lt.mp hnegative
    have hnil := herrors.mpr hnonneg
    have hvalid := validateParams_of_buildErrors hnil
    have hdefined := definedFields_textsOf_ne_nil payment.params hvalid
    rw [or_iff_right hnegative, ← payment.allWellFormed_params,
      ← payment.canonicalLength_params hnonneg]
    constructor
    · intro hexact
      obtain ⟨uri, texts, -, huri, hparsed, -⟩ := hexact.paid hnonneg
      rw [uri_eq] at huri
      have hwell : AllWellFormed (textsOf payment.params.values) := by
        by_contra hnot
        rw [buildPayUri_of_not_wellFormed hnil hnot] at huri
        cases huri
      rw [buildPayUri_of_wellFormed hnil hwell] at huri
      cases huri
      exact ⟨hwell,
        (length_canonicalUri hwell).symm.trans_le (accepted_of_parsePayUri hparsed).short⟩
    · rintro ⟨hwell, hshort⟩
      refine ⟨fun _ => ?_, fun h => absurd h hnegative⟩
      have hstrings := (validateParams_strings hvalid).mpr fun n hn => nomatch hn
      have hparsed := (parse_canonicalUri_iff hwell hdefined).mpr
        ⟨payment.allNonempty_params, hstrings, hshort⟩
      obtain ⟨n, hn⟩ := Int.eq_ofNat_of_zero_le hnonneg
      have htext : (ofText (decimalAmount payment.stroops)).chars = (amountOf n).text := by
        rw [chars_amount, hn, text_amountOf]
      refine ⟨_, _, _, ?_, hparsed, payment.textsOf_params.2, ?_, amountOf n, htext, ?_, ?_⟩
      · rw [uri_eq, buildPayUri_of_wellFormed hnil hwell]
        rfl
      · rw [toStroops_of_text htext rfl, stroopsOf_amountOf, hn, printInt_natCast]
      · rw [places_amountOf]
        exact (length_stripZeros_le _).trans (length_paddedDigits n).le
      · rw [places_amountOf]
        exact getLast?_stripZeros _

end Payment

structure AcceptedAmount where
  text : JsString
  accepted : validateAmount (some (.text text)) = []

namespace AcceptedAmount

/-- The stroops of an amount are its value in stroops, rounded down. -/
def RoundsDown (amount : AcceptedAmount) : Prop :=
  ∃ value, decimalValue amount.text.chars = some value ∧
    toStroops (some (.text amount.text)) = .ok (printInt ⌊value * 10 ^ STELLAR_DECIMALS⌋)

/-- A value that is not greater gives no more stroops. -/
def Monotone (first second : AcceptedAmount) : Prop :=
  ∀ x y, decimalValue first.text.chars = some x → decimalValue second.text.chars = some y →
    x ≤ y → ∃ m n : ℤ, toStroops (some (.text first.text)) = .ok (printInt m) ∧
      toStroops (some (.text second.text)) = .ok (printInt n) ∧ m ≤ n ∧ (x = y → m = n)

theorem roundsDown (amount : AcceptedAmount) : amount.RoundsDown := by
  obtain ⟨decimal, htext, hpositive⟩ := exists_of_validateAmount amount.accepted
  refine ⟨decimal.value, htext ▸ decimal.decimalValue_text, ?_⟩
  rw [toStroops_of_text htext hpositive, ← stroopsOf_eq_floor hpositive, printInt_natCast]

theorem monotone (first second : AcceptedAmount) : first.Monotone second := by
  intro x y hx hy hle
  obtain ⟨value, hvalue, hfirst⟩ := first.roundsDown
  obtain ⟨value', hvalue', hsecond⟩ := second.roundsDown
  obtain rfl := Option.some.inj (hx.symm.trans hvalue)
  obtain rfl := Option.some.inj (hy.symm.trans hvalue')
  have hscaled : x * 10 ^ STELLAR_DECIMALS ≤ y * 10 ^ STELLAR_DECIMALS :=
    mul_le_mul_of_nonneg_right hle (by positivity)
  exact ⟨_, _, hfirst, hsecond, Int.floor_le_floor hscaled, fun heq => by rw [heq]⟩

end AcceptedAmount

/-- Stroop counts and amounts are converted exactly, and a payment request is exact where the
parser takes back its URI. -/
theorem stroops_exact (platform : Platform) :
    (∀ payment : Payment platform, payment.Exact ↔ payment.stroops < 0 ∨
      payment.payTo.isWellFormed = true ∧ payment.length ≤ MAX_URI_LENGTH) ∧
    (∀ amount : AcceptedAmount, amount.RoundsDown) ∧
    ∀ first second : AcceptedAmount, first.Monotone second :=
  ⟨Payment.exact_iff, AcceptedAmount.roundsDown, AcceptedAmount.monotone⟩

def loneSurrogate : Payment federationOnly where
  payTo := 0xD800 :: js "*example.com"
  amount := .bigint 0
  stroops := 0
  nonempty := List.cons_ne_nil _ _
  valid := by decide
  reads := rfl

theorem not_stroops_exact : ¬ ∀ platform, ∀ payment : Payment platform, payment.Exact := by
  intro hexact
  have hcondition := loneSurrogate.exact_iff.mp (hexact federationOnly loneSurrogate)
  rcases hcondition with hnegative | ⟨hwell, -⟩
  · exact absurd hnegative (by decide)
  · exact absurd hwell (by decide)

end Sep7

end X402Facilitator.Sdk
