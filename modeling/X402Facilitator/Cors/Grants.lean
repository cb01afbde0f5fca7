import X402Facilitator.Cors.Origins

/-!
# Grants under literal entries

Entries that are escaped origins or host names grant these, and the hosts below them, and
nothing else.
-/

namespace X402Facilitator.Cors

open JsString

/-- The origin is an entry, or has a host name that is one or ends with one behind a dot. -/
def Listed (platform : Platform) (literals : List JsString) (origin : JsString) : Prop :=
  origin ∈ literals ∨ ∃ hostname, platform.hostname origin = some hostname ∧
    ∃ literal ∈ literals, hostname = literal ∨ dot :: literal <:+ hostname

/-- What the headers of a reply grant: the origin itself, with credentials, exactly where it is
listed, and anything exactly for public reads without entries, never with credentials. -/
structure Grants (platform : Platform) (literals : List JsString) (policy : Policy)
    (origin : Option JsString) (reply : Reply) : Prop where
  reflects : ∀ value, origin = some value →
    (reply.headers .allowOrigin = some value ∧
      reply.headers .allowCredentials = some (js "true") ↔ Listed platform literals value)
  values : ∀ value, reply.headers .allowOrigin = some value →
    origin = some value ∧ Listed platform literals value ∨ value = wildcard
  open_iff : reply.headers .allowOrigin = some wildcard ↔ policy = .publicReads ∧ literals = []
  uncredited : reply.headers .allowOrigin = some wildcard →
    reply.headers .allowCredentials = none

section Granting

variable {platform : Platform} {entries literals : List JsString}
variable {patterns : List (JsString → Bool)}

/-- The patterns of escaped texts match these texts alone. -/
theorem compile_of_spells (hspells : List.Forall₂ Spells entries literals) :
    ∃ patterns, compileOriginPatterns platform entries = .ok patterns ∧
      ∀ string, (patterns.any fun test => test string) = true ↔ string ∈ literals := by
  induction hspells with
  | nil => exact ⟨[], rfl, fun string => by simp⟩
  | @cons entry literal entries literals hentry _ ih =>
      obtain ⟨patterns, hpatterns, hany⟩ := ih
      obtain ⟨regex, hread, haccepts⟩ := accepts_of_spells hentry
      have hcompile : compilePattern platform entry = .ok regex.accepts := by
        rw [compilePattern, hread]
      refine ⟨regex.accepts :: patterns, ?_, fun string => ?_⟩
      · rw [compileOriginPatterns, List.mapM_cons, hcompile]
        rw [compileOriginPatterns] at hpatterns
        rw [hpatterns]
        rfl
      · rw [List.any_cons, Bool.or_eq_true, haccepts, hany, List.mem_cons]

variable {origin : JsString} {reply : Reply} {allowlisted : Bool} {policy : Policy}

theorem originMatches_iff
    (hany : ∀ string, (patterns.any fun test => test string) = true ↔ string ∈ literals)
    (horigin : origin ≠ []) :
    originMatches platform patterns (some origin) = true ↔ Listed platform literals origin := by
  cases origin with
  | nil => exact absurd rfl horigin
  | cons unit rest =>
      rw [originMatches, Listed, ← hany]
      cases hdirect : patterns.any fun test => test (unit :: rest) with
      | true => simp
      | false =>
          rw [if_neg Bool.false_ne_true, or_iff_right Bool.false_ne_true]
          cases platform.hostname (unit :: rest) with
          | none => simp
          | some hostname =>
              simp only [List.any_eq_true, mem_suffixes_iff, Option.some.injEq]
              constructor
              · rintro ⟨suffix, hsuffix, test, htest, hmatch⟩
                have hlisted := (hany suffix).mp (List.any_eq_true.mpr ⟨test, htest, hmatch⟩)
                exact ⟨hostname, rfl, suffix, hlisted, hsuffix⟩
              · rintro ⟨_, rfl, literal, hliteral, hsuffix⟩
                obtain ⟨test, htest, hmatch⟩ := List.any_eq_true.mp ((hany literal).mpr hliteral)
                exact ⟨literal, hsuffix, test, htest, hmatch⟩

/-- What stands in the two headers after a grant. -/
theorem headers_grant (hfresh : reply.headers .allowOrigin = none ∧
      reply.headers .allowCredentials = none) (value : Option JsString) (hvalue : value ≠ some []) :
    (grant reply value).headers .allowOrigin = value ∧
      (grant reply value).headers .allowCredentials =
        if value = none ∨ value = some wildcard then none else some (js "true") := by
  match value with
  | none => exact hfresh
  | some [] => exact absurd rfl hvalue
  | some (unit :: rest) =>
      rw [grant]
      by_cases hwild : unit :: rest = wildcard
      · rw [if_neg (not_not.mpr hwild), if_pos (.inr (congrArg some hwild))]
        exact ⟨Reply.header_self .., (Reply.header_of_ne _ _ (by decide)).trans hfresh.2⟩
      · rw [if_pos hwild, if_neg (by simp [hwild])]
        exact ⟨(Reply.header_of_ne _ _ (by decide)).trans (Reply.header_self ..),
          Reply.header_self ..⟩

/-- What a text has to be for nothing to be below it: neither empty nor the wildcard, as no
origin and no host name is. -/
def Literal (text : JsString) : Prop := text ≠ [] ∧ text ≠ wildcard

theorem not_listed_of_unparsed (hliterals : ∀ text ∈ literals, Literal text)
    (hscheme : ∀ text hostname, platform.hostname text = some hostname → unitColon ∈ text)
    (hcolon : unitColon ∉ origin) (horigin : ¬ Literal origin) :
    ¬ Listed platform literals origin := by
  rintro (hmem | ⟨hostname, hhostname, -⟩)
  · exact horigin (hliterals origin hmem)
  · exact hcolon (hscheme origin hostname hhostname)

/-- A reply whose two headers are those of a grant. -/
theorem grants_of_headers {origin : Option JsString}
    (hallowlisted : allowlisted = true ↔ ∃ value, origin = some value ∧
      Listed platform literals value) (hempty : ¬ Listed platform literals [])
    (hwildcard : ¬ Listed platform literals wildcard)
    (horigin : reply.headers .allowOrigin = granted allowlisted literals.isEmpty policy origin)
    (hcredentials : reply.headers .allowCredentials =
      if granted allowlisted literals.isEmpty policy origin = none ∨
        granted allowlisted literals.isEmpty policy origin = some wildcard then none
      else some (js "true")) : Grants platform literals policy origin reply := by
  cases hallowed : allowlisted with
  | true =>
      obtain ⟨value, rfl, hlisted⟩ := hallowlisted.mp hallowed
      have hvalue : granted allowlisted literals.isEmpty policy (some value) = some value := by
        cases policy <;> rw [hallowed] <;> rfl
      have hne : value ≠ wildcard := fun heq => hwildcard (heq ▸ hlisted)
      have hconfigured : literals ≠ [] := by
        rintro rfl
        rcases hlisted with hmem | ⟨_, _, _, hmem, _⟩ <;> cases hmem
      rw [hvalue] at horigin hcredentials
      rw [if_neg (by simp [hne])] at hcredentials
      constructor
      · rintro _ ⟨⟩
        exact iff_of_true ⟨horigin, hcredentials⟩ hlisted
      · intro other hother
        obtain rfl : value = other := Option.some.inj (horigin.symm.trans hother)
        exact .inl ⟨rfl, hlisted⟩
      · refine iff_of_false (fun hopen => hne ?_) fun hopen => hconfigured hopen.2
        exact Option.some.inj (horigin.symm.trans hopen)
      · exact fun hopen => absurd (Option.some.inj (horigin.symm.trans hopen)) hne
  | false =>
      have hunlisted : ∀ value, origin = some value → ¬ Listed platform literals value := by
        intro value hvalue hlisted
        rw [hallowlisted.mpr ⟨value, hvalue, hlisted⟩] at hallowed
        cases hallowed
      have hopen : reply.headers .allowOrigin = some wildcard ↔
          policy = .publicReads ∧ literals = [] := by
        rw [horigin, hallowed]
        cases policy <;> cases literals <;> simp [granted]
      have hvalues : ∀ value, reply.headers .allowOrigin = some value → value = wildcard := by
        intro value hvalue
        rw [horigin, hallowed] at hvalue
        cases policy with
        | authenticated => cases hvalue
        | publicReads =>
            simp only [granted, Bool.false_eq_true, if_false] at hvalue
            split at hvalue
            · exact (Option.some.inj hvalue).symm
            · cases hvalue
      have hnone : reply.headers .allowCredentials = none := by
        rw [hcredentials, ← horigin]
        cases hgranted : reply.headers .allowOrigin with
        | none => rfl
        | some value =>
            rw [hvalues value hgranted]
            exact if_pos (.inr rfl)
      constructor
      · intro value hvalue
        refine iff_of_false (fun hboth => ?_) (hunlisted value hvalue)
        rw [hnone] at hboth
        cases hboth.2
      · exact fun value hvalue => .inr (hvalues value hvalue)
      · exact hopen
      · exact fun _ => hnone

theorem headers_preflight (hook : Policy → Option JsString → Reply → Reply) (policy : Policy)
    (methods origin : Option JsString) (reply : Reply) :
    (preflight hook policy methods origin reply).headers .allowOrigin =
        (hook policy origin reply).headers .allowOrigin ∧
      (preflight hook policy methods origin reply).headers .allowCredentials =
        (hook policy origin reply).headers .allowCredentials := by
  constructor <;> simp [preflight]

theorem granted_ne_nil {unconfigured : Bool} {origin : Option JsString}
    (hallowlisted : allowlisted = true → origin ≠ some []) :
    granted allowlisted unconfigured policy origin ≠ some [] := by
  cases allowlisted with
  | true => cases policy <;> exact hallowlisted rfl
  | false => cases policy <;> cases unconfigured <;> exact of_decide_eq_true rfl

/-- The hook grants what the entries list. -/
theorem cors_grants
    (hany : ∀ string, (patterns.any fun test => test string) = true ↔ string ∈ literals)
    (hliterals : ∀ text ∈ literals, Literal text)
    (hscheme : ∀ text hostname, platform.hostname text = some hostname → unitColon ∈ text)
    (policy : Policy) (origin : Option JsString) :
    Grants platform literals policy origin
      (cors platform patterns literals.isEmpty policy origin .fresh) := by
  have hempty : ¬ Listed platform literals [] :=
    not_listed_of_unparsed hliterals hscheme List.not_mem_nil fun hliteral => hliteral.1 rfl
  have hwildcard : ¬ Listed platform literals wildcard :=
    not_listed_of_unparsed hliterals hscheme (by decide) fun hliteral => hliteral.2 rfl
  have hallowlisted : originMatches platform patterns origin = true ↔
      ∃ value, origin = some value ∧ Listed platform literals value := by
    match origin with
    | none => simp [originMatches]
    | some [] => simp [originMatches, hempty]
    | some (unit :: rest) =>
        rw [originMatches_iff hany (List.cons_ne_nil _ _)]
        simp
  have hne : granted (originMatches platform patterns origin) literals.isEmpty policy origin ≠
      some [] := by
    refine granted_ne_nil fun hallowed => ?_
    rintro rfl
    cases hallowed
  have hfresh : ((Reply.fresh.header .exposeHeaders exposedHeaders).header .vary
        (js "Origin")).headers .allowOrigin = none ∧
      ((Reply.fresh.header .exposeHeaders exposedHeaders).header .vary
        (js "Origin")).headers .allowCredentials = none :=
    ⟨by simp [Reply.fresh], by simp [Reply.fresh]⟩
  have hheaders := headers_grant hfresh _ hne
  exact grants_of_headers hallowlisted hempty hwildcard hheaders.1 hheaders.2

end Granting

/-- Under escaped origins and host names the hook grants what they list, and a preflight grants
what the hook does. -/
theorem cors_grants_listed (platform : Platform) (entries literals : List JsString)
    (hspells : List.Forall₂ Spells entries literals)
    (hliterals : ∀ text ∈ literals, Literal text)
    (hscheme : ∀ text hostname, platform.hostname text = some hostname → unitColon ∈ text) :
    ∃ hook handler, createCorsHook platform entries = .ok hook ∧
      createPreflightHandler platform entries = .ok handler ∧
      ∀ policy origin, Grants platform literals policy origin (hook policy origin .fresh) ∧
        ∀ methods,
          (handler policy methods origin .fresh).headers .allowOrigin =
            (hook policy origin .fresh).headers .allowOrigin ∧
          (handler policy methods origin .fresh).headers .allowCredentials =
            (hook policy origin .fresh).headers .allowCredentials := by
  obtain ⟨patterns, hpatterns, hany⟩ : ∃ patterns, compileOriginPatterns platform entries =
      .ok patterns ∧ ∀ string, (patterns.any fun test => test string) = true ↔
        string ∈ literals := compile_of_spells hspells
  have hisEmpty : entries.isEmpty = literals.isEmpty := by
    cases hspells <;> rfl
  have hhook : createCorsHook platform entries =
      .ok (cors platform patterns literals.isEmpty) := by
    rw [createCorsHook, hpatterns, hisEmpty]
    rfl
  have hhandler : createPreflightHandler platform entries =
      .ok (preflight (cors platform patterns literals.isEmpty)) := by
    rw [createPreflightHandler, hhook]
    rfl
  refine ⟨_, _, hhook, hhandler, fun policy origin => ⟨?_, fun methods => ?_⟩⟩
  · exact cors_grants hany hliterals hscheme policy origin
  · exact headers_preflight _ policy methods origin .fresh

/-- URLs with the scheme `https`, by what is before the next colon or slash. -/
def httpsHostname (text : JsString) : Option JsString :=
  if (js "https://").isPrefixOf text then
    some ((text.drop 8).takeWhile fun unit => unit != unitColon && unit != 0x2F)
  else none

theorem cors_grants_listed_shop :
    ∃ hook handler,
      createCorsHook ⟨fun _ => .error [], httpsHostname⟩ [js "shop\\.example"] = .ok hook ∧
      createPreflightHandler ⟨fun _ => .error [], httpsHostname⟩ [js "shop\\.example"] =
        .ok handler ∧
      ∀ policy origin,
        Grants ⟨fun _ => .error [], httpsHostname⟩ [js "shop.example"] policy origin
          (hook policy origin .fresh) ∧
        ∀ methods,
          (handler policy methods origin .fresh).headers .allowOrigin =
            (hook policy origin .fresh).headers .allowOrigin ∧
          (handler policy methods origin .fresh).headers .allowCredentials =
            (hook policy origin .fresh).headers .allowCredentials := by
  refine cors_grants_listed ⟨fun _ => .error [], httpsHostname⟩ [js "shop\\.example"]
    [js "shop.example"] (.cons (spells_escapeRegExp (js "shop.example")) .nil) ?_ ?_
  · intro text htext
    rw [List.mem_singleton.mp htext]
    exact ⟨by decide, by decide⟩
  · intro text hostname hhostname
    change (if (js "https://").isPrefixOf text then _ else none) = some hostname at hhostname
    split at hhostname
    · next hscheme =>
        obtain ⟨rest, rfl⟩ := List.isPrefixOf_iff_prefix.mp hscheme
        exact List.mem_append_left rest (by decide)
    · cases hhostname

end X402Facilitator.Cors
