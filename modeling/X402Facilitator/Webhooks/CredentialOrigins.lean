import X402Facilitator.Webhooks.Credentials

/-!
# Where credentials come from, and when

A delivery gets the agent of credentials that a load has yielded for its ref, and no older than
the lifetime.  While nothing is emptied, one load at a time is in flight for a ref.  The pool can
have an agent that no credentials of the cache are of: the one of a delivery that a rotation has
overtaken.
-/

namespace X402Facilitator.Mtls

open X402Facilitator.Execution

variable {options : Options}

section Steps

variable {s s' : Provider options} {action : Action} {index since load resolvedAt : ℕ}
variable {ref fingerprint : String} {mtls : MtlsConfig} {identity : Identity options}
variable {agent : Agent}

inductive Load.Advances (clock : ℕ) : Load → Load → Prop where
  | stays (load : Load) : Advances clock load load
  | starts (mtls : MtlsConfig) : Advances clock .notStarted (.resolving mtls)
  | settles (mtls : MtlsConfig) (resolved : Except String (Option Material)) :
      Advances clock (.resolving mtls) (.settled mtls resolved clock)
  | finishes (mtls : MtlsConfig) (resolved : Except String (Option Material)) (resolvedAt : ℕ) :
      Advances clock (.settled mtls resolved resolvedAt) (.finished mtls resolved resolvedAt)

variable {clock : ℕ} {next : Load} {loads : ℕ → Load}

theorem Load.Advances.ref_eq {load : Load} (hadvances : load.Advances clock next)
    (href : load.ref = some ref) : next.ref = some ref := by
  cases hadvances with
  | starts => cases href
  | _ => exact href

theorem Load.ref_of_pendingRef {load : Load} (hpending : load.pendingRef = some ref) :
    load.ref = some ref := by
  cases load with
  | finished mtls resolved resolvedAt => cases hpending
  | _ => exact hpending

theorem Load.Advances.outcome {load : Load} (hadvances : load.Advances clock next)
    {outcome : MtlsConfig × Except String (Option Material) × ℕ}
    (houtcome : load.outcome = some outcome) : next.outcome = some outcome := by
  cases hadvances with
  | starts => cases houtcome
  | settles => cases houtcome
  | _ => exact houtcome

theorem advances_update (hadvances : (loads index).Advances clock next) :
    ∀ load, (loads load).Advances clock (Function.update loads index next load) := by
  rw [Function.forall_update_iff loads (p := fun load next => (loads load).Advances clock next)]
  exact ⟨hadvances, fun load _ => .stays _⟩

/-- A load stays in flight when another one moves on, or when it goes on for the same ref. -/
theorem pendingRef_update
    (hsame : ∀ found, (loads index).pendingRef = some found → next.pendingRef = some found)
    (hpending : (loads load).pendingRef = some ref) :
    (Function.update loads index next load).pendingRef = some ref := by
  by_cases hload : load = index
  · rw [hload, Function.update_self]
    exact hsame ref (hload ▸ hpending)
  · rw [Function.update_of_ne hload]
    exact hpending

namespace Provider

def Grown (s s' : Provider options) : Prop :=
  ∀ load, (s.loads load).Advances s'.clock (s'.loads load)

def Carries (s : Provider options) (agent : Agent) (fingerprint : String) : Prop :=
  ∃ ref identity resolvedAt, s.ResolvedTo ref identity resolvedAt ∧
    identity.fingerprint = fingerprint ∧ agent.BuiltFrom identity

def Explains (s : Provider options) : Delivery options → Prop
  | .awaiting mtls _ load => (s.loads load).ref = some mtls.ref
  | .found mtls since identity => ∃ resolvedAt, s.ResolvedTo mtls.ref identity resolvedAt ∧
      since < resolvedAt + options.credentialTtlMs
  | .returned mtls _ identity agent => (∃ resolvedAt, s.ResolvedTo mtls.ref identity resolvedAt) ∧
      s.Carries agent identity.fingerprint
  | _ => True

variable (hgrown : s.Grown s')
include hgrown

theorem ResolvedTo.grown (hresolved : s.ResolvedTo ref identity resolvedAt) :
    s'.ResolvedTo ref identity resolvedAt := by
  obtain ⟨load, config, resolved, warning, houtcome, hrest⟩ := hresolved
  exact ⟨load, config, resolved, warning, (hgrown load).outcome houtcome, hrest⟩

theorem Carries.grown (hcarries : s.Carries agent fingerprint) : s'.Carries agent fingerprint := by
  obtain ⟨ref, identity, resolvedAt, hresolved, hrest⟩ := hcarries
  exact ⟨ref, identity, resolvedAt, hresolved.grown hgrown, hrest⟩

theorem Explains.grown {delivery : Delivery options} (hexplains : s.Explains delivery) :
    s'.Explains delivery := by
  cases delivery with
  | awaiting mtls since load => exact (hgrown load).ref_eq hexplains
  | found mtls since identity =>
      exact hexplains.imp fun resolvedAt h => ⟨h.1.grown hgrown, h.2⟩
  | returned mtls since identity agent =>
      exact ⟨hexplains.1.imp fun resolvedAt h => h.grown hgrown, hexplains.2.grown hgrown⟩
  | _ => trivial

end Provider

theorem Change.grown (hchange : Change s action s') : s.Grown s' := by
  cases hchange with
  | started hload hget => exact advances_update (hload ▸ .starts _)
  | rejected hload | stored hload hok hrotated => exact advances_update (hload ▸ .settles _ _)
  | left hload => exact advances_update (hload ▸ .finishes _ _ _)
  | _ => exact fun load => .stays _

structure Sound (s : Provider options) : Prop where
  cached : ∀ ref entry, s.cache.get ref = some entry →
    ∃ resolvedAt, s.ResolvedTo ref entry.identity resolvedAt ∧
      entry.expiresAt = resolvedAt + options.credentialTtlMs
  flying : ∀ ref load, s.inFlight.get ref = some load → (s.loads load).pendingRef = some ref
  pooled : ∀ fingerprint agent, s.agents.get fingerprint = some agent → s.Carries agent fingerprint
  explained : ∀ index, s.Explains (s.deliveries index)

theorem Sound.init : Sound (Provider.init : Provider options) where
  cached := fun ref entry h => by cases h
  flying := fun ref load h => by cases h
  pooled := fun fingerprint agent h => by cases h
  explained := fun index => trivial

def Provider.Fresh (s : Provider options) : Delivery options → Prop
  | .awaiting _ since load =>
      match s.loads load with
      | .notStarted => False
      | .resolving _ => since ≤ s.clock
      | .settled _ _ resolvedAt | .finished _ _ resolvedAt =>
          since < resolvedAt + options.credentialTtlMs
  | .returned mtls since identity _ => ∃ resolvedAt, s.ResolvedTo mtls.ref identity resolvedAt ∧
      since < resolvedAt + options.credentialTtlMs
  | _ => True

/-- The promise was fulfilled by a load of the ref of the delivery, and with fresh credentials. -/
theorem Sound.due (hsound : Sound s) (hdue : s.Due index mtls since identity) :
    ∃ resolvedAt, s.ResolvedTo mtls.ref identity resolvedAt ∧
      (s.Fresh (s.deliveries index) → since < resolvedAt + options.credentialTtlMs) := by
  have hexplained := hsound.explained index
  cases hdue with
  | found hdelivery =>
      rw [hdelivery] at hexplained
      exact hexplained.imp fun resolvedAt h => ⟨h.1, fun _ => h.2⟩
  | @loaded load resolvedAt config resolved warning hdelivery hload hok =>
      rw [hdelivery, Provider.Explains, hload] at hexplained
      refine ⟨resolvedAt, ⟨load, config, resolved, warning, by rw [hload]; rfl,
        Option.some.inj hexplained, hok⟩, fun hfresh => ?_⟩
      rw [hdelivery, Provider.Fresh, hload] at hfresh
      exact hfresh

theorem Sound.carries (hsound : Sound s) {made : ℕ} {agents : InsertionMap String Agent}
    (hdue : s.Due index mtls since identity) (hpooled : s.Pooled identity agents made agent) :
    s.Carries agent identity.fingerprint := by
  rcases hpooled.built with hold | hbuilt
  · exact hsound.pooled _ _ hold
  · obtain ⟨resolvedAt, hresolved, -⟩ := hsound.due hdue
    exact ⟨mtls.ref, identity, resolvedAt, hresolved, rfl, hbuilt⟩

theorem Sound.change (hsound : Sound s) (hchange : Change s action s') : Sound s' := by
  have hgrown := hchange.grown
  have hcached : ∀ ref entry, s.cache.get ref = some entry → ∃ resolvedAt,
      s'.ResolvedTo ref entry.identity resolvedAt ∧
        entry.expiresAt = resolvedAt + options.credentialTtlMs := fun ref entry h =>
    (hsound.cached ref entry h).imp fun resolvedAt h => ⟨h.1.grown hgrown, h.2⟩
  have hflying := hsound.flying
  have hpool : ∀ fingerprint agent, s.agents.get fingerprint = some agent →
      s'.Carries agent fingerprint := fun fingerprint agent h =>
    (hsound.pooled fingerprint agent h).grown hgrown
  have hexplained : ∀ index, s'.Explains (s.deliveries index) := fun index =>
    (hsound.explained index).grown hgrown
  have hmoved : ∀ index delivery, s'.Explains delivery → ∀ other,
      s'.Explains (Function.update s.deliveries index delivery other) := by
    intro index delivery hdelivery
    rw [Function.forall_update_iff s.deliveries (p := fun _ => s'.Explains)]
    exact ⟨hdelivery, fun other _ => hexplained other⟩
  cases hchange with
  | refused index mtls now error => exact ⟨hcached, hflying, hpool, hmoved _ _ trivial⟩
  | @cached index now mtls entry hget hfresh =>
      refine ⟨hcached, hflying, hpool, hmoved _ _ ?_⟩
      obtain ⟨resolvedAt, hresolved, hexpires⟩ := hcached mtls.ref entry hget
      exact ⟨resolvedAt, hresolved, hexpires ▸ hfresh⟩
  | joined hget =>
      exact ⟨hcached, hflying, hpool, hmoved _ _ (Load.ref_of_pendingRef (hflying _ _ hget))⟩
  | @started index now mtls hload hget =>
      have hstarted : (Function.update s.loads index (.resolving mtls) index).pendingRef =
          some mtls.ref := by
        rw [Function.update_self]
        rfl
      refine ⟨hcached, fun ref load hget => ?_, hpool,
        hmoved _ _ (Load.ref_of_pendingRef hstarted)⟩
      rcases InsertionMap.get_set_cases hget with ⟨rfl, rfl⟩ | ⟨-, hold⟩
      · exact hstarted
      · exact pendingRef_update (by simp [hload, Load.pendingRef]) (hflying ref load hold)
  | rejected hload =>
      exact ⟨hcached,
        fun ref load h => pendingRef_update (by simp [hload, Load.pendingRef]) (hflying ref load h),
        hpool, hexplained⟩
  | @stored index now mtls resolved identity warning agents closed hload hok hrotated =>
      refine ⟨fun ref entry hentry => ?_,
        fun ref load h => pendingRef_update (by simp [hload, Load.pendingRef]) (hflying ref load h),
        fun fingerprint agent h => hpool _ _ (hrotated.kept _ _ h), hexplained⟩
      rcases InsertionMap.get_set_cases hentry with ⟨rfl, rfl⟩ | ⟨-, hold⟩
      · refine ⟨now, ⟨index, mtls, resolved, warning, ?_, rfl, hok⟩, rfl⟩
        change (Function.update s.loads index _ index).outcome = _
        rw [Function.update_self]
        rfl
      · exact hcached ref entry hold
  | @left index resolvedAt mtls resolved hload =>
      refine ⟨hcached, fun ref load hget => ?_, hpool, hexplained⟩
      change (InsertionMap.erase _ _).get ref = _ at hget
      rw [InsertionMap.get_erase, Option.ite_none_left_eq_some] at hget
      have hpending := hflying ref load hget.2
      change (Function.update s.loads index _ load).pendingRef = _
      rw [Function.update_of_ne]
      · exact hpending
      · rintro rfl
        rw [hload] at hpending
        exact hget.1 (Option.some.inj hpending).symm
  | @returned index since made mtls identity agents agent hdue hpooled =>
      have hcarries := (hsound.carries hdue hpooled).grown hgrown
      have hresolved := (hsound.due hdue).imp fun resolvedAt h => h.1.grown hgrown
      refine ⟨hcached, hflying, fun fingerprint other hother => ?_,
        hmoved _ _ ⟨hresolved, hcarries⟩⟩
      change agents.get fingerprint = some other at hother
      rw [hpooled.get] at hother
      split at hother
      · next hfingerprint =>
          cases hother
          exact hfingerprint ▸ hcarries
      · exact hpool _ _ hother
  | threw error hnot => exact ⟨hcached, hflying, hpool, hmoved _ _ trivial⟩
  | closed =>
      have hempty : ∀ {Value : Type} (key : String) (value : Value),
          (InsertionMap.empty : InsertionMap String Value).get key ≠ some value := by simp
      exact ⟨fun _ _ h => absurd h (hempty _ _), fun _ _ h => absurd h (hempty _ _),
        fun _ _ h => absurd h (hempty _ _), hexplained⟩

theorem sound_of_reaches {meets : Provider options → Action → Prop}
    (hreach : Reaches step meets (.init : Provider options) s) : Sound s :=
  hreach.preserves (fun _ _ _ h _ hstep => h.change (change_of_step hstep)) .init

/-- The digests of the credentials that were loaded do not collide, and their certificates and keys
do not have the separator. -/
structure Provider.Distinguished (s : Provider options) : Prop where
  separate : ∀ ref identity resolvedAt ref' identity' resolvedAt',
    s.ResolvedTo ref identity resolvedAt → s.ResolvedTo ref' identity' resolvedAt' →
      identity.fingerprint = identity'.fingerprint → identity.text = identity'.text
  plain : ∀ ref identity resolvedAt, s.ResolvedTo ref identity resolvedAt →
    '\x00' ∉ identity.credentials.cert.toList ∧ '\x00' ∉ identity.credentials.key.toList

theorem digestText_injective {cert key cert' key' : String} {ca ca' : Option String}
    (hplain : '\x00' ∉ cert.toList ∧ '\x00' ∉ key.toList)
    (hplain' : '\x00' ∉ cert'.toList ∧ '\x00' ∉ key'.toList)
    (heq : digestText cert key ca = digestText cert' key' ca') :
    cert = cert' ∧ key = key' ∧ ca.getD "" = ca'.getD "" := by
  have hlist := congrArg String.toList heq
  simp only [digestText, String.toList_append, List.append_assoc] at hlist
  obtain ⟨hcert, hrest⟩ := Text.append_cons_injective hplain.1 hplain'.1 hlist
  obtain ⟨hkey, hca⟩ := Text.append_cons_injective hplain.2 hplain'.2 hrest
  exact ⟨String.toList_inj.mp hcert, String.toList_inj.mp hkey, String.toList_inj.mp hca⟩

theorem getD_present (text : Option String) : (present text).getD "" = text.getD "" := by
  cases text with
  | none => rfl
  | some text => by_cases hempty : text = "" <;> simp [present, Option.filter, hempty]

/-- The ref of the block was resolved to the certificate and the key, with the CA of the block that
the load was started with, or else the one that was resolved. -/
def Provider.Yields (s : Provider options) (ref cert key : String) (ca : Option String) : Prop :=
  ∃ load config material resolvedAt,
    (s.loads load).outcome = some (config, .ok (some material), resolvedAt) ∧
      config.ref = ref ∧ material.cert = some cert ∧ material.key = some key ∧
        ca.getD "" = (config.ca.or material.ca).getD ""

theorem Provider.ResolvedTo.yields (hresolved : s.ResolvedTo ref identity resolvedAt) :
    s.Yields ref identity.credentials.cert identity.credentials.key identity.credentials.ca := by
  obtain ⟨load, config, resolved, warning, houtcome, href, hok⟩ := hresolved
  cases resolved with
  | error message => cases hok
  | ok found =>
      rw [loadCredentials] at hok
      split at hok
      · next cert key hcert hkey =>
          cases found with
          | none => cases hcert
          | some material =>
              cases hdescribe : describeCertificate options cert resolvedAt with
              | error error =>
                  rw [hdescribe] at hok
                  cases hok
              | ok info =>
                  rw [hdescribe] at hok
                  cases hok
                  exact ⟨load, config, material, resolvedAt, houtcome, href,
                    (Option.filter_eq_some_iff.mp hcert).1, (Option.filter_eq_some_iff.mp hkey).1,
                    rfl⟩
      · cases hok

/-- The agent of a delivery presents the credentials of its own ref, whoever shares the pool. -/
theorem agent_presents_own_material {meets : Provider options → Action → Prop}
    (hreach : Reaches step meets .init s) (hdistinguished : s.Distinguished)
    (hreturned : s.deliveries index = .returned mtls since identity agent) :
    s.Yields mtls.ref agent.cert agent.key agent.ca := by
  have hexplained := (sound_of_reaches hreach).explained index
  rw [hreturned] at hexplained
  obtain ⟨⟨resolvedAt, hresolved⟩, ref, other, otherAt, hother, hfingerprint, hbuilt⟩ := hexplained
  have htext := hdistinguished.separate _ _ _ _ _ _ hother hresolved hfingerprint
  obtain ⟨hcert, hkey, hca⟩ := digestText_injective (hdistinguished.plain _ _ _ hother)
    (hdistinguished.plain _ _ _ hresolved) htext
  have hyields := hresolved.yields
  rw [Provider.Yields, ← hca, ← getD_present] at hyields
  rw [hbuilt.cert, hbuilt.key, hbuilt.ca, hcert, hkey]
  exact hyields

theorem exists_oneDelivery : ∃ (s : Provider oneCertificate) (mtls : MtlsConfig)
    (identity : Identity oneCertificate) (agent : Agent), run step .init oneDelivery = some s ∧
      s.deliveries 0 = .returned mtls 0 identity agent ∧ ∀ load outcome,
        (s.loads load).outcome = some outcome →
          outcome = (⟨"merchant", none, none⟩, .ok (some ⟨some "cert", some "key", none⟩), 5) := by
  refine ⟨_, _, _, _, rfl, rfl, fun load outcome houtcome => ?_⟩
  cases load with
  | zero => exact (Option.some.inj houtcome).symm
  | succ load => cases houtcome

theorem agent_presents_own_material_oneDelivery :
    ∃ (s : Provider oneCertificate) (mtls : MtlsConfig) (identity : Identity oneCertificate)
      (agent : Agent), s.deliveries 0 = .returned mtls 0 identity agent ∧
        s.Yields mtls.ref agent.cert agent.key agent.ca := by
  obtain ⟨s, mtls, identity, agent, hrun, hreturned, hloads⟩ := exists_oneDelivery
  have hdistinguished : s.Distinguished :=
    { separate := by
        rintro ref identity resolvedAt ref' identity' resolvedAt'
          ⟨load, config, resolved, warning, houtcome, -, hok⟩
          ⟨other, config', resolved', warning', houtcome', -, hok'⟩ -
        cases hloads load _ houtcome
        cases hloads other _ houtcome'
        cases hok.symm.trans hok'
        rfl
      plain := by
        rintro ref identity resolvedAt ⟨load, config, resolved, warning, houtcome, -, hok⟩
        cases hloads load _ houtcome
        cases hok
        decide }
  exact ⟨s, mtls, identity, agent, hreturned,
    agent_presents_own_material (reaches_of_run hrun) hdistinguished hreturned⟩

/-- The clock does not go back, and a load is settled for less than the lifetime of what it has
stored before the callback of its `finally` runs. -/
def Timely (s : Provider options) : Action → Prop
  | .getAgent _ _ now => s.clock ≤ now ∧ ∀ load mtls resolved resolvedAt,
      s.loads load = .settled mtls resolved resolvedAt →
        now < resolvedAt + options.credentialTtlMs
  | .resolve _ _ now => s.clock ≤ now
  | _ => True

theorem Change.clock_le (hchange : Change s action s') (htimely : Timely s action) :
    s.clock ≤ s'.clock := by
  cases hchange with
  | rejected | stored => exact htimely
  | left | returned | threw | closed => exact le_refl _
  | _ => exact htimely.1

/-- What a delivery has or will get stays as fresh. -/
theorem Provider.Fresh.change (httl : 0 < options.credentialTtlMs) (hchange : Change s action s')
    (htimely : Timely s action) {delivery : Delivery options} (hfresh : s.Fresh delivery) :
    s'.Fresh delivery := by
  have hgrown := hchange.grown
  cases delivery with
  | awaiting mtls since load =>
      have hadvances := hgrown load
      have hclock := hchange.clock_le htimely
      rw [Fresh] at hfresh ⊢
      generalize s.loads load = before at hadvances hfresh
      generalize s'.loads load = after at hadvances
      cases hadvances with
      | starts mtls => exact hfresh.elim
      | settles mtls resolved =>
          calc
            since ≤ s.clock := hfresh
            _ ≤ s'.clock := hclock
            _ < s'.clock + options.credentialTtlMs := Nat.lt_add_of_pos_right httl
      | finishes mtls resolved resolvedAt => exact hfresh
      | stays =>
          cases before with
          | resolving mtls => exact Nat.le_trans hfresh hclock
          | _ => exact hfresh
  | returned mtls since identity agent =>
      exact hfresh.imp fun resolvedAt h => ⟨h.1.grown hgrown, h.2⟩
  | _ => trivial

theorem fresh_change (httl : 0 < options.credentialTtlMs) (hsound : Sound s)
    (hchange : Change s action s') (htimely : Timely s action)
    (hfresh : ∀ index, s.Fresh (s.deliveries index)) (index : ℕ) :
    s'.Fresh (s'.deliveries index) := by
  have hold : ∀ index, s'.Fresh (s.deliveries index) := fun index =>
    (hfresh index).change httl hchange htimely
  have hmoved : ∀ moved delivery, s'.Fresh delivery →
      s'.Fresh (Function.update s.deliveries moved delivery index) := by
    intro moved delivery hdelivery
    revert index
    rw [Function.forall_update_iff s.deliveries (p := fun _ => s'.Fresh)]
    exact ⟨hdelivery, fun other _ => hold other⟩
  have hgrown := hchange.grown
  cases hchange with
  | refused | cached | threw => exact hmoved _ _ trivial
  | @joined moved now load mtls hget =>
      apply hmoved
      have hpending := hsound.flying mtls.ref load hget
      change match s.loads load with
        | .notStarted => False
        | .resolving _ => now ≤ now
        | .settled _ _ resolvedAt | .finished _ _ resolvedAt =>
            now < resolvedAt + options.credentialTtlMs
      split
      · next hload => simp [hload, Load.pendingRef] at hpending
      · exact le_refl now
      · next config resolved resolvedAt hload =>
          exact htimely.2 load config resolved resolvedAt hload
      · next hload => simp [hload, Load.pendingRef] at hpending
  | @started moved now mtls hload hget =>
      apply hmoved
      change match Function.update s.loads moved (.resolving mtls) moved with
        | .notStarted => False
        | .resolving _ => now ≤ now
        | .settled _ _ resolvedAt | .finished _ _ resolvedAt =>
            now < resolvedAt + options.credentialTtlMs
      rw [Function.update_self]
  | rejected | stored | left | closed => exact hold index
  | returned hdue hpooled =>
      apply hmoved
      exact (hsound.due hdue).imp fun resolvedAt h => ⟨h.1.grown hgrown, h.2 (hfresh _)⟩

/-- A delivery never gets credentials that were resolved a lifetime or more before it was made. -/
theorem returned_within_ttl (httl : 0 < options.credentialTtlMs)
    (hreach : Reaches step Timely .init s)
    (hreturned : s.deliveries index = .returned mtls since identity agent) :
    ∃ resolvedAt, s.ResolvedTo mtls.ref identity resolvedAt ∧
      since < resolvedAt + options.credentialTtlMs := by
  have hkeeps : Sound s ∧ ∀ index, s.Fresh (s.deliveries index) := by
    apply hreach.preserves _ ⟨.init, fun index => trivial⟩
    rintro before action after ⟨hsound, hfresh⟩ htimely hstep
    have hchange := change_of_step hstep
    exact ⟨hsound.change hchange, fresh_change httl hsound hchange htimely hfresh⟩
  have hfresh := hkeeps.2 index
  rw [hreturned] at hfresh
  exact hfresh

theorem returned_within_ttl_oneDelivery :
    ∃ (s : Provider oneCertificate) (mtls : MtlsConfig) (identity : Identity oneCertificate)
      (agent : Agent), s.deliveries 0 = .returned mtls 0 identity agent ∧
        ∃ resolvedAt, s.ResolvedTo mtls.ref identity resolvedAt ∧ 0 < resolvedAt + 10 := by
  obtain ⟨s, mtls, identity, agent, hrun, hreturned, -⟩ := exists_oneDelivery
  obtain ⟨asked, hasked, hresolves⟩ := Option.bind_eq_some_iff.mp hrun
  obtain ⟨resolved, hresolved, hsettles⟩ := Option.bind_eq_some_iff.mp hresolves
  obtain ⟨settled, hsettled, hresumes⟩ := Option.bind_eq_some_iff.mp hsettles
  obtain ⟨finish, hlast, hfinish⟩ := Option.bind_eq_some_iff.mp hresumes
  obtain rfl := Option.some.inj hfinish
  have hclock : asked.clock = 0 := by
    cases hasked
    rfl
  have hresolves : Timely asked (.resolve 0 (.ok (some ⟨some "cert", some "key", none⟩)) 5) :=
    hclock.trans_le (Nat.zero_le 5)
  have hsettles : Timely resolved (.settle 0) := trivial
  have hresumes : Timely settled (.resume 0) := trivial
  have hreach := ((((Reaches.refl _).tail ⟨le_refl 0, fun _ _ _ _ h => by cases h⟩ hasked).tail
    hresolves hresolved).tail hsettles hsettled).tail hresumes hlast
  exact ⟨finish, mtls, identity, agent, hreturned,
    returned_within_ttl (by decide) hreach hreturned⟩

def Provider.Mapped (s : Provider options) : Prop :=
  ∀ load ref, (s.loads load).pendingRef = some ref → s.inFlight.get ref = some load

theorem Provider.Mapped.change (hmapped : s.Mapped) (hchange : Change s action s')
    (hopen : action ≠ .closeAll) : s'.Mapped := by
  intro load ref hpending
  have hmoved : ∀ index next, Function.update s.loads index next = s'.loads →
      next.pendingRef = (s.loads index).pendingRef → s.inFlight.get ref = some load := by
    intro index next hloads hsame
    apply hmapped
    rw [← hloads] at hpending
    by_cases hload : load = index
    · rw [hload, Function.update_self, hsame] at hpending
      exact hload ▸ hpending
    · rwa [Function.update_of_ne hload] at hpending
  cases hchange with
  | @started index now mtls hload hget =>
      change (Function.update s.loads index _ load).pendingRef = some ref at hpending
      by_cases hself : load = index
      · rw [hself, Function.update_self] at hpending
        obtain rfl : mtls.ref = ref := Option.some.inj hpending
        exact hself ▸ InsertionMap.get_set_self _ _ _
      · rw [Function.update_of_ne hself] at hpending
        have hold := hmapped load ref hpending
        have hne : ref ≠ mtls.ref := fun heq => by simp [heq, hget] at hold
        exact (InsertionMap.get_set_of_ne _ _ hne).trans hold
  | rejected hload | stored hload hok hrotated => exact hmoved _ _ rfl (by rw [hload]; rfl)
  | @left index resolvedAt mtls resolved hload =>
      change (Function.update s.loads index _ load).pendingRef = some ref at hpending
      by_cases hself : load = index
      · rw [hself, Function.update_self] at hpending
        cases hpending
      · rw [Function.update_of_ne hself] at hpending
        have hold := hmapped load ref hpending
        have hne : ref ≠ mtls.ref := by
          rintro rfl
          have hleft := hmapped index mtls.ref (by rw [hload]; rfl)
          exact hself (Option.some.inj (hold.symm.trans hleft))
        exact (InsertionMap.get_erase_of_ne _ hne).trans hold
  | closed => exact absurd rfl hopen
  | _ => exact hmapped load ref hpending

/-- Until the provider is closed, a ref has at most one resolution in flight. -/
theorem one_resolution_in_flight {other : ℕ}
    (hreach : Reaches step (fun _ action => action ≠ .closeAll)
      (.init : Provider options) s)
    (hload : (s.loads load).pendingRef = some ref)
    (hother : (s.loads other).pendingRef = some ref) : load = other := by
  have hmapped : s.Mapped :=
    hreach.preserves (fun _ _ _ h hopen hstep => h.change (change_of_step hstep) hopen)
      fun load ref hpending => by cases hpending
  have hfirst := hmapped load ref hload
  have hsecond := hmapped other ref hother
  exact Option.some.inj (hfirst.symm.trans hsecond)

theorem one_resolution_in_flight_oneDelivery : ∃ s : Provider oneCertificate,
    run step .init (oneDelivery.take 1) = some s ∧ (s.loads 0).pendingRef = some "merchant" ∧
      ∀ other, (s.loads other).pendingRef = some "merchant" → 0 = other := by
  have hrun : ∃ s : Provider oneCertificate, run step .init (oneDelivery.take 1) = some s ∧
      (s.loads 0).pendingRef = some "merchant" := ⟨_, rfl, rfl⟩
  obtain ⟨s, hs, hpending⟩ := hrun
  have hreach : Reaches step (fun _ action => action ≠ .closeAll) .init s :=
    reaches_of_run_of_forall (by simp [oneDelivery]) hs
  exact ⟨s, hs, hpending, fun other hother => one_resolution_in_flight hreach hpending hother⟩

/-- Credentials with this fingerprint are in the cache. -/
def Provider.Cached (s : Provider options) (fingerprint : String) : Prop :=
  ∃ ref entry, s.cache.get ref = some entry ∧ entry.identity.fingerprint = fingerprint

def Provider.NoOrphans (s : Provider options) : Prop :=
  ∀ fingerprint agent, s.agents.get fingerprint = some agent → s.Cached fingerprint

/-- No delivery takes an agent for credentials that a rotation or `closeAll` has overtaken. -/
def Current (s : Provider options) : Action → Prop
  | .resume index => ∀ mtls since identity, s.Due index mtls since identity →
      s.Cached identity.fingerprint
  | _ => True

theorem Provider.NoOrphans.change (hkept : s.NoOrphans) (hchange : Change s action s')
    (hcurrent : Current s action) : s'.NoOrphans := by
  intro fingerprint agent hagent
  cases hchange with
  | @stored index now mtls resolved identity warning agents closed hload hok hrotated =>
      obtain ⟨ref, entry, hentry, hfingerprint⟩ := hkept _ _ (hrotated.kept _ _ hagent)
      by_cases href : ref = mtls.ref
      · refine ⟨mtls.ref, _, InsertionMap.get_set_self _ _ _, ?_⟩
        by_contra hne
        subst href hfingerprint
        have hgone := hrotated.gone entry hentry (Ne.symm hne)
        exact absurd (hagent.symm.trans hgone) (by simp)
      · exact ⟨ref, entry, (InsertionMap.get_set_of_ne _ _ href).trans hentry, hfingerprint⟩
  | @returned index since made mtls identity agents taken hdue hpooled =>
      change agents.get fingerprint = some agent at hagent
      rw [hpooled.get] at hagent
      split at hagent
      · next hself => exact hself ▸ hcurrent mtls since identity hdue
      · exact hkept _ _ hagent
  | closed => exact absurd hagent (by simp)
  | _ => exact hkept _ _ hagent

theorem Provider.Due.unique {since' : ℕ} {mtls' : MtlsConfig} {identity' : Identity options}
    (hdue : s.Due index mtls since identity) (hother : s.Due index mtls' since' identity') :
    identity = identity' := by
  cases hdue with
  | found hfound =>
      cases hother with
      | found hdelivery =>
          rw [hfound] at hdelivery
          cases hdelivery
          rfl
      | loaded hdelivery hload hok => cases hfound.symm.trans hdelivery
  | loaded hawaiting hfinished hyields =>
      cases hother with
      | found hdelivery => cases hawaiting.symm.trans hdelivery
      | loaded hdelivery hload hok =>
          cases hawaiting.symm.trans hdelivery
          cases hfinished.symm.trans hload
          cases hyields.symm.trans hok
          rfl

/-- While no delivery is overtaken there are no more agents than cached refs, and it is exactly a
delivery that is overtaken that leaves an agent whose credentials no ref has. -/
theorem orphan_iff_overtaken (hreach : Reaches step Current (.init : Provider options) s)
    (hstep : step s action = some s') :
    s.agents.entries.length ≤ s.cache.entries.length ∧ (s'.NoOrphans ↔ Current s action) := by
  have hkept : s.NoOrphans :=
    hreach.preserves (fun _ _ _ h hcurrent hstep => h.change (change_of_step hstep) hcurrent)
      fun fingerprint agent h => absurd h (by simp [Provider.init])
  have hchange := change_of_step hstep
  refine ⟨?_, fun hafter => ?_, hkept.change hchange⟩
  · have hsubset : s.agents.entries.map Prod.fst ⊆
        s.cache.entries.map fun entry => entry.2.identity.fingerprint := by
      intro fingerprint hmem
      obtain ⟨⟨_, agent⟩, hagent, rfl⟩ := List.mem_map.mp hmem
      obtain ⟨ref, entry, hentry, hfingerprint⟩ :=
        hkept _ agent (InsertionMap.get_of_mem s.agents hagent)
      exact List.mem_map.mpr ⟨(ref, entry), InsertionMap.mem_of_lookup hentry, hfingerprint⟩
    simpa using s.agents.keysNodup.length_le_of_subset hsubset
  · cases hchange with
    | @returned index since made mtls identity agents agent hdue hpooled =>
        intro mtls' since' identity' hother
        obtain rfl := hdue.unique hother
        exact hafter identity.fingerprint agent ((hpooled.get _).trans (if_pos rfl))
    | threw error hnot => exact fun mtls since identity hdue => absurd hdue (hnot _ _ _)
    | _ => trivial

theorem orphan_iff_overtaken_oneDelivery : ∃ s s' : Provider oneCertificate,
    run step .init (oneDelivery.take 3) = some s ∧ step s (.resume 0) = some s' ∧
      s.agents.entries.length ≤ s.cache.entries.length ∧
        (s'.NoOrphans ↔ Current s (.resume 0)) := by
  have hrun : ∃ s s' : Provider oneCertificate,
      run step .init (oneDelivery.take 3) = some s ∧ step s (.resume 0) = some s' :=
    ⟨_, _, rfl, rfl⟩
  obtain ⟨s, s', hs, hstep⟩ := hrun
  have hreach : Reaches step Current .init s :=
    reaches_of_run_of_forall (by simp [oneDelivery, Current]) hs
  exact ⟨s, s', hs, hstep, orphan_iff_overtaken hreach hstep⟩

end Steps

end X402Facilitator.Mtls
