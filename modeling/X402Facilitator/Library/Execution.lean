import Mathlib.Data.Nat.Notation
import Mathlib.Logic.Function.Basic
import Mathlib.Logic.Relation

/-!
# Executions of partial step functions

A system is a function `step : State → Action → Option State` that answers
`none` when the action is not enabled.  Every statement about runs is made over
`Reaches step meets`, the states reached by enabled actions that all satisfy
`meets` in the state they are taken in.  The unrestricted runs are the case
`meets = anyStep`.
-/

namespace X402Facilitator.Execution

variable {State Action : Type*}

/-- An enabled action whose pre-state satisfies `meets`. -/
def GuardedStep (step : State → Action → Option State)
    (meets : State → Action → Prop) (before after : State) : Prop :=
  ∃ action, meets before action ∧ step before action = some after

/-- States reached by finitely many guarded steps. -/
def Reaches (step : State → Action → Option State)
    (meets : State → Action → Prop) : State → State → Prop :=
  Relation.ReflTransGen (GuardedStep step meets)

def anyStep (_ : State) (_ : Action) : Prop := True

/-- Execute a list of actions, failing at the first one that is not enabled. -/
def run (step : State → Action → Option State) (start : State) :
    List Action → Option State
  | [] => some start
  | action :: actions => (step start action).bind fun next => run step next actions

variable {step : State → Action → Option State}
variable {meets : State → Action → Prop}

theorem Reaches.refl (start : State) : Reaches step meets start start :=
  Relation.ReflTransGen.refl

variable {finish middle start : State} {actions : List Action} {Obs : Type*}

theorem Reaches.trans (hfirst : Reaches step meets start middle)
    (hsecond : Reaches step meets middle finish) : Reaches step meets start finish :=
  Relation.ReflTransGen.trans hfirst hsecond

theorem Reaches.tail {action : Action} (hreach : Reaches step meets start middle)
    (hmeets : meets middle action) (hstep : step middle action = some finish) :
    Reaches step meets start finish :=
  Relation.ReflTransGen.tail hreach ⟨action, hmeets, hstep⟩

/-- A weaker guard lets the same runs through. -/
theorem Reaches.mono {meets' : State → Action → Prop} (hreach : Reaches step meets start finish)
    (hweaker : ∀ state action, meets state action → meets' state action) :
    Reaches step meets' start finish := by
  induction hreach with
  | refl => exact Reaches.refl start
  | tail _ hlast ih =>
      obtain ⟨action, hmeets, hnext⟩ := hlast
      exact ih.tail (hweaker _ action hmeets) hnext

/-- The invariant rule: what every guarded step preserves holds in every state
that a guarded run reaches. -/
theorem Reaches.preserves {inv : State → Prop} (hreach : Reaches step meets start finish)
    (hstep : ∀ before action after, inv before → meets before action →
      step before action = some after → inv after) (hstart : inv start) : inv finish := by
  induction hreach with
  | refl => exact hstart
  | tail _ hlast ih =>
      obtain ⟨action, hmeets, hnext⟩ := hlast
      exact hstep _ action _ ih hmeets hnext

@[simp]
theorem run_nil (start : State) : run step start [] = some start := rfl

theorem run_append (start : State) (first second : List Action) :
    run step start (first ++ second) =
      (run step start first).bind fun middle => run step middle second := by
  induction first generalizing start with
  | nil => simp
  | cons action actions ih =>
      simp only [List.cons_append, run, Option.bind_assoc]
      exact Option.bind_congr fun next _ => ih next

/-- A run whose actions meet the guard in any state. -/
theorem reaches_of_run_of_forall (hmeets : ∀ action ∈ actions, ∀ state, meets state action)
    (hrun : run step start actions = some finish) : Reaches step meets start finish := by
  induction actions generalizing start with
  | nil =>
      obtain rfl : start = finish := by simpa using hrun
      exact Reaches.refl start
  | cons action actions ih =>
      obtain ⟨next, hstep, hrest⟩ := Option.bind_eq_some_iff.mp hrun
      have hfirst := hmeets action List.mem_cons_self start
      have hothers := fun other hother => hmeets other (List.mem_cons_of_mem action hother)
      exact ((Reaches.refl start).tail hfirst hstep).trans (ih hothers hrest)

theorem reaches_of_run (hrun : run step start actions = some finish) :
    Reaches step anyStep start finish :=
  reaches_of_run_of_forall (fun _ _ _ => trivial) hrun

def guarded (step : State → Action → Option State) (meets : State → Action → Bool)
    (state : State) (action : Action) : Option State :=
  if meets state action then step state action else none

/-- A run of the guarded step is a run whose steps meet the guard. -/
theorem reaches_of_run_guarded {guard : State → Action → Bool}
    (hrun : run (guarded step guard) start actions = some finish) :
    Reaches step (fun state action => guard state action = true) start finish := by
  induction actions generalizing start with
  | nil =>
      obtain rfl : start = finish := by simpa using hrun
      exact Reaches.refl start
  | cons action actions ih =>
      obtain ⟨next, hstep, hrest⟩ := Option.bind_eq_some_iff.mp hrun
      rw [guarded] at hstep
      split at hstep
      · next hmeets => exact ((Reaches.refl start).tail hmeets hstep).trans (ih hrest)
      · cases hstep

/-- An evaluated observation of a run gives a reached state with that
observation. -/
theorem exists_reaches_of_run {observe : State → Obs} {value : Obs}
    (hrun : (run step start actions).map observe = some value) :
    ∃ finish, Reaches step anyStep start finish ∧ observe finish = value := by
  obtain ⟨finish, hfinish, hvalue⟩ := Option.map_eq_some_iff.mp hrun
  exact ⟨finish, reaches_of_run hfinish, hvalue⟩

/-- Two evaluated observations, of a run and of its continuation. -/
theorem exists_reaches_of_run_append {Obs' : Type*} {first second : List Action}
    {observe : State → Obs} {value : Obs} {observe' : State → Obs'} {value' : Obs'}
    (hfirst : (run step start first).map observe = some value)
    (hsecond : (run step start (first ++ second)).map observe' = some value') :
    ∃ middle finish, Reaches step anyStep start middle ∧
      Reaches step anyStep middle finish ∧
      observe middle = value ∧ observe' finish = value' := by
  obtain ⟨middle, hmiddle, hvalue⟩ := Option.map_eq_some_iff.mp hfirst
  rw [run_append, hmiddle, Option.bind_some] at hsecond
  obtain ⟨finish, hfinish, hvalue'⟩ := Option.map_eq_some_iff.mp hsecond
  exact ⟨middle, finish, reaches_of_run hmiddle, reaches_of_run hfinish,
    hvalue, hvalue'⟩

/-- One participant has moved: any other one is where it was. -/
theorem update_cases {Index Local : Type*} [DecidableEq Index] {locals : Index → Local}
    {index other : Index} {state found : Local}
    (hfound : Function.update locals index state other = found) :
    (other = index ∧ state = found) ∨ (other ≠ index ∧ locals other = found) := by
  by_cases hother : other = index
  · subst hother
    rw [Function.update_self] at hfound
    exact Or.inl ⟨rfl, hfound⟩
  · rw [Function.update_of_ne hother] at hfound
    exact Or.inr ⟨hother, hfound⟩

section Simulation

variable {Spec SpecAction : Type*}
variable {specStep : Spec → SpecAction → Option Spec}

/-- Forward simulation: every guarded concrete step is matched by finitely many
abstract steps. -/
theorem Reaches.simulates {rel : State → Spec → Prop} {start finish : State}
    {specStart : Spec} (hreach : Reaches step meets start finish)
    (hstep : ∀ before action after spec, rel before spec →
      meets before action → step before action = some after →
      ∃ spec', Reaches specStep anyStep spec spec' ∧ rel after spec')
    (hstart : rel start specStart) :
    ∃ specFinish, Reaches specStep anyStep specStart specFinish ∧
      rel finish specFinish := by
  induction hreach with
  | refl => exact ⟨specStart, Reaches.refl specStart, hstart⟩
  | tail _ hlast ih =>
      obtain ⟨spec, hspec, hrel⟩ := ih
      obtain ⟨action, hmeets, hnext⟩ := hlast
      obtain ⟨spec', hspec', hrel'⟩ := hstep _ action _ spec hrel hmeets hnext
      exact ⟨spec', hspec.trans hspec', hrel'⟩

end Simulation

end X402Facilitator.Execution

/-!
# Loops that break

The body of a `while (true)` gives the next state, or breaks with a result.  A loop returns when
some fuel is enough for it; it never does when an invariant keeps its body from breaking.
-/

namespace X402Facilitator.Loops

variable {State Result : Type*}

def loop (body : State → State ⊕ Result) : ℕ → State → Option Result
  | 0, _ => none
  | fuel + 1, s =>
      match body s with
      | .inl next => loop body fuel next
      | .inr result => some result

def Returns (body : State → State ⊕ Result) (s : State) (result : Result) : Prop :=
  ∃ fuel, loop body fuel s = some result

section Rules

variable {body : State → State ⊕ Result} {s next : State} {result other : Result}

theorem loop_succ_of_inl (hbody : body s = .inl next) (fuel : ℕ) :
    loop body (fuel + 1) s = loop body fuel next := by
  rw [loop, hbody]

theorem loop_succ_of_inr (hbody : body s = .inr result) (fuel : ℕ) :
    loop body (fuel + 1) s = some result := by
  rw [loop, hbody]

theorem Returns.of_inr (hbody : body s = .inr result) : Returns body s result :=
  ⟨1, loop_succ_of_inr hbody 0⟩

theorem Returns.of_inl (hbody : body s = .inl next) (hnext : Returns body next result) :
    Returns body s result := by
  obtain ⟨fuel, hfuel⟩ := hnext
  exact ⟨fuel + 1, (loop_succ_of_inl hbody fuel).trans hfuel⟩

/-- The rule for what holds of every result. -/
theorem Returns.preserves (inv : State → Prop) (post : Result → Prop)
    (hreturns : Returns body s result)
    (hstep : ∀ before after, inv before → body before = .inl after → inv after)
    (hbreak : ∀ before found, inv before → body before = .inr found → post found)
    (hstart : inv s) : post result := by
  obtain ⟨fuel, hfuel⟩ := hreturns
  induction fuel generalizing s with
  | zero => cases hfuel
  | succ fuel ih =>
      cases hbody : body s with
      | inl next =>
          rw [loop_succ_of_inl hbody] at hfuel
          exact ih (hstep s next hstart hbody) hfuel
      | inr found =>
          rw [loop_succ_of_inr hbody] at hfuel
          exact Option.some.inj hfuel ▸ hbreak s found hstart hbody

/-- A loop whose body never breaks returns nothing. -/
theorem not_returns (inv : State → Prop)
    (hstep : ∀ before, inv before → ∃ after, body before = .inl after ∧ inv after)
    (hstart : inv s) : ¬ Returns body s result := by
  rintro ⟨fuel, hfuel⟩
  induction fuel generalizing s with
  | zero => cases hfuel
  | succ fuel ih =>
      obtain ⟨next, hbody, hnext⟩ := hstep s hstart
      rw [loop_succ_of_inl hbody] at hfuel
      exact ih hnext hfuel

end Rules

end X402Facilitator.Loops
