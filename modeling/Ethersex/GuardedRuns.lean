import Mathlib.Tactic.Common

/-!
# Runs of a partial transition function

A run executes a list of actions one after the other and has no result as soon
as one of them has none.  A guard restricts the action allowed in each state;
an invariant that every guarded step preserves holds at the end of every
guarded run, and so in every state the run passes through.
-/

namespace GuardedRuns

variable {State Action : Type*} (step : State → Action → Option State)

def run : State → List Action → Option State
  | state, [] => some state
  | state, action :: actions =>
      (step state action).bind fun next => run next actions

/-- Every action of the run meets the guard in the state it is executed in. -/
def Guarded (guard : State → Action → Prop) : State → List Action → Prop
  | _, [] => True
  | state, action :: actions =>
      guard state action ∧ ∀ next, step state action = some next →
        Guarded guard next actions

variable {step} {guard : State → Action → Prop}

theorem run_append (state : State) (first second : List Action) :
    run step state (first ++ second) =
      (run step state first).bind fun middle => run step middle second := by
  induction first generalizing state with
  | nil => rfl
  | cons action first ih =>
      rw [List.cons_append, run, run, Option.bind_assoc]
      congr 1
      funext next
      exact ih next

/-- A transition function that always has a result is folded over the actions. -/
theorem run_total (total : State → Action → State) (state : State) (actions : List Action) :
    run (fun state action => some (total state action)) state actions =
      some (actions.foldl total state) := by
  induction actions generalizing state with
  | nil => rfl
  | cons action actions ih => exact ih (total state action)

theorem Guarded.cons {state next : State} {action : Action} {actions : List Action}
    (stepped : step state action = some next) (allowed : guard state action)
    (rest : Guarded step guard next actions) : Guarded step guard state (action :: actions) := by
  refine ⟨allowed, fun other stepped' => ?_⟩
  cases Option.some.inj (stepped.symm.trans stepped')
  exact rest

/-- A guarded run is guarded from every state on that it passes through. -/
theorem Guarded.drop {state middle : State} {first second : List Action}
    (guarded : Guarded step guard state (first ++ second))
    (reached : run step state first = some middle) : Guarded step guard middle second := by
  induction first generalizing state with
  | nil =>
      cases Option.some.inj reached
      exact guarded
  | cons action first ih =>
      rw [run, Option.bind_eq_some_iff] at reached
      obtain ⟨next, stepped, rest⟩ := reached
      exact ih (guarded.2 next stepped) rest

theorem Guarded.of_append {state : State} {first second : List Action}
    (guarded : Guarded step guard state (first ++ second)) :
    Guarded step guard state first := by
  induction first generalizing state with
  | nil => trivial
  | cons action first ih =>
      exact ⟨guarded.1, fun next stepped => ih (guarded.2 next stepped)⟩

/-- Without a guard every run is guarded. -/
theorem guarded_true (state : State) (actions : List Action) :
    Guarded step (fun _ _ => True) state actions := by
  induction actions generalizing state with
  | nil => trivial
  | cons action actions ih => exact ⟨trivial, fun next _ => ih next⟩

instance decidableGuarded [∀ state action, Decidable (guard state action)] :
    ∀ state actions, Decidable (Guarded step guard state actions)
  | _, [] => isTrue trivial
  | state, action :: actions =>
      match stepped : step state action with
      | none => decidable_of_iff (guard state action)
          ⟨fun allowed => ⟨allowed, fun next reached => by rw [stepped] at reached; cases reached⟩,
            And.left⟩
      | some next =>
          haveI := decidableGuarded next actions
          decidable_of_iff (guard state action ∧ Guarded step guard next actions)
            ⟨fun allowed => ⟨allowed.1, fun other reached => by
                cases Option.some.inj (stepped.symm.trans reached)
                exact allowed.2⟩,
              fun guarded => ⟨guarded.1, guarded.2 next stepped⟩⟩

/-- The invariant rule for guarded runs. -/
theorem Guarded.invariant {invariant : State → Prop}
    (preserved : ∀ state action next, invariant state → guard state action →
      step state action = some next → invariant next)
    {state last : State} {actions : List Action}
    (guarded : Guarded step guard state actions) (initial : invariant state)
    (reached : run step state actions = some last) : invariant last := by
  induction actions generalizing state with
  | nil =>
      cases Option.some.inj reached
      exact initial
  | cons action actions ih =>
      rw [run, Option.bind_eq_some_iff] at reached
      obtain ⟨next, stepped, rest⟩ := reached
      exact ih (guarded.2 next stepped)
        (preserved state action next initial guarded.1 stepped) rest

/-- When every guarded step has a result that satisfies the invariant, so has
every guarded run. -/
theorem Guarded.exists_run {invariant : State → Prop}
    (progress : ∀ state action, invariant state → guard state action →
      ∃ next, step state action = some next ∧ invariant next)
    {state : State} {actions : List Action}
    (guarded : Guarded step guard state actions) (initial : invariant state) :
    ∃ last, run step state actions = some last ∧ invariant last := by
  induction actions generalizing state with
  | nil => exact ⟨state, rfl, initial⟩
  | cons action actions ih =>
      obtain ⟨next, stepped, invariantNext⟩ := progress state action initial guarded.1
      obtain ⟨last, reached, invariantLast⟩ := ih (guarded.2 next stepped) invariantNext
      refine ⟨last, ?_, invariantLast⟩
      rw [run, stepped]
      exact reached

/-- Where every unguarded step shows, a run is guarded as long as nothing shows. -/
theorem guarded_iff_every {invariant good : State → Prop} {total : State → Action → State}
    (kept : ∀ state action, invariant state → guard state action →
      invariant (total state action))
    (sound : ∀ state, invariant state → good state)
    (exposed : ∀ state action, invariant state → ¬guard state action →
      ¬good (total state action))
    {state : State} (initial : invariant state) (actions : List Action) :
    Guarded (fun state action => some (total state action)) guard state actions ↔
      ∀ first second, actions = first ++ second → good (first.foldl total state) := by
  induction actions generalizing state with
  | nil =>
      refine ⟨fun _ first second split => ?_, fun _ => trivial⟩
      rw [(List.append_eq_nil_iff.mp split.symm).1]
      exact sound state initial
  | cons action actions ih =>
      constructor
      · rintro ⟨allowed, rest⟩ first second split
        cases first with
        | nil => exact sound state initial
        | cons other first =>
            obtain ⟨rfl, rfl⟩ := List.cons_eq_cons.mp split
            exact (ih (kept state action initial allowed)).mp (rest _ rfl) first second rfl
      · intro every
        by_cases allowed : guard state action
        · refine ⟨allowed, fun next stepped => ?_⟩
          cases Option.some.inj stepped
          refine (ih (kept state action initial allowed)).mpr fun first second split => ?_
          exact every (action :: first) second (congrArg (action :: ·) split)
        · exact absurd (every [action] actions rfl) (exposed state action initial allowed)

/-- A sequence of actions of a system that is given by a relation. -/
inductive Follows {Abstract : Type*} (related : Abstract → Action → Abstract → Prop) :
    Abstract → List Action → Abstract → Prop
  | nil {abstract : Abstract} : Follows related abstract [] abstract
  | cons {first second last : Abstract} {action : Action} {actions : List Action}
      (step : related first action second) (rest : Follows related second actions last) :
      Follows related first (action :: actions) last

/-- A relation that gives the next state is folded over the actions. -/
theorem Follows.eq_foldl {Abstract : Type*} {total : Abstract → Action → Abstract}
    {first last : Abstract} {actions : List Action}
    (follows :
      Follows (fun before action after => after = total before action) first actions last) :
    last = actions.foldl total first := by
  induction follows with
  | nil => rfl
  | cons step rest ih =>
      rw [List.foldl_cons, ← step]
      exact ih

/-- When every guarded step has a result that simulates a step of another system, so has
every guarded run. -/
theorem Guarded.exists_follows {Abstract : Type*} {simulates : State → Abstract → Prop}
    {related : Abstract → Action → Abstract → Prop}
    (progress : ∀ state action abstract, simulates state abstract → guard state action →
      ∃ next abstract', step state action = some next ∧ related abstract action abstract' ∧
        simulates next abstract')
    {state : State} {abstract : Abstract} {actions : List Action}
    (guarded : Guarded step guard state actions) (initial : simulates state abstract) :
    ∃ last abstract', run step state actions = some last ∧
      Follows related abstract actions abstract' ∧ simulates last abstract' := by
  induction actions generalizing state abstract with
  | nil => exact ⟨state, abstract, rfl, .nil, initial⟩
  | cons action actions ih =>
      obtain ⟨next, middle, stepped, relatedStep, simulatesNext⟩ :=
        progress state action abstract initial guarded.1
      obtain ⟨last, abstract', reached, rest, simulatesLast⟩ :=
        ih (guarded.2 next stepped) simulatesNext
      refine ⟨last, abstract', ?_, .cons relatedStep rest, simulatesLast⟩
      rw [run, stepped]
      exact reached

/-- For a transition function that always has a result, a run is guarded when every action meets
the guard in the state after the actions before it. -/
theorem guarded_total_iff {total : State → Action → State} {state : State} {actions : List Action} :
    Guarded (fun state action => some (total state action)) guard state actions ↔
      ∀ before action after, actions = before ++ action :: after →
        guard (before.foldl total state) action := by
  induction actions generalizing state with
  | nil => simp [Guarded]
  | cons first actions ih =>
      constructor
      · rintro ⟨allowed, rest⟩ before action after split
        cases before with
        | nil =>
            obtain ⟨rfl, -⟩ := List.cons.inj split
            exact allowed
        | cons head before =>
            obtain ⟨rfl, tail⟩ := List.cons.inj split
            exact ih.1 (rest _ rfl) before action after tail
      · intro allowed
        refine ⟨allowed [] first actions rfl, fun next stepped => ?_⟩
        cases Option.some.inj stepped
        refine ih.2 fun before action after split => ?_
        rw [split] at allowed
        exact allowed (first :: before) action after rfl

end GuardedRuns
