import Mathlib.Tactic.TypeStar
import Mathlib.Data.Option.Basic

/-!
# Labelled partial transitions

A step takes a state and an action and returns the next state, or `none` when
the action is not enabled there.  This file supplies finite runs, their
composition, and the two induction rules the developments below rely on: an
invariant kept by every step holds after every run, and an invariant kept by
every *guarded* step holds after every run all of whose steps meet the guard.
-/

namespace PushCache.Transition

universe u v

/-- A labelled partial transition on `σ` with actions from `α`. -/
abbrev Step (σ : Type u) (α : Type v) := σ → α → Option σ

variable {σ : Type u} {α : Type v}

/-- Execute every action of a finite list in order.  A disabled action makes
the whole run undefined. -/
def run (next : Step σ α) : σ → List α → Option σ
  | state, [] => some state
  | state, action :: actions =>
      (next state action).bind fun middle => run next middle actions

@[simp]
theorem run_nil (next : Step σ α) (state : σ) : run next state [] = some state :=
  rfl

@[simp]
theorem run_cons (next : Step σ α) (state : σ) (action : α) (actions : List α) :
    run next state (action :: actions) =
      (next state action).bind fun middle => run next middle actions :=
  rfl

/-- A run splits at every point of its action list. -/
theorem run_append (next : Step σ α) (state : σ) (first second : List α) :
    run next state (first ++ second) =
      (run next state first).bind fun middle => run next middle second := by
  induction first generalizing state with
  | nil => rfl
  | cons action actions ih =>
      simp only [List.cons_append, run_cons, Option.bind_assoc]
      congr 1
      funext middle
      exact ih middle

/-! ## Guarded runs -/

/-- Every step the run takes from `state` meets the guard in the state it is
taken from. -/
def Guarded (next : Step σ α) (guard : σ → α → Prop) : σ → List α → Prop
  | _, [] => True
  | state, action :: actions =>
      guard state action ∧
        ∀ middle, next state action = some middle →
          Guarded next guard middle actions

/-- Guarded runs compose. -/
theorem Guarded.append {next : Step σ α} {guard : σ → α → Prop} {start middle : σ}
    {first second : List α} (guardedFirst : Guarded next guard start first)
    (ran : run next start first = some middle)
    (guardedSecond : Guarded next guard middle second) :
    Guarded next guard start (first ++ second) := by
  induction first generalizing start with
  | nil =>
      cases ran
      exact guardedSecond
  | cons action actions ih =>
      rcases Option.bind_eq_some_iff.mp ran with ⟨own, stepped, rest⟩
      refine ⟨guardedFirst.1, fun other otherStep => ?_⟩
      obtain rfl : own = other := Option.some.inj (stepped.symm.trans otherStep)
      exact ih (guardedFirst.2 own stepped) rest

/-- One guarded step keeps the invariant. -/
def PreservedWhen (next : Step σ α) (guard : σ → α → Prop)
    (invariant : σ → Prop) : Prop :=
  ∀ ⦃source action target⦄, invariant source → guard source action →
    next source action = some target → invariant target

/-- One step keeps the invariant, whatever the action. -/
def Preserved (next : Step σ α) (invariant : σ → Prop) : Prop :=
  ∀ ⦃source action target⦄, invariant source →
    next source action = some target → invariant target

/-- An invariant kept by guarded steps holds after every guarded run. -/
theorem PreservedWhen.of_run {next : Step σ α} {guard : σ → α → Prop}
    {invariant : σ → Prop} (preserved : PreservedWhen next guard invariant)
    {start target : σ} {actions : List α} (initial : invariant start)
    (guarded : Guarded next guard start actions)
    (ran : run next start actions = some target) : invariant target := by
  induction actions generalizing start with
  | nil =>
      cases ran
      exact initial
  | cons action actions ih =>
      rcases Option.bind_eq_some_iff.mp ran with ⟨middle, step, rest⟩
      exact ih (preserved initial guarded.1 step) (guarded.2 middle step) rest

/-- An invariant kept by every step holds after every run. -/
theorem Preserved.of_run {next : Step σ α} {invariant : σ → Prop}
    (preserved : Preserved next invariant) {start target : σ}
    {actions : List α} (initial : invariant start)
    (ran : run next start actions = some target) : invariant target := by
  induction actions generalizing start with
  | nil =>
      cases ran
      exact initial
  | cons action actions ih =>
      rcases Option.bind_eq_some_iff.mp ran with ⟨middle, step, rest⟩
      exact ih (preserved initial step) rest

/-- A run all of whose actions are allowed everywhere is guarded. -/
theorem guarded_of_forall {next : Step σ α} {guard : σ → α → Prop} {actions : List α}
    (allowed : ∀ action ∈ actions, ∀ state, guard state action) (start : σ) :
    Guarded next guard start actions := by
  induction actions generalizing start with
  | nil => trivial
  | cons action actions ih =>
      exact ⟨allowed action List.mem_cons_self start, fun middle _ =>
        ih (fun other member => allowed other (List.mem_cons_of_mem action member)) middle⟩

/-- When the guard says exactly whether a step keeps the invariant, the guarded
runs are those whose every state meets the invariant. -/
theorem guarded_iff_forall_reached {next : Step σ α} {guard : σ → α → Prop}
    {invariant : σ → Prop}
    (exact_guard : ∀ ⦃source action target⦄, invariant source →
      next source action = some target → (invariant target ↔ guard source action))
    {start final : σ} {actions : List α} (initial : invariant start)
    (ran : run next start actions = some final) :
    Guarded next guard start actions ↔
      ∀ earlier later reached, actions = earlier ++ later →
        run next start earlier = some reached → invariant reached := by
  constructor
  · intro guarded earlier later reached split reachedBy
    subst split
    have preserved : PreservedWhen next guard invariant := fun _ _ _ holds allowed stepped =>
      (exact_guard holds stepped).mpr allowed
    refine preserved.of_run initial ?_ reachedBy
    clear ran reachedBy
    induction earlier generalizing start with
    | nil => trivial
    | cons action earlier ih =>
        exact ⟨guarded.1, fun middle stepped =>
          ih ((exact_guard initial stepped).mpr guarded.1) (guarded.2 middle stepped)⟩
  · intro everywhere
    induction actions generalizing start with
    | nil => trivial
    | cons action actions ih =>
        rcases Option.bind_eq_some_iff.mp ran with ⟨middle, stepped, rest⟩
        have kept : invariant middle :=
          everywhere [action] actions middle rfl (by simp [stepped])
        refine ⟨(exact_guard initial stepped).mp kept, fun other otherStep => ?_⟩
        obtain rfl : middle = other := Option.some.inj (stepped.symm.trans otherStep)
        apply ih kept rest
        intro earlier later reached split reachedBy
        apply everywhere (action :: earlier) later reached (by rw [split, List.cons_append])
        rw [run_cons, stepped]
        exact reachedBy

/-- What holds after a run and did not hold at its start was brought about by
one of its steps. -/
theorem exists_cause_of_run {next : Step σ α} {property : σ → Prop}
    {causes : σ → α → Prop}
    (traced : ∀ ⦃source action target⦄, next source action = some target →
      property target → property source ∨ causes source action)
    {start final : σ} {actions : List α} (initial : ¬property start)
    (ran : run next start actions = some final) (holds : property final) :
    ∃ earlier action later source, actions = earlier ++ action :: later ∧
      run next start earlier = some source ∧ causes source action := by
  induction actions generalizing start with
  | nil =>
      cases ran
      contradiction
  | cons action actions ih =>
      rcases Option.bind_eq_some_iff.mp ran with ⟨middle, stepped, rest⟩
      by_cases already : property middle
      · rcases traced stepped already with before | caused
        · contradiction
        · exact ⟨[], action, actions, start, rfl, rfl, caused⟩
      · rcases ih already rest with ⟨earlier, cause, later, source, rfl, reached, caused⟩
        refine ⟨action :: earlier, cause, later, source, rfl, ?_, caused⟩
        rw [run_cons, stepped]
        exact reached

end PushCache.Transition
