import Mathlib.Algebra.Ring.Nat
import Mathlib.Data.List.Forall2
import PushCache.Transition.Core
import PushCache.Transition.Loop

/-!
# Joining loops that may fail

Several loops run side by side, one pass of one of them at a time, in any order.  The
whole succeeds when all of them have, and fails with the error of any that has failed.
Such a run is finite and never stuck, and only the error it fails with may depend on the
order.
-/

namespace PushCache.Concurrency.Join

open PushCache.Transition

variable {σ ρ ε α : Type*}

/-- A loop in progress, or its result. -/
inductive Future (σ ρ : Type*) where
  | pending (pass : σ → σ ⊕ ρ) (locals : σ)
  | ready (result : ρ)

namespace Future

/-- The next pass of a loop in progress. -/
def poll : Future σ ρ → Option (Future σ ρ)
  | .pending pass locals =>
      match pass locals with
      | .inl next => some (.pending pass next)
      | .inr result => some (.ready result)
  | .ready _ => none

/-- The result the loop has in the end. -/
def Settles : Future σ ρ → ρ → Prop
  | .pending pass locals, result => Leaves pass locals result
  | .ready own, result => own = result

/-- The loop has its result after that many passes. -/
def Within : Future σ ρ → Nat → Prop
  | .pending pass locals, passes => ∃ result, loopFor pass passes locals = .inr result
  | .ready _, _ => True

variable {future next : Future σ ρ} {result : ρ}

theorem Settles.poll (settles : future.Settles result) (polled : future.poll = some next) :
    next.Settles result := by
  cases future with
  | ready own => cases polled
  | pending pass locals =>
      cases passed : pass locals with
      | inl after =>
          simp only [Future.poll, passed, Option.some.injEq] at polled
          subst polled
          rcases settles with ⟨passes, left⟩
          cases passes with
          | zero => cases left
          | succ passes =>
              simp only [loopFor, passed] at left
              exact ⟨passes, left⟩
      | inr own =>
          simp only [Future.poll, passed, Option.some.injEq] at polled
          subst polled
          exact ((Leaves.iff_eq (.leave passed) result).mp settles).symm

theorem Settles.exists_within (settles : future.Settles result) :
    ∃ passes, future.Within passes := by
  cases future with
  | ready own => exact ⟨0, trivial⟩
  | pending pass locals =>
      rcases settles with ⟨passes, left⟩
      exact ⟨passes, result, left⟩

/-- A pass leaves one fewer to make. -/
theorem Within.poll {passes : Nat} (within : future.Within passes)
    (polled : future.poll = some next) : ∃ fewer, next.Within fewer ∧ fewer + 1 = passes := by
  cases future with
  | ready own => cases polled
  | pending pass locals =>
      rcases within with ⟨result, left⟩
      cases passes with
      | zero => cases left
      | succ passes =>
          refine ⟨passes, ?_, rfl⟩
          cases passed : pass locals with
          | inl after =>
              simp only [Future.poll, passed, Option.some.injEq] at polled
              subst polled
              simp only [loopFor, passed] at left
              exact ⟨result, left⟩
          | inr own =>
              simp only [Future.poll, passed, Option.some.injEq] at polled
              subst polled
              trivial

end Future

/-- One pass of the loop at an index. -/
def step : Step (List (Future σ ρ)) Nat :=
  fun futures index => (futures[index]?.bind Future.poll).map (futures.set index)

/-- How the whole may end. -/
inductive Ends (outcome : ρ → Except ε α) : List (Future σ ρ) → Except ε (List α) → Prop
  | all {results : List ρ} {values : List α} (ok : results.map outcome = values.map .ok) :
      Ends outcome (results.map .ready) (.ok values)
  | failed {futures : List (Future σ ρ)} {result : ρ} {error : ε}
      (ready : .ready result ∈ futures) (fails : outcome result = .error error) :
      Ends outcome futures (.error error)

/-- The whole ends with a result, in some order. -/
def Joins (outcome : ρ → Except ε α) (futures : List (Future σ ρ))
    (result : Except ε (List α)) : Prop :=
  ∃ polls final, run step futures polls = some final ∧ Ends outcome final result

/-! ## One pass -/

variable {future : Future σ ρ} {futures next final : List (Future σ ρ)} {results : List ρ}
  {index : Nat} {left polls : List Nat}

theorem step_cons_zero (future : Future σ ρ) (futures : List (Future σ ρ)) :
    step (future :: futures) 0 = future.poll.map (· :: futures) :=
  rfl

theorem step_cons_succ (future : Future σ ρ) (futures : List (Future σ ρ)) (index : Nat) :
    step (future :: futures) (index + 1) = (step futures index).map (future :: ·) := by
  simp only [step, List.getElem?_cons_succ, Option.map_map]
  rfl

/-- What each loop has in the end does not change. -/
theorem settles_step (settle : List.Forall₂ Future.Settles futures results)
    (stepped : step futures index = some next) :
    List.Forall₂ Future.Settles next results := by
  induction settle generalizing index next with
  | nil => cases stepped
  | @cons future result futures results own rest ih =>
      cases index with
      | zero =>
          rw [step_cons_zero, Option.map_eq_some_iff] at stepped
          rcases stepped with ⟨polled, poll, rfl⟩
          exact .cons (own.poll poll) rest
      | succ index =>
          rw [step_cons_succ, Option.map_eq_some_iff] at stepped
          rcases stepped with ⟨later, stepLater, rfl⟩
          exact .cons own (ih stepLater)

/-- Altogether, one fewer pass is to be made. -/
theorem within_step (within : List.Forall₂ Future.Within futures left)
    (stepped : step futures index = some next) :
    ∃ fewer, List.Forall₂ Future.Within next fewer ∧ fewer.sum + 1 = left.sum := by
  induction within generalizing index next with
  | nil => cases stepped
  | @cons future passes futures left own rest ih =>
      cases index with
      | zero =>
          rw [step_cons_zero, Option.map_eq_some_iff] at stepped
          rcases stepped with ⟨polled, poll, rfl⟩
          rcases own.poll poll with ⟨fewer, ownFewer, counted⟩
          refine ⟨fewer :: left, .cons ownFewer rest, ?_⟩
          rw [List.sum_cons, List.sum_cons, ← counted]
          omega
      | succ index =>
          rw [step_cons_succ, Option.map_eq_some_iff] at stepped
          rcases stepped with ⟨later, stepLater, rfl⟩
          rcases ih stepLater with ⟨fewer, restFewer, counted⟩
          refine ⟨passes :: fewer, .cons own restFewer, ?_⟩
          rw [List.sum_cons, List.sum_cons, ← counted]
          omega

/-- As long as a loop is in progress, one can make a pass. -/
theorem exists_step_or_ready (futures : List (Future σ ρ)) :
    (∃ index next, step futures index = some next) ∨
      ∃ results : List ρ, futures = results.map Future.ready := by
  induction futures with
  | nil => exact Or.inr ⟨[], rfl⟩
  | cons future futures ih =>
      cases future with
      | pending pass locals =>
          left
          refine ⟨0, ?_⟩
          rw [step_cons_zero, Future.poll]
          cases pass locals with
          | inl after => exact ⟨_, rfl⟩
          | inr result => exact ⟨_, rfl⟩
      | ready result =>
          rcases ih with ⟨index, next, stepped⟩ | ⟨results, rfl⟩
          · exact Or.inl ⟨index + 1, _, by rw [step_cons_succ, stepped]; rfl⟩
          · exact Or.inr ⟨result :: results, rfl⟩

/-! ## Whole runs -/

theorem settles_run (settle : List.Forall₂ Future.Settles futures results)
    (ran : run step futures polls = some final) : List.Forall₂ Future.Settles final results := by
  have preserved : Preserved step fun futures : List (Future σ ρ) =>
      List.Forall₂ Future.Settles futures results :=
    fun _ _ _ settle stepped => settles_step settle stepped
  exact preserved.of_run settle ran

theorem exists_within (settle : List.Forall₂ Future.Settles futures results) :
    ∃ left, List.Forall₂ Future.Within futures left := by
  induction settle with
  | nil => exact ⟨[], .nil⟩
  | cons own _ ih =>
      rcases own.exists_within with ⟨passes, within⟩
      rcases ih with ⟨left, rest⟩
      exact ⟨passes :: left, .cons within rest⟩

/-- No run is longer than the passes there are to make. -/
theorem length_le_of_within (within : List.Forall₂ Future.Within futures left)
    (ran : run step futures polls = some final) : polls.length ≤ left.sum := by
  induction polls generalizing futures left with
  | nil => exact Nat.zero_le _
  | cons index polls ih =>
      rcases Option.bind_eq_some_iff.mp ran with ⟨middle, stepped, rest⟩
      rcases within_step within stepped with ⟨fewer, withinFewer, counted⟩
      rw [List.length_cons, ← counted]
      exact Nat.succ_le_succ (ih withinFewer rest)

/-- From anywhere, all loops can be brought to their results. -/
theorem exists_run_ready (within : List.Forall₂ Future.Within futures left) :
    ∃ polls, ∃ results : List ρ, run step futures polls = some (results.map Future.ready) := by
  induction counted : left.sum generalizing futures left with
  | zero =>
      rcases exists_step_or_ready futures with ⟨index, next, stepped⟩ | ⟨results, rfl⟩
      · rcases within_step within stepped with ⟨fewer, _, onemore⟩
        omega
      · exact ⟨[], results, rfl⟩
  | succ passes ih =>
      rcases exists_step_or_ready futures with ⟨index, next, stepped⟩ | ⟨results, rfl⟩
      · rcases within_step within stepped with ⟨fewer, withinFewer, onemore⟩
        rcases ih withinFewer (by omega) with ⟨polls, results, ran⟩
        exact ⟨index :: polls, results, by rw [run_cons, stepped]; exact ran⟩
      · exact ⟨[], results, rfl⟩

/-- Results that are there are the results the loops have in the end. -/
theorem results_of_ready {own : List ρ}
    (settle : List.Forall₂ (Future.Settles (σ := σ)) (own.map .ready) results) :
    own = results := by
  induction own generalizing results with
  | nil => cases settle; rfl
  | cons first own ih =>
      cases settle with
      | cons here rest => rw [ih rest, (here : first = _)]

theorem mem_of_ready {result : ρ} (settle : List.Forall₂ Future.Settles futures results)
    (ready : .ready result ∈ futures) : result ∈ results := by
  induction settle with
  | nil => cases ready
  | @cons future first futures results own _ ih =>
      cases ready with
      | head => exact (own : result = first) ▸ List.mem_cons_self
      | tail _ later => exact List.mem_cons_of_mem _ (ih later)

/-- All results are successes, or one is a failure. -/
theorem all_ok_or_failed (outcome : ρ → Except ε α) (results : List ρ) :
    (∃ values : List α, results.map outcome = values.map .ok) ∨
      ∃ result ∈ results, ∃ error, outcome result = .error error := by
  induction results with
  | nil => exact Or.inl ⟨[], rfl⟩
  | cons result results ih =>
      cases own : outcome result with
      | error error => exact Or.inr ⟨result, List.mem_cons_self, error, own⟩
      | ok value =>
          rcases ih with ⟨values, ok⟩ | ⟨failed, mem, error, failing⟩
          · exact Or.inl ⟨value :: values, by rw [List.map_cons, List.map_cons, own, ok]⟩
          · exact Or.inr ⟨failed, List.mem_cons_of_mem _ mem, error, failing⟩

/-! ## How the whole ends -/

section Joined

variable {outcome : ρ → Except ε α}

/-- Every run is finite, and can be continued until the whole ends. -/
theorem runs_end (outcome : ρ → Except ε α)
    (settle : List.Forall₂ Future.Settles futures results) :
    (∃ bound, ∀ polls final, run step futures polls = some final → polls.length ≤ bound) ∧
    ∀ polls final, run step futures polls = some final →
      ∃ more last result, run step final more = some last ∧ Ends outcome last result := by
  constructor
  · rcases exists_within settle with ⟨left, within⟩
    exact ⟨left.sum, fun polls final ran => length_le_of_within within ran⟩
  · intro polls final ran
    rcases exists_within (settles_run settle ran) with ⟨left, within⟩
    rcases exists_run_ready within with ⟨more, own, ready⟩
    rcases all_ok_or_failed outcome own with ⟨values, ok⟩ | ⟨result, mem, error, failed⟩
    · exact ⟨more, _, _, ready, .all ok⟩
    · exact ⟨more, _, _, ready, .failed (List.mem_map_of_mem mem) failed⟩

/-- The whole succeeds exactly when every loop does, with their values in order. -/
theorem joins_ok_iff (settle : List.Forall₂ Future.Settles futures results)
    (values : List α) :
    Joins outcome futures (.ok values) ↔ results.map outcome = values.map .ok := by
  constructor
  · rintro ⟨polls, final, ran, ends⟩
    cases ends with
    | all ok => rwa [← results_of_ready (settles_run settle ran)]
  · intro ok
    rcases exists_within settle with ⟨left, within⟩
    rcases exists_run_ready within with ⟨polls, own, ran⟩
    have same := results_of_ready (settles_run settle ran)
    exact ⟨polls, _, ran, .all (by rw [same, ok])⟩

/-- It fails with the error of any loop that fails, and with no other. -/
theorem joins_error_iff (settle : List.Forall₂ Future.Settles futures results) (error : ε) :
    Joins outcome futures (.error error) ↔ ∃ result ∈ results, outcome result = .error error := by
  constructor
  · rintro ⟨polls, final, ran, ends⟩
    cases ends with
    | failed ready failed => exact ⟨_, mem_of_ready (settles_run settle ran) ready, failed⟩
  · rintro ⟨result, mem, failed⟩
    rcases exists_within settle with ⟨left, within⟩
    rcases exists_run_ready within with ⟨polls, own, ran⟩
    have same := results_of_ready (settles_run settle ran)
    exact ⟨polls, _, ran, .failed (List.mem_map_of_mem (by rwa [same])) failed⟩

end Joined

end PushCache.Concurrency.Join
