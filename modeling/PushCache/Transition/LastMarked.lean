import Mathlib.Data.List.Induction
import PushCache.Transition.Core

/-!
# The last marked step of a run

Some properties of a state are settled by the last step of a certain kind that
the run to it has taken.  `lastMarked` is the state in which that step was taken,
and the induction rule follows it along the run.
-/

namespace PushCache.Transition

universe u v

variable {σ : Type u} {α : Type v}

/-- The state in which a run took its last marked step, if it took one. -/
def lastMarked (next : Step σ α) (marks : σ → α → Bool) : σ → List α → Option σ
  | _, [] => none
  | state, action :: actions =>
      (next state action).bind fun middle =>
        (lastMarked next marks middle actions).or
          (if marks state action then some state else none)

variable {next : Step σ α} {marks : σ → α → Bool}

theorem lastMarked_append_singleton {start reached target : σ} {actions : List α} {action : α}
    (ran : run next start actions = some reached) (stepped : next reached action = some target) :
    lastMarked next marks start (actions ++ [action]) =
      if marks reached action then some reached else lastMarked next marks start actions := by
  induction actions generalizing start with
  | nil =>
      cases ran
      simp only [List.nil_append, lastMarked, stepped, Option.bind_some, Option.none_or]
  | cons earlier actions ih =>
      rcases Option.bind_eq_some_iff.mp ran with ⟨middle, step, rest⟩
      simp only [List.cons_append, lastMarked, step, Option.bind_some, ih rest]
      split <;> simp

/-- What every step keeps of a state and the state of the last marked step holds
after every run. -/
theorem lastMarked_induction (invariant : Option σ → σ → Prop)
    (preserved : ∀ last source action target, invariant last source →
      next source action = some target →
        invariant (if marks source action then some source else last) target)
    {start reached : σ} {actions : List α} (initial : invariant none start)
    (ran : run next start actions = some reached) :
    invariant (lastMarked next marks start actions) reached := by
  induction actions using List.reverseRecOn generalizing reached with
  | nil =>
      cases ran
      exact initial
  | append_singleton actions action ih =>
      rw [run_append] at ran
      rcases Option.bind_eq_some_iff.mp ran with ⟨source, before, last⟩
      rcases Option.bind_eq_some_iff.mp last with ⟨_, stepped, ended⟩
      cases ended
      rw [lastMarked_append_singleton before stepped]
      exact preserved _ source action reached (ih before) stepped

end PushCache.Transition
