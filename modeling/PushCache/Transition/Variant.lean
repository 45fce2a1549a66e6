import Mathlib.Data.List.Count
import PushCache.Transition.Core

/-!
# Variants of a transition system

A variant is a measure of the work that is left.  When no step adds to it and the
steps that count use it up, a run has no more of these than the variant allows;
when such a step is always possible, every state can be brought to an end.
-/

namespace PushCache.Transition

universe u v

variable {σ : Type u} {α : Type v} {next : Step σ α} {invariant : σ → Prop} {left : σ → Nat}

/-- Steps that keep an invariant, where the actions that count use up a variant and
the others do not add to it. -/
def UsesUp (next : Step σ α) (guard : σ → α → Prop) (invariant : σ → Prop)
    (counts : α → Bool) (left : σ → Nat) : Prop :=
  ∀ ⦃source action target⦄, invariant source → guard source action →
    next source action = some target →
    invariant target ∧ left target + (if counts action then 1 else 0) ≤ left source

/-- A guarded run takes no more of the actions that count than the variant allows. -/
theorem UsesUp.countP_le {guard : σ → α → Prop} {counts : α → Bool}
    (uses : UsesUp next guard invariant counts left) {start final : σ} {actions : List α}
    (initial : invariant start) (guarded : Guarded next guard start actions)
    (ran : run next start actions = some final) :
    actions.countP counts + left final ≤ left start := by
  induction actions generalizing start with
  | nil =>
      cases ran
      exact Nat.le_of_eq (Nat.zero_add _)
  | cons action actions ih =>
      rcases Option.bind_eq_some_iff.mp ran with ⟨middle, stepped, rest⟩
      rcases uses initial guarded.1 stepped with ⟨kept, used⟩
      have later := ih kept (guarded.2 middle stepped) rest
      rw [List.countP_cons]
      omega

/-- When a state that has not come to the end has a step that uses up the variant, every
state can be brought there by steps of that kind. -/
theorem exists_run_to_end {ends : σ → Prop} {kind : α → Prop}
    (progress : ∀ source, invariant source → ¬ends source →
      ∃ action target, kind action ∧ next source action = some target ∧ invariant target ∧
        left target < left source)
    {start : σ} (initial : invariant start) :
    ∃ actions final, (∀ action ∈ actions, kind action) ∧
      run next start actions = some final ∧ invariant final ∧ ends final := by
  induction measured : left start using Nat.strongRecOn generalizing start with
  | ind work ih =>
      by_cases done : ends start
      · exact ⟨[], start, fun _ member => absurd member List.not_mem_nil, rfl, initial, done⟩
      · rcases progress start initial done with ⟨action, target, own, stepped, kept, less⟩
        rcases ih (left target) (measured ▸ less) kept rfl with
          ⟨actions, final, others, ran, invariantFinal, ended⟩
        refine ⟨action :: actions, final, ?_, ?_, invariantFinal, ended⟩
        · intro other member
          rcases List.mem_cons.mp member with rfl | later
          · exact own
          · exact others other later
        · rw [run_cons, stepped]
          exact ran

end PushCache.Transition
