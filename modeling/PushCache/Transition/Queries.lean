import Mathlib.Logic.Function.Basic

/-!
# Computations that ask one question

A computation that may query its environment asks at a point when the answer there
decides its result and the environment matters at all.  It then asks at no other
point.
-/

namespace PushCache.Transition

universe u v w

variable {α : Type u} {β : Type v} {γ : Type w}

/-- The result depends on the answer at this point, and on that only. -/
def Asks (call : (α → β) → γ) (point : α) : Prop :=
  (∀ answers others, answers point = others point → call answers = call others) ∧
    ∃ answers others, call answers ≠ call others

/-- A computation asks at one point at most. -/
theorem Asks.unique {call : (α → β) → γ} {first second : α} (asksFirst : Asks call first)
    (asksSecond : Asks call second) : first = second := by
  classical
  by_contra different
  rcases asksFirst.2 with ⟨answers, others, differ⟩
  -- Answers that agree with the one environment here and with the other there.
  have mixed := asksSecond.1 (Function.update answers second (others second)) others
    (Function.update_self second (others second) answers)
  apply differ
  rw [← mixed]
  apply asksFirst.1
  exact (Function.update_of_ne different (others second) answers).symm

theorem Asks.iff_eq {call : (α → β) → γ} {point : α} (asks : Asks call point) (other : α) :
    Asks call other ↔ other = point := by
  constructor
  · exact fun asksOther => asksOther.unique asks
  · rintro rfl
    exact asks

end PushCache.Transition
