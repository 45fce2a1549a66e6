import Mathlib.Tactic.TypeStar

/-!
# Loops

One pass of a loop either goes on with new locals or leaves with a result.
`loopFor` bounds the number of passes; a loop `Leaves` with a result when some
number of passes is enough.  A loop that never leaves has no result at all, so
termination is a statement and not a convention.
-/

namespace PushCache.Transition

universe u v

variable {σ : Type u} {ρ : Type v}

/-- At most the given number of passes. -/
def loopFor (pass : σ → σ ⊕ ρ) : Nat → σ → σ ⊕ ρ
  | 0, locals => .inl locals
  | passes + 1, locals =>
      match pass locals with
      | .inl next => loopFor pass passes next
      | .inr result => .inr result

/-- The loop is left with `result` after some number of passes. -/
def Leaves (pass : σ → σ ⊕ ρ) (locals : σ) (result : ρ) : Prop :=
  ∃ passes, loopFor pass passes locals = .inr result

variable {pass : σ → σ ⊕ ρ} {locals next : σ} {result : ρ}

theorem Leaves.leave (left : pass locals = .inr result) : Leaves pass locals result :=
  ⟨1, by simp only [loopFor, left]⟩

theorem Leaves.again (goes : pass locals = .inl next) (leaves : Leaves pass next result) :
    Leaves pass locals result := by
  rcases leaves with ⟨passes, left⟩
  exact ⟨passes + 1, by simp only [loopFor, goes, left]⟩

/-- Once the loop is left, further passes change nothing. -/
theorem loopFor_of_le {enough passes : Nat} (le : enough ≤ passes)
    (left : loopFor pass enough locals = .inr result) :
    loopFor pass passes locals = .inr result := by
  induction enough generalizing passes locals with
  | zero => cases left
  | succ enough ih =>
      obtain ⟨more, rfl⟩ := Nat.exists_eq_succ_of_ne_zero (by omega : passes ≠ 0)
      cases passed : pass locals with
      | inl next =>
          simp only [loopFor, passed] at left ⊢
          exact ih (Nat.le_of_succ_le_succ le) left
      | inr other =>
          simp only [loopFor, passed] at left ⊢
          exact left

/-- A loop that is left is left with one result only. -/
theorem Leaves.iff_eq (leaves : Leaves pass locals result) (other : ρ) :
    Leaves pass locals other ↔ other = result := by
  constructor
  · rintro ⟨passes, left⟩
    rcases leaves with ⟨enough, leftFirst⟩
    have both := loopFor_of_le (Nat.le_max_left passes enough) left
    rw [loopFor_of_le (Nat.le_max_right passes enough) leftFirst] at both
    exact (Sum.inr.inj both).symm
  · rintro rfl
    exact leaves

end PushCache.Transition
