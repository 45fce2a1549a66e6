import Mathlib.Tactic.TypeStar
import Mathlib.Data.Option.Basic

/-!
# Noninterference

A shared object answers the calls of several clients.  The calls of the others do
not interfere with those of an observed client when, in every run, the observed
calls are answered as if the others had never been made.  The unwinding rule
reduces this to single calls: a relation between two states that the calls of the
others keep on one side, and the observed ones on both sides with equal answers.
-/

namespace PushCache.Transition

universe u v w

/-- An object that answers a call, or does not allow it. -/
abbrev Responder (σ : Type u) (α : Type v) (ρ : Type w) := σ → α → Option (ρ × σ)

variable {σ : Type u} {α : Type v} {ρ : Type w} {respond : Responder σ α ρ}
  {observed : α → Bool}

/-- Make every call of a list in order: the answers to the observed ones. -/
def answers (respond : Responder σ α ρ) (observed : α → Bool) : σ → List α → Option (List ρ)
  | _, [] => some []
  | state, call :: calls =>
      (respond state call).bind fun outcome =>
        (answers respond observed outcome.2 calls).map fun later =>
          if observed call then outcome.1 :: later else later

/-- The observed calls of every run are answered as if the other calls had not been
made. -/
def Noninterfering (respond : Responder σ α ρ) (observed : α → Bool) : Prop :=
  ∀ state calls seen, answers respond observed state calls = some seen →
    answers respond observed state (calls.filter observed) = some seen

/-- An observed call after a single other one is answered as without it. -/
theorem Noninterfering.answered_alone (isolated : Noninterfering respond observed)
    {state middle last : σ} (hidden call : α) {hiddenReply reply : ρ}
    (notObserved : observed hidden = false) (observes : observed call = true)
    (before : respond state hidden = some (hiddenReply, middle))
    (after : respond middle call = some (reply, last)) :
    ∃ next, respond state call = some (reply, next) := by
  have together : answers respond observed state [hidden, call] = some [reply] := by
    simp [answers, before, after, notObserved, observes]
  have alone := isolated state [hidden, call] [reply] together
  rw [List.filter_cons_of_neg (by simp [notObserved]), List.filter_cons_of_pos observes] at alone
  rcases Option.bind_eq_some_iff.mp alone with ⟨⟨answer, next⟩, responded, rest⟩
  simp only [List.filter_nil, answers, Option.map_some, observes, if_true, Option.some.injEq,
    List.cons.injEq, and_true] at rest
  rw [← rest]
  exact ⟨next, responded⟩

/-- Two states that a relation keeps together give the observed calls the same
answers. -/
structure Unwinding (respond : Responder σ α ρ) (observed : α → Bool)
    (related : σ → σ → Prop) : Prop where
  refl : ∀ state, related state state
  hidden : ∀ ⦃state other call outcome⦄, related state other → observed call = false →
    respond state call = some outcome → related outcome.2 other
  seen : ∀ ⦃state other call outcome⦄, related state other → observed call = true →
    respond state call = some outcome →
      ∃ next, respond other call = some (outcome.1, next) ∧ related outcome.2 next

theorem Unwinding.answers_eq {related : σ → σ → Prop}
    (unwinding : Unwinding respond observed related) {state other : σ} {calls : List α}
    {seen : List ρ} (together : related state other)
    (answered : answers respond observed state calls = some seen) :
    answers respond observed other (calls.filter observed) = some seen := by
  induction calls generalizing state other seen with
  | nil => exact answered
  | cons call calls ih =>
      rcases Option.bind_eq_some_iff.mp answered with ⟨outcome, responded, rest⟩
      rcases Option.map_eq_some_iff.mp rest with ⟨later, answeredLater, rfl⟩
      cases observes : observed call with
      | false =>
          rw [List.filter_cons_of_neg (by simp [observes]), if_neg (by simp)]
          exact ih (unwinding.hidden together observes responded) answeredLater
      | true =>
          rcases unwinding.seen together observes responded with ⟨next, same, stillTogether⟩
          rw [List.filter_cons_of_pos observes, answers, same, Option.bind_some,
            ih stillTogether answeredLater, Option.map_some, observes]

/-- The unwinding rule. -/
theorem Unwinding.noninterfering {related : σ → σ → Prop}
    (unwinding : Unwinding respond observed related) : Noninterfering respond observed :=
  fun state _ _ answered => unwinding.answers_eq (unwinding.refl state) answered

end PushCache.Transition
