import Mathlib.Data.Nat.Init
import PushCache.Log.Patch

/-!
# At-least-once delivery of a log

A reader follows a log by position.  It is handed the item at its position and
moves on, and at any moment it may be set back to an earlier position, from
which the log is handed to it again.  `Delivered log position items` says that
`items` can be what such a reader has been handed so far when it stands at
`position`.
-/

namespace PushCache.Log

universe u v

/-- Deliveries of a log with any number of rewinds to earlier positions. -/
inductive Delivered {α : Type u} (log : List α) : Nat → List α → Prop
  | start : Delivered log 0 []
  | deliver {position : Nat} {items : List α} {item : α} :
      Delivered log position items → log[position]? = some item →
      Delivered log (position + 1) (items ++ [item])
  | rewind {position target : Nat} {items : List α} :
      Delivered log position items → target ≤ position →
      Delivered log target items

variable {α : Type u} {β : Type v} {log : List α}

/-- A reader that is never set back is handed the prefix before its position. -/
theorem delivered_take {position : Nat} (bounded : position ≤ log.length) :
    Delivered log position (log.take position) := by
  induction position with
  | zero => exact Delivered.start
  | succ position ih =>
      have item : log[position]? = some log[position] :=
        List.getElem?_eq_getElem bounded
      rw [List.take_add_one, item]
      exact (ih (Nat.le_of_succ_le bounded)).deliver item

/-- From a position on, the rest of the log may be handed over in one piece. -/
theorem Delivered.append_segment {position target : Nat} {items : List α}
    (delivered : Delivered log position items) (ordered : position ≤ target)
    (bounded : target ≤ log.length) :
    Delivered log target (items ++ (log.take target).drop position) := by
  induction target, ordered using Nat.le_induction with
  | base => simpa using delivered
  | succ target ordered ih =>
      have item : log[target]? = some log[target] :=
        List.getElem?_eq_getElem bounded
      have segment : (log.take (target + 1)).drop position =
          (log.take target).drop position ++ [log[target]] := by
        rw [List.take_add_one, item, List.drop_append_of_le_length]
        · rfl
        · simp only [List.length_take]
          omega
      rw [segment, ← List.append_assoc]
      exact (ih (Nat.le_of_succ_le bounded)).deliver item

/-- The item at a position stands in front of the log from the next position. -/
theorem drop_eq_cons_of_getElem? {position : Nat} {item : α}
    (found : log[position]? = some item) :
    log.drop position = item :: log.drop (position + 1) := by
  rcases List.getElem?_eq_some_iff.mp found with ⟨bounded, rfl⟩
  exact List.drop_eq_getElem_cons bounded

/-- The item at a position is still to come for a reader that stands before
it. -/
theorem mem_drop_of_getElem? {position target : Nat} {item : α}
    (found : log[position]? = some item) (reached : target ≤ position) :
    item ∈ log.drop target := by
  have later : item ∈ (log.drop target).drop (position - target) := by
    rw [List.drop_drop, Nat.add_sub_cancel' reached, drop_eq_cons_of_getElem? found]
    exact List.mem_cons_self
  exact List.mem_of_mem_drop later

/-- An outcome that ignores every item delivered again later is, for a reader
that goes on to the end of the log, the outcome of the log itself. -/
theorem Delivered.outcome_append_drop {outcome : List α → β}
    (absorbs : ∀ (earlier later : List α) (item : α), item ∈ later →
      outcome (earlier ++ item :: later) = outcome (earlier ++ later))
    {position : Nat} {items : List α} (delivered : Delivered log position items)
    {target : Nat} (reached : target ≤ position) :
    outcome (items ++ log.drop target) = outcome log := by
  induction delivered generalizing target with
  | start =>
      obtain rfl := Nat.le_zero.mp reached
      rfl
  | @deliver position items item _ found ih =>
      have tail := drop_eq_cons_of_getElem? found
      rw [List.append_assoc, List.singleton_append]
      rcases Nat.eq_or_lt_of_le reached with rfl | earlier
      · rw [← tail]
        exact ih (Nat.le_refl position)
      · have bounded : target ≤ position := Nat.le_of_lt_succ earlier
        rw [absorbs items (log.drop target) item (mem_drop_of_getElem? found bounded)]
        exact ih bounded
  | rewind _ back ih => exact ih (Nat.le_trans reached back)

/-- Reading a log to its end with any number of rewinds has the outcome of
reading it once. -/
theorem Delivered.outcome_eq {outcome : List α → β}
    (absorbs : ∀ (earlier later : List α) (item : α), item ∈ later →
      outcome (earlier ++ item :: later) = outcome (earlier ++ later))
    {items : List α} (delivered : Delivered log log.length items) :
    outcome items = outcome log := by
  simpa using delivered.outcome_append_drop absorbs (Nat.le_refl log.length)

/-- In particular the last writes of a log survive any number of rewinds. -/
theorem Delivered.latest_map_eq {K : Type*} {C : Type*} {items : List α}
    (delivered : Delivered log log.length items) (patch : α → Patch K C) :
    Patch.latest (items.map patch) = Patch.latest (log.map patch) := by
  have outcome := @Delivered.outcome_eq α (Patch K C) log fun items =>
    Patch.latest (items.map patch)
  exact outcome (Patch.latest_map_absorbs patch) delivered

end PushCache.Log
