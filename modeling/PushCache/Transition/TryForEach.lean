import Mathlib.Tactic.TypeStar

/-!
# Sequential traversal with early exit

`tryForEach` runs a fallible, state-changing step over a list of items, one
item after the other, and stops at the first error.  The state changes made
before the error stay.  The file proves how traversals compose and the
induction rule for invariants of the state.
-/

namespace PushCache.Transition

universe u v w

variable {ε : Type u} {σ : Type v} {α : Type w}

/-- Run `step` over the items in order and stop at the first error. -/
def tryForEach (step : α → σ → Except ε Unit × σ) : List α → σ → Except ε Unit × σ
  | [], state => (.ok (), state)
  | item :: items, state =>
      match step item state with
      | (.ok _, next) => tryForEach step items next
      | (.error error, next) => (.error error, next)

variable {step : α → σ → Except ε Unit × σ}

@[simp]
theorem tryForEach_nil (state : σ) : tryForEach step [] state = (.ok (), state) :=
  rfl

theorem tryForEach_cons_of_ok {item : α} {items : List α} {state next : σ}
    (ok : step item state = (.ok (), next)) :
    tryForEach step (item :: items) state = tryForEach step items next := by
  simp only [tryForEach, ok]

theorem tryForEach_cons_of_error {item : α} {items : List α} {state next : σ}
    {error : ε} (failed : step item state = (.error error, next)) :
    tryForEach step (item :: items) state = (.error error, next) := by
  simp only [tryForEach, failed]

/-- A traversal of one item is that item's step. -/
@[simp]
theorem tryForEach_singleton (item : α) (state : σ) :
    tryForEach step [item] state = step item state := by
  rcases outcome : step item state with ⟨_ | _, next⟩
  · exact tryForEach_cons_of_error outcome
  · exact tryForEach_cons_of_ok outcome

/-- Traversing mapped items is traversing the items with the mapped step. -/
theorem tryForEach_map {β : Type*} (relabel : β → α) (items : List β) (state : σ) :
    tryForEach step (items.map relabel) state =
      tryForEach (fun item => step (relabel item)) items state := by
  induction items generalizing state with
  | nil => rfl
  | cons item items ih =>
      simp only [List.map_cons, tryForEach]
      rcases step (relabel item) state with ⟨_ | _, next⟩
      · rfl
      · exact ih next

/-- What every listed step keeps, successful or not, the traversal keeps. -/
theorem tryForEach_induction (invariant : σ → Prop) {items : List α}
    (preserved : ∀ item ∈ items, ∀ state, invariant state → invariant (step item state).2)
    {state : σ} (initial : invariant state) :
    invariant (tryForEach step items state).2 := by
  induction items generalizing state with
  | nil => exact initial
  | cons item items ih =>
      have kept := preserved item List.mem_cons_self state initial
      rcases outcome : step item state with ⟨_ | _, next⟩
      · rw [tryForEach_cons_of_error outcome]
        rwa [outcome] at kept
      · rw [tryForEach_cons_of_ok outcome]
        rw [outcome] at kept
        exact ih (fun other member => preserved other (List.mem_cons_of_mem item member)) kept

/-- Steps that cannot fail on the listed items give a traversal that cannot
fail, and its final state is a plain left fold. -/
theorem tryForEach_eq_foldl (next : σ → α → σ) {items : List α}
    (total : ∀ item ∈ items, ∀ state, step item state = (.ok (), next state item))
    (state : σ) :
    tryForEach step items state = (.ok (), items.foldl next state) := by
  induction items generalizing state with
  | nil => rfl
  | cons item items ih =>
      rw [tryForEach_cons_of_ok (total item List.mem_cons_self state)]
      exact ih (fun other member => total other (List.mem_cons_of_mem item member)) _

/-- Where every step, from related states, has the same outcome and leads to
related states, so has and does the traversal. -/
theorem tryForEach_related (related : σ → σ → Prop)
    (simulates : ∀ item first second, related first second →
      (step item first).1 = (step item second).1 ∧
        related (step item first).2 (step item second).2)
    (items : List α) {first second : σ} (start : related first second) :
    (tryForEach step items first).1 = (tryForEach step items second).1 ∧
      related (tryForEach step items first).2 (tryForEach step items second).2 := by
  induction items generalizing first second with
  | nil => exact ⟨rfl, start⟩
  | cons item items ih =>
      rcases simulates item first second start with ⟨same, next⟩
      rcases firstOutcome : step item first with ⟨_ | _, firstNext⟩ <;>
        rcases secondOutcome : step item second with ⟨_ | _, secondNext⟩ <;>
          rw [firstOutcome, secondOutcome] at same next
      · rw [tryForEach_cons_of_error firstOutcome, tryForEach_cons_of_error secondOutcome]
        exact ⟨same, next⟩
      · cases same
      · cases same
      · rw [tryForEach_cons_of_ok firstOutcome, tryForEach_cons_of_ok secondOutcome]
        exact ih next

/-! ## What a traversal gets to -/

/-- A step that also notes the item it is given. -/
def noting (step : α → σ → Except ε Unit × σ) (item : α) (noted : σ × List α) :
    Except ε Unit × (σ × List α) :=
  ((step item noted.1).1, ((step item noted.1).2, noted.2 ++ [item]))

/-- The items a traversal gives to its step. -/
def givenTo (step : α → σ → Except ε Unit × σ) (items : List α) (state : σ) : List α :=
  (tryForEach (noting step) items (state, [])).2.2

/-- Noting the items changes nothing else. -/
theorem tryForEach_noting (items : List α) (state : σ) (seen : List α) :
    tryForEach (noting step) items (state, seen) =
      ((tryForEach step items state).1,
        ((tryForEach step items state).2, seen ++ givenTo step items state)) := by
  induction items generalizing state seen with
  | nil => simp only [givenTo, tryForEach_nil, List.append_nil]
  | cons item items ih =>
      rcases outcome : step item state with ⟨_ | _, next⟩
      · have noted : ∀ before, noting step item (state, before) =
            (.error _, (next, before ++ [item])) := fun _ => by rw [noting, outcome]
        rw [tryForEach_cons_of_error (noted seen), givenTo, tryForEach_cons_of_error (noted []),
          tryForEach_cons_of_error outcome]
        rfl
      · have noted : ∀ before, noting step item (state, before) =
            (.ok (), (next, before ++ [item])) := fun _ => by rw [noting, outcome]
        have given : givenTo step (item :: items) state = item :: givenTo step items next := by
          rw [givenTo, tryForEach_cons_of_ok (noted []), ih]
          rfl
        rw [tryForEach_cons_of_ok (noted seen), ih, given, tryForEach_cons_of_ok outcome,
          List.append_assoc]
        rfl

theorem givenTo_cons_of_ok {item : α} {items : List α} {state next : σ}
    (ok : step item state = (.ok (), next)) :
    givenTo step (item :: items) state = item :: givenTo step items next := by
  have noted : noting step item (state, []) = (.ok (), (next, [item])) := by
    rw [noting, ok]
    rfl
  rw [givenTo, tryForEach_cons_of_ok noted, tryForEach_noting]
  rfl

theorem givenTo_cons_of_error {item : α} {items : List α} {state next : σ} {error : ε}
    (failed : step item state = (.error error, next)) :
    givenTo step (item :: items) state = [item] := by
  have noted : noting step item (state, []) = (.error error, (next, [item])) := by
    rw [noting, failed]
    rfl
  rw [givenTo, tryForEach_cons_of_error noted]

end PushCache.Transition
