import Mathlib.Data.List.TakeWhile
import Mathlib.Tactic.ByContra
import PushCache.Transition.TryForEach

/-!
# Emptying a place on every item

A broadcast removal walks over items, each of which fails or empties a place of
its own, and stops at the first failure.  It leaves every place empty that
belongs to an item before the first failing one, and changes nothing else.  An
item that does not fail is cleared in spite of others that do exactly when its
place is among those, or was empty before.
-/

namespace PushCache.Log

open PushCache.Transition

variable {ε σ α κ β K : Type*}

/-- Every step fails and changes nothing, or succeeds and empties its place. -/
def Empties (step : α → σ → Except ε Unit × σ) (view : σ → κ → Option β)
    (fails : α → Bool) (place : α → κ) : Prop :=
  ∀ item state,
    (fails item = true ∧ ∃ error, step item state = (.error error, state)) ∨
      (fails item = false ∧ ∃ next, step item state = (.ok (), next) ∧
        view next (place item) = none ∧
        ∀ other, other ≠ place item → view next other = view state other)

/-- The items a broadcast reaches: those before the first failing one. -/
def reached (fails : α → Bool) (items : List α) : List α :=
  items.takeWhile fun item => !fails item

/-- Everything a broadcast does. -/
theorem Empties.view_tryForEach {step : α → σ → Except ε Unit × σ} {view : σ → κ → Option β}
    {fails : α → Bool} {place : α → κ} (empties : Empties step view fails place)
    (items : List α) (state : σ) :
    (∀ location, (∃ item ∈ reached fails items, place item = location) →
        view (tryForEach step items state).2 location = none) ∧
      ∀ location, (¬∃ item ∈ reached fails items, place item = location) →
        view (tryForEach step items state).2 location = view state location := by
  induction items generalizing state with
  | nil => simp [reached]
  | cons item items ih =>
      rcases empties item state with
        ⟨failing, error, stepped⟩ | ⟨healthy, next, stepped, emptied, kept⟩
      · rw [tryForEach_cons_of_error stepped, reached, List.takeWhile_cons, failing]
        simp
      · rw [tryForEach_cons_of_ok stepped]
        have walked : reached fails (item :: items) = item :: reached fails items := by
          simp [reached, healthy]
        rcases ih next with ⟨cleared, unchanged⟩
        rw [walked]
        constructor
        · rintro location ⟨own, member, here⟩
          by_cases later : ∃ other ∈ reached fails items, place other = location
          · exact cleared location later
          · rcases List.mem_cons.mp member with rfl | ownLater
            · rw [unchanged location later, ← here, emptied]
            · exact absurd ⟨own, ownLater, here⟩ later
        · intro location untouched
          have apart : location ≠ place item :=
            fun same => untouched ⟨item, List.mem_cons_self, same.symm⟩
          have later : ¬∃ other ∈ reached fails items, place other = location := by
            rintro ⟨other, member, here⟩
            exact untouched ⟨other, List.mem_cons_of_mem item member, here⟩
          rw [unchanged location later, kept location apart]

/-- A broadcast on which no item fails gets through. -/
theorem Empties.tryForEach_of_healthy {step : α → σ → Except ε Unit × σ} {view : σ → κ → Option β}
    {fails : α → Bool} {place : α → κ} (empties : Empties step view fails place)
    {items : List α} (healthy : ∀ item ∈ items, fails item = false) (state : σ) :
    ∃ next, tryForEach step items state = (.ok (), next) ∧
      (∀ location, (∃ item ∈ items, place item = location) → view next location = none) ∧
      ∀ location, (¬∃ item ∈ items, place item = location) →
        view next location = view state location := by
  have all : reached fails items = items :=
    List.takeWhile_eq_self_iff.mpr fun item member => by rw [healthy item member]; rfl
  have completes : ∀ before, (tryForEach step items before).1 = .ok () := by
    clear all
    induction items with
    | nil => exact fun _ => rfl
    | cons item items ih =>
        intro before
        rcases empties item before with ⟨failing, _⟩ | ⟨_, next, stepped, _⟩
        · rw [healthy item List.mem_cons_self] at failing
          cases failing
        · rw [tryForEach_cons_of_ok stepped]
          exact ih (fun other member => healthy other (List.mem_cons_of_mem item member)) next
  rcases empties.view_tryForEach items state with ⟨cleared, unchanged⟩
  rw [all] at cleared unchanged
  exact ⟨_, Prod.ext (completes state) rfl, cleared, unchanged⟩

/-- A broadcast gets through exactly when no item fails. -/
theorem Empties.tryForEach_ok_iff {step : α → σ → Except ε Unit × σ} {view : σ → κ → Option β}
    {fails : α → Bool} {place : α → κ} (empties : Empties step view fails place)
    {items : List α} {state : σ} :
    (∃ next, tryForEach step items state = (.ok (), next)) ↔
      ∀ item ∈ items, fails item = false := by
  constructor
  · rintro ⟨final, completed⟩
    induction items generalizing state with
    | nil => exact nofun
    | cons item items ih =>
        rcases empties item state with ⟨_, error, stepped⟩ | ⟨healthy, next, stepped, _⟩
        · rw [tryForEach_cons_of_error stepped] at completed
          cases completed
        · rw [tryForEach_cons_of_ok stepped] at completed
          exact List.forall_mem_cons.mpr ⟨healthy, ih completed⟩
  · intro healthy
    rcases empties.tryForEach_of_healthy healthy state with ⟨next, completed, _⟩
    exact ⟨next, completed⟩

/-- Every item that does not fail has lost its record of the key and kept every
other. -/
def ClearsHealthy (view : σ → κ → Option β) (fails : α → Bool) (place : α → K → κ)
    (items : List α) (key : K) (before after : σ) : Prop :=
  ∀ item ∈ items, fails item = false →
    view after (place item key) = none ∧
      ∀ other, other ≠ key → view after (place item other) = view before (place item other)

/-- The healthy items are cleared whatever fails: each that holds the key is
reached before the first failure, or shares its place with one that is, and no
reached item keeps another item's record of another key in its place. -/
def ReachesHealthy (view : σ → κ → Option β) (fails : α → Bool) (place : α → K → κ)
    (items : List α) (key : K) (before : σ) : Prop :=
  ∀ item ∈ items, fails item = false →
    (view before (place item key) ≠ none →
      ∃ early ∈ reached fails items, place early key = place item key) ∧
    ∀ other, other ≠ key → view before (place item other) ≠ none →
      ∀ early ∈ reached fails items, place early key ≠ place item other

theorem clearsHealthy_iff {step : α → σ → Except ε Unit × σ} {view : σ → κ → Option β}
    {fails : α → Bool} {place : α → K → κ} {key : K}
    (empties : Empties step view fails fun item => place item key) (items : List α)
    (state : σ) :
    ClearsHealthy view fails place items key state (tryForEach step items state).2 ↔
      ReachesHealthy view fails place items key state := by
  rcases empties.view_tryForEach items state with ⟨cleared, unchanged⟩
  constructor
  · intro clears item member healthy
    rcases clears item member healthy with ⟨gone, kept⟩
    constructor
    · intro held
      by_contra missed
      rw [unchanged _ missed] at gone
      exact held gone
    · intro other different held early earlyMem same
      have keptOther := kept other different
      rw [cleared _ ⟨early, earlyMem, same⟩] at keptOther
      exact held keptOther.symm
  · intro reaches item member healthy
    rcases reaches item member healthy with ⟨held, apart⟩
    constructor
    · by_cases early : ∃ early ∈ reached fails items, place early key = place item key
      · exact cleared _ early
      · rw [unchanged _ early]
        by_contra holds
        exact early (held holds)
    · intro other different
      by_cases early : ∃ early ∈ reached fails items, place early key = place item other
      · rw [cleared _ early]
        by_contra holds
        rcases early with ⟨early, earlyMem, same⟩
        exact apart other different (fun none => holds none.symm) early earlyMem same
      · exact unchanged _ early

end PushCache.Log
