import PushCache.Log.Patch
import PushCache.Transition.Core

/-!
# Transitions that apply patches

When every step applies the patch of its action to what is seen of the state, a
run applies the combined patch of its actions: at each location the last action
that touches it decides.
-/

namespace PushCache.Log

open PushCache.Transition

universe u v w x

variable {σ : Type u} {α : Type v} {K : Type w} {C : Type x}

/-- Every admissible step keeps the invariant and applies the patch of its action
to the view. -/
def Applies (next : Step σ α) (invariant : σ → Prop) (admissible : α → Prop)
    (view : σ → K → C) (patch : α → Patch K C) : Prop :=
  ∀ ⦃source action target⦄, invariant source → admissible action →
    next source action = some target →
      invariant target ∧ view target = (patch action).apply (view source)

/-- A run of admissible actions applies their combined patch. -/
theorem Applies.of_run {next : Step σ α} {invariant : σ → Prop} {admissible : α → Prop}
    {view : σ → K → C} {patch : α → Patch K C}
    (applies : Applies next invariant admissible view patch) {start final : σ}
    {actions : List α} (initial : invariant start)
    (allowed : ∀ action ∈ actions, admissible action)
    (ran : run next start actions = some final) :
    invariant final ∧
      view final = (Patch.latest (actions.map patch)).apply (view start) := by
  induction actions generalizing start with
  | nil =>
      cases ran
      exact ⟨initial, rfl⟩
  | cons action actions ih =>
      rcases Option.bind_eq_some_iff.mp ran with ⟨middle, stepped, rest⟩
      rcases applies initial (allowed action List.mem_cons_self) stepped with ⟨kept, patched⟩
      rcases ih kept (fun other member => allowed other (List.mem_cons_of_mem action member))
        rest with ⟨keptLast, patchedLast⟩
      rw [patchedLast, patched, List.map_cons, Patch.apply_latest_cons]
      exact ⟨keptLast, rfl⟩

/-- What every step keeps anyway is kept as well. -/
theorem Applies.and_preserved {next : Step σ α} {invariant also : σ → Prop}
    {admissible : α → Prop} {view : σ → K → C} {patch : α → Patch K C}
    (applies : Applies next invariant admissible view patch) (preserved : Preserved next also) :
    Applies next (fun state => invariant state ∧ also state) admissible view patch := by
  intro source action target holds allowed stepped
  rcases applies holds.1 allowed stepped with ⟨kept, patched⟩
  exact ⟨⟨kept, preserved holds.2 stepped⟩, patched⟩

/-! ## Two systems side by side -/

section Lockstep

universe u' v' y

variable {τ : Type u'} {β : Type v'} {γ : Type y}

/-- A system that sits some actions out. -/
def idling (next : Step σ α) : Step σ (Option α)
  | state, some action => next state action
  | state, none => some state

/-- Two systems take a step each, or sit it out. -/
def lockstep (first : Step σ α) (second : Step τ β) (left : γ → Option α)
    (right : γ → Option β) : Step (σ × τ) γ :=
  fun states action =>
    match idling first states.1 (left action), idling second states.2 (right action) with
    | some one, some other => some (one, other)
    | _, _ => none

theorem lockstep_eq_some_iff {first : Step σ α} {second : Step τ β} {left : γ → Option α}
    {right : γ → Option β} {states next : σ × τ} {action : γ} :
    lockstep first second left right states action = some next ↔
      idling first states.1 (left action) = some next.1 ∧
        idling second states.2 (right action) = some next.2 := by
  rw [lockstep]
  cases idling first states.1 (left action) with
  | none => simp
  | some one =>
      cases idling second states.2 (right action) with
      | none => simp
      | some other => simp [Prod.ext_iff]

/-- The patch of an action that may be sat out. -/
def idlePatch (patch : α → Patch K C) : Option α → Patch K C
  | some action => patch action
  | none => fun _ => none

theorem Applies.idling {next : Step σ α} {invariant : σ → Prop} {admissible : α → Prop}
    {view : σ → K → C} {patch : α → Patch K C}
    (applies : Applies next invariant admissible view patch) :
    Applies (idling next) invariant (fun action => ∀ own, action = some own → admissible own) view
      (idlePatch patch) := by
  intro source action target holds allowed stepped
  cases action with
  | some action => exact applies holds (allowed action rfl) stepped
  | none =>
      cases stepped
      exact ⟨holds, rfl⟩

variable {first : Step σ α} {second : Step τ β} {left : γ → Option α} {right : γ → Option β}
  {firstInvariant : σ → Prop} {secondInvariant : τ → Prop} {firstAdmissible : α → Prop}
  {secondAdmissible : β → Prop} {firstView : σ → K → C} {secondView : τ → K → C}
  {firstPatch : α → Patch K C} {secondPatch : β → Patch K C}

/-- The two patches of an action leave the same on what the first system shows. -/
def PatchedAlike (left : γ → Option α) (right : γ → Option β) (firstView : σ → K → C)
    (firstPatch : α → Patch K C) (secondPatch : β → Patch K C) (states : σ × τ) (action : γ) :
    Prop :=
  (idlePatch firstPatch (left action)).apply (firstView states.1) =
    (idlePatch secondPatch (right action)).apply (firstView states.1)

/-- One step side by side: both invariants are kept, and the two show the same
afterwards exactly when their patches leave the same. -/
theorem Applies.lockstep_step
    (applies : Applies first firstInvariant firstAdmissible firstView firstPatch)
    (alsoApplies : Applies second secondInvariant secondAdmissible secondView secondPatch)
    {states next : σ × τ} {action : γ} (holds : firstInvariant states.1)
    (alsoHolds : secondInvariant states.2)
    (allowed : ∀ own, left action = some own → firstAdmissible own)
    (alsoAllowed : ∀ own, right action = some own → secondAdmissible own)
    (stepped : lockstep first second left right states action = some next) :
    firstInvariant next.1 ∧ secondInvariant next.2 ∧
      (firstView states.1 = secondView states.2 →
        (firstView next.1 = secondView next.2 ↔
          PatchedAlike left right firstView firstPatch secondPatch states action)) := by
  rcases lockstep_eq_some_iff.mp stepped with ⟨one, other⟩
  rcases applies.idling holds allowed one with ⟨kept, patched⟩
  rcases alsoApplies.idling alsoHolds alsoAllowed other with ⟨alsoKept, alsoPatched⟩
  refine ⟨kept, alsoKept, fun same => ?_⟩
  rw [patched, alsoPatched, ← same]
  rfl

theorem Applies.lockstep_invariants
    (applies : Applies first firstInvariant firstAdmissible firstView firstPatch)
    (alsoApplies : Applies second secondInvariant secondAdmissible secondView secondPatch)
    {start final : σ × τ} {actions : List γ} (holds : firstInvariant start.1)
    (alsoHolds : secondInvariant start.2)
    (allowed : ∀ action ∈ actions, ∀ own, left action = some own → firstAdmissible own)
    (alsoAllowed : ∀ action ∈ actions, ∀ own, right action = some own → secondAdmissible own)
    (ran : run (lockstep first second left right) start actions = some final) :
    firstInvariant final.1 ∧ secondInvariant final.2 := by
  induction actions generalizing start with
  | nil =>
      cases ran
      exact ⟨holds, alsoHolds⟩
  | cons action actions ih =>
      rcases Option.bind_eq_some_iff.mp ran with ⟨middle, stepped, rest⟩
      rcases applies.lockstep_step alsoApplies holds alsoHolds
        (allowed action List.mem_cons_self) (alsoAllowed action List.mem_cons_self) stepped with
        ⟨kept, alsoKept, _⟩
      exact ih kept alsoKept
        (fun other member => allowed other (List.mem_cons_of_mem action member))
        (fun other member => alsoAllowed other (List.mem_cons_of_mem action member)) rest

/-- Side by side, two systems that apply patches and show the same at first show the
same after every step exactly when the patches of each action leave the same on what
there is. -/
theorem Applies.lockstep_views_iff
    (applies : Applies first firstInvariant firstAdmissible firstView firstPatch)
    (alsoApplies : Applies second secondInvariant secondAdmissible secondView secondPatch)
    {start final : σ × τ} {actions : List γ}
    (holds : firstInvariant start.1) (alsoHolds : secondInvariant start.2)
    (same : firstView start.1 = secondView start.2)
    (allowed : ∀ action ∈ actions, ∀ own, left action = some own → firstAdmissible own)
    (alsoAllowed : ∀ action ∈ actions, ∀ own, right action = some own → secondAdmissible own)
    (ran : run (lockstep first second left right) start actions = some final) :
    Guarded (lockstep first second left right)
        (PatchedAlike left right firstView firstPatch secondPatch) start actions ↔
      ∀ earlier later reached, actions = earlier ++ later →
        run (lockstep first second left right) start earlier = some reached →
          firstView reached.1 = secondView reached.2 := by
  induction actions generalizing start with
  | nil =>
      refine iff_of_true trivial fun earlier later reached split reachedBy => ?_
      obtain rfl : earlier = [] := (List.append_eq_nil_iff.mp split.symm).1
      cases reachedBy
      exact same
  | cons action actions ih =>
      rcases Option.bind_eq_some_iff.mp ran with ⟨middle, stepped, rest⟩
      rcases applies.lockstep_step alsoApplies holds alsoHolds
        (allowed action List.mem_cons_self) (alsoAllowed action List.mem_cons_self) stepped with
        ⟨kept, alsoKept, alike⟩
      have later := fun sameThere => ih kept alsoKept sameThere
        (fun other member => allowed other (List.mem_cons_of_mem action member))
        (fun other member => alsoAllowed other (List.mem_cons_of_mem action member)) rest
      constructor
      · rintro ⟨here, there⟩ earlier remaining reached split reachedBy
        cases earlier with
        | nil =>
            cases reachedBy
            exact same
        | cons other earlier =>
            rcases List.cons_eq_cons.mp split with ⟨rfl, splitLater⟩
            rw [run_cons, stepped] at reachedBy
            exact (later ((alike same).mpr here)).mp (there middle stepped) earlier remaining
              reached splitLater reachedBy
      · intro everywhere
        have sameThere : firstView middle.1 = secondView middle.2 :=
          everywhere [action] actions middle rfl (by simp [stepped])
        refine ⟨(alike same).mp sameThere, fun other otherStep => ?_⟩
        obtain rfl : middle = other := Option.some.inj (stepped.symm.trans otherStep)
        refine (later sameThere).mpr fun earlier remaining reached split reachedBy => ?_
        apply everywhere (action :: earlier) remaining reached (by rw [split, List.cons_append])
        rw [run_cons, stepped]
        exact reachedBy

end Lockstep

end PushCache.Log
