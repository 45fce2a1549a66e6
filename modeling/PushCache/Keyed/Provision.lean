import PushCache.Transition.Core

/-!
# Provisioned entries

Some parties make sure that entries exist, and others change what an entry holds, in
any order.  An entry that is made holds a first content; no entry is ever dropped.  A
run then does to an entry what its edits do, from the first content or from what the
entry held before.
-/

namespace PushCache.Keyed

open PushCache.Transition

universe u v w x

variable {σ : Type u} {α : Type v} {N : Type w} {C : Type x}

/-- What the edits of the actions make of the content of an entry. -/
def edited (edit : α → N → C → C) (name : N) (actions : List α) (content : C) : C :=
  actions.foldl (fun content action => edit action name content) content

@[simp]
theorem edited_nil (edit : α → N → C → C) (name : N) (content : C) :
    edited edit name [] content = content :=
  rfl

@[simp]
theorem edited_cons (edit : α → N → C → C) (name : N) (action : α) (actions : List α)
    (content : C) :
    edited edit name (action :: actions) content =
      edited edit name actions (edit action name content) :=
  rfl

/-- What every edit keeps of a content is kept by all of them. -/
theorem edited_of_kept {edit : α → N → C → C} {name : N} {actions : List α} {kind : C → Prop}
    (kept : ∀ action ∈ actions, ∀ content, kind content → kind (edit action name content))
    {content : C} (holds : kind content) : kind (edited edit name actions content) :=
  List.foldlRecOn actions _ holds fun content held action member =>
    kept action member content held

/-- Every step keeps the invariant, edits the entries there are, and may make a wanted
one that is missing. -/
def Provisions (next : Step σ α) (invariant : σ → Prop) (view : σ → N → Option C)
    (edit : α → N → C → C) (fresh : N → C) (wanted : N → Prop) : Prop :=
  ∀ ⦃source action target⦄, invariant source → next source action = some target →
    invariant target ∧ ∀ name,
      view target name = (view source name).map (edit action name) ∨
        (view source name = none ∧ wanted name ∧ view target name = some (fresh name))

namespace Provisions

variable {next : Step σ α} {invariant : σ → Prop} {view : σ → N → Option C}
  {edit : α → N → C → C} {fresh : N → C} {wanted : N → Prop} {name : N} {content : C}

theorem preserved (provisions : Provisions next invariant view edit fresh wanted) :
    Preserved next invariant :=
  fun _ _ _ holds stepped => (provisions holds stepped).1

theorem step_of_some (provisions : Provisions next invariant view edit fresh wanted)
    {source target : σ} {action : α} (holds : invariant source)
    (stepped : next source action = some target) (held : view source name = some content) :
    view target name = some (edit action name content) := by
  rcases (provisions holds stepped).2 name with edits | ⟨missing, _⟩
  · rw [edits, held, Option.map_some]
  · rw [held] at missing
    cases missing

/-- An entry that is there is edited, by every action of the run. -/
theorem run_of_some (provisions : Provisions next invariant view edit fresh wanted)
    {start final : σ} {actions : List α} (initial : invariant start)
    (ran : run next start actions = some final) (held : view start name = some content) :
    view final name = some (edited edit name actions content) := by
  induction actions generalizing start content with
  | nil =>
      cases ran
      exact held
  | cons action actions ih =>
      rcases Option.bind_eq_some_iff.mp ran with ⟨middle, stepped, rest⟩
      exact ih (provisions initial stepped).1 rest
        (provisions.step_of_some initial stepped held)

/-- A missing entry stays missing, or is a wanted one that some step makes and the rest of
the run edits. -/
theorem run_of_none (provisions : Provisions next invariant view edit fresh wanted)
    {start final : σ} {actions : List α} (initial : invariant start)
    (ran : run next start actions = some final) (name : N) (missing : view start name = none) :
    view final name = none ∨
      (wanted name ∧ ∃ earlier later, actions = earlier ++ later ∧
        view final name = some (edited edit name later (fresh name))) := by
  induction actions generalizing start with
  | nil =>
      cases ran
      exact Or.inl missing
  | cons action actions ih =>
      rcases Option.bind_eq_some_iff.mp ran with ⟨middle, stepped, rest⟩
      rcases provisions initial stepped with ⟨kept, entries⟩
      rcases entries name with edits | ⟨_, wants, made⟩
      · rw [missing, Option.map_none] at edits
        rcases ih kept rest edits with still | ⟨wants, earlier, later, rfl, made⟩
        · exact Or.inl still
        · exact Or.inr ⟨wants, action :: earlier, later, rfl, made⟩
      · exact Or.inr ⟨wants, [action], actions, rfl, provisions.run_of_some kept rest made⟩

end Provisions

end PushCache.Keyed
