import Mathlib.Algebra.Ring.Nat
import PushCache.Retry.Core

/-!
# One budget for several tasks

A loop over tasks attempts each until it succeeds, and pauses after every failure.
All tasks draw on one budget: as soon as it is used up nothing more is attempted, and
the whole loop has failed.  The file says how such a loop ends, with how much left and
after which attempts.
-/

namespace PushCache.Retry.Shared

open PushCache.Transition

variable {τ γ : Type*}

/-- What happens: an attempt at a task, or a pause. -/
inductive Happening (τ : Type*) where
  | attempt (task : τ)
  | pause
  deriving DecidableEq

/-- The locals of the two loops: the tasks that are left, the number of the first of
them, the attempts made at it, and what is left of the budget. -/
structure Locals (τ γ : Type*) where
  tasks : List τ
  position : Nat
  attempts : Nat
  remaining : γ
  events : List (Happening τ)

/-- How the loop ends: with what is left of the budget, unless it is used up. -/
abbrev Ending (τ γ : Type*) := Option γ × List (Happening τ)

/-- The locals before the first pass. -/
def start (tasks : List τ) (remaining : γ) : Locals τ γ := ⟨tasks, 0, 0, remaining, []⟩

/-- One pass: an attempt, if there is a budget.  A failure costs one unit and a pause,
and a success leads to the next task. -/
def pass (counter : Countdown γ) (fails : Nat → Nat → Bool) (locals : Locals τ γ) :
    Locals τ γ ⊕ Ending τ γ :=
  match locals.tasks with
  | [] =>
      .inr (if counter.positive locals.remaining then some locals.remaining else none,
        locals.events)
  | task :: tasks =>
      if counter.positive locals.remaining then
        if fails locals.position locals.attempts then
          .inl ⟨task :: tasks, locals.position, locals.attempts + 1,
            counter.decrement locals.remaining, locals.events ++ [.attempt task, .pause]⟩
        else
          .inl ⟨tasks, locals.position + 1, 0, locals.remaining,
            locals.events ++ [.attempt task]⟩
      else
        .inl ⟨tasks, locals.position + 1, 0, locals.remaining, locals.events⟩

/-! ## What the tasks cost -/

/-- The task succeeds after so many failures. -/
structure SucceedsAfter (fails : Nat → Nat → Bool) (position failures : Nat) : Prop where
  failed : ∀ earlier < failures, fails position earlier = true
  succeeded : fails position failures = false

/-- The tasks succeed one after the other, each after its own number of failures. -/
inductive Costs (fails : Nat → Nat → Bool) : Nat → List τ → List Nat → Prop
  | done (position : Nat) : Costs fails position [] []
  | task {position failures : Nat} {task : τ} {tasks : List τ} {later : List Nat}
      (own : SucceedsAfter fails position failures)
      (rest : Costs fails (position + 1) tasks later) :
      Costs fails position (task :: tasks) (failures :: later)

/-- So many failures at a task, each with its pause. -/
def failuresAt (task : τ) (failures : Nat) : List (Happening τ) :=
  (List.replicate failures [.attempt task, .pause]).flatten

/-- What happens until every task has succeeded. -/
def visits (tasks : List τ) (costs : List Nat) : List (Happening τ) :=
  (tasks.zipWith (fun task failures => failuresAt task failures ++ [.attempt task]) costs).flatten

/-- The pauses among the events. -/
def pauses (events : List (Happening τ)) : Nat :=
  events.countP fun
    | .attempt _ => false
    | .pause => true

variable {fails : Nat → Nat → Bool} {position failures budget : Nat} {task : τ}
  {tasks : List τ} {costs : List Nat}

theorem SucceedsAfter.unique {other : Nat} (first : SucceedsAfter fails position failures)
    (second : SucceedsAfter fails position other) : failures = other := by
  rcases Nat.lt_trichotomy failures other with before | same | after
  · exact absurd (second.failed failures before) (by rw [first.succeeded]; exact Bool.noConfusion)
  · exact same
  · exact absurd (first.failed other after) (by rw [second.succeeded]; exact Bool.noConfusion)

theorem Costs.unique {other : List Nat} (first : Costs fails position tasks costs)
    (second : Costs fails position tasks other) : costs = other := by
  induction first generalizing other with
  | done => cases second; rfl
  | task own _ ih =>
      cases second with
      | task otherOwn otherRest => rw [own.unique otherOwn, ih otherRest]

/-- The tasks before one that fails as often as there is a budget left for it have used
up no more than the rest. -/
theorem Costs.exceeds_of_failures {first later : List τ} {spent : List Nat} {more : Nat}
    (before : Costs fails position first spent)
    (failed : ∀ attempt < more, fails (position + first.length) attempt = true)
    (costs' : Costs fails position (first ++ task :: later) costs) :
    spent.sum + more ≤ costs.sum := by
  induction before generalizing costs with
  | done position =>
      cases costs' with
      | @task _ failures _ _ later own rest =>
          have many : more ≤ failures := by
            refine Nat.not_lt.mp fun few => ?_
            have failing := failed failures few
            rw [List.length_nil, Nat.add_zero, own.succeeded] at failing
            cases failing
          rw [List.sum_nil, Nat.zero_add, List.sum_cons]
          exact Nat.le_add_right_of_le many
  | @task position failures task tasks later own rest ih =>
      cases costs' with
      | @task _ other _ _ otherLater otherOwn otherRest =>
          have shift : position + (task :: tasks).length = position + 1 + tasks.length := by
            rw [List.length_cons]
            omega
          rw [shift] at failed
          have rest := ih failed otherRest
          rw [List.sum_cons, List.sum_cons, own.unique otherOwn, Nat.add_assoc]
          exact Nat.add_le_add_left rest other

/-- Within a number of attempts a task succeeds or always fails. -/
theorem succeedsAfter_or (fails : Nat → Nat → Bool) (position budget : Nat) :
    (∃ failures < budget, SucceedsAfter fails position failures) ∨
      ∀ attempt < budget, fails position attempt = true := by
  induction budget with
  | zero => exact Or.inr fun _ below => absurd below (Nat.not_lt_zero _)
  | succ budget ih =>
      rcases ih with ⟨failures, below, succeeds⟩ | failed
      · exact Or.inl ⟨failures, Nat.lt_succ_of_lt below, succeeds⟩
      · cases last : fails position budget with
        | false => exact Or.inl ⟨budget, Nat.lt_succ_self budget, failed, last⟩
        | true =>
            right
            intro attempt below
            rcases Nat.lt_succ_iff_lt_or_eq.mp below with before | rfl
            · exact failed attempt before
            · exact last

/-- Only the number of tasks matters to what they cost. -/
theorem Costs.of_length {σ : Type*} {others : List σ} (succeed : Costs fails position tasks costs)
    (same : others.length = tasks.length) : Costs fails position others costs := by
  induction succeed generalizing others with
  | done position =>
      rw [List.length_eq_zero_iff.mp same]
      exact .done position
  | @task position failures task tasks later own rest ih =>
      cases others with
      | nil => cases same
      | cons other others => exact .task own (ih (Nat.succ.inj same))

/-! ## What happens, and how often the loop pauses -/

theorem pauses_append (events later : List (Happening τ)) :
    pauses (events ++ later) = pauses events + pauses later :=
  List.countP_append

theorem failuresAt_succ (task : τ) (failures : Nat) :
    failuresAt task (failures + 1) = [.attempt task, .pause] ++ failuresAt task failures := by
  rw [failuresAt, List.replicate_succ, List.flatten_cons, ← failuresAt]

theorem pauses_failuresAt (task : τ) (failures : Nat) :
    pauses (failuresAt task failures) = failures := by
  induction failures with
  | zero => rfl
  | succ failures ih =>
      rw [failuresAt_succ, pauses_append, ih, Nat.add_comm]
      rfl

theorem visits_cons (task : τ) (tasks : List τ) (failures : Nat) (later : List Nat) :
    visits (task :: tasks) (failures :: later) =
      failuresAt task failures ++ [.attempt task] ++ visits tasks later := by
  rw [visits, List.zipWith_cons_cons, List.flatten_cons, ← visits]

theorem Costs.pauses_visits (succeed : Costs fails position tasks costs) :
    pauses (visits tasks costs) = costs.sum := by
  induction succeed with
  | done => rfl
  | @task position failures task tasks later own rest ih =>
      rw [visits_cons, pauses_append, pauses_append, pauses_failuresAt, ih, List.sum_cons]
      rfl

/-! ## The loop -/

section Loop

variable {counter : Countdown γ} {attempts : Nat} {remaining : γ} {events : List (Happening τ)}
  {ending : Ending τ γ}

theorem pass_of_failure {more : Nat} (left : counter.budget remaining = more + 1)
    (failed : fails position attempts = true) :
    pass counter fails ⟨task :: tasks, position, attempts, remaining, events⟩ =
      .inl ⟨task :: tasks, position, attempts + 1, counter.decrement remaining,
        events ++ [.attempt task, .pause]⟩ := by
  simp only [pass, counter.positive_of_budget left, failed, if_true]

theorem pass_of_success (left : 0 < counter.budget remaining)
    (succeeded : fails position attempts = false) :
    pass counter fails ⟨task :: tasks, position, attempts, remaining, events⟩ =
      .inl ⟨tasks, position + 1, 0, remaining, events ++ [.attempt task]⟩ := by
  simp only [pass, (counter.positive_iff remaining).mpr left, succeeded, if_true,
    Bool.false_eq_true, if_false]

/-- Without a budget, nothing more happens. -/
theorem leaves_of_spent (spent : counter.budget remaining = 0) :
    Leaves (pass counter fails) ⟨tasks, position, attempts, remaining, events⟩ (none, events) := by
  have stopped := counter.not_positive_of_budget spent
  induction tasks generalizing position attempts with
  | nil =>
      apply Leaves.leave
      simp only [pass, stopped]
      rfl
  | cons task tasks ih =>
      have passed : pass counter fails ⟨task :: tasks, position, attempts, remaining, events⟩ =
          .inl ⟨tasks, position + 1, 0, remaining, events⟩ := by
        simp only [pass, stopped]
        rfl
      exact Leaves.again passed ih

/-- Failures within the budget lead to the next attempt, with that much less of it. -/
theorem exists_rest_of_failures (task : τ) (tasks : List τ) (attempts : Nat)
    (events : List (Happening τ)) {left : Nat}
    (budgeted : counter.budget remaining = left + failures)
    (failed : ∀ earlier < failures, fails position (attempts + earlier) = true) :
    ∃ rest, counter.budget rest = left ∧ ∀ ending,
      Leaves (pass counter fails) ⟨task :: tasks, position, attempts + failures, rest,
        events ++ failuresAt task failures⟩ ending →
      Leaves (pass counter fails) ⟨task :: tasks, position, attempts, remaining, events⟩
        ending := by
  induction failures generalizing attempts remaining events with
  | zero =>
      refine ⟨remaining, budgeted, fun ending leaves => ?_⟩
      rwa [Nat.add_zero, failuresAt, List.replicate_zero, List.flatten_nil,
        List.append_nil] at leaves
  | succ failures ih =>
      have fewer := counter.budget_decrement_of_budget budgeted
      have failedLater : ∀ earlier < failures,
          fails position (attempts + 1 + earlier) = true := by
        intro earlier below
        rw [Nat.add_right_comm, Nat.add_assoc]
        exact failed (earlier + 1) (Nat.succ_lt_succ below)
      rcases ih (attempts + 1) (events ++ [.attempt task, .pause]) fewer failedLater with
        ⟨rest, restLeft, leads⟩
      refine ⟨rest, restLeft, fun ending leaves => ?_⟩
      apply Leaves.again (pass_of_failure budgeted (failed 0 (Nat.succ_pos failures)))
      apply leads
      rwa [failuresAt_succ, ← List.append_assoc, ← Nat.add_assoc,
        Nat.add_right_comm attempts] at leaves

/-- How the loop ends.  It may have no budget at all, or bring every task to its
success, or use up its budget at one task after the success of those before. -/
inductive Ends (counter : Countdown γ) (fails : Nat → Nat → Bool) (position : Nat)
    (tasks : List τ) (budget : Nat) : Ending τ γ → Prop
  | unbudgeted (none : budget = 0) : Ends counter fails position tasks budget (.none, [])
  | done {costs : List Nat} {rest : γ} (succeed : Costs fails position tasks costs)
      (left : 0 < counter.budget rest) (counted : counter.budget rest + costs.sum = budget) :
      Ends counter fails position tasks budget (some rest, visits tasks costs)
  | spent {first later : List τ} {task : τ} {costs : List Nat} {more : Nat}
      (split : tasks = first ++ task :: later) (before : Costs fails position first costs)
      (failed : ∀ attempt < more + 1, fails (position + first.length) attempt = true)
      (counted : costs.sum + (more + 1) = budget) :
      Ends counter fails position tasks budget
        (none, visits first costs ++ failuresAt task (more + 1))

/-- A task that succeeds, in front of the rest. -/
theorem Ends.cons {left : Nat} (task : τ) (own : SucceedsAfter fails position failures)
    (rest : Ends counter fails (position + 1) tasks left ending) (more : 0 < left) :
    Ends counter fails position (task :: tasks) (left + failures)
      (ending.1, failuresAt task failures ++ [.attempt task] ++ ending.2) := by
  cases rest with
  | unbudgeted none => exact absurd none (Nat.ne_of_gt more)
  | @done costs rest succeed leftOver counted =>
      rw [← visits_cons]
      apply Ends.done (.task own succeed) leftOver
      rw [List.sum_cons, ← counted]
      omega
  | @spent first later last costs more split before failed counted =>
      rw [← List.append_assoc, ← visits_cons]
      have splitCons : task :: tasks = (task :: first) ++ last :: later := by
        rw [split, List.cons_append]
      apply Ends.spent splitCons (.task own before)
      · intro attempt below
        have shift : position + (task :: first).length = position + 1 + first.length := by
          rw [List.length_cons]
          omega
        rw [shift]
        exact failed attempt below
      · rw [List.sum_cons, ← counted]
        omega

/-- From the first attempt at a task, the loop ends in one of the three ways. -/
theorem exists_leaves (counter : Countdown γ) (fails : Nat → Nat → Bool) (tasks : List τ)
    (position : Nat) (remaining : γ) (events : List (Happening τ)) :
    ∃ ending : Ending τ γ,
      Leaves (pass counter fails) ⟨tasks, position, 0, remaining, events⟩
        (ending.1, events ++ ending.2) ∧
      Ends counter fails position tasks (counter.budget remaining) ending := by
  induction tasks generalizing position remaining events with
  | nil =>
      rcases Nat.eq_zero_or_pos (counter.budget remaining) with spent | left
      · refine ⟨(none, []), ?_, .unbudgeted spent⟩
        rw [List.append_nil]
        exact leaves_of_spent spent
      · refine ⟨(some remaining, []), ?_, .done (.done position) left rfl⟩
        apply Leaves.leave
        simp only [pass, (counter.positive_iff remaining).mpr left, if_true, List.append_nil]
  | cons task tasks ih =>
      rcases Nat.eq_zero_or_pos (counter.budget remaining) with spent | left
      · refine ⟨(none, []), ?_, .unbudgeted spent⟩
        rw [List.append_nil]
        exact leaves_of_spent spent
      rcases succeedsAfter_or fails position (counter.budget remaining) with
        ⟨failures, within, succeeds⟩ | failed
      · have budgeted := (Nat.sub_add_cancel (Nat.le_of_lt within)).symm
        have more : 0 < counter.budget remaining - failures := Nat.sub_pos_of_lt within
        rcases exists_rest_of_failures task tasks 0 events budgeted
          (fun earlier below => by rw [Nat.zero_add]; exact succeeds.failed earlier below) with
          ⟨rest, restLeft, leads⟩
        rcases ih (position + 1) rest
          (events ++ failuresAt task failures ++ [.attempt task]) with ⟨ending, leaves, ends⟩
        rw [restLeft] at ends
        refine ⟨(ending.1, failuresAt task failures ++ [.attempt task] ++ ending.2), ?_, ?_⟩
        · apply leads
          apply Leaves.again (pass_of_success (by rwa [restLeft]) (by
            rw [Nat.zero_add]
            exact succeeds.succeeded))
          simpa only [List.append_assoc] using leaves
        · have whole := Ends.cons task succeeds ends more
          rwa [← budgeted] at whole
      · obtain ⟨least, counted⟩ : ∃ least, counter.budget remaining = least + 1 :=
          ⟨counter.budget remaining - 1, (Nat.sub_add_cancel left).symm⟩
        rw [counted] at failed
        have budgeted : counter.budget remaining = 0 + (least + 1) := by
          rw [counted, Nat.zero_add]
        rcases exists_rest_of_failures task tasks 0 events budgeted
          (fun earlier below => by rw [Nat.zero_add]; exact failed earlier below) with
          ⟨rest, restLeft, leads⟩
        refine ⟨(none, failuresAt task (least + 1)), leads _ (leaves_of_spent restLeft), ?_⟩
        have split : task :: tasks = [] ++ task :: tasks := rfl
        exact Ends.spent split (.done position) failed
          (by rw [counted, List.sum_nil, Nat.zero_add])

/-! ## What an ending says -/

/-- What is left and the pauses are the budget. -/
theorem Ends.counted (ends : Ends counter fails position tasks budget ending) :
    (ending.1.elim 0 counter.budget) + pauses ending.2 = budget := by
  cases ends with
  | unbudgeted none => rw [none]; rfl
  | @done costs rest succeed left counted => rw [succeed.pauses_visits, Option.elim_some, counted]
  | @spent first later task costs more split before failed counted =>
      rw [pauses_append, before.pauses_visits, pauses_failuresAt, counted, Option.elim_none,
        Nat.zero_add]

theorem Ends.left_pos {rest : γ} {happened : List (Happening τ)}
    (ends : Ends counter fails position tasks budget (some rest, happened)) :
    0 < counter.budget rest := by
  cases ends with
  | done succeed left counted => exact left

/-- The loop succeeds exactly when the failures of all tasks are fewer than the budget. -/
theorem Ends.isSome_iff (ends : Ends counter fails position tasks budget ending) :
    ending.1.isSome = true ↔ ∃ costs, Costs fails position tasks costs ∧ costs.sum < budget := by
  cases ends with
  | unbudgeted none =>
      apply iff_of_false Bool.false_ne_true
      rintro ⟨costs, succeed, within⟩
      omega
  | @done costs rest succeed left counted =>
      exact iff_of_true rfl ⟨costs, succeed, by omega⟩
  | @spent first later task spent more split before failed counted =>
      apply iff_of_false Bool.false_ne_true
      rintro ⟨costs, succeed, within⟩
      rw [split] at succeed
      have exceeds := before.exceeds_of_failures failed succeed
      omega

/-- When the loop succeeds, this is what has happened. -/
theorem Ends.events_of_costs (ends : Ends counter fails position tasks budget ending)
    (succeed : Costs fails position tasks costs) (within : costs.sum < budget) :
    ending.2 = visits tasks costs := by
  cases ends with
  | unbudgeted none => omega
  | @done others rest othersSucceed left counted => rw [othersSucceed.unique succeed]
  | @spent first later task spent more split before failed counted =>
      rw [split] at succeed
      have exceeds := before.exceeds_of_failures failed succeed
      omega

end Loop

end PushCache.Retry.Shared
