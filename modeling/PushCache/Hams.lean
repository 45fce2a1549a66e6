import PushCache.Config
import PushCache.Retry.Shared

/-!
# The checks before the start and at the end

`preflight` and `shutdown` request each URL of their list until there is a response,
whatever its status.  The URLs of a list share the failures that are allowed, and a
failure is always followed by a sleep.
-/

namespace PushCache

open PushCache.Retry PushCache.Transition

/-- What a request brings: the status of a response, or no response. -/
abbrev Answer := Option Nat

/-- The errors of the checks. -/
inductive CheckError where
  | preflightCheck
  | shutdownCheck
  deriving DecidableEq

/-- `Checks`, with the timeout in seconds. -/
structure Checks where
  timeout : Nat
  fails : UInt32
  preflights : List Url
  shutdowns : List Url

namespace Checks

/-- `client.get(..).send().await.is_err()`, for each attempt at each URL. -/
def sendIsErr (answers : Nat → Nat → Answer) (position attempt : Nat) : Bool :=
  (answers position attempt).isNone

/-- The result of a list, from how its loop ends. -/
def toResult (exhausted : CheckError) (ending : Shared.Ending Url UInt32) :
    Except CheckError UInt32 × List (Shared.Happening Url) :=
  (ending.1.elim (.error exhausted) .ok, ending.2)

/-- The loops over a list of URLs return, after these requests and sleeps. -/
def RunAll (urls : List Url) (exhausted : CheckError) (fails : UInt32)
    (answers : Nat → Nat → Answer)
    (run : Except CheckError UInt32 × List (Shared.Happening Url)) : Prop :=
  ∃ ending, Leaves (Shared.pass .uint32 (sendIsErr answers)) (Shared.start urls fails) ending ∧
    run = toResult exhausted ending

/-- `preflight` returns. -/
def Preflight (checks : Checks) : (Nat → Nat → Answer) →
    Except CheckError UInt32 × List (Shared.Happening Url) → Prop :=
  RunAll checks.preflights .preflightCheck checks.fails

/-- `shutdown` returns. -/
def Shutdown (checks : Checks) : (Nat → Nat → Answer) →
    Except CheckError UInt32 × List (Shared.Happening Url) → Prop :=
  RunAll checks.shutdowns .shutdownCheck checks.fails

/-- The URLs of a list share one budget.  The list passes exactly when its failures
altogether are fewer; the requests are then those of each URL up to its first response.
What is left and the sleeps make up the budget. -/
structure SharesBudget (urls : List Url) (exhausted : CheckError) (fails : UInt32)
    (answers : Nat → Nat → Answer)
    (run : Except CheckError UInt32 × List (Shared.Happening Url)) : Prop where
  isOk_iff : run.1.isOk = true ↔
    ∃ costs, Shared.Costs (sendIsErr answers) 0 urls costs ∧ costs.sum < fails.toNat
  events : ∀ costs, Shared.Costs (sendIsErr answers) 0 urls costs → costs.sum < fails.toNat →
    run.2 = Shared.visits urls costs
  ok : ∀ left, run.1 = .ok left → 0 < left ∧ left.toNat + Shared.pauses run.2 = fails.toNat
  error : ∀ error, run.1 = .error error → error = exhausted ∧ Shared.pauses run.2 = fails.toNat

variable {urls : List Url} {exhausted : CheckError} {fails : UInt32}
  {answers : Nat → Nat → Answer} {ending : Shared.Ending Url UInt32}

theorem toResult_isOk : (toResult exhausted ending).1.isOk = ending.1.isSome := by
  rcases ending with ⟨_ | left, events⟩ <;> rfl

theorem sharesBudget_of_ends
    (ends : Shared.Ends .uint32 (sendIsErr answers) 0 urls fails.toNat ending) :
    SharesBudget urls exhausted fails answers (toResult exhausted ending) where
  isOk_iff := by rw [toResult_isOk, ends.isSome_iff]
  events costs succeed within := ends.events_of_costs succeed within
  ok left passed := by
    rcases ending with ⟨_ | rest, events⟩
    · cases passed
    · cases passed
      exact ⟨UInt32.lt_iff_toNat_lt.mpr ends.left_pos, ends.counted⟩
  error error failed := by
    rcases ending with ⟨_ | rest, events⟩
    · cases failed
      have counted := ends.counted
      rw [Option.elim_none, Nat.zero_add] at counted
      exact ⟨rfl, counted⟩
    · cases failed

/-- A list returns in one way only. -/
theorem exists_runAll (urls : List Url) (exhausted : CheckError) (fails : UInt32)
    (answers : Nat → Nat → Answer) :
    ∃ run, (∀ other, RunAll urls exhausted fails answers other ↔ other = run) ∧
      SharesBudget urls exhausted fails answers run := by
  rcases Shared.exists_leaves .uint32 (sendIsErr answers) urls 0 fails [] with
    ⟨ending, leaves, ends⟩
  rw [List.nil_append] at leaves
  refine ⟨toResult exhausted ending, fun other => ⟨?_, ?_⟩, sharesBudget_of_ends ends⟩
  · rintro ⟨otherEnding, otherLeaves, rfl⟩
    rw [(Leaves.iff_eq leaves otherEnding).mp otherLeaves]
  · rintro rfl
    exact ⟨ending, leaves, rfl⟩

end Checks

end PushCache
