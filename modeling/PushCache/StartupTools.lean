import PushCache.Error
import PushCache.Retry.Core

/-!
# The retry loop of the start-up checks

`run_check` retries a check until it passes or the configured number of attempts
is used up.  The sleep between two attempts always completes.
-/

namespace PushCache

open PushCache.Retry PushCache.Transition

/-- `StartupCheckConfig`, as far as `run_check` reads it; the timeout in
nanoseconds. -/
structure StartupCheckConfig where
  fails : UInt32
  timeout : Nat

/-- The error of a check that has used up its attempts. -/
def checkFailed (name : String) (config : StartupCheckConfig) : MyError :=
  .message s!"Check {name} failed after {config.fails} attempts"

/-- One pass through the loop of `run_check`.  `makeFuture` gives the outcome of
each attempt. -/
def runCheckPass {T : Type*} (name : String) (config : StartupCheckConfig)
    (makeFuture : Nat → Except MyError T) :
    Locals UInt32 Nat → Locals UInt32 Nat ⊕ Run MyError T Nat :=
  Retry.pass .uint32 (fun _ => .ok config.timeout) (checkFailed name config) makeFuture

/-- `run_check` returns, after the events of the run. -/
def RunCheck {T : Type*} (name : String) (config : StartupCheckConfig)
    (makeFuture : Nat → Except MyError T) (run : Run MyError T Nat) : Prop :=
  Leaves (runCheckPass name config makeFuture) (start config.fails) run

/-- `run_check` returns, with a run that keeps to its budget. -/
theorem exists_runCheck_budgeted {T : Type*} (name : String) (config : StartupCheckConfig)
    (makeFuture : Nat → Except MyError T) :
    ∃ run, RunCheck name config makeFuture run ∧
      Budgeted config.timeout (checkFailed name config) config.fails.toNat makeFuture run := by
  rcases exists_leaves_budgeted_iff .uint32 config.fails (checkFailed name config) makeFuture
    (.ok config.timeout) (fun completed slept => (Except.ok.inj slept).symm) with
    ⟨run, leaves, budgeted⟩
  exact ⟨run, leaves, budgeted.mpr (Or.inl rfl)⟩

/-- A check that passes at its second attempt makes two, with one sleep between them. -/
example :
    let secondTry : Nat → Except MyError Nat
      | 0 => .error (.message "fail")
      | _ + 1 => .ok 42
    loopFor (runCheckPass "test_check_retry" ⟨3, 1000000⟩ secondTry) 2 (start 3) =
      .inr (.ok 42, [.attempt 0, .sleep 1000000, .attempt 1]) :=
  rfl

end PushCache
