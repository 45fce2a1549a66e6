import PushCache.Java.StartupChecks
import PushCache.StartupTools

/-!
# The retry loops of the Java service

`StartupCheckService.runCheck` and `HamsService.runCheck` are the loop of
`run_check` with a signed counter and a sleep that may not complete:
`Thread.sleep` refuses a negative time, and ends early when the thread is
interrupted.  Either exception leaves the loop.
-/

namespace PushCache.Java

open PushCache.Retry PushCache.Transition

/-- `Duration`, in nanoseconds. -/
structure Duration where
  nanos : Int

/-- The milliseconds of a duration, without the excess precision. -/
def Duration.millis (duration : Duration) : Int :=
  duration.nanos.tdiv 1000000

/-- `Duration.toMillis`. -/
def Duration.toMillis (duration : Duration) : Except JavaException Int :=
  if -2 ^ 63 ≤ duration.millis ∧ duration.millis < 2 ^ 63 then .ok duration.millis
  else .error ⟨"long overflow"⟩

/-- `Thread.sleep`, with the exception that the caller throws when it is
interrupted. -/
def threadSleep (millis : Int) (interrupted : Bool) (onInterrupt : JavaException) :
    Except JavaException Int :=
  if millis < 0 then .error ⟨"timeout value is negative"⟩
  else if interrupted then .error onInterrupt
  else .ok millis

namespace StartupCheckService

/-- `StartupCheckConfig`, with the time between two attempts. -/
structure TimedCheckConfig extends StartupCheckConfig where
  timeout : Duration

/-- The sleep of `runCheck`. -/
def pause (config : TimedCheckConfig) (interrupted : Bool) : Except JavaException Int :=
  match config.timeout.toMillis with
  | .error thrown => .error thrown
  | .ok millis => threadSleep millis interrupted ⟨"Interrupted while waiting for retry"⟩

/-- The exception of a check that has used up its attempts. -/
def checkFailed (name : String) (config : StartupCheckConfig) : JavaException :=
  ⟨"Check " ++ name ++ " failed after " ++ toString config.fails ++ " attempts"⟩

/-- One pass through the loop of `runCheck`. -/
def runCheckPass (name : String) (config : TimedCheckConfig) (interrupted : Nat → Bool)
    (check : Nat → Except JavaException Unit) :
    Locals Int32 Int → Locals Int32 Int ⊕ Run JavaException Unit Int :=
  Retry.pass .int32 (fun attempt => pause config (interrupted attempt))
    (checkFailed name config.toStartupCheckConfig) check

/-- `runCheck` returns or throws, after the events of the run. -/
def RunCheck (name : String) (config : TimedCheckConfig) (interrupted : Nat → Bool)
    (check : Nat → Except JavaException Unit) (run : Run JavaException Unit Int) : Prop :=
  Leaves (runCheckPass name config interrupted check) (start config.fails) run

end StartupCheckService

namespace HamsService

/-- The sleep of `runCheck`. -/
def pause (timeoutSec : Int32) (interrupted : Bool) : Except JavaException Int :=
  threadSleep (timeoutSec.toInt * 1000) interrupted ⟨"Interrupted"⟩

/-- One pass through the loop of `runCheck`. -/
def runCheckPass (name : String) (timeoutSec : Int32) (interrupted : Nat → Bool)
    (check : Nat → Except JavaException Unit) :
    Locals Int32 Int → Locals Int32 Int ⊕ Run JavaException Unit Int :=
  Retry.pass .int32 (fun attempt => pause timeoutSec (interrupted attempt))
    ⟨name ++ " Failed"⟩ check

/-- `runCheck` returns or throws, after the events of the run. -/
def RunCheck (name : String) (retries timeoutSec : Int32) (interrupted : Nat → Bool)
    (check : Nat → Except JavaException Unit) (run : Run JavaException Unit Int) : Prop :=
  Leaves (runCheckPass name timeoutSec interrupted check) (start retries) run

end HamsService

/-! ## Sleeps that complete -/

theorem threadSleep_isOk (millis : Int) (onInterrupt : JavaException) :
    (threadSleep millis false onInterrupt).isOk = true ↔ 0 ≤ millis := by
  rw [threadSleep]
  split
  · next negative => exact iff_of_false Bool.false_ne_true (not_le.mpr negative)
  · next nonneg => exact iff_of_true rfl (not_lt.mp nonneg)

theorem threadSleep_eq_ok {millis completed : Int} {interrupted : Bool}
    {onInterrupt : JavaException}
    (slept : threadSleep millis interrupted onInterrupt = .ok completed) :
    completed = millis := by
  rw [threadSleep] at slept
  split at slept
  · cases slept
  · split at slept
    · cases slept
    · exact (Except.ok.inj slept).symm

namespace StartupCheckService

theorem pause_of_fits {config : TimedCheckConfig} {interrupted : Bool}
    (fits : -2 ^ 63 ≤ config.timeout.millis ∧ config.timeout.millis < 2 ^ 63) :
    pause config interrupted =
      threadSleep config.timeout.millis interrupted ⟨"Interrupted while waiting for retry"⟩ := by
  rw [pause, Duration.toMillis, if_pos fits]

theorem pause_of_overflow {config : TimedCheckConfig} {interrupted : Bool}
    (overflow : ¬(-2 ^ 63 ≤ config.timeout.millis ∧ config.timeout.millis < 2 ^ 63)) :
    pause config interrupted = .error ⟨"long overflow"⟩ := by
  rw [pause, Duration.toMillis, if_neg overflow]

theorem pause_isOk (config : TimedCheckConfig) :
    (pause config false).isOk = true ↔
      0 ≤ config.timeout.millis ∧ config.timeout.millis < 2 ^ 63 := by
  by_cases fits : -2 ^ 63 ≤ config.timeout.millis ∧ config.timeout.millis < 2 ^ 63
  · rw [pause_of_fits fits, threadSleep_isOk, and_iff_left fits.2]
  · rw [pause_of_overflow fits]
    exact iff_of_false Bool.false_ne_true fun accepted => fits ⟨by omega, accepted.2⟩

theorem pause_eq_ok {config : TimedCheckConfig} {interrupted : Bool} {completed : Int}
    (slept : pause config interrupted = .ok completed) : completed = config.timeout.millis := by
  by_cases fits : -2 ^ 63 ≤ config.timeout.millis ∧ config.timeout.millis < 2 ^ 63
  · rw [pause_of_fits fits] at slept
    exact threadSleep_eq_ok slept
  · rw [pause_of_overflow fits] at slept
    cases slept

/-- The attempts among the events of a run. -/
def attemptsOf (events : List (Event Int)) : List Nat :=
  events.filterMap fun
    | .attempt index => some index
    | .sleep _ => none

theorem attemptsOf_concat_attempt (events : List (Event Int)) (index : Nat) :
    attemptsOf (events ++ [.attempt index]) = attemptsOf events ++ [index] := by
  rw [attemptsOf, List.filterMap_append]
  rfl

theorem attemptsOf_concat_sleep (events : List (Event Int)) (wait : Int) :
    attemptsOf (events ++ [.sleep wait]) = attemptsOf events := by
  rw [attemptsOf, List.filterMap_append]
  exact List.append_nil _

/-- While every sleep completes, `runAttempts` is this loop. -/
theorem leaves_runAttempts (name : String) {config : TimedCheckConfig}
    (check : Nat → Except JavaException Unit)
    (completes : pause config false = .ok config.timeout.millis) (locals : Locals Int32 Int) :
    ∃ run, Leaves (runCheckPass name config (fun _ => false) check) locals run ∧
      runAttempts name config.toStartupCheckConfig (fun _ => false)
          (fun attempt attempts => (check attempt, attempts ++ [attempt]))
          (Countdown.int32.budget locals.remaining) locals.attempts (attemptsOf locals.events) =
        (run.1, attemptsOf run.2) := by
  induction counted : Countdown.int32.budget locals.remaining generalizing locals with
  | zero => exact ⟨_, .leave (pass_of_exhausted counted), rfl⟩
  | succ budget ih =>
      cases attempted : check locals.attempts with
      | ok value =>
          refine ⟨_, .leave (pass_of_ok counted attempted), ?_⟩
          simp only [runAttempts, attempted, attemptsOf_concat_attempt]
      | error error =>
          have failed : (check locals.attempts).isOk = false := by
            rw [attempted]
            rfl
          simp only [runAttempts, attempted, Bool.false_eq_true, and_false, if_false]
          cases budget with
          | zero =>
              have spent := Countdown.budget_decrement_of_budget counted
              refine ⟨_, (Leaves.leave (pass_of_exhausted spent)).again
                (pass_of_last_error counted failed), ?_⟩
              simp only [runAttempts, checkFailed, attemptsOf_concat_attempt]
          | succ budget =>
              rcases ih ⟨Countdown.int32.decrement locals.remaining, locals.attempts + 1,
                locals.events ++ [.attempt locals.attempts] ++ [.sleep config.timeout.millis]⟩
                (Countdown.budget_decrement_of_budget counted) with ⟨run, leaves, same⟩
              refine ⟨run, leaves.again (pass_of_paused counted failed completes), ?_⟩
              rw [← same]
              simp only [attemptsOf_concat_sleep, attemptsOf_concat_attempt]

/-- While every sleep completes, the check of the start-up checks is this loop. -/
theorem runCheck_of_runCheck {name : String} {config : TimedCheckConfig}
    {check : Nat → Except JavaException Unit} {run : Run JavaException Unit Int}
    (completes : (pause config false).isOk = true)
    (runs : RunCheck name config (fun _ => false) check run) :
    runCheck name config.toStartupCheckConfig (fun _ => false)
        (fun attempt attempts => (check attempt, attempts ++ [attempt])) [] =
      (run.1, attemptsOf run.2) := by
  have slept : pause config false = .ok config.timeout.millis := by
    cases paused : pause config false with
    | ok completed => rw [pause_eq_ok paused]
    | error thrown =>
        rw [paused] at completes
        cases completes
  rcases leaves_runAttempts name check slept (start config.fails) with
    ⟨other, leaves, same⟩
  rw [(Leaves.iff_eq runs other).mp leaves] at same
  exact same

end StartupCheckService

/-! ## The three loops -/

/-- Each loop always ends, in one way only.  `run_check` keeps to its budget; a loop of
the Java service, when nothing interrupts it, does so exactly when its sleep is one that
`Thread.sleep` accepts, or no sleep is reached. -/
theorem runChecks_keep_to_budget {T : Type*} (name : String)
    (rustConfig : PushCache.StartupCheckConfig) (makeFuture : Nat → Except MyError T)
    (config : StartupCheckService.TimedCheckConfig) (retries timeoutSec : Int32)
    (check : Nat → Except JavaException Unit) :
    (∃ run, (∀ other, RunCheck name rustConfig makeFuture other ↔ other = run) ∧
      Budgeted rustConfig.timeout (checkFailed name rustConfig) rustConfig.fails.toNat
        makeFuture run) ∧
    (∃ run,
      (∀ other, StartupCheckService.RunCheck name config (fun _ => false) check other ↔
        other = run) ∧
      (Budgeted config.timeout.millis
          (StartupCheckService.checkFailed name config.toStartupCheckConfig)
          config.fails.toInt.toNat check run ↔
        (0 ≤ config.timeout.millis ∧ config.timeout.millis < 2 ^ 63) ∨
          config.fails.toInt.toNat ≤ 1 ∨ (check 0).isOk = true)) ∧
    ∃ run,
      (∀ other, HamsService.RunCheck name retries timeoutSec (fun _ => false) check other ↔
        other = run) ∧
      (Budgeted (timeoutSec.toInt * 1000) (⟨name ++ " Failed"⟩ : JavaException)
          retries.toInt.toNat check run ↔
        0 ≤ timeoutSec.toInt ∨ retries.toInt.toNat ≤ 1 ∨ (check 0).isOk = true) := by
  refine ⟨?_, ?_, ?_⟩
  · rcases exists_runCheck_budgeted name rustConfig makeFuture with ⟨run, leaves, budgeted⟩
    exact ⟨run, leaves.iff_eq, budgeted⟩
  · rcases exists_leaves_budgeted_iff .int32 config.fails
      (StartupCheckService.checkFailed name config.toStartupCheckConfig) check
      (StartupCheckService.pause config false)
      (fun completed slept => StartupCheckService.pause_eq_ok slept) with ⟨run, leaves, budgeted⟩
    rw [StartupCheckService.pause_isOk] at budgeted
    exact ⟨run, leaves.iff_eq, budgeted⟩
  · rcases exists_leaves_budgeted_iff .int32 retries (⟨name ++ " Failed"⟩ : JavaException) check
      (HamsService.pause timeoutSec false)
      (fun completed slept => threadSleep_eq_ok slept) with ⟨run, leaves, budgeted⟩
    have accepted : (HamsService.pause timeoutSec false).isOk = true ↔ 0 ≤ timeoutSec.toInt := by
      rw [HamsService.pause, threadSleep_isOk]
      omega
    rw [accepted] at budgeted
    exact ⟨run, leaves.iff_eq, budgeted⟩

end PushCache.Java

namespace PushCache.Sample

open PushCache.Java PushCache.Retry

/-- Two attempts, with a wait of minus one second. -/
def negativeWait : StartupCheckService.TimedCheckConfig where
  fails := 2
  enabled := true
  timeout := ⟨-1000000000⟩

/-- A check that passes from its second attempt on. -/
def secondTry : Nat → Except JavaException Unit
  | 0 => .error ⟨"Connection refused"⟩
  | _ + 1 => .ok ()

/-- The second attempt is within the budget and would pass, but the sleep before it is
refused. -/
theorem runCheck_stops_at_refused_sleep :
    StartupCheckService.RunCheck "Kafka Metadata Connectivity" negativeWait (fun _ => false)
        secondTry (.error ⟨"timeout value is negative"⟩, [.attempt 0]) ∧
      1 < negativeWait.fails.toInt.toNat ∧ secondTry 1 = .ok () ∧
        ¬Budgeted negativeWait.timeout.millis
          (StartupCheckService.checkFailed "Kafka Metadata Connectivity"
            negativeWait.toStartupCheckConfig)
          negativeWait.fails.toInt.toNat secondTry
          (.error ⟨"timeout value is negative"⟩, [.attempt 0]) :=
  ⟨⟨1, rfl⟩, by decide, rfl, not_budgeted_of_one_attempt (by decide) rfl⟩

end PushCache.Sample
