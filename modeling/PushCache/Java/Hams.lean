import PushCache.Hams
import PushCache.Java.RunCheck
import Mathlib.Algebra.Order.BigOperators.Group.List
import Mathlib.Algebra.Order.Group.Nat

/-!
# The checks of the Java service before its start and at its end

`runPreflights` and `runShutdowns` retry each URL of their list with a budget of its
own, and give up at the first that uses it up.  A response with the status of an error
is a failure here.  The file compares this with the checks of the Rust service.
-/

namespace PushCache.Java

open PushCache.Retry PushCache.Transition

/-- `ChecksConfig`; the validation of the configuration keeps both numbers from being
negative. -/
structure ChecksConfig where
  timeout : Int32
  fails : Int32
  preflights : List String
  shutdowns : List String
  timeout_nonneg : 0 ≤ timeout.toInt
  fails_nonneg : 0 ≤ fails.toInt

namespace HamsService

/-- `restClient.get().uri(url).retrieve().toBodilessEntity()`. -/
def retrieve : Answer → Except JavaException Unit
  | none => .error ⟨"I/O error"⟩
  | some status => if 400 ≤ status ∧ status < 600 then .error ⟨toString status⟩ else .ok ()

/-- The check of one URL, for the answers it gets. -/
def check (answers : Nat → Nat → Answer) (position attempt : Nat) : Except JavaException Unit :=
  retrieve (answers position attempt)

/-- An attempt at a URL fails. -/
def refuses (answers : Nat → Nat → Answer) (position attempt : Nat) : Bool :=
  !(check answers position attempt).isOk

/-- The loop over a list of URLs returns or throws, after the runs of these checks. -/
inductive RunAll (kind : String) (config : ChecksConfig) (interrupted : Nat → Nat → Bool)
    (answers : Nat → Nat → Answer) :
    Nat → List String → Except JavaException Unit × List (List (Event Int)) → Prop
  | done (position : Nat) : RunAll kind config interrupted answers position [] (.ok (), [])
  | passed {position : Nat} {url : String} {urls : List String} {events : List (Event Int)}
      {later : Except JavaException Unit × List (List (Event Int))}
      (own : RunCheck (kind ++ url) config.fails config.timeout (interrupted position)
        (check answers position) (.ok (), events))
      (rest : RunAll kind config interrupted answers (position + 1) urls later) :
      RunAll kind config interrupted answers position (url :: urls)
        (later.1, events :: later.2)
  | thrown {position : Nat} {url : String} {urls : List String} {events : List (Event Int)}
      {thrown : JavaException}
      (own : RunCheck (kind ++ url) config.fails config.timeout (interrupted position)
        (check answers position) (.error thrown, events)) :
      RunAll kind config interrupted answers position (url :: urls) (.error thrown, [events])

/-- `runPreflights`, with its checks configured. -/
def RunPreflights (config : ChecksConfig) (interrupted : Nat → Nat → Bool)
    (answers : Nat → Nat → Answer) :
    Except JavaException Unit × List (List (Event Int)) → Prop :=
  RunAll "Preflight " config interrupted answers 0 config.preflights

/-- `runShutdowns`, with its checks configured. -/
def RunShutdowns (config : ChecksConfig) (interrupted : Nat → Nat → Bool)
    (answers : Nat → Nat → Answer) :
    Except JavaException Unit × List (List (Event Int)) → Prop :=
  RunAll "Shutdown " config interrupted answers 0 config.shutdowns

/-- The sleep between two attempts, in milliseconds. -/
def sleepMillis (config : ChecksConfig) : Int := config.timeout.toInt * 1000

/-- Each URL of the list has a budget of its own.  The list passes exactly when every URL
fails less often than that.  The first one that does not is where the list is given up:
no later URL is requested. -/
structure BudgetsEach (kind : String) (config : ChecksConfig) (answers : Nat → Nat → Answer)
    (position : Nat) (urls : List String)
    (run : Except JavaException Unit × List (List (Event Int))) : Prop where
  isOk_iff : run.1.isOk = true ↔
    ∃ costs, Shared.Costs (refuses answers) position urls costs ∧
      ∀ cost ∈ costs, cost < config.fails.toInt.toNat
  events : ∀ costs, Shared.Costs (refuses answers) position urls costs →
    (∀ cost ∈ costs, cost < config.fails.toInt.toNat) →
      run.2 = costs.map fun cost => trace (sleepMillis config) 0 (cost + 1)
  throws : ∀ first url later costs, urls = first ++ url :: later →
    Shared.Costs (refuses answers) position first costs →
    (∀ cost ∈ costs, cost < config.fails.toInt.toNat) →
    (∀ attempt < config.fails.toInt.toNat,
      refuses answers (position + first.length) attempt = true) →
      run = (.error ⟨kind ++ url ++ " Failed"⟩,
        costs.map (fun cost => trace (sleepMillis config) 0 (cost + 1)) ++
          [trace (sleepMillis config) 0 config.fails.toInt.toNat])

variable {kind : String} {config : ChecksConfig} {answers : Nat → Nat → Answer}
  {position : Nat} {url : String} {urls : List String}

/-- The check of one URL ends in one way, and keeps to the budget. -/
theorem exists_runCheck_budgeted (name : String) (config : ChecksConfig)
    (check : Nat → Except JavaException Unit) :
    ∃ run, (∀ other, RunCheck name config.fails config.timeout (fun _ => false) check other ↔
        other = run) ∧
      Budgeted (config.timeout.toInt * 1000) (⟨name ++ " Failed"⟩ : JavaException)
        config.fails.toInt.toNat check run := by
  rcases exists_leaves_budgeted_iff .int32 config.fails (⟨name ++ " Failed"⟩ : JavaException)
    check (HamsService.pause config.timeout false)
    (fun completed slept => threadSleep_eq_ok slept) with ⟨run, leaves, budgeted⟩
  have accepted : (HamsService.pause config.timeout false).isOk = true := by
    rw [HamsService.pause, threadSleep_isOk]
    have nonneg := config.timeout_nonneg
    omega
  exact ⟨run, leaves.iff_eq, budgeted.mpr (Or.inl accepted)⟩

variable {own : Run JavaException Unit Int}
  {later : Except JavaException Unit × List (List (Event Int))} {events : List (Event Int)}
  {failures : Nat} {thrown : JavaException}

theorem check_isOk_of_refuses {attempt : Nat} (refused : refuses answers position attempt = true) :
    (check answers position attempt).isOk = false := by
  rwa [refuses, Bool.not_eq_true'] at refused

theorem check_eq_ok {attempt : Nat} (accepted : refuses answers position attempt = false) :
    check answers position attempt = .ok () := by
  cases answered : check answers position attempt with
  | ok value => rfl
  | error error =>
      rw [refuses, answered] at accepted
      cases accepted

theorem runAll_cons_of_ok
    (own : ∀ other, RunCheck (kind ++ url) config.fails config.timeout (fun _ => false)
      (check answers position) other ↔ other = (.ok (), events))
    (rest : ∀ other, RunAll kind config (fun _ _ => false) answers (position + 1) urls other ↔
      other = later) (other) :
    RunAll kind config (fun _ _ => false) answers position (url :: urls) other ↔
      other = (later.1, events :: later.2) := by
  constructor
  · intro runs
    cases runs with
    | passed otherOwn otherRest =>
        rw [(rest _).mp otherRest, (Prod.mk.inj ((own _).mp otherOwn)).2]
    | thrown otherOwn => cases (Prod.mk.inj ((own _).mp otherOwn)).1
  · rintro rfl
    exact .passed ((own _).mpr rfl) ((rest _).mpr rfl)

theorem runAll_cons_of_error
    (own : ∀ other, RunCheck (kind ++ url) config.fails config.timeout (fun _ => false)
      (check answers position) other ↔ other = (.error thrown, events)) (other) :
    RunAll kind config (fun _ _ => false) answers position (url :: urls) other ↔
      other = (.error thrown, [events]) := by
  constructor
  · intro runs
    cases runs with
    | passed otherOwn otherRest => cases (Prod.mk.inj ((own _).mp otherOwn)).1
    | @thrown _ _ _ otherEvents otherThrown otherOwn =>
        have same := Prod.mk.inj ((own _).mp otherOwn)
        rw [Except.error.inj same.1, same.2]
  · rintro rfl
    exact .thrown ((own _).mpr rfl)

/-- A URL that answers in time, in front of the rest. -/
theorem BudgetsEach.cons (own : Shared.SucceedsAfter (refuses answers) position failures)
    (within : failures < config.fails.toInt.toNat)
    (rest : BudgetsEach kind config answers (position + 1) urls later) :
    BudgetsEach kind config answers position (url :: urls)
      (later.1, trace (sleepMillis config) 0 (failures + 1) :: later.2) where
  isOk_iff := by
    rw [rest.isOk_iff]
    constructor
    · rintro ⟨costs, succeed, below⟩
      exact ⟨failures :: costs, .task own succeed, List.forall_mem_cons.mpr ⟨within, below⟩⟩
    · rintro ⟨costs, succeed, below⟩
      cases succeed with
      | task otherOwn succeed => exact ⟨_, succeed, (List.forall_mem_cons.mp below).2⟩
  events costs succeed below := by
    cases succeed with
    | task otherOwn succeed =>
        rw [rest.events _ succeed (List.forall_mem_cons.mp below).2, own.unique otherOwn,
          List.map_cons]
  throws first last afterLast costs split before below failed := by
    cases before with
    | done =>
        rw [List.length_nil, Nat.add_zero] at failed
        have refused := failed failures within
        rw [own.succeeded] at refused
        cases refused
    | @task _ otherFailures task tasks costs otherOwn before =>
        rw [List.cons_append] at split
        have shift : position + (task :: tasks).length = position + 1 + tasks.length := by
          rw [List.length_cons]
          omega
        rw [shift] at failed
        have thrown := rest.throws tasks last afterLast costs (List.cons.inj split).2 before
          (List.forall_mem_cons.mp below).2 failed
        rw [thrown, own.unique otherOwn, List.map_cons, List.cons_append]

/-- A URL that never answers in time. -/
theorem budgetsEach_of_refused
    (failed : ∀ attempt < config.fails.toInt.toNat, refuses answers position attempt = true) :
    BudgetsEach kind config answers position (url :: urls)
      (.error ⟨kind ++ url ++ " Failed"⟩,
        [trace (sleepMillis config) 0 config.fails.toInt.toNat]) := by
  have never : ∀ failures, Shared.SucceedsAfter (refuses answers) position failures →
      ¬failures < config.fails.toInt.toNat := by
    intro failures own within
    have refused := failed failures within
    rw [own.succeeded] at refused
    cases refused
  constructor
  · apply iff_of_false Bool.false_ne_true
    rintro ⟨costs, succeed, below⟩
    cases succeed with
    | task own succeed => exact never _ own (List.forall_mem_cons.mp below).1
  · intro costs succeed below
    cases succeed with
    | task own succeed => exact absurd (List.forall_mem_cons.mp below).1 (never _ own)
  · intro first last afterLast costs split before below lastFailed
    cases before with
    | done =>
        rw [List.nil_append] at split
        rw [(List.cons.inj split).1]
        rfl
    | task own before => exact absurd (List.forall_mem_cons.mp below).1 (never _ own)

/-- A list ends in one way, with a budget for each of its URLs. -/
theorem exists_runAll (kind : String) (config : ChecksConfig) (answers : Nat → Nat → Answer)
    (position : Nat) (urls : List String) :
    ∃ run, (∀ other, RunAll kind config (fun _ _ => false) answers position urls other ↔
        other = run) ∧ BudgetsEach kind config answers position urls run := by
  induction urls generalizing position with
  | nil =>
      refine ⟨(.ok (), []), fun other => ⟨?_, ?_⟩, ?_⟩
      · intro runs
        cases runs
        rfl
      · rintro rfl
        exact .done position
      · constructor
        · exact iff_of_true rfl ⟨[], .done position, fun cost mem => absurd mem List.not_mem_nil⟩
        · intro costs succeed _
          cases succeed
          rfl
        · intro first url later costs split
          cases (List.append_eq_nil_iff.mp split.symm).2
  | cons url urls ih =>
      rcases exists_runCheck_budgeted (kind ++ url) config (check answers position) with
        ⟨own, ownIff, budgeted⟩
      rcases Shared.succeedsAfter_or (refuses answers) position config.fails.toInt.toNat with
        ⟨failures, within, succeeds⟩ | failed
      · rw [budgeted.succeeds failures within () (check_eq_ok succeeds.succeeded)
          fun earlier below => check_isOk_of_refuses (succeeds.failed earlier below)] at ownIff
        rcases ih (position + 1) with ⟨later, laterIff, each⟩
        exact ⟨_, runAll_cons_of_ok ownIff laterIff, each.cons succeeds within⟩
      · rw [budgeted.fails fun attempt below =>
          check_isOk_of_refuses (failed attempt below)] at ownIff
        exact ⟨_, runAll_cons_of_error ownIff, budgetsEach_of_refused failed⟩

end HamsService

/-! ## The two services -/

/-- No answer has the status of an error. -/
def NoErrorStatus (answers : Nat → Nat → Answer) : Prop :=
  ∀ position attempt status, answers position attempt = some status →
    ¬(400 ≤ status ∧ status < 600)

theorem refuses_eq_sendIsErr {answers : Nat → Nat → Answer} (noError : NoErrorStatus answers) :
    HamsService.refuses answers = Checks.sendIsErr answers := by
  funext position attempt
  rw [HamsService.refuses, HamsService.check, Checks.sendIsErr]
  cases answered : answers position attempt with
  | none => rfl
  | some status =>
      rw [HamsService.retrieve, if_neg (noError position attempt status answered)]
      rfl

/-- Where no answer has the status of an error, a list that passes with one budget for
all its URLs passes with that budget for each. -/
theorem isOk_of_isOk {answers : Nat → Nat → Answer} (noError : NoErrorStatus answers)
    {config : ChecksConfig} {fails : UInt32} (sameFails : config.fails.toInt.toNat = fails.toNat)
    {urls : List Url} {others : List String} (sameLength : others.length = urls.length)
    {exhausted : CheckError} {rust : Except CheckError UInt32 × List (Shared.Happening Url)}
    (rustRuns : Checks.RunAll urls exhausted fails answers rust)
    {kind : String} {java : Except JavaException Unit × List (List (Event Int))}
    (javaRuns : HamsService.RunAll kind config (fun _ _ => false) answers 0 others java)
    (passes : rust.1.isOk = true) : java.1.isOk = true := by
  rcases Checks.exists_runAll urls exhausted fails answers with ⟨rustRun, rustIff, shares⟩
  rcases HamsService.exists_runAll kind config answers 0 others with ⟨javaRun, javaIff, each⟩
  rw [(rustIff rust).mp rustRuns, shares.isOk_iff] at passes
  rw [(javaIff java).mp javaRuns, each.isOk_iff, sameFails, refuses_eq_sendIsErr noError]
  rcases passes with ⟨costs, succeed, within⟩
  exact ⟨costs, succeed.of_length sameLength, fun cost mem =>
    Nat.lt_of_le_of_lt (List.le_sum_of_mem mem) within⟩

/-- Both services end each of their lists of checks in one way, the Java service when
nothing interrupts it while it waits.  In the Rust service the URLs of a list share one
budget, in the Java service each has its own.  Where no answer has the status of an
error and both allow as many failures, what passes in the first passes in the second. -/
theorem checks_keep_to_budgets (checks : Checks) (config : ChecksConfig)
    (answers : Nat → Nat → Answer) :
    (∃ run, (∀ other, checks.Preflight answers other ↔ other = run) ∧
      Checks.SharesBudget checks.preflights .preflightCheck checks.fails answers run) ∧
    (∃ run, (∀ other, checks.Shutdown answers other ↔ other = run) ∧
      Checks.SharesBudget checks.shutdowns .shutdownCheck checks.fails answers run) ∧
    (∃ run, (∀ other, HamsService.RunPreflights config (fun _ _ => false) answers other ↔
        other = run) ∧
      HamsService.BudgetsEach "Preflight " config answers 0 config.preflights run) ∧
    (∃ run, (∀ other, HamsService.RunShutdowns config (fun _ _ => false) answers other ↔
        other = run) ∧
      HamsService.BudgetsEach "Shutdown " config answers 0 config.shutdowns run) ∧
    (NoErrorStatus answers → config.fails.toInt.toNat = checks.fails.toNat →
      (config.preflights.length = checks.preflights.length →
        ∀ rust java, checks.Preflight answers rust →
          HamsService.RunPreflights config (fun _ _ => false) answers java →
          rust.1.isOk = true → java.1.isOk = true) ∧
      (config.shutdowns.length = checks.shutdowns.length →
        ∀ rust java, checks.Shutdown answers rust →
          HamsService.RunShutdowns config (fun _ _ => false) answers java →
          rust.1.isOk = true → java.1.isOk = true)) := by
  refine ⟨Checks.exists_runAll _ _ _ _, Checks.exists_runAll _ _ _ _,
    HamsService.exists_runAll _ _ _ _ _, HamsService.exists_runAll _ _ _ _ _, ?_⟩
  intro noError sameFails
  constructor
  · intro sameLength rust java rustRuns javaRuns passes
    exact isOk_of_isOk noError sameFails sameLength rustRuns javaRuns passes
  · intro sameLength rust java rustRuns javaRuns passes
    exact isOk_of_isOk noError sameFails sameLength rustRuns javaRuns passes

end PushCache.Java

namespace PushCache.Sample

open PushCache.Java

/-- The checks of two services that the pod depends on, and of one that it leaves. -/
def checks (fails : UInt32) : Checks where
  timeout := 1
  fails := fails
  preflights :=
    [⟨"http://registry:8081/", some "registry", some 8081⟩,
      ⟨"http://proxy:15021/", some "proxy", some 15021⟩]
  shutdowns := [⟨"http://proxy:15020/quitquitquit", some "proxy", some 15020⟩]

/-- The same in the Java service. -/
def checksConfig (fails : Int32) (nonneg : 0 ≤ fails.toInt) : ChecksConfig where
  timeout := 1
  fails := fails
  preflights := ["http://registry:8081/", "http://proxy:15021/"]
  shutdowns := ["http://proxy:15020/quitquitquit"]
  timeout_nonneg := by decide
  fails_nonneg := nonneg

/-- Each of them answers from the second request on. -/
def startsSlowly (_ attempt : Nat) : Answer :=
  if attempt = 0 then none else some 200

theorem startsSlowly_noErrorStatus : NoErrorStatus startsSlowly := by
  intro position attempt status answered
  rw [startsSlowly] at answered
  split at answered
  · cases answered
  · cases answered
    decide

/-- Three failures are allowed: both services pass, before the start and at the end. -/
theorem checks_keep_to_budgets_of_startsSlowly :
    (∃ java, HamsService.RunPreflights (checksConfig 3 (by decide)) (fun _ _ => false)
      startsSlowly java ∧ java.1.isOk = true) ∧
    ∃ java, HamsService.RunShutdowns (checksConfig 3 (by decide)) (fun _ _ => false)
      startsSlowly java ∧ java.1.isOk = true := by
  rcases checks_keep_to_budgets (checks 3) (checksConfig 3 (by decide)) startsSlowly with
    ⟨_, _, ⟨before, beforeIff, _⟩, ⟨after, afterIff, _⟩, passes⟩
  rcases passes startsSlowly_noErrorStatus rfl with ⟨preflights, shutdowns⟩
  constructor
  · refine ⟨before, (beforeIff before).mpr rfl, ?_⟩
    exact preflights rfl _ before ⟨_, ⟨5, rfl⟩, rfl⟩ ((beforeIff before).mpr rfl) rfl
  · refine ⟨after, (afterIff after).mpr rfl, ?_⟩
    exact shutdowns rfl _ after ⟨_, ⟨3, rfl⟩, rfl⟩ ((afterIff after).mpr rfl) rfl

/-- With two, the Rust service gives up after the second failure, and the Java service
passes. -/
example :
    (checks 2).Preflight startsSlowly (.error .preflightCheck,
      [.attempt ⟨"http://registry:8081/", some "registry", some 8081⟩, .pause,
        .attempt ⟨"http://registry:8081/", some "registry", some 8081⟩,
        .attempt ⟨"http://proxy:15021/", some "proxy", some 15021⟩, .pause]) ∧
      HamsService.RunPreflights (checksConfig 2 (by decide)) (fun _ _ => false) startsSlowly
        (.ok (), [[.attempt 0, .sleep 1000, .attempt 1], [.attempt 0, .sleep 1000, .attempt 1]]) :=
  ⟨⟨_, ⟨6, rfl⟩, rfl⟩,
    .passed ⟨2, rfl⟩ (.passed ⟨2, rfl⟩ (.done 2))⟩

end PushCache.Sample
