import PushCache.Transition.Loop

/-!
# Retrying within a budget

A retry loop makes attempts until one succeeds or its budget is used up, and
pauses between two attempts.  The counter may be any type that counts down to
where it is no longer positive.  The file says what a run of the loop is worth:
its result, and the attempts and pauses in the order in which they happen.
-/

namespace PushCache.Retry

open PushCache.Transition

/-- What happens in a run: attempts, numbered from 0, and completed pauses. -/
inductive Event (ω : Type*) where
  | attempt (index : Nat)
  | sleep (wait : ω)
  deriving DecidableEq

/-- A counter with its test against zero and its decrement, and the number of
decrements it takes. -/
structure Countdown (γ : Type*) where
  positive : γ → Bool
  decrement : γ → γ
  budget : γ → Nat
  positive_iff : ∀ remaining, positive remaining = true ↔ 0 < budget remaining
  budget_decrement : ∀ remaining, positive remaining = true →
    budget (decrement remaining) + 1 = budget remaining

/-- The locals of the loop. -/
structure Locals (γ ω : Type*) where
  remaining : γ
  attempts : Nat
  events : List (Event ω)
  deriving DecidableEq

/-- How a run ends, and what has happened in it. -/
abbrev Run (ε α ω : Type*) := Except ε α × List (Event ω)

theorem Countdown.positive_of_budget {γ : Type*} {counter : Countdown γ} {remaining : γ}
    {budget : Nat} (left : counter.budget remaining = budget + 1) :
    counter.positive remaining = true :=
  (counter.positive_iff remaining).mpr (by omega)

theorem Countdown.not_positive_of_budget {γ : Type*} {counter : Countdown γ} {remaining : γ}
    (spent : counter.budget remaining = 0) : counter.positive remaining = false := by
  rw [← Bool.not_eq_true, counter.positive_iff, spent]
  exact Nat.lt_irrefl 0

theorem Countdown.budget_decrement_of_budget {γ : Type*} {counter : Countdown γ} {remaining : γ}
    {budget : Nat} (left : counter.budget remaining = budget + 1) :
    counter.budget (counter.decrement remaining) = budget := by
  have counted := counter.budget_decrement remaining (counter.positive_of_budget left)
  omega

/-- An unsigned 32-bit counter. -/
def Countdown.uint32 : Countdown UInt32 where
  positive remaining := 0 < remaining
  decrement remaining := remaining - 1
  budget remaining := remaining.toNat
  positive_iff remaining := by rw [decide_eq_true_eq, UInt32.lt_iff_toNat_lt, UInt32.toNat_zero]
  budget_decrement remaining positive := by
    have one_le : 1 ≤ remaining := UInt32.le_iff_toNat_le.mpr
      (UInt32.lt_iff_toNat_lt.mp (of_decide_eq_true positive))
    rw [UInt32.toNat_sub_of_le _ _ one_le]
    exact Nat.sub_add_cancel (UInt32.le_iff_toNat_le.mp one_le)

/-- A signed 32-bit counter; a negative one has no budget. -/
def Countdown.int32 : Countdown Int32 where
  positive remaining := 0 < remaining
  decrement remaining := remaining - 1
  budget remaining := remaining.toInt.toNat
  positive_iff remaining := by
    rw [decide_eq_true_eq, Int32.lt_iff_toInt_lt, Int32.toInt_zero, Int.pos_iff_toNat_pos]
  budget_decrement remaining positive := by
    have one_le : 1 ≤ remaining := Int32.le_iff_toInt_le.mpr
      (Int32.lt_iff_toInt_lt.mp (of_decide_eq_true positive))
    have left := Int32.le_iff_toInt_le.mp one_le
    rw [Int32.toInt_one] at left
    rw [Int32.toInt_sub_of_le _ _ (by decide) one_le, Int32.toInt_one]
    omega

variable {γ ω ε η α : Type*}

/-- The locals before the first pass. -/
def start (remaining : γ) : Locals γ ω := ⟨remaining, 0, []⟩

/-- One pass: an attempt, the decrement, and a pause if the counter is still
positive.  A pause that does not complete ends the run. -/
def pass (counter : Countdown γ) (pause : Nat → Except ε ω) (exhausted : ε)
    (outcome : Nat → Except η α) (locals : Locals γ ω) : Locals γ ω ⊕ Run ε α ω :=
  if counter.positive locals.remaining then
    let events := locals.events ++ [.attempt locals.attempts]
    match outcome locals.attempts with
    | .ok value => .inr (.ok value, events)
    | .error _ =>
        let remaining := counter.decrement locals.remaining
        if counter.positive remaining then
          match pause locals.attempts with
          | .ok wait => .inl ⟨remaining, locals.attempts + 1, events ++ [.sleep wait]⟩
          | .error thrown => .inr (.error thrown, events)
        else
          .inl ⟨remaining, locals.attempts + 1, events⟩
  else
    .inr (.error exhausted, locals.events)

/-! ## Runs that keep to their budget -/

/-- The given number of attempts, with one pause between any two of them. -/
def trace (wait : ω) (first attempts : Nat) : List (Event ω) :=
  ((List.range' first attempts).map .attempt).intersperse (.sleep wait)

/-- The run succeeds exactly when one of the first `budget` outcomes does, with the
value of the first such; it makes the attempts up to that one, or else `budget`, and
pauses once between any two and never after the last. -/
structure Budgeted (wait : ω) (exhausted : ε) (budget : Nat) (outcome : Nat → Except η α)
    (run : Run ε α ω) : Prop where
  isOk_iff : run.1.isOk = true ↔ ∃ index < budget, (outcome index).isOk = true
  succeeds : ∀ index < budget, ∀ value, outcome index = .ok value →
    (∀ earlier < index, (outcome earlier).isOk = false) →
      run = (.ok value, trace wait 0 (index + 1))
  fails : (∀ index < budget, (outcome index).isOk = false) →
    run = (.error exhausted, trace wait 0 budget)

theorem trace_zero (wait : ω) (first : Nat) : trace wait first 0 = [] :=
  rfl

theorem trace_succ_succ (wait : ω) (first attempts : Nat) :
    trace wait first (attempts + 2) =
      .attempt first :: .sleep wait :: trace wait (first + 1) (attempts + 1) :=
  rfl

theorem trace_ne_singleton (wait : ω) (first attempts : Nat) (event : Event ω) :
    trace wait first (attempts + 2) ≠ [event] := by
  rw [trace_succ_succ]
  intro equal
  cases equal

section Passes

variable {counter : Countdown γ} {pause : Nat → Except ε ω} {exhausted : ε}
  {outcome : Nat → Except η α} {locals : Locals γ ω}

theorem pass_of_exhausted (spent : counter.budget locals.remaining = 0) :
    pass counter pause exhausted outcome locals = .inr (.error exhausted, locals.events) := by
  rw [pass, counter.not_positive_of_budget spent, if_neg Bool.false_ne_true]

theorem pass_of_ok {budget : Nat} (left : counter.budget locals.remaining = budget + 1)
    {value : α} (ok : outcome locals.attempts = .ok value) :
    pass counter pause exhausted outcome locals =
      .inr (.ok value, locals.events ++ [.attempt locals.attempts]) := by
  rw [pass, if_pos (counter.positive_of_budget left)]
  simp only [ok]

/-- A failed attempt with others left: the pause decides. -/
theorem pass_of_error {budget : Nat} (left : counter.budget locals.remaining = budget + 2)
    (failed : (outcome locals.attempts).isOk = false) :
    pass counter pause exhausted outcome locals =
      match pause locals.attempts with
      | .ok wait => .inl ⟨counter.decrement locals.remaining, locals.attempts + 1,
          locals.events ++ [.attempt locals.attempts] ++ [.sleep wait]⟩
      | .error thrown => .inr (.error thrown, locals.events ++ [.attempt locals.attempts]) := by
  have more : counter.positive (counter.decrement locals.remaining) = true :=
    counter.positive_of_budget (counter.budget_decrement_of_budget left)
  rw [pass, if_pos (counter.positive_of_budget left)]
  cases attempted : outcome locals.attempts with
  | ok value => rw [attempted] at failed; cases failed
  | error error => simp only [more, if_true]

/-- A failed attempt with others left, and a pause that completes. -/
theorem pass_of_paused {budget : Nat} {wait : ω}
    (left : counter.budget locals.remaining = budget + 2)
    (failed : (outcome locals.attempts).isOk = false)
    (paused : pause locals.attempts = .ok wait) :
    pass counter pause exhausted outcome locals =
      .inl ⟨counter.decrement locals.remaining, locals.attempts + 1,
        locals.events ++ [.attempt locals.attempts] ++ [.sleep wait]⟩ := by
  rw [pass_of_error left failed, paused]

/-- The last attempt has failed: no pause. -/
theorem pass_of_last_error (left : counter.budget locals.remaining = 1)
    (failed : (outcome locals.attempts).isOk = false) :
    pass counter pause exhausted outcome locals =
      .inl ⟨counter.decrement locals.remaining, locals.attempts + 1,
        locals.events ++ [.attempt locals.attempts]⟩ := by
  have stopped : counter.positive (counter.decrement locals.remaining) = false :=
    counter.not_positive_of_budget (counter.budget_decrement_of_budget left)
  rw [pass, if_pos (counter.positive_of_budget left)]
  cases attempted : outcome locals.attempts with
  | ok value => rw [attempted] at failed; cases failed
  | error error => simp only [stopped, Bool.false_eq_true, if_false]

/-! ## Whole runs -/

variable {wait : ω}

/-- A failed attempt and its pause, in front of the rest of the run. -/
theorem leaves_of_paused {budget attempts : Nat} {result : Except ε α}
    (left : counter.budget locals.remaining = budget + 2)
    (failed : (outcome locals.attempts).isOk = false)
    (paused : pause locals.attempts = .ok wait)
    (rest : Leaves (pass counter pause exhausted outcome)
      ⟨counter.decrement locals.remaining, locals.attempts + 1,
        locals.events ++ [.attempt locals.attempts] ++ [.sleep wait]⟩
      (result, locals.events ++ [.attempt locals.attempts] ++ [.sleep wait] ++
        trace wait (locals.attempts + 1) (attempts + 1))) :
    Leaves (pass counter pause exhausted outcome) locals
      (result, locals.events ++ trace wait locals.attempts (attempts + 2)) := by
  apply Leaves.again (pass_of_paused left failed paused)
  simpa only [List.append_assoc, List.cons_append, List.nil_append, trace_succ_succ] using rest

/-- Up to the first success, every failure is followed by one pause. -/
theorem leaves_of_ok {index : Nat} {value : α}
    (pauses : ∀ earlier < index, pause (locals.attempts + earlier) = .ok wait)
    (left : index < counter.budget locals.remaining)
    (ok : outcome (locals.attempts + index) = .ok value)
    (failed : ∀ earlier < index, (outcome (locals.attempts + earlier)).isOk = false) :
    Leaves (pass counter pause exhausted outcome) locals
      (.ok value, locals.events ++ trace wait locals.attempts (index + 1)) := by
  obtain ⟨budget, counted⟩ := Nat.exists_eq_add_of_lt left
  rw [Nat.add_assoc] at counted
  induction index generalizing locals with
  | zero =>
      rw [Nat.zero_add] at counted
      exact .leave (pass_of_ok counted ok)
  | succ index ih =>
      have many : counter.budget locals.remaining = index + budget + 2 := by omega
      have fewer := counter.budget_decrement_of_budget many
      have shift : ∀ earlier, locals.attempts + 1 + earlier = locals.attempts + (earlier + 1) :=
        fun earlier => Nat.add_right_comm locals.attempts 1 earlier
      apply leaves_of_paused many (failed 0 (Nat.succ_pos index)) (pauses 0 (Nat.succ_pos index))
      apply ih
      · intro earlier lt
        rw [shift, pauses (earlier + 1) (Nat.succ_lt_succ lt)]
      · rw [fewer]
        omega
      · rw [shift, ok]
      · intro earlier lt
        rw [shift, failed (earlier + 1) (Nat.succ_lt_succ lt)]
      · rw [fewer, Nat.add_assoc]

/-- Without a success the whole budget is used, and nothing follows the last attempt. -/
theorem leaves_of_errors
    (pauses : ∀ index, index + 1 < counter.budget locals.remaining →
      pause (locals.attempts + index) = .ok wait)
    (failed : ∀ index < counter.budget locals.remaining,
      (outcome (locals.attempts + index)).isOk = false) :
    Leaves (pass counter pause exhausted outcome) locals
      (.error exhausted,
        locals.events ++ trace wait locals.attempts (counter.budget locals.remaining)) := by
  induction counted : counter.budget locals.remaining generalizing locals with
  | zero =>
      apply Leaves.leave
      rw [pass_of_exhausted counted, trace_zero, List.append_nil]
  | succ budget ih =>
      have first := failed 0 (by omega)
      have fewer := counter.budget_decrement_of_budget counted
      cases budget with
      | zero =>
          exact (Leaves.leave (pass_of_exhausted fewer)).again (pass_of_last_error counted first)
      | succ budget =>
          have shift : ∀ index, locals.attempts + 1 + index = locals.attempts + (index + 1) :=
            fun index => Nat.add_right_comm locals.attempts 1 index
          apply leaves_of_paused counted first (pauses 0 (by omega))
          apply ih _ _ fewer
          · intro index lt
            rw [fewer] at lt
            rw [shift, pauses (index + 1) (by omega)]
          · intro index lt
            rw [fewer] at lt
            rw [shift, failed (index + 1) (by omega)]

/-- A pause that does not complete ends the run after the first attempt. -/
theorem leaves_of_refused {remaining : γ} {thrown : ε} (left : 1 < counter.budget remaining)
    (failed : (outcome 0).isOk = false) (refused : pause 0 = .error thrown) :
    Leaves (pass counter pause exhausted outcome) (start remaining)
      (.error thrown, [.attempt 0]) := by
  obtain ⟨budget, counted⟩ : ∃ budget, counter.budget remaining = budget + 2 :=
    ⟨counter.budget remaining - 2, by omega⟩
  apply Leaves.leave
  rw [pass_of_error counted failed]
  simp only [start, refused, List.nil_append]

end Passes

/-! ## What a run is worth -/

section Worth

variable {wait : ω} {exhausted : ε} {budget : Nat} {outcome : Nat → Except η α}

/-- Either no attempt within the budget succeeds, or there is a first that does. -/
theorem first_ok (budget : Nat) (outcome : Nat → Except η α) :
    (∃ index < budget, ∃ value, outcome index = .ok value ∧
      ∀ earlier < index, (outcome earlier).isOk = false) ∨
    ∀ index < budget, (outcome index).isOk = false := by
  induction budget with
  | zero => exact Or.inr fun index lt => absurd lt (Nat.not_lt_zero index)
  | succ budget ih =>
      rcases ih with ⟨index, lt, first⟩ | failed
      · exact Or.inl ⟨index, Nat.lt_succ_of_lt lt, first⟩
      · cases last : outcome budget with
        | ok value => exact Or.inl ⟨budget, Nat.lt_succ_self budget, value, last, failed⟩
        | error error =>
            right
            intro index lt
            rcases Nat.lt_succ_iff_lt_or_eq.mp lt with before | rfl
            · exact failed index before
            · rw [last]
              rfl

theorem budgeted_of_ok {index : Nat} {value : α} (left : index < budget)
    (ok : outcome index = .ok value)
    (failed : ∀ earlier < index, (outcome earlier).isOk = false) :
    Budgeted wait exhausted budget outcome (.ok value, trace wait 0 (index + 1)) where
  isOk_iff := iff_of_true rfl ⟨index, left, by rw [ok, Except.isOk, Except.toBool]⟩
  succeeds other _ otherValue otherOk otherFailed := by
    have isOk : (outcome index).isOk = true := by rw [ok, Except.isOk, Except.toBool]
    have otherIsOk : (outcome other).isOk = true := by rw [otherOk, Except.isOk, Except.toBool]
    rcases Nat.lt_trichotomy other index with before | rfl | after
    · exact absurd (failed other before) (by rw [otherIsOk]; exact Bool.noConfusion)
    · rw [ok] at otherOk
      cases otherOk
      rfl
    · exact absurd (otherFailed index after) (by rw [isOk]; exact Bool.noConfusion)
  fails all := by
    have isOk := all index left
    rw [ok] at isOk
    cases isOk

theorem budgeted_of_errors (failed : ∀ index < budget, (outcome index).isOk = false) :
    Budgeted wait exhausted budget outcome (.error exhausted, trace wait 0 budget) where
  isOk_iff := by
    apply iff_of_false Bool.false_ne_true
    rintro ⟨index, left, isOk⟩
    rw [failed index left] at isOk
    cases isOk
  succeeds index left value ok _ := by
    have isOk := failed index left
    rw [ok] at isOk
    cases isOk
  fails _ := rfl

/-- A run that keeps to a budget of two or more does not stop at one failure. -/
theorem not_budgeted_of_one_attempt {result : Except ε α} (many : 1 < budget)
    (failed : (outcome 0).isOk = false) :
    ¬Budgeted wait exhausted budget outcome (result, [.attempt 0]) := by
  intro budgeted
  rcases first_ok budget outcome with ⟨index, left, value, ok, earlier⟩ | all
  · have events := (Prod.ext_iff.mp (budgeted.succeeds index left value ok earlier)).2
    cases index with
    | zero =>
        rw [ok] at failed
        cases failed
    | succ index => exact trace_ne_singleton wait 0 index _ events.symm
  · have events := (Prod.ext_iff.mp (budgeted.fails all)).2
    obtain ⟨more, rfl⟩ : ∃ more, budget = more + 2 := ⟨budget - 2, by omega⟩
    exact trace_ne_singleton wait 0 more _ events.symm

/-- The loop is always left.  With a constant pause its run keeps to the budget exactly
when the pause completes or is never reached: because no second attempt is allowed, or
because the first succeeds. -/
theorem exists_leaves_budgeted_iff (counter : Countdown γ) (remaining : γ) (exhausted : ε)
    (outcome : Nat → Except η α) (paused : Except ε ω) {wait : ω}
    (waits : ∀ completed, paused = .ok completed → completed = wait) :
    ∃ run, Leaves (pass counter (fun _ => paused) exhausted outcome) (start remaining) run ∧
      (Budgeted wait exhausted (counter.budget remaining) outcome run ↔
        paused.isOk = true ∨ counter.budget remaining ≤ 1 ∨ (outcome 0).isOk = true) := by
  by_cases good : paused.isOk = true ∨ counter.budget remaining ≤ 1 ∨ (outcome 0).isOk = true
  · have pauses : ∀ attempt, attempt + 1 < counter.budget remaining →
        (∀ earlier ≤ attempt, (outcome earlier).isOk = false) → paused = .ok wait := by
      intro attempt more failed
      rcases good with completes | few | ok
      · cases slept : paused with
        | ok completed => rw [waits completed slept]
        | error thrown =>
            rw [slept] at completes
            cases completes
      · omega
      · rw [failed 0 (Nat.zero_le attempt)] at ok
        cases ok
    rcases first_ok (counter.budget remaining) outcome with
      ⟨index, left, value, ok, failed⟩ | failed
    · have leaves : Leaves (pass counter (fun _ => paused) exhausted outcome) (start remaining)
          (.ok value, trace wait 0 (index + 1)) :=
        leaves_of_ok
          (fun earlier lt => pauses earlier (by omega) fun before le =>
            failed before (Nat.lt_of_le_of_lt le lt))
          left (by simpa only [start, Nat.zero_add] using ok)
          (fun earlier lt => by simpa only [start, Nat.zero_add] using failed earlier lt)
      exact ⟨_, leaves, iff_of_true (budgeted_of_ok left ok failed) good⟩
    · have leaves : Leaves (pass counter (fun _ => paused) exhausted outcome) (start remaining)
          (.error exhausted, trace wait 0 (counter.budget remaining)) :=
        leaves_of_errors
          (fun index lt => pauses index lt fun before le =>
            failed before (Nat.lt_trans (Nat.lt_succ_of_le le) lt))
          (fun index lt => by simpa only [start, Nat.zero_add] using failed index lt)
      exact ⟨_, leaves, iff_of_true (budgeted_of_errors failed) good⟩
  · obtain ⟨refused, many, failed⟩ : paused.isOk = false ∧ 1 < counter.budget remaining ∧
        (outcome 0).isOk = false := by
      simpa only [not_or, Bool.not_eq_true, Nat.not_le] using good
    cases thrown : paused with
    | ok completed =>
        rw [thrown] at refused
        cases refused
    | error thrown =>
        exact ⟨_, leaves_of_refused many failed rfl,
          iff_of_false (not_budgeted_of_one_attempt many failed) (by rwa [← thrown])⟩

end Worth

end PushCache.Retry
