import Mathlib.Logic.Function.Basic
import Mathlib.Tactic.TypeStar

/-!
# Stores that are maps

A keyed store answers calls in an environment, which may make a call fail.  It refines a
map when every call that succeeds answers what the map answers and leaves what the map
leaves, and every call that fails leaves the map as it is and has a reason.  Then so does
every run.
-/

namespace PushCache.Keyed

variable {κ ν ε σ φ : Type*}

/-- The calls on a store. -/
inductive Call (κ ν : Type*) where
  | get (key : κ)
  | insert (key : κ) (value : ν)
  | remove (key : κ)
  | keys
  | containsKey (key : κ)

/-- What a call is answered with. -/
inductive Reply (κ ν : Type*) where
  | found (value : Option ν)
  | done
  | keys (keys : List κ)
  | present (present : Bool)

/-- What a map answers to a call, and what it holds then.  The keys come in any order. -/
inductive Answers [DecidableEq κ] (map : κ → Option ν) :
    Call κ ν → Reply κ ν → (κ → Option ν) → Prop
  | get (key : κ) : Answers map (.get key) (.found (map key)) map
  | insert (key : κ) (value : ν) :
      Answers map (.insert key value) .done (Function.update map key (some value))
  | remove (key : κ) :
      Answers map (.remove key) (.found (map key)) (Function.update map key none)
  | keys {keys : List κ} (listed : ∀ key, key ∈ keys ↔ (map key).isSome = true) :
      Answers map .keys (.keys keys) map
  | containsKey (key : κ) : Answers map (.containsKey key) (.present (map key).isSome) map

/-- What a store may do: in an environment, answer a call with a result and go on with a
state. -/
abbrev Performs (φ σ κ ν ε : Type*) := φ → Call κ ν → σ → Except ε (Reply κ ν) → σ → Prop

/-- The reasons for which a call may fail, given what the store holds. -/
abbrev Reason (φ κ ν : Type*) := φ → Call κ ν → (κ → Option ν) → Prop

/-- The store is a map, seen through a view of its valid states. -/
structure Refines [DecidableEq κ] (performs : Performs φ σ κ ν ε) (valid : σ → Prop)
    (view : σ → κ → Option ν) (reason : Reason φ κ ν) : Prop where
  kept : ∀ ⦃environment call state result next⦄, valid state →
    performs environment call state result next → valid next
  answered : ∀ ⦃environment call state reply next⦄, valid state →
    performs environment call state (.ok reply) next →
      Answers (view state) call reply (view next)
  failed : ∀ ⦃environment call state error next⦄, valid state →
    performs environment call state (.error error) next →
      view next = view state ∧ reason environment call (view state)

/-- A call that was made: in which environment, and with which result. -/
structure Made (φ κ ν ε : Type*) where
  environment : φ
  call : Call κ ν
  result : Except ε (Reply κ ν)

/-- The store goes through these calls, one after the other. -/
inductive Runs (performs : Performs φ σ κ ν ε) : σ → List (Made φ κ ν ε) → σ → Prop
  | stop (state : σ) : Runs performs state [] state
  | call {state middle final : σ} {made : Made φ κ ν ε} {later : List (Made φ κ ν ε)}
      (performed : performs made.environment made.call state made.result middle)
      (rest : Runs performs middle later final) : Runs performs state (made :: later) final

/-- A map goes through these calls: the failed ones have a reason and do nothing. -/
inductive Observes [DecidableEq κ] (reason : Reason φ κ ν) :
    (κ → Option ν) → List (Made φ κ ν ε) → (κ → Option ν) → Prop
  | stop (map : κ → Option ν) : Observes reason map [] map
  | answered {map middle final : κ → Option ν} {environment : φ} {call : Call κ ν}
      {reply : Reply κ ν} {later : List (Made φ κ ν ε)}
      (answers : Answers map call reply middle) (rest : Observes reason middle later final) :
      Observes reason map (⟨environment, call, .ok reply⟩ :: later) final
  | failed {map final : κ → Option ν} {environment : φ} {call : Call κ ν} {error : ε}
      {later : List (Made φ κ ν ε)} (why : reason environment call map)
      (rest : Observes reason map later final) :
      Observes reason map (⟨environment, call, .error error⟩ :: later) final

variable [DecidableEq κ] {performs : Performs φ σ κ ν ε} {valid : σ → Prop}
  {view : σ → κ → Option ν} {reason : Reason φ κ ν} {start final : σ}
  {trace : List (Made φ κ ν ε)}

/-- It is enough to tell apart whether a call succeeds. -/
theorem Refines.of_outcome
    (kept : ∀ ⦃environment call state result next⦄, valid state →
      performs environment call state result next → valid next)
    (outcome : ∀ ⦃environment call state result next⦄, valid state →
      performs environment call state result next →
        (∃ reply, result = .ok reply ∧ Answers (view state) call reply (view next)) ∨
        ∃ error, result = .error error ∧ view next = view state ∧
          reason environment call (view state)) :
    Refines performs valid view reason where
  kept := kept
  answered := by
    intro environment call state reply next isValid performed
    rcases outcome isValid performed with ⟨other, same, answers⟩ | ⟨error, same, _⟩
    · cases same
      exact answers
    · cases same
  failed := by
    intro environment call state error next isValid performed
    rcases outcome isValid performed with ⟨reply, same, _⟩ | ⟨other, same, failed⟩
    · cases same
    · exact failed

/-- Every run of the store is a run of the map. -/
theorem Refines.of_run (refines : Refines performs valid view reason) (initial : valid start)
    (ran : Runs performs start trace final) :
    valid final ∧ Observes reason (view start) trace (view final) := by
  induction ran with
  | stop state => exact ⟨initial, .stop (view state)⟩
  | @call state middle final made later performed _ ih =>
      rcases ih (refines.kept initial performed) with ⟨validFinal, observes⟩
      refine ⟨validFinal, ?_⟩
      rcases made with ⟨environment, call, result⟩
      cases result with
      | ok reply => exact .answered (refines.answered initial performed) observes
      | error error =>
          rcases refines.failed initial performed with ⟨same, why⟩
          rw [same] at observes
          exact .failed why observes

/-- What is stored under a key after a call, which does something if it has succeeded. -/
def written (key : κ) (value : Option ν) (made : Made φ κ ν ε) : Option ν :=
  match made with
  | ⟨_, .insert other inserted, .ok _⟩ => if other = key then some inserted else value
  | ⟨_, .remove other, .ok _⟩ => if other = key then none else value
  | _ => value

/-- What was written last under a key, in a trace. -/
def lastValue (key : κ) (trace : List (Made φ κ ν ε)) (value : Option ν) : Option ν :=
  trace.foldl (written key) value

theorem Answers.written_eq {map after : κ → Option ν} {call : Call κ ν} {reply : Reply κ ν}
    (answers : Answers map call reply after) (environment : φ) (key : κ) :
    after key = written key (map key) (⟨environment, call, .ok reply⟩ : Made φ κ ν ε) := by
  cases answers with
  | insert other value =>
      rw [written, Function.update_apply]
      simp only [eq_comm]
  | remove other =>
      rw [written, Function.update_apply]
      simp only [eq_comm]
  | get | keys | containsKey => rfl

theorem written_failed (key : κ) (value : Option ν) (environment : φ) (call : Call κ ν)
    (error : ε) : written key value ⟨environment, call, .error error⟩ = value := by
  cases call <;> rfl

/-- After a run, the map holds what was written last. -/
theorem Observes.lookup_eq {map final : κ → Option ν}
    (observes : Observes reason map trace final) (key : κ) :
    final key = lastValue key trace (map key) := by
  induction observes with
  | stop map => rfl
  | answered answers rest ih => rw [ih, lastValue, lastValue, List.foldl_cons, answers.written_eq]
  | failed why rest ih => rw [ih, lastValue, lastValue, List.foldl_cons, written_failed]

/-- Within a run, a lookup finds what was written last before it. -/
theorem Observes.read_eq {map final : κ → Option ν} {earlier later : List (Made φ κ ν ε)}
    {environment : φ} {key : κ} {value : Option ν}
    (observes : Observes reason map
      (earlier ++ ⟨environment, .get key, .ok (.found value)⟩ :: later) final) :
    value = lastValue key earlier (map key) := by
  induction earlier generalizing map with
  | nil =>
      cases observes with
      | answered answers rest =>
          cases answers
          rfl
  | cons made earlier ih =>
      cases observes with
      | answered answers rest =>
          rw [ih rest, lastValue, lastValue, List.foldl_cons, answers.written_eq]
      | failed why rest => rw [ih rest, lastValue, lastValue, List.foldl_cons, written_failed]

/-- Every run is one of the map: lookups find what was written last, and so does whoever
looks at the end. -/
structure IsMap (performs : Performs φ σ κ ν ε) (valid : σ → Prop) (view : σ → κ → Option ν)
    (reason : Reason φ κ ν) : Prop where
  observes : ∀ ⦃start trace final⦄, valid start → Runs performs start trace final →
    Observes reason (view start) trace (view final)
  reads : ∀ ⦃start earlier environment key value later final⦄, valid start →
    Runs performs start (earlier ++ ⟨environment, .get key, .ok (.found value)⟩ :: later) final →
      value = lastValue key earlier (view start key)
  holds : ∀ ⦃start trace final⦄, valid start → Runs performs start trace final →
    ∀ key, view final key = lastValue key trace (view start key)

theorem Refines.isMap (refines : Refines performs valid view reason) :
    IsMap performs valid view reason where
  observes _ _ _ initial ran := (refines.of_run initial ran).2
  reads _ _ _ _ _ _ _ initial ran := (refines.of_run initial ran).2.read_eq
  holds _ _ _ initial ran key := (refines.of_run initial ran).2.lookup_eq key

/-! ## Stores with two kinds of clients, and with calls of some kind only -/

section Combined

variable {ψ η : Type*}

/-- Each call is made by a client of the first or of the second kind. -/
def either (first : Performs φ σ κ ν ε) (second : Performs ψ σ κ ν η) :
    Performs (φ ⊕ ψ) σ κ ν (ε ⊕ η)
  | .inl environment, call, state, result, next =>
      ∃ own, first environment call state own next ∧ result = own.mapError .inl
  | .inr environment, call, state, result, next =>
      ∃ own, second environment call state own next ∧ result = own.mapError .inr

/-- The reasons of the client that makes the call. -/
def eitherReason (first : Reason φ κ ν) (second : Reason ψ κ ν) : Reason (φ ⊕ ψ) κ ν
  | .inl environment, call, map => first environment call map
  | .inr environment, call, map => second environment call map

/-- The calls of some kind. -/
def guarded (guard : Call κ ν → Prop) (performs : Performs φ σ κ ν ε) : Performs φ σ κ ν ε :=
  fun environment call state result next =>
    guard call ∧ performs environment call state result next

variable {first : Performs φ σ κ ν ε} {second : Performs ψ σ κ ν η}
  {firstReason : Reason φ κ ν} {secondReason : Reason ψ κ ν}

/-- Clients that agree on the view of a store may share it. -/
theorem Refines.share (one : Refines first valid view firstReason)
    (other : Refines second valid view secondReason) :
    Refines (either first second) valid view (eitherReason firstReason secondReason) := by
  apply Refines.of_outcome
  · intro environment call state result next isValid performed
    cases environment with
    | inl environment =>
        rcases performed with ⟨own, performed, _⟩
        exact one.kept isValid performed
    | inr environment =>
        rcases performed with ⟨own, performed, _⟩
        exact other.kept isValid performed
  · intro environment call state result next isValid performed
    cases environment with
    | inl environment =>
        rcases performed with ⟨own, performed, rfl⟩
        cases own with
        | ok reply => exact Or.inl ⟨reply, rfl, one.answered isValid performed⟩
        | error error => exact Or.inr ⟨.inl error, rfl, one.failed isValid performed⟩
    | inr environment =>
        rcases performed with ⟨own, performed, rfl⟩
        cases own with
        | ok reply => exact Or.inl ⟨reply, rfl, other.answered isValid performed⟩
        | error error => exact Or.inr ⟨.inr error, rfl, other.failed isValid performed⟩

/-- Calls of some kind may keep the map to some kind. -/
theorem Refines.restrict {guard : Call κ ν → Prop} {kind : (κ → Option ν) → Prop}
    (refines : Refines performs valid view reason)
    (kept : ∀ ⦃map call reply after⦄, kind map → guard call → Answers map call reply after →
      kind after) :
    Refines (guarded guard performs) (fun state => valid state ∧ kind (view state)) view
      reason where
  kept environment call state result next isValid performed := by
    refine ⟨refines.kept isValid.1 performed.2, ?_⟩
    cases result with
    | ok reply => exact kept isValid.2 performed.1 (refines.answered isValid.1 performed.2)
    | error error =>
        rw [(refines.failed isValid.1 performed.2).1]
        exact isValid.2
  answered _ _ _ _ _ isValid performed := refines.answered isValid.1 performed.2
  failed _ _ _ _ _ isValid performed := refines.failed isValid.1 performed.2

/-- A kind of all calls is no restriction. -/
theorem Refines.unguarded (refines : Refines (guarded (fun _ => True) performs) valid view reason) :
    Refines performs valid view reason where
  kept _ _ _ _ _ isValid performed := refines.kept isValid ⟨trivial, performed⟩
  answered _ _ _ _ _ isValid performed := refines.answered isValid ⟨trivial, performed⟩
  failed _ _ _ _ _ isValid performed := refines.failed isValid ⟨trivial, performed⟩

end Combined

end PushCache.Keyed
