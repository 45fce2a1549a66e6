import PushCache.Concurrency.Pool
import PushCache.Consumer.Gauge
import PushCache.Java.CacheFactory
import PushCache.Transition.LastMarked

/-!
# The size counter of a Java in-memory store

A call on the store is one atomic step on its map and at most one on its counter:
`put` and `remove` move the counter when the map gained or lost a key, and `clear`
sets it to zero.  A reset between the two steps of another call makes the counter
drift: the step still owed is taken on top of the zero.  With no call in progress
the counter is exact exactly when the last reset was taken while the map had as
many keys as there were increments owed, less the decrements.
-/

namespace PushCache.Java

open PushCache.Concurrency
open PushCache.Transition

/-- Empty a cell. -/
def World.clear (world : World) (cell : Cell) : World :=
  { world with contents := Function.update world.contents cell ∅ }

/-- `size.set(value)` on the size of an in-memory store. -/
def World.setSize (world : World) (name : String) (value : Int) : World :=
  { world with sizes := Function.update world.sizes name value }

namespace InMemoryCache

/-- `InMemoryCache.clear`. -/
def clear (name : String) (world : World) : Except JavaException Unit × World :=
  (.ok (), (world.clear (.inMemory name)).setSize name 0)

/-- The number of keys in the map of a store. -/
def keyCount (name : String) (world : World) : Int :=
  (world.contents (.inMemory name)).keys.card

/-- A call on the store. -/
inductive Operation where
  | put (key : String) (value : Bytes)
  | remove (key : String)
  | clear

/-- The atomic steps of a call: on the map, or on the counter. -/
inductive AtomicStep where
  | mapPut (key : String) (value : Bytes)
  | mapRemove (key : String)
  | mapClear
  | incrementAndGet
  | decrementAndGet
  | setZero
  deriving DecidableEq

/-- What a call returns. -/
inductive Returned where
  | done (result : Except JavaException Unit)
  | removed (result : Except JavaException (Option Bytes))

/-- One atomic step; a step on the map of a key answers with the previous
record. -/
def execute (name : String) : Answers Unit AtomicStep (Option Bytes) World
  | _, .mapPut key value, world =>
      some ((world.contents (.inMemory name)).lookup key, world.put (.inMemory name) key value)
  | _, .mapRemove key, world =>
      some ((world.contents (.inMemory name)).lookup key, world.erase (.inMemory name) key)
  | _, .mapClear, world => some (none, world.clear (.inMemory name))
  | _, .incrementAndGet, world => some (none, world.resize name 1)
  | _, .decrementAndGet, world => some (none, world.resize name (-1))
  | _, .setZero, world => some (none, world.setSize name 0)

/-- The rest of `put`, given the record it replaced. -/
def finishPut (previous : Option Bytes) : Program AtomicStep (Option Bytes) Returned :=
  if previous.isNone then
    .command .incrementAndGet fun _ => .done (.done (.ok ()))
  else
    .done (.done (.ok ()))

/-- The rest of `remove`, given the record it took out. -/
def finishRemove : Option Bytes → Program AtomicStep (Option Bytes) Returned
  | some value => .command .decrementAndGet fun _ => .done (.removed (.ok (some value)))
  | none => .done (.removed (.ok none))

/-- The rest of `clear`. -/
def finishClear : Program AtomicStep (Option Bytes) Returned :=
  .command .setZero fun _ => .done (.done (.ok ()))

/-- A call, step by step. -/
def Operation.call : Operation → Program AtomicStep (Option Bytes) Returned
  | .put key value => .command (.mapPut key value) finishPut
  | .remove key => .command (.mapRemove key) finishRemove
  | .clear => .command .mapClear fun _ => finishClear

/-- Undisturbed, the steps of a call are the method. -/
theorem put_alone (name key : String) (value : Bytes) (world : World) :
    (Operation.put key value).call.alone (execute name) () world =
      some (.done (put name key value world).1, (put name key value world).2) := by
  simp only [Operation.call, Program.alone, execute, Option.bind_some, put]
  cases (world.contents (.inMemory name)).lookup key <;> rfl

theorem clear_alone (name : String) (world : World) :
    Operation.clear.call.alone (execute name) () world =
      some (.done (clear name world).1, (clear name world).2) :=
  rfl

theorem remove_alone (name key : String) (world : World) :
    (Operation.remove key).call.alone (execute name) () world =
      some (.removed (remove name key world).1, (remove name key world).2) := by
  simp only [Operation.call, Program.alone, execute, Option.bind_some, remove]
  cases found : (world.contents (.inMemory name)).lookup key with
  | none =>
      rw [World.erase, Cells.erase_of_absent found, finishRemove, Program.alone]
  | some value => rfl

/-- The store with the calls in progress. -/
abbrev Calls := Pool World AtomicStep (Option Bytes) Returned Operation

/-- Clients of the store: a call starts, or takes its next step. -/
def callStep (name : String) : Step Calls (Move Unit Operation) :=
  Pool.step (execute name) Operation.call

/-- The step is a reset of the counter. -/
def resets (calls : Calls) : Move Unit Operation → Bool
  | .start _ => false
  | .advance index _ =>
      match calls.calls[index]? with
      | some call => call.program.next? = some .setZero
      | none => false

/-- The map has as many keys as there are increments owed to the counter, less the
decrements owed: a reset leaves the counter right. -/
def Settled (name : String) (calls : Calls) : Prop :=
  keyCount name calls.shared + calls.pending .decrementAndGet =
    calls.pending .incrementAndGet

/-- The counter counts the keys, but for the steps still owed to it. -/
def Balanced (name : String) (calls : Calls) : Prop :=
  calls.shared.sizes name + calls.pending .incrementAndGet =
    keyCount name calls.shared + calls.pending .decrementAndGet

/-! ## One step -/

/-- The steps a call can be about to take, with what it does afterwards. -/
inductive NextStep :
    AtomicStep → (Option Bytes → Program AtomicStep (Option Bytes) Returned) → Prop where
  | mapPut (key : String) (value : Bytes) : NextStep (.mapPut key value) finishPut
  | mapRemove (key : String) : NextStep (.mapRemove key) finishRemove
  | mapClear : NextStep .mapClear fun _ => finishClear
  | incrementAndGet (result : Returned) : NextStep .incrementAndGet fun _ => .done result
  | decrementAndGet (result : Returned) : NextStep .decrementAndGet fun _ => .done result
  | setZero (result : Returned) : NextStep .setZero fun _ => .done result

theorem nextStep_of_follows {operation : Operation} {step : AtomicStep}
    {trace : List (AtomicStep × Option Bytes)}
    {next : Option Bytes → Program AtomicStep (Option Bytes) Returned}
    (follows : operation.call.Follows trace (.command step next)) : NextStep step next := by
  cases operation with
  | put key value =>
      rcases Program.follows_command_iff.mp follows with ⟨_, here⟩ | ⟨previous, _, _, rest⟩
      · cases here
        exact .mapPut key value
      · cases previous with
        | none =>
            cases rest.last.2
            exact .incrementAndGet _
        | some value => cases (Program.follows_done_iff.mp rest).2
  | remove key =>
      rcases Program.follows_command_iff.mp follows with ⟨_, here⟩ | ⟨removed, _, _, rest⟩
      · cases here
        exact .mapRemove key
      · cases removed with
        | none => cases (Program.follows_done_iff.mp rest).2
        | some value =>
            cases rest.last.2
            exact .decrementAndGet _
  | clear =>
      rcases Program.follows_command_iff.mp follows with ⟨_, here⟩ | ⟨_, _, _, rest⟩
      · cases here
        exact .mapClear
      · cases rest.last.2
        exact .setZero _

theorem keyCount_put (name key : String) (value : Bytes) (world : World) :
    keyCount name (world.put (.inMemory name) key value) =
      keyCount name world +
        (1 - occupied ((world.contents (.inMemory name)).lookup key)) := by
  simp only [keyCount, World.put, Cells.put, Function.update_self]
  exact card_keys_insert _ key value

theorem keyCount_erase (name key : String) (world : World) :
    keyCount name (world.erase (.inMemory name) key) =
      keyCount name world +
        (0 - occupied ((world.contents (.inMemory name)).lookup key)) := by
  simp only [keyCount, World.erase, Cells.erase, Function.update_self]
  exact card_keys_erase _ key

/-- `put` owes the counter a step exactly when its key was new. -/
theorem finishPut_next? (previous : Option Bytes) :
    (finishPut previous).next? =
      if previous = none then some .incrementAndGet else none := by
  cases previous <;> rfl

/-- `remove` owes the counter a step exactly when its key was present. -/
theorem finishRemove_next? (removed : Option Bytes) :
    (finishRemove removed).next? =
      if removed = none then none else some .decrementAndGet := by
  cases removed <;> rfl

/-- While no reset is owed, the counter is balanced exactly when the last reset
left it right. -/
def Tracked (name : String) (last : Option Calls) (calls : Calls) : Prop :=
  calls.pending .setZero = 0 →
    (Balanced name calls ↔ ∀ source, last = some source → Settled name source)

/-- A new call owes nothing yet. -/
theorem Tracked.start {name : String} {last : Option Calls} {calls : Calls}
    (tracked : Tracked name last calls) (operation : Operation) :
    Tracked name last (calls.start Operation.call operation) := by
  have owesNothing : ∀ step, step = AtomicStep.setZero ∨ step = .incrementAndGet ∨
      step = .decrementAndGet → operation.call.next? ≠ some step := by
    cases operation <;> rintro _ (rfl | rfl | rfl) <;> simp [Operation.call, Program.next?]
  simp only [Tracked, Balanced, Pool.pending_start, if_neg (owesNothing .setZero (by simp)),
    if_neg (owesNothing .incrementAndGet (by simp)),
    if_neg (owesNothing .decrementAndGet (by simp)), Nat.add_zero]
  exact tracked

/-- A step on the map of a key and the step it makes the call owe keep the balance, and
so does a step on the counter. -/
theorem balanced_advance_iff {name : String} {calls next : Calls}
    (details : Pool.Advanced (execute name) () calls next)
    (step : NextStep details.command details.continuation)
    (noClear : details.command ≠ .mapClear) (noReset : details.command ≠ .setZero) :
    (Balanced name next ↔ Balanced name calls) ∧
      next.pending .setZero = calls.pending .setZero := by
  have increments := Pool.pending_advance .incrementAndGet details
  have decrements := Pool.pending_advance .decrementAndGet details
  have owedResets := Pool.pending_advance .setZero details
  have answered := details.answered
  simp only [Balanced]
  generalize details.command = command, details.continuation = continuation,
    details.reply = reply at step increments decrements owedResets answered noClear noReset
  cases step with
  | mapPut key value =>
      simp only [execute, Option.some.injEq, Prod.mk.injEq] at answered
      rcases answered with ⟨rfl, shared⟩
      have unmoved : (calls.shared.put (.inMemory name) key value).sizes =
        calls.shared.sizes := rfl
      rw [← shared, keyCount_put, unmoved]
      simp only [finishPut_next?] at increments decrements owedResets
      generalize (calls.shared.contents (.inMemory name)).lookup key = previous at *
      cases previous <;> simp only [occupied, reduceCtorEq, if_true, if_false,
        Option.some.injEq] at increments decrements owedResets ⊢ <;> omega
  | mapRemove key =>
      simp only [execute, Option.some.injEq, Prod.mk.injEq] at answered
      rcases answered with ⟨rfl, shared⟩
      have unmoved : (calls.shared.erase (.inMemory name) key).sizes =
        calls.shared.sizes := rfl
      rw [← shared, keyCount_erase, unmoved]
      simp only [finishRemove_next?] at increments decrements owedResets
      generalize (calls.shared.contents (.inMemory name)).lookup key = previous at *
      cases previous <;> simp only [occupied, reduceCtorEq, if_true, if_false,
        Option.some.injEq] at increments decrements owedResets ⊢ <;> omega
  | mapClear => exact absurd rfl noClear
  | incrementAndGet result =>
      simp only [execute, Option.some.injEq, Prod.mk.injEq] at answered
      have moved : (calls.shared.resize name 1).sizes name = calls.shared.sizes name + 1 :=
        Function.update_self ..
      have kept : keyCount name (calls.shared.resize name 1) = keyCount name calls.shared := rfl
      rw [← answered.2, moved, kept]
      simp only [Program.next?, reduceCtorEq, if_true, if_false] at increments decrements owedResets
      omega
  | decrementAndGet result =>
      simp only [execute, Option.some.injEq, Prod.mk.injEq] at answered
      have moved : (calls.shared.resize name (-1)).sizes name =
          calls.shared.sizes name + -1 := Function.update_self ..
      have kept : keyCount name (calls.shared.resize name (-1)) =
        keyCount name calls.shared := rfl
      rw [← answered.2, moved, kept]
      simp only [Program.next?, reduceCtorEq, if_true, if_false] at increments decrements owedResets
      omega
  | setZero result => exact absurd rfl noReset

/-- After its map is empty, `clear` owes the counter a reset. -/
theorem owes_reset_of_mapClear {name : String} {calls next : Calls}
    (details : Pool.Advanced (execute name) () calls next)
    (step : NextStep details.command details.continuation)
    (clears : details.command = .mapClear) : 0 < next.pending .setZero := by
  have owedResets := Pool.pending_advance .setZero details
  generalize details.command = command, details.continuation = continuation,
    details.reply = reply at step clears owedResets
  cases step with
  | mapClear =>
      simp only [finishClear, Program.next?, if_true, reduceCtorEq, if_false] at owedResets
      omega
  | _ => cases clears

/-- A reset leaves the counter balanced exactly when it was settled. -/
theorem balanced_of_reset_iff {name : String} {calls next : Calls}
    (details : Pool.Advanced (execute name) () calls next)
    (step : NextStep details.command details.continuation)
    (reset : details.command = .setZero) : Balanced name next ↔ Settled name calls := by
  have increments := Pool.pending_advance .incrementAndGet details
  have decrements := Pool.pending_advance .decrementAndGet details
  have answered := details.answered
  simp only [Balanced, Settled]
  generalize details.command = command, details.continuation = continuation,
    details.reply = reply at step reset increments decrements answered
  cases step with
  | setZero result =>
      simp only [execute, Option.some.injEq, Prod.mk.injEq] at answered
      have zero : (calls.shared.setSize name 0).sizes name = 0 := Function.update_self ..
      have kept : keyCount name (calls.shared.setSize name 0) = keyCount name calls.shared := rfl
      rw [← answered.2, zero, kept]
      simp only [Program.next?, reduceCtorEq, if_false] at increments decrements
      omega
  | _ => cases reset

/-- Every step keeps track of the last reset. -/
theorem Tracked.advance {name : String} {last : Option Calls} {calls next : Calls}
    (tracked : Tracked name last calls)
    (details : Pool.Advanced (execute name) () calls next)
    (step : NextStep details.command details.continuation) :
    Tracked name (if details.command = .setZero then some calls else last) next := by
  intro noReset
  by_cases reset : details.command = .setZero
  · rw [if_pos reset, balanced_of_reset_iff details step reset]
    simp
  · by_cases clears : details.command = .mapClear
    · have owed := owes_reset_of_mapClear details step clears
      omega
    · rcases balanced_advance_iff details step clears reset with ⟨balanced, owed⟩
      rw [if_neg reset, balanced]
      exact tracked (owed ▸ noReset)

/-! ## Every interleaving -/

/-- Under every interleaving of calls on a store whose counter is exact at the
start, in every state with no call in progress: the counter is the number of keys
exactly when the last reset, if there was one, was taken while the map had as many
keys as there were increments owed, less the decrements. -/
theorem size_eq_iff (name : String) {world : World}
    (counted : world.sizes name = keyCount name world) {moves : List (Move Unit Operation)}
    {calls : Calls} (ran : run (callStep name) (Pool.initial world) moves = some calls)
    (idle : calls.Idle) :
    calls.shared.sizes name = keyCount name calls.shared ↔
      ∀ source, lastMarked (callStep name) resets (Pool.initial world) moves = some source →
        Settled name source := by
  have tracked : Tracked name
        (lastMarked (callStep name) resets (Pool.initial world) moves) calls ∧
      calls.Sound Operation.call := by
    apply lastMarked_induction (fun last calls =>
      Tracked name last calls ∧ calls.Sound Operation.call) _ _ ran
    · rintro last source move target ⟨tracked, sound⟩ stepped
      cases move with
      | start operation =>
          cases stepped
          exact ⟨tracked.start operation, sound.start operation⟩
      | advance index choice =>
          rcases Pool.advance_eq_some stepped with ⟨details, found⟩
          have step := nextStep_of_follows (sound.follows details)
          have marked : resets source (.advance index choice) =
              decide (details.command = .setZero) := by
            simp [resets, found, details.program, Program.next?]
          simp only [marked, decide_eq_true_eq]
          exact ⟨tracked.advance details step, sound.advance details⟩
    · constructor
      · intro _
        rw [Balanced, Pool.pending_initial, Pool.pending_initial]
        simp [Pool.initial, counted]
      · exact Pool.sound_initial world
  have balanced := tracked.1 (idle.pending_eq_zero .setZero)
  rw [Balanced, idle.pending_eq_zero, idle.pending_eq_zero] at balanced
  rw [← balanced]
  simp

end InMemoryCache

end PushCache.Java

namespace PushCache.Sample

open PushCache.Concurrency
open PushCache.Java.InMemoryCache
open PushCache.Transition

/-- A put and a clear, one after the other. -/
def clearAfterwards : List (Move Unit Java.InMemoryCache.Operation) :=
  [.start (.put "k" (payload 1)), .advance 0 (), .advance 0 (), .start .clear, .advance 1 (),
    .advance 1 ()]

/-- A clear between the two steps of a put. -/
def clearInBetween : List (Move Unit Java.InMemoryCache.Operation) :=
  [.start (.put "k" (payload 1)), .start .clear, .advance 0 (), .advance 1 (), .advance 1 (),
    .advance 0 ()]

/-- The world of a fresh Java process over empty backends. -/
def javaWorld : Java.World :=
  .fresh fun _ => ∅

theorem size_exact_of_clearAfterwards :
    ∃ calls, run (callStep "customers") (Pool.initial javaWorld) clearAfterwards = some calls ∧
      calls.shared.sizes "customers" = keyCount "customers" calls.shared := by
  have ran : ∃ calls, run (callStep "customers") (Pool.initial javaWorld) clearAfterwards =
      some calls ∧ calls.Idle := by
    refine ⟨_, rfl, ?_⟩
    exact List.forall_mem_cons.mpr ⟨⟨_, rfl⟩, List.forall_mem_cons.mpr
      ⟨⟨_, rfl⟩, List.forall_mem_nil _⟩⟩
  rcases ran with ⟨calls, ran, idle⟩
  refine ⟨calls, ran, (size_eq_iff "customers" rfl ran idle).mpr fun source last => ?_⟩
  cases last
  rfl

/-- The clear leaves an empty map, and the put a counter of one. -/
theorem clear_leaves_drift :
    ∃ calls, run (callStep "customers") (Pool.initial javaWorld) clearInBetween = some calls ∧
      calls.Idle ∧ keyCount "customers" calls.shared = 0 ∧
        calls.shared.sizes "customers" = 1 := by
  refine ⟨_, rfl, ?_, rfl, rfl⟩
  exact List.forall_mem_cons.mpr ⟨⟨_, rfl⟩, List.forall_mem_cons.mpr
    ⟨⟨_, rfl⟩, List.forall_mem_nil _⟩⟩

end PushCache.Sample
