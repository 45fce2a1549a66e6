import PushCache.Concurrency.Pool
import PushCache.Consumer.Gauge

/-!
# The size gauge under concurrent calls

Consumer and request handlers call the in-memory stores concurrently.  A call is
one atomic step on the store's map and, when the map gained or lost a key, one
atomic step on the gauge all stores share.  Between the two the gauge lags
behind by the calls that still owe it their step; with no call in progress it is
exact.
-/

namespace PushCache

open PushCache.Concurrency
open PushCache.Transition

namespace InMemoryCache

/-- The atomic steps of a call: on a store's map, or on the gauge. -/
inductive AtomicStep where
  | mapInsert (name key : String) (value : Bytes)
  | mapRemove (name key : String)
  | inc
  | dec
  deriving DecidableEq

/-- What a call returns. -/
inductive Returned where
  | inserted (result : Except MyError Unit)
  | removed (result : Except MyError (Option Bytes))

/-- One atomic step; a step on a map answers with the previous record. -/
def execute : Answers Unit AtomicStep (Option Bytes) World
  | _, .mapInsert name key value, world =>
      some ((world.contents (.inMemory name)).lookup key, world.put (.inMemory name) key value)
  | _, .mapRemove name key, world =>
      some ((world.contents (.inMemory name)).lookup key, world.erase (.inMemory name) key)
  | _, .inc, world => some (none, world.resize 1)
  | _, .dec, world => some (none, world.resize (-1))

/-- The rest of an insertion, given the record it replaced. -/
def finishInsert (previous : Option Bytes) : Program AtomicStep (Option Bytes) Returned :=
  if previous.isNone then
    .command .inc fun _ => .done (.inserted (.ok ()))
  else
    .done (.inserted (.ok ()))

/-- `InMemoryCache::insert`, step by step. -/
def insertCall (name key : String) (value : Bytes) :
    Program AtomicStep (Option Bytes) Returned :=
  .command (.mapInsert name key value) finishInsert

/-- The rest of a removal, given the record it took out. -/
def finishRemove : Option Bytes → Program AtomicStep (Option Bytes) Returned
  | some value => .command .dec fun _ => .done (.removed (.ok (some value)))
  | none => .done (.removed (.ok none))

/-- `InMemoryCache::remove`, step by step. -/
def removeCall (name key : String) : Program AtomicStep (Option Bytes) Returned :=
  .command (.mapRemove name key) finishRemove

/-- Undisturbed, the steps of an insertion are the insertion. -/
theorem insertCall_alone (name key : String) (value : Bytes) (world : World) :
    (insertCall name key value).alone execute () world =
      some (.inserted (insert name key value world).1, (insert name key value world).2) := by
  simp only [insertCall, Program.alone, execute, Option.bind_some, insert]
  cases (world.contents (.inMemory name)).lookup key <;> rfl

/-- Undisturbed, the steps of a removal are the removal. -/
theorem removeCall_alone (name key : String) (world : World) :
    (removeCall name key).alone execute () world =
      some (.removed (remove name key world).1, (remove name key world).2) := by
  simp only [removeCall, Program.alone, execute, Option.bind_some, remove]
  cases found : (world.contents (.inMemory name)).lookup key with
  | none => rw [World.erase_of_absent found, finishRemove, Program.alone]
  | some value => rfl

end InMemoryCache

open InMemoryCache

/-- The steps of a write on an in-memory store. -/
def StoreWrite.call : StoreWrite → Program AtomicStep (Option Bytes) Returned
  | .insert cache key value => insertCall cache.name key value
  | .remove cache key => removeCall cache.name key

/-- The insert and remove calls clients may make on the stores of a service. -/
abbrev MyState.Operation (state : MyState) :=
  { write : StoreWrite // write.cache ∈ state.caches }

/-- The service's in-memory stores with the calls in progress. -/
abbrev MyState.Calls (state : MyState) :=
  Pool World AtomicStep (Option Bytes) Returned state.Operation

/-- Clients of the stores: a call starts, or takes its next step. -/
def MyState.callStep (state : MyState) : Step state.Calls (Move Unit state.Operation) :=
  Pool.step execute fun operation => operation.val.call

/-- The gauge counts the records, but for the calls that have changed a map and
still owe the gauge their step. -/
def MyState.GaugeBalanced (state : MyState) (calls : state.Calls) : Prop :=
  calls.shared.metrics.cacheSize =
    state.population calls.shared - calls.pending .inc + calls.pending .dec

/-! ## One step -/

/-- The steps a call can be about to take, with what it does afterwards. -/
inductive MyState.NextStep (state : MyState) :
    AtomicStep → (Option Bytes → Program AtomicStep (Option Bytes) Returned) → Prop where
  | mapInsert {cache : Cache} {key : String} {value : Bytes} :
      cache ∈ state.caches → NextStep state (.mapInsert cache.name key value) finishInsert
  | mapRemove {cache : Cache} {key : String} :
      cache ∈ state.caches → NextStep state (.mapRemove cache.name key) finishRemove
  | inc (result : Returned) : NextStep state .inc fun _ => .done result
  | dec (result : Returned) : NextStep state .dec fun _ => .done result

theorem MyState.nextStep_of_follows {state : MyState} {operation : state.Operation}
    {trace : List (AtomicStep × Option Bytes)} {step : AtomicStep}
    {next : Option Bytes → Program AtomicStep (Option Bytes) Returned}
    (follows : operation.val.call.Follows trace (.command step next)) :
    state.NextStep step next := by
  rcases operation with ⟨write, member⟩
  cases write with
  | insert cache key value =>
      rcases Program.follows_command_iff.mp follows with ⟨_, here⟩ | ⟨previous, _, _, rest⟩
      · cases here
        exact .mapInsert member
      · cases previous with
        | none =>
            cases rest.last.2
            exact .inc _
        | some value => cases (Program.follows_done_iff.mp rest).2
  | remove cache key =>
      rcases Program.follows_command_iff.mp follows with ⟨_, here⟩ | ⟨removed, _, _, rest⟩
      · cases here
        exact .mapRemove member
      · cases removed with
        | none => cases (Program.follows_done_iff.mp rest).2
        | some value =>
            cases rest.last.2
            exact .dec _

/-- An insertion owes the gauge a step exactly when its key was new. -/
theorem finishInsert_next? (previous : Option Bytes) :
    (finishInsert previous).next? = if previous = none then some .inc else none := by
  cases previous <;> rfl

/-- A removal owes the gauge a step exactly when its key was present. -/
theorem finishRemove_next? (removed : Option Bytes) :
    (finishRemove removed).next? = if removed = none then none else some .dec := by
  cases removed <;> rfl

theorem MyState.inMemory_mem_cells {state : MyState} (inMemory : state.InMemory)
    {cache : Cache} (member : cache ∈ state.caches) : .inMemory cache.name ∈ state.cells := by
  rw [← Cache.cell_of_inMemory (inMemory cache member)]
  exact List.mem_toFinset.mpr (List.mem_map_of_mem member)

/-- A new call owes the gauge nothing yet. -/
theorem MyState.GaugeBalanced.start {state : MyState} {calls : state.Calls}
    (balanced : state.GaugeBalanced calls) (operation : state.Operation) :
    state.GaugeBalanced (calls.start (fun operation => operation.val.call) operation) := by
  have idleStart : ∀ step, step = AtomicStep.inc ∨ step = .dec →
      operation.val.call.next? ≠ some step := by
    rcases operation with ⟨write, _⟩
    cases write <;> rintro _ (rfl | rfl) <;> simp [StoreWrite.call, insertCall, removeCall,
      Program.next?]
  simp only [GaugeBalanced, Pool.pending_start, if_neg (idleStart .inc (Or.inl rfl)),
    if_neg (idleStart .dec (Or.inr rfl)), Nat.add_zero]
  exact balanced

/-- Every step keeps the balance. -/
theorem MyState.GaugeBalanced.advance {state : MyState} (inMemory : state.InMemory)
    {calls next : state.Calls} (balanced : state.GaugeBalanced calls)
    (details : Pool.Advanced execute () calls next)
    (step : state.NextStep details.command details.continuation) :
    state.GaugeBalanced next := by
  have increments := Pool.pending_advance .inc details
  have decrements := Pool.pending_advance .dec details
  have answered := details.answered
  simp only [GaugeBalanced] at balanced ⊢
  generalize details.command = command, details.continuation = continuation,
    details.reply = reply at step increments decrements answered
  cases step with
  | @mapInsert cache key value member =>
      simp only [execute, Option.some.injEq, Prod.mk.injEq] at answered
      rcases answered with ⟨rfl, shared⟩
      have grown : state.population (calls.shared.put (.inMemory cache.name) key value) =
          state.population calls.shared +
            (1 - occupied (calls.shared.view (.inMemory cache.name, key))) :=
        population_put (inMemory_mem_cells inMemory member) key value
      have unmoved : (calls.shared.put (.inMemory cache.name) key value).metrics =
        calls.shared.metrics := rfl
      rw [← shared, grown, unmoved, balanced]
      simp only [finishInsert_next?, World.view] at increments decrements ⊢
      generalize (calls.shared.contents (.inMemory cache.name)).lookup key = previous at *
      cases previous <;> simp only [occupied, Option.some.injEq, reduceCtorEq, if_true,
        if_false] at increments decrements ⊢ <;> omega
  | @mapRemove cache key member =>
      simp only [execute, Option.some.injEq, Prod.mk.injEq] at answered
      rcases answered with ⟨rfl, shared⟩
      have shrunk : state.population (calls.shared.erase (.inMemory cache.name) key) =
          state.population calls.shared +
            (0 - occupied (calls.shared.view (.inMemory cache.name, key))) :=
        population_erase (inMemory_mem_cells inMemory member) key
      have unmoved : (calls.shared.erase (.inMemory cache.name) key).metrics =
        calls.shared.metrics := rfl
      rw [← shared, shrunk, unmoved, balanced]
      simp only [finishRemove_next?, World.view] at increments decrements ⊢
      generalize (calls.shared.contents (.inMemory cache.name)).lookup key = previous at *
      cases previous <;> simp only [occupied, Option.some.injEq, reduceCtorEq, if_true,
        if_false] at increments decrements ⊢ <;> omega
  | inc result =>
      simp only [execute, Option.some.injEq, Prod.mk.injEq] at answered
      rw [← answered.2]
      change calls.shared.metrics.cacheSize + 1 = state.population calls.shared - _ + _
      simp only [Program.next?, reduceCtorEq, if_true, if_false] at increments decrements
      omega
  | dec result =>
      simp only [execute, Option.some.injEq, Prod.mk.injEq] at answered
      rw [← answered.2]
      change calls.shared.metrics.cacheSize + -1 = state.population calls.shared - _ + _
      simp only [Program.next?, reduceCtorEq, if_true, if_false] at increments decrements
      omega

/-! ## Every interleaving -/

/-- From an exact gauge, every interleaving of calls keeps the balance. -/
theorem MyState.gaugeBalanced_of_run {state : MyState} (inMemory : state.InMemory)
    {world : World} (gauged : state.GaugeExact world)
    {moves : List (Move Unit state.Operation)} {calls : state.Calls}
    (ran : run state.callStep (Pool.initial world) moves = some calls) :
    state.GaugeBalanced calls := by
  have kept : Preserved state.callStep fun calls : state.Calls =>
      state.GaugeBalanced calls ∧ calls.Sound fun operation => operation.val.call := by
    apply Pool.preserved_of
    · rintro source operation ⟨balanced, sound⟩
      exact ⟨balanced.start operation, sound.start operation⟩
    · rintro source target choice ⟨balanced, sound⟩ details
      have step := nextStep_of_follows (sound.follows details)
      exact ⟨balanced.advance inMemory details step, sound.advance details⟩
  have initially : state.GaugeBalanced (Pool.initial world) := by
    rw [GaugeBalanced, Pool.pending_initial, Pool.pending_initial]
    change world.metrics.cacheSize = state.population world - 0 + 0
    rw [gauged, Int.sub_zero, Int.add_zero]
  exact (kept.of_run ⟨initially, Pool.sound_initial world⟩ ran).1

/-- In a started service with in-memory stores, under every interleaving of
calls, the gauge is the number of records, less the inserted keys and plus the
removed ones it has yet to hear of; with no call in progress it is the number of
records. -/
theorem MyState.cacheSize_of_run {crates : Crates} {order : RandomState} {boot : Boot}
    {config : MyConfig} {persisted : Cell → Records} {state : MyState} {world : World}
    (started : MyState.new crates order boot config persisted = .ok (state, world))
    (allInMemory : ∀ definition ∈ config.cache.stores, definition.storeType = .inMemory)
    {moves : List (Move Unit state.Operation)} {calls : state.Calls}
    (ran : run state.callStep (Pool.initial world) moves = some calls) :
    calls.shared.metrics.cacheSize =
        state.population calls.shared - calls.pending .inc + calls.pending .dec ∧
      (calls.Idle → calls.shared.metrics.cacheSize = state.population calls.shared) := by
  have inMemory := MyState.new_inMemory started allInMemory
  have balanced := gaugeBalanced_of_run inMemory (MyState.new_gaugeExact started inMemory) ran
  constructor
  · exact balanced
  · intro idle
    rw [balanced, idle.pending_eq_zero, idle.pending_eq_zero]
    simp

namespace Sample

/-- A call on the sample's in-memory store. -/
def insertion : (state .inMemory).Operation :=
  ⟨.insert (cache .inMemory) "k" (payload 1), List.mem_singleton_self _⟩

def removal : (state .inMemory).Operation :=
  ⟨.remove (cache .inMemory) "k", List.mem_singleton_self _⟩

/-- An insertion and a removal of its record, both before their gauge step. -/
def racing : List (Move Unit (state .inMemory).Operation) :=
  [.start insertion, .start removal, .advance 0 (), .advance 1 ()]

/-- The race, and the gauge steps of both calls. -/
theorem cacheSize_of_race :
    (∃ calls, run (state .inMemory).callStep (Pool.initial (world fun _ => ∅)) racing =
        some calls ∧
      calls.shared.metrics.cacheSize =
        (state .inMemory).population calls.shared - calls.pending .inc + calls.pending .dec) ∧
      ∃ calls, run (state .inMemory).callStep (Pool.initial (world fun _ => ∅))
          (racing ++ [.advance 1 (), .advance 0 ()]) = some calls ∧
        calls.shared.metrics.cacheSize = (state .inMemory).population calls.shared := by
  have allInMemory : ∀ definition ∈ (config .inMemory).cache.stores,
      definition.storeType = .inMemory := by
    simp [config, customers]
  constructor
  · have ran : ∃ calls, run (state .inMemory).callStep
        (Pool.initial (world fun _ => ∅)) racing = some calls := ⟨_, rfl⟩
    rcases ran with ⟨calls, ran⟩
    exact ⟨calls, ran, (MyState.cacheSize_of_run (started .inMemory _) allInMemory ran).1⟩
  · have ran : ∃ calls, run (state .inMemory).callStep (Pool.initial (world fun _ => ∅))
        (racing ++ [.advance 1 (), .advance 0 ()]) = some calls ∧ calls.Idle :=
      ⟨_, rfl, List.forall_mem_cons.mpr ⟨⟨_, rfl⟩, List.forall_mem_cons.mpr
        ⟨⟨_, rfl⟩, List.forall_mem_nil _⟩⟩⟩
    rcases ran with ⟨calls, ran, idle⟩
    exact ⟨calls, ran,
      (MyState.cacheSize_of_run (started .inMemory _) allInMemory ran).2 idle⟩

end Sample

end PushCache
