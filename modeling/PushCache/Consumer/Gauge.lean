import Mathlib.Algebra.BigOperators.Group.Finset.Basic
import Mathlib.Tactic.Ring
import PushCache.Startup

/-!
# The in-memory size gauge

One gauge is shared by all in-memory stores.  Every completed write moves it by
the number of records the write adds, so it stays equal to the number of records
in the cells of the service's stores.
-/

namespace PushCache

open PushCache.Transition

/-- The cells of the service's stores. -/
def MyState.cells (state : MyState) : Finset Cell :=
  (state.caches.map Cache.cell).toFinset

/-- The number of records in the cells of the service's stores. -/
def MyState.population (state : MyState) (world : World) : Int :=
  ∑ cell ∈ state.cells, ((world.contents cell).keys.card : Int)

/-- The gauge shows the number of records. -/
def MyState.GaugeExact (state : MyState) (world : World) : Prop :=
  world.metrics.cacheSize = state.population world

theorem card_keys_insert (records : Records) (key : String) (value : Bytes) :
    ((records.insert key value).keys.card : Int) =
      records.keys.card + (1 - occupied (records.lookup key)) := by
  have keysEq : (records.insert key value).keys = insert key records.keys := by
    ext other
    simp only [Finmap.mem_keys, Finmap.mem_insert, Finset.mem_insert]
  rw [keysEq]
  cases found : records.lookup key with
  | none =>
      have absent : key ∉ records.keys := by
        rw [Finmap.mem_keys]
        exact Finmap.lookup_eq_none.mp found
      rw [Finset.card_insert_of_notMem absent]
      simp [occupied]
  | some previous =>
      have present : key ∈ records.keys := by
        rw [Finmap.mem_keys]
        exact Finmap.mem_of_lookup_eq_some found
      rw [Finset.insert_eq_of_mem present]
      simp [occupied]

theorem card_keys_erase (records : Records) (key : String) :
    ((records.erase key).keys.card : Int) =
      records.keys.card + (0 - occupied (records.lookup key)) := by
  rw [Finmap.keys_erase]
  cases found : records.lookup key with
  | none =>
      have absent : key ∉ records.keys := by
        rw [Finmap.mem_keys]
        exact Finmap.lookup_eq_none.mp found
      rw [Finset.erase_eq_of_notMem absent]
      simp [occupied]
  | some previous =>
      have present : key ∈ records.keys := by
        rw [Finmap.mem_keys]
        exact Finmap.mem_of_lookup_eq_some found
      have counted := Finset.card_erase_add_one present
      simp only [occupied]
      omega

/-- Replacing the records of one cell of the service. -/
theorem population_update {state : MyState} {world : World} {cell : Cell}
    (own : cell ∈ state.cells) (records : Records) :
    state.population { world with
        contents := Function.update world.contents cell records } =
      state.population world +
        ((records.keys.card : Int) - (world.contents cell).keys.card) := by
  have others : ∀ other ∈ state.cells.erase cell,
      ((Function.update world.contents cell records other).keys.card : Int) =
        (world.contents other).keys.card := by
    intro other member
    rw [Function.update_of_ne (Finset.ne_of_mem_erase member)]
  simp only [MyState.population]
  rw [← Finset.add_sum_erase _ _ own, ← Finset.add_sum_erase _ _ own,
    Finset.sum_congr rfl others, Function.update_self]
  ring

theorem population_put {state : MyState} {world : World} {cell : Cell}
    (own : cell ∈ state.cells) (key : String) (value : Bytes) :
    state.population (world.put cell key value) =
      state.population world + (1 - occupied (world.view (cell, key))) := by
  rw [World.put, population_update own, card_keys_insert, World.view]
  ring

theorem population_erase {state : MyState} {world : World} {cell : Cell}
    (own : cell ∈ state.cells) (key : String) :
    state.population (world.erase cell key) =
      state.population world + (0 - occupied (world.view (cell, key))) := by
  rw [World.erase, population_update own, card_keys_erase, World.view]
  ring

/-- The effect of a write on an in-memory store of the service grows the
population by the write's growth. -/
theorem population_effect {state : MyState} {write : StoreWrite}
    (member : write.cache ∈ state.caches)
    (inMemory : write.cache.storeType = .inMemory) (world : World) :
    state.population (write.effect world) =
      state.population world + write.growth world := by
  have own : write.cache.cell ∈ state.cells :=
    List.mem_toFinset.mpr (List.mem_map_of_mem member)
  rw [StoreWrite.growth, if_pos inMemory]
  cases write with
  | insert cache key value => exact population_put own _ value
  | remove cache key => exact population_erase own _

/-- A write to an in-memory store of the service moves the gauge by what it
adds. -/
theorem perform_gaugeExact {state : MyState} (env : Env) {write : StoreWrite}
    (member : write.cache ∈ state.caches)
    (inMemory : write.cache.storeType = .inMemory) {world : World}
    (gauged : state.GaugeExact world) :
    state.GaugeExact (perform env write world).2 := by
  have unmoved : (write.effect world).metrics = world.metrics := by
    cases write <;> rfl
  rw [perform_eq, StoreWrite.fault, if_pos inMemory]
  change (write.effect world).metrics.cacheSize + write.growth world =
    state.population (write.effect world)
  rw [population_effect member inMemory, unmoved, gauged]

/-- Handling a message keeps the gauge exact. -/
theorem handleMessage_gaugeExact {crates : Crates} {state : MyState} {env : Env}
    (inMemory : state.InMemory) {world : World} (gauged : state.GaugeExact world)
    (message : Message) :
    state.GaugeExact (handleMessage crates state env message world).2 := by
  rw [handleMessage_eq]
  generalize resolvedEq : resolveMessage crates state env message world = resolved
  have resolvedExact : state.GaugeExact resolved := by
    rw [← resolvedEq]
    simp only [resolveMessage, cacheSchema]
    repeat' split
    all_goals exact gauged
  have allWrites : ∀ writes : List StoreWrite,
      (∀ write ∈ writes, write.cache ∈ state.caches) → ∀ start : World,
        state.GaugeExact start →
          state.GaugeExact (tryForEach (perform env) writes start).2 := by
    intro writes
    induction writes with
    | nil => exact fun _ _ startExact => startExact
    | cons write writes ih =>
        intro members start startExact
        have own := members write List.mem_cons_self
        have kept := perform_gaugeExact env own (inMemory _ own) startExact
        rcases outcome : perform env write start with ⟨_ | _, next⟩
        · rw [tryForEach_cons_of_error outcome]
          rwa [outcome] at kept
        · rw [tryForEach_cons_of_ok outcome]
          rw [outcome] at kept
          exact ih (fun other otherMem => members other (List.mem_cons_of_mem write otherMem))
            next kept
  refine allWrites _ (fun write member => cache_mem_of_mem_writes member) _ ?_
  cases command crates state resolved.schemaOf message <;> exact resolvedExact

theorem ingest_gaugeExact {crates : Crates} {state : MyState} {env : Env}
    (inMemory : state.InMemory) {world : World} (gauged : state.GaugeExact world)
    (log : List Message) : state.GaugeExact (ingest crates state env world log) := by
  induction log generalizing world with
  | nil => exact gauged
  | cons message log ih => exact ih (handleMessage_gaugeExact inMemory gauged message)

/-- The gauge of a started in-memory service is exact. -/
theorem MyState.new_gaugeExact {crates : Crates} {order : RandomState} {boot : Boot}
    {config : MyConfig} {persisted : Cell → Records} {state : MyState} {world : World}
    (started : MyState.new crates order boot config persisted = .ok (state, world))
    (inMemory : state.InMemory) : state.GaugeExact world := by
  rcases MyState.new_eq_ok started with ⟨_, _, _, _, _, rfl⟩
  apply Eq.symm
  apply Finset.sum_eq_zero
  intro cell member
  rcases List.mem_map.mp (List.mem_toFinset.mp member) with ⟨cache, cacheMem, rfl⟩
  rw [Cache.cell_of_inMemory (inMemory cache cacheMem)]
  simp [freshContents]

end PushCache
