import PushCache.Consumer.Tombstone
import PushCache.Java.KafkaConsumer

/-!
# Tombstones in the Java service

`processRecord` removes a tombstone's key from the stores in the order of the
configuration.  The exception of a failing store leaves the loop and the method,
so the stores after it keep the record, as in the Rust service.
-/

namespace PushCache.Java

open PushCache.Log

/-- The removal of a key throws on a store. -/
def removeThrows (faults : Faults) (key : String) (cache : Cache) : Bool :=
  (removeFault faults key cache).isSome

theorem removeThrows_eq_false_iff {faults : Faults} {key : String} {cache : Cache} :
    removeThrows faults key cache = false ↔ removeFault faults key cache = none := by
  rw [removeThrows]
  cases removeFault faults key cache <;> simp

theorem removeFrom_empties (faults : Faults) (key : String) :
    Empties (removeFrom faults key) World.view (removeThrows faults key)
      fun cache => cache.location key := by
  intro cache world
  rw [removeThrows]
  rcases removeFrom_spec faults key cache world with
    ⟨thrown, faulted, removed⟩ | ⟨healthy, next, removed, view, _⟩
  · exact Or.inl ⟨by rw [faulted]; rfl, thrown, removed⟩
  · refine Or.inr ⟨by rw [healthy]; rfl, next, removed, ?_, fun other apart => ?_⟩
    · rw [view, if_pos rfl]
    · rw [view, if_neg apart]

/-- A tombstone is the broadcast removal, before its counter. -/
theorem processRecord_tombstone_view (libraries : Libraries)
    (service : KafkaConsumerService) (env : Env) (key : String) (world : World) :
    (processRecord libraries service env ⟨some key, none⟩ world).2.view =
      (Transition.tryForEach (removeFrom env.faults key) service.cacheFactory.getAllStores
        world).2.view := by
  simp only [processRecord]
  rcases Transition.tryForEach (removeFrom env.faults key)
    service.cacheFactory.getAllStores world with ⟨_ | _, next⟩ <;> rfl

theorem tombstone_clears_iff (libraries : Libraries) (service : KafkaConsumerService)
    (env : Env) (key : String) (world : World) :
    ClearsHealthy World.view (removeThrows env.faults key) Cache.location
        service.cacheFactory.getAllStores key world
        (processRecord libraries service env ⟨some key, none⟩ world).2 ↔
      ReachesHealthy World.view (removeThrows env.faults key) Cache.location
        service.cacheFactory.getAllStores key world := by
  have cleared := clearsHealthy_iff (removeFrom_empties env.faults key)
    service.cacheFactory.getAllStores world
  simp only [ClearsHealthy] at cleared ⊢
  rw [processRecord_tombstone_view]
  exact cleared

end PushCache.Java

namespace PushCache

open PushCache.Log

/-- In both services, after a tombstone every store whose removal works has lost
the key and kept every other, exactly when each such store that holds the key
comes before the first failing one, or shares its place with one that does, and
none keeps another key in a place emptied there. -/
theorem tombstone_clears_healthy_iff (crates : Crates) (state : MyState) (env : Env)
    {keyBytes : Bytes} {key : String} (decoded : fromUtf8 keyBytes = some key) (world : World)
    (libraries : Java.Libraries) (service : Java.KafkaConsumerService) (javaEnv : Java.Env)
    (javaKey : String) (javaWorld : Java.World) :
    (ClearsHealthy World.view (removeFails env key) Cache.location state.caches key world
        (handleMessage crates state env ⟨some keyBytes, none⟩ world).2 ↔
      ReachesHealthy World.view (removeFails env key) Cache.location state.caches key world) ∧
    (ClearsHealthy Java.World.view (Java.removeThrows javaEnv.faults javaKey)
        Java.Cache.location service.cacheFactory.getAllStores javaKey javaWorld
        (Java.processRecord libraries service javaEnv ⟨some javaKey, none⟩ javaWorld).2 ↔
      ReachesHealthy Java.World.view (Java.removeThrows javaEnv.faults javaKey)
        Java.Cache.location service.cacheFactory.getAllStores javaKey javaWorld) := by
  constructor
  · exact tombstone_clears_iff crates state env decoded world
  · exact Java.tombstone_clears_iff libraries service javaEnv javaKey javaWorld

namespace Sample

/-- The deserializer of the Java client, on text and on a single malformed byte;
a registry response stands for one schema. -/
def libraries (schema : Schema) : Java.Libraries where
  deserializeString := fun bytes => (fromUtf8 bytes).getD "\uFFFD"
  schemaField := fun body => .ok body
  parseSchema := fun _ => .ok schema

/-- The store of the sample in the configuration of the Java service. -/
def javaCustomers (type : Java.StoreType) : Java.StoreDefinition where
  name := "customers"
  type := type
  schemas := some ["customer"]
  url := none
  keyPrefix := none
  database := none
  collection := none
  tableName := none

def javaService (type : Java.StoreType) : Java.KafkaConsumerService where
  cacheFactory := ⟨[("customers", ⟨javaCustomers type⟩)], schemaRoutes [customers .inMemory]⟩
  registryUrl := "http://localhost:8081/"
  offsetReset := .earliest
  forceResetEarliest := false

/-- Both stores hold the key and the failing one comes last: the other one is cleared. -/
theorem tombstone_clears_healthy_of_lastDown :
    bothHold.view (first.location "k") ≠ none ∧
      ClearsHealthy World.view (removeFails (oneDown "second") "k") Cache.location
        mirrored.caches "k" bothHold
        (handleMessage crates mirrored (oneDown "second") tombstone bothHold).2 := by
  have exactly := tombstone_clears_healthy_iff crates mirrored (oneDown "second")
    (show fromUtf8 key = some "k" from rfl) bothHold
    (libraries (.record "customer" "schema")) (javaService .inMemory)
    ⟨fun _ => .ok none, fun _ => none⟩ "k" (.fresh fun _ => ∅)
  have reachedFirst : reached (removeFails (oneDown "second") "k") mirrored.caches = [first] :=
    rfl
  refine ⟨by decide, exactly.1.mpr fun cache member healthy => ?_⟩
  rw [reachedFirst]
  rcases List.mem_pair.mp member with rfl | rfl
  · constructor
    · intro _
      exact ⟨first, List.mem_singleton_self _, rfl⟩
    · intro other apart _ early reachedEarly same
      rw [List.mem_singleton.mp reachedEarly] at same
      exact apart (Prod.mk.inj same).2.symm
  · cases healthy

/-- Both stores hold the key and the failing one comes first: the other one is not
cleared. -/
theorem tombstone_misses_healthy :
    ¬ClearsHealthy World.view (removeFails (oneDown "first") "k") Cache.location
      mirrored.caches "k" bothHold
      (handleMessage crates mirrored (oneDown "first") tombstone bothHold).2 := by
  intro clears
  have gone := (clears ⟨"second", redis⟩
    (List.mem_cons_of_mem _ List.mem_cons_self) rfl).1
  cases gone

end Sample

end PushCache
