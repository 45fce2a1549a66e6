import PushCache.Cache.Removal
import PushCache.Java.KafkaConsumer

/-!
# Removal on each backend of the Java service

The in-memory and the Mongo store delete and answer in one command.  The Redis
store gets the value and deletes the key if there was one; the Oracle and the
Postgres store select the value and then delete the row, in one transaction at
read-committed isolation.  These three can return a value that another client
has deleted or overwritten in between.
-/

namespace PushCache.Java

open PushCache.Concurrency
open PushCache.Transition

/-- `ConcurrentHashMap.remove`. -/
def InMemoryCache.removal : Register.Removal := .deleteReturning

/-- `get`, then `delete` in its `flatMap`. -/
def RedisCache.removal : Register.Removal := .readThenDeleteIfPresent

/-- `findOneAndDelete`. -/
def MongoCache.removal : Register.Removal := .deleteReturning

/-- `SELECT v`, then `DELETE`, which counts together with the commit of the
transaction. -/
def OracleCache.removal : Register.Removal := .readThenDelete

/-- `SELECT v`, then `DELETE`, which counts together with the commit of the
transaction. -/
def PostgresCache.removal : Register.Removal := .readThenDelete

/-- `Cache.remove` of a backend. -/
def StoreType.removal : StoreType → Register.Removal
  | .inMemory => InMemoryCache.removal
  | .redis => RedisCache.removal
  | .mongo => MongoCache.removal
  | .oracle => OracleCache.removal
  | .postgres => PostgresCache.removal

theorem Cache.remove_result (faults : Faults) (cache : Cache) (key : String) (world : World) :
    (cache.remove faults key world).1 =
      match removeFault faults key cache with
      | some thrown => .error thrown
      | none => .ok (world.view (cache.location key)) := by
  rw [removeFault]
  by_cases inMemory : cache.definition.type = .inMemory
  · rw [if_pos inMemory, Cache.location_of_inMemory inMemory]
    simp only [Cache.remove, inMemory, InMemoryCache.remove, World.view]
    cases found : (world.contents (.inMemory cache.definition.name)).lookup key with
    | none => rfl
    | some value => rfl
  · rw [if_neg inMemory, Cache.remove_of_remote inMemory]
    cases faults (.remove cache key) with
    | some thrown => rfl
    | none => rfl

/-- Undisturbed, the commands of a removal are the removal. -/
theorem Cache.remove_eq_alone (faults : Faults) (cache : Cache) (key : String) {world : World}
    {register : Register Bytes}
    (held : world.view (cache.location key) = register.record.map Stamped.value) :
    ∃ after, cache.definition.type.removal.program.alone Register.answer
          (removeFault faults key cache) register =
        some (.removed (cache.remove faults key world).1, after) ∧
      (removeFrom faults key cache world).2.view (cache.location key) =
        after.record.map Stamped.value := by
  rw [Register.Removal.alone_eq, Cache.remove_result]
  rcases removeFrom_spec faults key cache world with
    ⟨thrown, faulted, removed⟩ | ⟨healthy, next, removed, view, _⟩
  · rw [faulted, removed]
    exact ⟨register, rfl, held⟩
  · rw [healthy, removed]
    refine ⟨{ register with record := none }, by rw [held], ?_⟩
    rw [view, if_pos rfl]
    rfl

/-- Undisturbed, the command of an insertion is the insertion. -/
theorem Cache.put_eq_alone (faults : Faults) (cache : Cache) (key : String) (value : Bytes)
    {world : World} {register : Register Bytes}
    (held : world.view (cache.location key) = register.record.map Stamped.value) :
    ∃ after, (Register.write value).alone Register.answer (putFault faults key value cache)
        register = some (.written (cache.put faults key value world).1, after) ∧
      (cache.put faults key value world).2.view (cache.location key) =
        after.record.map Stamped.value := by
  rcases put_spec faults cache key value world with
    ⟨thrown, faulted, inserted⟩ | ⟨healthy, next, inserted, view, _⟩
  · rw [faulted, inserted]
    exact ⟨register, rfl, held⟩
  · rw [healthy, inserted]
    refine ⟨_, rfl, ?_⟩
    rw [view, if_pos rfl]
    rfl

/-- On every backend of the Java service, under every interleaving of calls on
one key, removal is atomic in all states exactly when no deletion that follows a
read finds another value than the read did; on the in-memory and the Mongo
backend it is atomic anyway. -/
theorem StoreType.java_remove_atomic_iff (type : StoreType) (content : Option Bytes)
    {moves : List (Move (Option JavaException) (Register.Operation Bytes))}
    {final : Register.Clients JavaException Bytes}
    (ran : run (Register.step type.removal) (Pool.initial (Register.holding content)) moves =
      some final) :
    (Guarded (Register.step type.removal) Register.Undisturbed
        (Pool.initial (Register.holding content)) moves ↔
      ∀ earlier later reached, moves = earlier ++ later →
        run (Register.step type.removal) (Pool.initial (Register.holding content)) earlier =
          some reached → Register.RemovesAtomic reached) ∧
      (type = .inMemory ∨ type = .mongo → Register.RemovesAtomic final) := by
  constructor
  · exact Register.removesAtomic_iff_guarded type.removal content ran
  · rintro (rfl | rfl)
    · exact Register.removesAtomic_of_deleteReturning content ran
    · exact Register.removesAtomic_of_deleteReturning content ran

end PushCache.Java

namespace PushCache.Sample

open PushCache.Concurrency
open PushCache.Transition

/-- A put between the two commands of a removal. -/
def putInBetween : List (Move (Option Java.JavaException) (Register.Operation Bytes)) :=
  [.start .remove, .advance 0 none, .start (.write (payload 2)), .advance 1 none,
    .advance 0 none]

/-- A put after both commands of a removal. -/
def putAfterwards : List (Move (Option Java.JavaException) (Register.Operation Bytes)) :=
  [.start .remove, .advance 0 none, .advance 0 none, .start (.write (payload 2)),
    .advance 1 none]

theorem java_remove_atomic_iff_of_putAfterwards :
    ∃ final, run (Register.step Java.StoreType.redis.removal)
        (Pool.initial (Register.holding (some (payload 1)))) putAfterwards = some final ∧
      (Guarded (Register.step Java.StoreType.redis.removal) Register.Undisturbed
          (Pool.initial (Register.holding (some (payload 1)))) putAfterwards ↔
        ∀ earlier later reached, putAfterwards = earlier ++ later →
          run (Register.step Java.StoreType.redis.removal)
            (Pool.initial (Register.holding (some (payload 1)))) earlier = some reached →
              Register.RemovesAtomic reached) := by
  have ran : ∃ final, run (Register.step Java.StoreType.redis.removal)
      (Pool.initial (Register.holding (some (payload 1)))) putAfterwards = some final :=
    ⟨_, rfl⟩
  rcases ran with ⟨final, ran⟩
  exact ⟨final, ran, (Java.StoreType.redis.java_remove_atomic_iff (some (payload 1)) ran).1⟩

/-- The removal deletes the second value and reports the first. -/
theorem java_remove_reports_older :
    ¬∀ (type : Java.StoreType) (content : Option Bytes)
        (moves : List (Move (Option Java.JavaException) (Register.Operation Bytes)))
        (final : Register.Clients Java.JavaException Bytes),
      run (Register.step type.removal) (Pool.initial (Register.holding content)) moves =
        some final → Register.RemovesAtomic final := by
  intro always
  have atomic := always .redis (some (payload 1)) putInBetween _ rfl
  have deleted := atomic.deleted_of_returns _ List.mem_cons_self (some (payload 1)) rfl
  have differ : payload 2 ≠ payload 1 := by decide
  exact differ (Option.some.inj deleted)

end PushCache.Sample
