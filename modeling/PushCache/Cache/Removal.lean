import PushCache.Concurrency.Register
import PushCache.Startup

/-!
# Removal on each backend

How the five stores remove a record, at the granularity of the commands their
backends execute one at a time.  Four of them delete and answer in one command.
The Oracle store selects the value and deletes the row with a second statement,
so it can return a value that another client has deleted or overwritten in
between.
-/

namespace PushCache

open PushCache.Concurrency
open PushCache.Transition

/-- `DashMap::remove`. -/
def InMemoryCache.removal : Register.Removal := .deleteReturning

/-- `GETDEL`. -/
def RedisCache.removal : Register.Removal := .deleteReturning

/-- `find_one_and_delete`. -/
def MongoCache.removal : Register.Removal := .deleteReturning

/-- `SELECT v`, then `DELETE`.  A deleted row stays locked and visible to others
until the commit, so the statement counts together with its commit. -/
def OracleCache.removal : Register.Removal := .readThenDelete

/-- `DELETE .. RETURNING v`. -/
def PostgresCache.removal : Register.Removal := .deleteReturning

/-- `Cache::remove` of a backend. -/
def StoreType.removal : StoreType → Register.Removal
  | .inMemory => InMemoryCache.removal
  | .redis _ => RedisCache.removal
  | .mongo _ => MongoCache.removal
  | .oracle _ => OracleCache.removal
  | .postgres _ => PostgresCache.removal

theorem StoreType.removal_of_not_oracle {storeType : StoreType}
    (notOracle : ∀ config, storeType ≠ .oracle config) :
    storeType.removal = .deleteReturning := by
  cases storeType with
  | oracle config => exact absurd rfl (notOracle config)
  | inMemory => rfl
  | redis config => rfl
  | mongo config => rfl
  | postgres config => rfl

/-- Undisturbed, the commands of a removal are the removal. -/
theorem Cache.remove_eq_alone (env : Env) (cache : Cache) (key : String) {world : World}
    {register : Register Bytes}
    (held : world.view (cache.location key) = register.record.map Stamped.value) :
    ∃ after, cache.storeType.removal.program.alone Register.answer
          ((StoreWrite.remove cache key).fault env) register =
        some (.removed (cache.remove env.faults key world).1, after) ∧
      (cache.remove env.faults key world).2.view (cache.location key) =
        after.record.map Stamped.value := by
  rw [Register.Removal.alone_eq, Cache.remove_eq]
  cases (StoreWrite.remove cache key).fault env with
  | some error => exact ⟨register, rfl, held⟩
  | none =>
      refine ⟨{ register with record := none }, by rw [held], ?_⟩
      rw [World.view_resize, StoreWrite.view_effect, StoreWrite.patch_apply]
      exact if_pos rfl

/-- Undisturbed, the command of an insertion is the insertion. -/
theorem Cache.insert_eq_alone (env : Env) (cache : Cache) (key : String) (value : Bytes)
    {world : World} {register : Register Bytes}
    (held : world.view (cache.location key) = register.record.map Stamped.value) :
    ∃ after, (Register.write value).alone Register.answer
          ((StoreWrite.insert cache key value).fault env) register =
        some (.written (cache.insert env.faults key value world).1, after) ∧
      (cache.insert env.faults key value world).2.view (cache.location key) =
        after.record.map Stamped.value := by
  have performed := perform_eq env (.insert cache key value) world
  rw [perform] at performed
  rw [performed]
  cases (StoreWrite.insert cache key value).fault env with
  | some error => exact ⟨register, rfl, held⟩
  | none =>
      refine ⟨_, rfl, ?_⟩
      rw [World.view_resize, StoreWrite.view_effect, StoreWrite.patch_apply]
      exact if_pos rfl

/-- On every backend, under every interleaving of calls on one key, removal is
atomic in all states exactly when no `DELETE` after a `SELECT` finds another
value than the `SELECT` did; on every backend but Oracle it is atomic anyway. -/
theorem StoreType.remove_atomic_iff (storeType : StoreType) (content : Option Bytes)
    {moves : List (Move (Option MyError) (Register.Operation Bytes))}
    {final : Register.Clients MyError Bytes}
    (ran : run (Register.step storeType.removal) (Pool.initial (Register.holding content))
      moves = some final) :
    (Guarded (Register.step storeType.removal) Register.Undisturbed
        (Pool.initial (Register.holding content)) moves ↔
      ∀ earlier later reached, moves = earlier ++ later →
        run (Register.step storeType.removal) (Pool.initial (Register.holding content))
          earlier = some reached → Register.RemovesAtomic reached) ∧
      ((∀ config, storeType ≠ .oracle config) → Register.RemovesAtomic final) := by
  constructor
  · exact Register.removesAtomic_iff_guarded storeType.removal content ran
  · intro notOracle
    rw [StoreType.removal_of_not_oracle notOracle] at ran
    exact Register.removesAtomic_of_deleteReturning content ran

namespace Sample

def oracle : StoreType := .oracle ⟨⟨url, none, none⟩, "cache"⟩

/-- Two removals that both select before either deletes. -/
def removals : List (Move (Option MyError) (Register.Operation Bytes)) :=
  [.start .remove, .start .remove, .advance 0 none, .advance 1 none, .advance 0 none,
    .advance 1 none]

/-- A removal, then a write, then a removal whose `DELETE` finds the value of its
`SELECT`. -/
def sequential : List (Move (Option MyError) (Register.Operation Bytes)) :=
  [.start .remove, .advance 0 none, .advance 0 none, .start (.write (payload 2)),
    .advance 1 none, .start .remove, .advance 2 none, .advance 2 none]

theorem remove_atomic_iff_of_sequential :
    ∃ final, run (Register.step oracle.removal)
        (Pool.initial (Register.holding (some (payload 1)))) sequential = some final ∧
      (Guarded (Register.step oracle.removal) Register.Undisturbed
          (Pool.initial (Register.holding (some (payload 1)))) sequential ↔
        ∀ earlier later reached, sequential = earlier ++ later →
          run (Register.step oracle.removal)
            (Pool.initial (Register.holding (some (payload 1)))) earlier = some reached →
              Register.RemovesAtomic reached) := by
  have ran : ∃ final, run (Register.step oracle.removal)
      (Pool.initial (Register.holding (some (payload 1)))) sequential = some final := ⟨_, rfl⟩
  rcases ran with ⟨final, ran⟩
  exact ⟨final, ran, (oracle.remove_atomic_iff (some (payload 1)) ran).1⟩

/-- Both removals return the value of the one write there ever was. -/
theorem oracle_returns_twice :
    ¬∀ (storeType : StoreType) (content : Option Bytes)
        (moves : List (Move (Option MyError) (Register.Operation Bytes)))
        (final : Register.Clients MyError Bytes),
      run (Register.step storeType.removal) (Pool.initial (Register.holding content)) moves =
        some final → Register.RemovesAtomic final := by
  intro always
  have atomic := always oracle (some (payload 1)) removals _ rfl
  rcases atomic.single with ⟨origin, written, distinct⟩
  have first : origin 0 = 0 := Nat.lt_one_iff.mp
    (List.getElem?_eq_some_iff.mp (written 0 (payload 1) ⟨_, rfl, rfl⟩)).1
  have second : origin 1 = 0 := Nat.lt_one_iff.mp
    (List.getElem?_eq_some_iff.mp (written 1 (payload 1) ⟨_, rfl, rfl⟩)).1
  exact absurd (distinct 0 1 (payload 1) (payload 1) ⟨_, rfl, rfl⟩ ⟨_, rfl, rfl⟩
    (first.trans second.symm)) Nat.zero_ne_one

end Sample

end PushCache
