import PushCache.Log.Broadcast
import PushCache.Startup

/-!
# Tombstones and failing stores

A tombstone removes its key from the stores one after the other, in the
iteration order of the store map, and stops at the first store that fails.
-/

namespace PushCache

open PushCache.Log

/-- The removal of a key fails on a store. -/
def removeFails (env : Env) (key : String) (cache : Cache) : Bool :=
  ((StoreWrite.remove cache key).fault env).isSome

theorem removeFrom_empties (env : Env) (key : String) :
    Empties (removeFrom env key) World.view (removeFails env key)
      fun cache => cache.location key := by
  intro cache world
  have performed := perform_eq env (.remove cache key) world
  rw [perform] at performed
  rw [removeFails, performed]
  cases (StoreWrite.remove cache key).fault env with
  | some error => exact Or.inl ⟨rfl, error, rfl⟩
  | none =>
      refine Or.inr ⟨rfl, _, rfl, ?_, fun other apart => ?_⟩
      · rw [World.view_resize, StoreWrite.view_effect, StoreWrite.patch_apply]
        exact if_pos rfl
      · rw [World.view_resize, StoreWrite.view_effect, StoreWrite.patch_apply]
        exact if_neg apart

/-- The handler of a tombstone is the broadcast removal, after its counter. -/
theorem handleMessage_tombstone (crates : Crates) (state : MyState) (env : Env)
    {keyBytes : Bytes} {key : String} (decoded : fromUtf8 keyBytes = some key)
    (world : World) :
    handleMessage crates state env ⟨some keyBytes, none⟩ world =
      Transition.tryForEach (removeFrom env key) state.caches world.countTombstone := by
  simp only [handleMessage, decoded]

/-- A tombstone clears every healthy store exactly when it reaches them all. -/
theorem tombstone_clears_iff (crates : Crates) (state : MyState) (env : Env)
    {keyBytes : Bytes} {key : String} (decoded : fromUtf8 keyBytes = some key)
    (world : World) :
    ClearsHealthy World.view (removeFails env key) Cache.location state.caches key world
        (handleMessage crates state env ⟨some keyBytes, none⟩ world).2 ↔
      ReachesHealthy World.view (removeFails env key) Cache.location state.caches key
        world := by
  rw [handleMessage_tombstone crates state env decoded]
  exact clearsHealthy_iff (removeFrom_empties env key) state.caches world.countTombstone

namespace Sample

/-- A Redis store on another server. -/
def first : Cache :=
  ⟨"first", .redis ⟨⟨"redis://down/", some "down", none⟩, none⟩⟩

/-- A deployment with two Redis stores. -/
def mirrored : MyState where
  config := config redis
  stores := ((∅ : Stores).insert "second" ⟨"second", redis⟩).insert "first" first
  routes := []
  schemaToStore := ∅

/-- Calls on one store fail. -/
def oneDown (name : String) : Env :=
  ⟨http, fun
    | .get cache _ => if cache.name = name then some (.message "down") else none
    | .write write => if write.cache.name = name then some (.message "down") else none⟩

/-- Both stores hold the key. -/
def bothHold : World :=
  { world (fun _ => ∅) with contents := fun _ => (∅ : Records).insert "k" (payload 1) }

end Sample

end PushCache
