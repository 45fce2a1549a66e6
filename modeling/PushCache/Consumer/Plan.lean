import PushCache.Consumer.Core
import PushCache.Log.Patch

/-!
# What a message does to the stores

The message handler decides on a `Command` from the message and its resolved
schema, and then carries out the command's store writes one after the other.
This file splits the handler accordingly and shows what a completed handler
leaves behind: the patch of the command on the records, the resolved schema in
the schema cache, and the counters.
-/

namespace PushCache

open PushCache.Log
open PushCache.Transition

/-! ## Store writes -/

/-- Carry out one write; the value a removal returns is dropped. -/
def perform (env : Env) : StoreWrite → World → Except MyError Unit × World
  | .insert cache key value, world => cache.insert env.faults key value world
  | .remove cache key, world => removeFrom env key cache world

/-- A location holds one record or none. -/
def occupied : Option Bytes → Int
  | some _ => 1
  | none => 0

namespace StoreWrite

/-- The store a write goes to. -/
def cache : StoreWrite → Cache
  | .insert cache _ _ => cache
  | .remove cache _ => cache

/-- The record a write is about. -/
def location : StoreWrite → Cell × String
  | .insert cache key _ => cache.location key
  | .remove cache key => cache.location key

/-- What a write leaves at its location. -/
def content : StoreWrite → Option Bytes
  | .insert _ _ value => some value
  | .remove _ _ => none

/-- The error a write ends with, if any: in-memory stores never fail. -/
def fault (env : Env) (write : StoreWrite) : Option MyError :=
  if write.cache.storeType = .inMemory then none else env.faults (.write write)

/-- The effect of a write on the cells. -/
def effect : StoreWrite → World → World
  | .insert cache key value, world => world.put cache.cell (cache.storedKey key) value
  | .remove cache key, world => world.erase cache.cell (cache.storedKey key)

/-- How many records a write adds to the in-memory stores. -/
def growth (write : StoreWrite) (world : World) : Int :=
  if write.cache.storeType = .inMemory then
    occupied write.content - occupied (world.view write.location)
  else
    0

/-- The effect of a write on the records. -/
def patch (write : StoreWrite) : Patch (Cell × String) (Option Bytes) :=
  fun location => if location = write.location then some write.content else none

theorem patch_eq_some_iff {write : StoreWrite} {location : Cell × String}
    {content : Option Bytes} :
    write.patch location = some content ↔
      write.location = location ∧ write.content = content := by
  by_cases here : location = write.location
  · simp [patch, here]
  · simp [patch, here, Ne.symm here]

theorem patch_apply (write : StoreWrite) (records : Cell × String → Option Bytes)
    (location : Cell × String) :
    write.patch.apply records location =
      if location = write.location then write.content else records location := by
  by_cases here : location = write.location <;> simp [Patch.apply, patch, here]

theorem view_effect (write : StoreWrite) (world : World) :
    (write.effect world).view = write.patch.apply world.view := by
  funext location
  rw [patch_apply]
  cases write with
  | insert cache key value => exact World.view_put world _ _ value location
  | remove cache key => exact World.view_erase world _ _ location

end StoreWrite

/-- The effect of several writes, one after the other. -/
def writesPatch (writes : List StoreWrite) : Patch (Cell × String) (Option Bytes) :=
  Patch.latest (writes.map StoreWrite.patch)

@[simp]
theorem writesPatch_singleton (write : StoreWrite) : writesPatch [write] = write.patch :=
  Patch.latest_singleton write.patch

theorem Cache.cell_of_inMemory {cache : Cache} (inMemory : cache.storeType = .inMemory) :
    cache.cell = .inMemory cache.name := by
  simp [Cache.cell, inMemory]

theorem Cache.storedKey_of_inMemory {cache : Cache}
    (inMemory : cache.storeType = .inMemory) (key : String) : cache.storedKey key = key := by
  simp [Cache.storedKey, inMemory]

theorem Cache.location_of_inMemory {cache : Cache}
    (inMemory : cache.storeType = .inMemory) (key : String) :
    cache.location key = (.inMemory cache.name, key) := by
  rw [Cache.location, Cache.cell_of_inMemory inMemory, Cache.storedKey_of_inMemory inMemory]

/-- What a store answers is what its location holds. -/
theorem Cache.get_of_ok {faults : Faults} {cache : Cache} {key : String} {world : World}
    {content : Option Bytes} (got : cache.get faults key world = .ok content) :
    world.view (cache.location key) = content := by
  simp only [Cache.get] at got
  split at got
  · next inMemory =>
      cases got
      rw [Cache.location_of_inMemory inMemory, World.view]
  · split at got <;> cases got
    rfl

/-- An in-memory store always answers. -/
theorem Cache.get_of_inMemory {cache : Cache} (inMemory : cache.storeType = .inMemory)
    (faults : Faults) (key : String) (world : World) :
    cache.get faults key world = .ok (world.view (cache.location key)) := by
  rw [Cache.location_of_inMemory inMemory]
  simp only [Cache.get, inMemory, World.view]

theorem InMemoryCache.insert_eq (name key : String) (value : Bytes) (world : World) :
    InMemoryCache.insert name key value world =
      (.ok (), (world.put (.inMemory name) key value).resize
        (1 - occupied (world.view (.inMemory name, key)))) := by
  simp only [InMemoryCache.insert, World.view]
  cases (world.contents (.inMemory name)).lookup key <;> simp [occupied]

theorem InMemoryCache.remove_eq (name key : String) (world : World) :
    InMemoryCache.remove name key world =
      (.ok (world.view (.inMemory name, key)),
        (world.erase (.inMemory name) key).resize
          (0 - occupied (world.view (.inMemory name, key)))) := by
  simp only [InMemoryCache.remove, World.view]
  cases found : (world.contents (.inMemory name)).lookup key with
  | none => simp [occupied, World.erase_of_absent found]
  | some value => simp [occupied]

/-- A write either fails and changes nothing, or has its effect on the cells
and its growth on the gauge. -/
theorem perform_eq (env : Env) (write : StoreWrite) (world : World) :
    perform env write world =
      match write.fault env with
      | some error => (.error error, world)
      | none => (.ok (), (write.effect world).resize (write.growth world)) := by
  cases write with
  | insert cache key value =>
      simp only [perform, Cache.insert, StoreWrite.fault, StoreWrite.growth,
        StoreWrite.effect, StoreWrite.cache, StoreWrite.location, StoreWrite.content,
        Cache.location]
      by_cases inMemory : cache.storeType = .inMemory
      · simp only [inMemory, if_true, InMemoryCache.insert_eq,
          Cache.cell_of_inMemory inMemory, Cache.storedKey_of_inMemory inMemory, occupied]
      · cases env.faults (.write (.insert cache key value)) <;>
          simp only [inMemory, if_false, World.resize_zero]
  | remove cache key =>
      simp only [perform, removeFrom, Cache.remove, StoreWrite.fault, StoreWrite.growth,
        StoreWrite.effect, StoreWrite.cache, StoreWrite.location, StoreWrite.content,
        Cache.location]
      by_cases inMemory : cache.storeType = .inMemory
      · simp only [inMemory, if_true, InMemoryCache.remove_eq,
          Cache.cell_of_inMemory inMemory, Cache.storedKey_of_inMemory inMemory, occupied]
      · cases env.faults (.write (.remove cache key)) <;>
          simp only [inMemory, if_false, World.resize_zero]

/-- A removal answers with the record it erases. -/
theorem Cache.remove_eq (env : Env) (cache : Cache) (key : String) (world : World) :
    cache.remove env.faults key world =
      match (StoreWrite.remove cache key).fault env with
      | some error => (.error error, world)
      | none =>
          (.ok (world.view (cache.location key)),
            ((StoreWrite.remove cache key).effect world).resize
              ((StoreWrite.remove cache key).growth world)) := by
  simp only [Cache.remove, StoreWrite.fault, StoreWrite.growth, StoreWrite.effect,
    StoreWrite.cache, StoreWrite.location, StoreWrite.content, Cache.location]
  by_cases inMemory : cache.storeType = .inMemory
  · simp only [inMemory, if_true, InMemoryCache.remove_eq, Cache.cell_of_inMemory inMemory,
      Cache.storedKey_of_inMemory inMemory, occupied]
  · cases env.faults (.write (.remove cache key)) <;>
      simp only [inMemory, if_false, World.resize_zero, World.view]

/-- What a successful write leaves behind. -/
theorem perform_view_of_ok {env : Env} {write : StoreWrite} {world next : World}
    (ok : perform env write world = (.ok (), next)) :
    next.view = write.patch.apply world.view := by
  rw [perform_eq] at ok
  split at ok
  · cases ok
  · cases ok
    rw [World.view_resize, write.view_effect]

/-- A failed write changes nothing. -/
theorem perform_eq_of_error {env : Env} {write : StoreWrite} {world next : World}
    {error : MyError} (failed : perform env write world = (.error error, next)) :
    next = world := by
  rw [perform_eq] at failed
  split at failed <;> cases failed
  rfl

/-- What a completed sequence of writes leaves behind. -/
theorem performAll_view_of_ok {env : Env} {writes : List StoreWrite}
    {world next : World}
    (ok : tryForEach (perform env) writes world = (.ok (), next)) :
    next.view = (writesPatch writes).apply world.view := by
  induction writes generalizing world with
  | nil =>
      cases ok
      rfl
  | cons write writes ih =>
      rcases outcome : perform env write world with ⟨_ | _, middle⟩
      · rw [tryForEach_cons_of_error outcome] at ok
        cases ok
      · rw [tryForEach_cons_of_ok outcome] at ok
        rw [ih ok, perform_view_of_ok outcome, writesPatch, writesPatch, List.map_cons,
          Patch.apply_latest_cons]

/-- Everything in the world but the records and their gauge. -/
def World.rest (world : World) : SchemaCache × Bool × Metrics :=
  (world.schemaCache, world.startupLagCleared, { world.metrics with cacheSize := 0 })

theorem perform_rest (env : Env) (write : StoreWrite) (world : World) :
    (perform env write world).2.rest = world.rest := by
  rw [perform_eq]
  split
  · rfl
  · cases write <;> rfl

theorem performAll_rest (env : Env) (writes : List StoreWrite) (world : World) :
    (tryForEach (perform env) writes world).2.rest = world.rest :=
  tryForEach_induction (fun next => next.rest = world.rest)
    (fun write _ next same => (perform_rest env write next).trans same) rfl

/-! ## Commands -/

/-- What the handler decides to do for a message. -/
inductive Command where
  | insert (cache : Cache) (key : String) (value : Bytes)
  | tombstone (key : String)
  | unrouted
  | skip

namespace Command

/-- The writes of a command, in the order in which they are made. -/
def writes (state : MyState) : Command → List StoreWrite
  | .insert cache key value => [.insert cache key value]
  | .tombstone key => state.caches.map fun cache => .remove cache key
  | .unrouted => []
  | .skip => []

/-- The counters a command moves. -/
def note : Command → World → World
  | .tombstone _, world => world.countTombstone
  | .unrouted, world => world.countUnrouted
  | _, world => world

@[simp]
theorem view_note (command : Command) (world : World) :
    (command.note world).view = world.view := by
  cases command <;> rfl

@[simp]
theorem schemaCache_note (command : Command) (world : World) :
    (command.note world).schemaCache = world.schemaCache := by
  cases command <;> rfl

end Command

/-- The schema id of a message with a valid payload. -/
def messageId (crates : Crates) (message : Message) : Option UInt32 :=
  match message.payload with
  | some payload =>
      match crates.getBytesResult (some payload) with
      | .valid id _ => some id
      | _ => none
  | none => none

/-- The schema step of the handler. -/
def resolveMessage (crates : Crates) (state : MyState) (env : Env)
    (message : Message) (world : World) : World :=
  match messageId crates message with
  | some id => cacheSchema crates state env id world
  | none => world

/-- The decision of the handler, given the schemas it finds. -/
def command (crates : Crates) (state : MyState) (schemas : UInt32 → Option Schema)
    (message : Message) : Command :=
  match message.payload with
  | some payload =>
      match crates.getBytesResult (some payload) with
      | .valid msgId _ =>
          match schemas msgId with
          | some schema =>
              match state.schemaToStore.lookup (fullName schema) with
              | some storeName =>
                  match state.stores.lookup storeName, message.key.bind fromUtf8 with
                  | some store, some key => .insert store key payload
                  | _, _ => .skip
              | none => .unrouted
          | none => .skip
      | _ => .skip
  | none =>
      match message.key.bind fromUtf8 with
      | some key => .tombstone key
      | none => .skip

/-- The decision looks at the schema of the message's own id only. -/
theorem command_congr {crates : Crates} {state : MyState}
    {first second : UInt32 → Option Schema} {message : Message}
    (agree : ∀ id, messageId crates message = some id → first id = second id) :
    command crates state first message = command crates state second message := by
  simp only [messageId] at agree
  simp only [command]
  cases payloadEq : message.payload with
  | none => rfl
  | some payload =>
      simp only [payloadEq] at agree ⊢
      cases parsed : crates.getBytesResult (some payload) with
      | null => rfl
      | invalid bytes => rfl
      | valid id data => simp only [agree id (by rw [parsed])]

/-- The handler is its schema step, its counters and its writes. -/
theorem handleMessage_eq (crates : Crates) (state : MyState) (env : Env)
    (message : Message) (world : World) :
    handleMessage crates state env message world =
      tryForEach (perform env)
        ((command crates state
          (resolveMessage crates state env message world).schemaOf
          message).writes state)
        ((command crates state
          (resolveMessage crates state env message world).schemaOf
          message).note (resolveMessage crates state env message world)) := by
  rcases message with ⟨key, payload⟩
  cases payload with
  | none =>
      simp only [handleMessage, command, resolveMessage, messageId]
      cases key with
      | none => rfl
      | some bytes =>
          simp only [Option.bind_some]
          cases fromUtf8 bytes with
          | none => rfl
          | some text =>
              simp only [Command.writes, Command.note, tryForEach_map]
              rfl
  | some payload =>
      simp only [handleMessage, command, resolveMessage, messageId]
      cases crates.getBytesResult (some payload) with
      | null => rfl
      | invalid bytes => rfl
      | valid id data =>
          simp only [World.schemaOf]
          cases (cacheSchema crates state env id world).schemaCache.lookup id with
          | none => rfl
          | some schema =>
              simp only
              cases state.schemaToStore.lookup (fullName schema) with
              | none => rfl
              | some storeName =>
                  simp only
                  cases state.stores.lookup storeName with
                  | none => rfl
                  | some store =>
                      cases key with
                      | none => rfl
                      | some bytes =>
                          simp only [Option.bind_some]
                          cases fromUtf8 bytes with
                          | none => rfl
                          | some text =>
                              simp only [Command.writes, Command.note, tryForEach_singleton]
                              rfl

end PushCache
