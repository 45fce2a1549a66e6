import PushCache.Cells
import PushCache.Config
import PushCache.Crates

/-!
# Stores and the state they share

A `Cache` value is a handle: the service keeps it in its store map and clones
it freely, while the records live in a cell of the shared `World`.  An
in-memory store owns the cell of its name; a remote store uses the cell of its
backend, which outlives the process.  Redis stores that differ in their key
prefix only share one cell and keep their records under formatted keys.  The
in-memory stores share one size gauge.  A call on a remote store may fail; then
it changes nothing.
-/

namespace PushCache

/-- The records of one store. -/
abbrev Records := Finmap fun _ : String => Bytes

/-- Where the records of a store live. -/
inductive Cell where
  | inMemory (name : String)
  | remote (backend : StoreType)
  deriving DecidableEq

/-- `Arc<dyn Cache>`: the store's name and backend. -/
structure Cache where
  name : String
  storeType : StoreType
  deriving DecidableEq

/-- `RedisCache::format_key`. -/
def RedisCache.formatKey (config : RedisConfig) (key : String) : String :=
  match config.keyPrefix with
  | some keyPrefix => s!"{keyPrefix}:{key}"
  | none => key

theorem RedisCache.formatKey_injective (config : RedisConfig) {key other : String}
    (same : formatKey config key = formatKey config other) : key = other := by
  simp only [formatKey] at same
  split at same
  · exact (String.append_right_inj _).mp same
  · exact same

/-- The cell a store handle refers to. -/
def Cache.cell (cache : Cache) : Cell :=
  match cache.storeType with
  | .inMemory => .inMemory cache.name
  | .redis config => .remote (.redis { config with keyPrefix := none })
  | backend => .remote backend

/-- The key under which a store keeps a record in its cell. -/
def Cache.storedKey (cache : Cache) (key : String) : String :=
  match cache.storeType with
  | .redis config => RedisCache.formatKey config key
  | _ => key

/-- Where a store keeps the record of a key. -/
def Cache.location (cache : Cache) (key : String) : Cell × String :=
  (cache.cell, cache.storedKey key)

/-- The Prometheus counters and gauges of the service. -/
structure Metrics where
  requestsTotal : Nat
  requestsMiss : Nat
  updatesReceived : Nat
  tombstonesProcessed : Nat
  schemaMismatchCount : Nat
  schemaUnroutedCount : Nat
  cacheSize : Int
  consumerLag : Int64
  deriving DecidableEq

/-- The metrics of a fresh process. -/
def Metrics.zero : Metrics := ⟨0, 0, 0, 0, 0, 0, 0, 0⟩

/-- Everything the clones of `MyState` share and change. -/
structure World where
  contents : Cell → Records
  schemaCache : Finmap fun _ : UInt32 => Schema
  metrics : Metrics
  startupLagCleared : Bool

/-- A write on a store. -/
inductive StoreWrite where
  | insert (cache : Cache) (key : String) (value : Bytes)
  | remove (cache : Cache) (key : String)
  deriving DecidableEq

/-- A call on a store. -/
inductive StoreCall where
  | get (cache : Cache) (key : String)
  | write (write : StoreWrite)
  deriving DecidableEq

/-- Which calls on remote stores fail, and how. -/
abbrev Faults := StoreCall → Option MyError

/-! ## Effects on the shared state -/

namespace World

/-- Leave a record in a cell. -/
def put (world : World) (cell : Cell) (key : String) (value : Bytes) : World :=
  { world with
    contents := Function.update world.contents cell
      ((world.contents cell).insert key value) }

/-- Erase a record from a cell. -/
def erase (world : World) (cell : Cell) (key : String) : World :=
  { world with
    contents := Function.update world.contents cell
      ((world.contents cell).erase key) }

/-- Add to the size gauge. -/
def resize (world : World) (change : Int) : World :=
  { world with
    metrics := { world.metrics with cacheSize := world.metrics.cacheSize + change } }

/-- The record a cell holds under a key. -/
def view (world : World) (location : Cell × String) : Option Bytes :=
  (world.contents location.1).lookup location.2

/-- The cached schema of an id. -/
def schemaOf (world : World) (id : UInt32) : Option Schema :=
  world.schemaCache.lookup id

@[simp]
theorem view_resize (world : World) (change : Int) :
    (world.resize change).view = world.view :=
  rfl

/-- Two worlds with the same records under every key have the same contents. -/
theorem contents_eq_of_view_eq {first second : World}
    (same : first.view = second.view) : first.contents = second.contents := by
  funext cell
  exact Finmap.ext_lookup fun key => congrFun same (cell, key)

@[simp]
theorem resize_zero (world : World) : world.resize 0 = world := by
  simp [resize]

theorem view_put (world : World) (cell : Cell) (key : String) (value : Bytes)
    (location : Cell × String) :
    (world.put cell key value).view location =
      if location = (cell, key) then some value else world.view location :=
  Cells.lookup_put world.contents cell key value location

theorem view_erase (world : World) (cell : Cell) (key : String)
    (location : Cell × String) :
    (world.erase cell key).view location =
      if location = (cell, key) then none else world.view location :=
  Cells.lookup_erase world.contents cell key location

/-- Erasing a record that is not there changes nothing. -/
theorem erase_of_absent {world : World} {cell : Cell} {key : String}
    (absent : (world.contents cell).lookup key = none) : world.erase cell key = world := by
  have same : Function.update world.contents cell ((world.contents cell).erase key) =
      world.contents := Cells.erase_of_absent absent
  rw [erase, same]

end World

/-! ## The in-memory store -/

namespace InMemoryCache

/-- `InMemoryCache::insert`: the gauge counts new keys only. -/
def insert (name key : String) (value : Bytes) (world : World) :
    Except MyError Unit × World :=
  let previous := (world.contents (.inMemory name)).lookup key
  let world := world.put (.inMemory name) key value
  if previous.isNone then (.ok (), world.resize 1) else (.ok (), world)

/-- `InMemoryCache::remove`: the gauge counts removed keys only. -/
def remove (name key : String) (world : World) :
    Except MyError (Option Bytes) × World :=
  match (world.contents (.inMemory name)).lookup key with
  | some value => (.ok (some value), (world.erase (.inMemory name) key).resize (-1))
  | none => (.ok none, world)

end InMemoryCache

/-! ## The cache interface -/

namespace Cache

/-- `Cache::get`. -/
def get (faults : Faults) (cache : Cache) (key : String) (world : World) :
    Except MyError (Option Bytes) :=
  match cache.storeType with
  | .inMemory => .ok ((world.contents (.inMemory cache.name)).lookup key)
  | _ =>
      match faults (.get cache key) with
      | some error => .error error
      | none => .ok ((world.contents cache.cell).lookup (cache.storedKey key))

/-- `Cache::insert`. -/
def insert (faults : Faults) (cache : Cache) (key : String) (value : Bytes)
    (world : World) : Except MyError Unit × World :=
  match cache.storeType with
  | .inMemory => InMemoryCache.insert cache.name key value world
  | _ =>
      match faults (.write (.insert cache key value)) with
      | some error => (.error error, world)
      | none => (.ok (), world.put cache.cell (cache.storedKey key) value)

/-- `Cache::remove`. -/
def remove (faults : Faults) (cache : Cache) (key : String) (world : World) :
    Except MyError (Option Bytes) × World :=
  match cache.storeType with
  | .inMemory => InMemoryCache.remove cache.name key world
  | _ =>
      match faults (.write (.remove cache key)) with
      | some error => (.error error, world)
      | none =>
          (.ok ((world.contents cache.cell).lookup (cache.storedKey key)),
            world.erase cache.cell (cache.storedKey key))

end Cache

end PushCache
