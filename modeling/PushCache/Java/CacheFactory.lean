import PushCache.Cells
import PushCache.Config
import PushCache.Crates
import PushCache.Transition.TryForEach

/-!
# Stores of the Java service

The Java service has the stores of the Rust one behind an interface whose calls
throw.  `CacheFactory` opens the configured stores in order, into a map that
keeps insertion order, and flattens their `schemas` lists into one map from
schema names to store names.  A store object is its definition; its records live
in a cell of the shared `World`, and every in-memory store counts its records in
a size of its own.
-/

namespace PushCache.Java

/-- A thrown exception, by its message. -/
structure JavaException where
  message : String
  deriving DecidableEq

/-- `StoreDefinition.StoreType`. -/
inductive StoreType where
  | inMemory
  | redis
  | mongo
  | oracle
  | postgres
  deriving DecidableEq

/-- `StoreDefinition`; a setting that is not configured is null. -/
structure StoreDefinition where
  name : String
  type : StoreType
  schemas : Option (List String)
  url : Option Url
  keyPrefix : Option String
  database : Option String
  collection : Option String
  tableName : Option String
  deriving DecidableEq

/-- The records of one store. -/
abbrev Records := Finmap fun _ : String => Bytes

/-- Where the records of a store live: in the object itself, or in the backend
its settings name. -/
inductive Cell where
  | inMemory (name : String)
  | remote (type : StoreType) (url : Option Url) (database collection tableName : Option String)
  deriving DecidableEq

/-- A store object, made from its definition. -/
structure Cache where
  definition : StoreDefinition
  deriving DecidableEq

/-- `RedisCache.formatKey`: a null or empty prefix counts as none. -/
def RedisCache.formatKey (keyPrefix : Option String) (key : String) : String :=
  match keyPrefix with
  | some text => if text.isEmpty then key else text ++ ":" ++ key
  | none => key

/-- The cell a store keeps its records in. -/
def Cache.cell (cache : Cache) : Cell :=
  match cache.definition.type with
  | .inMemory => .inMemory cache.definition.name
  | type => .remote type cache.definition.url cache.definition.database
      cache.definition.collection cache.definition.tableName

/-- The key under which a store keeps a record in its cell. -/
def Cache.storedKey (cache : Cache) (key : String) : String :=
  match cache.definition.type with
  | .redis => RedisCache.formatKey cache.definition.keyPrefix key
  | _ => key

/-- Where a store keeps the record of a key. -/
def Cache.location (cache : Cache) (key : String) : Cell × String :=
  (cache.cell, cache.storedKey key)

/-- `MetricsService`, without the request counters. -/
structure Metrics where
  updatesReceived : Nat
  tombstonesProcessed : Nat
  schemaMismatchCount : Nat
  schemaUnroutedCount : Nat
  consumerLag : Int64
  deriving DecidableEq

/-- The metrics of a fresh process. -/
def Metrics.zero : Metrics := ⟨0, 0, 0, 0, 0⟩

/-- Everything the beans of the service share and change. -/
structure World where
  contents : Cell → Records
  sizes : String → Int
  schemaCache : Finmap fun _ : Int32 => Schema
  metrics : Metrics
  cleared : Bool

/-- A write on a store. -/
inductive StoreWrite where
  | put (cache : Cache) (key : String) (value : Bytes)
  | remove (cache : Cache) (key : String)
  deriving DecidableEq

/-- Which writes on remote stores throw, and what. -/
abbrev Faults := StoreWrite → Option JavaException

namespace World

/-- Leave a record in a cell. -/
def put (world : World) (cell : Cell) (key : String) (value : Bytes) : World :=
  { world with contents := Cells.put world.contents cell key value }

/-- Erase a record from a cell. -/
def erase (world : World) (cell : Cell) (key : String) : World :=
  { world with contents := Cells.erase world.contents cell key }

/-- Add to the size of an in-memory store. -/
def resize (world : World) (name : String) (change : Int) : World :=
  { world with
    sizes := Function.update world.sizes name (world.sizes name + change) }

/-- The record a cell holds under a key. -/
def view (world : World) (location : Cell × String) : Option Bytes :=
  (world.contents location.1).lookup location.2

@[simp]
theorem view_resize (world : World) (name : String) (change : Int) :
    (world.resize name change).view = world.view :=
  rfl

theorem view_put (world : World) (cell : Cell) (key : String) (value : Bytes)
    (location : Cell × String) :
    (world.put cell key value).view location =
      if location = (cell, key) then some value else world.view location :=
  Cells.lookup_put world.contents cell key value location

theorem view_erase (world : World) (cell : Cell) (key : String) (location : Cell × String) :
    (world.erase cell key).view location =
      if location = (cell, key) then none else world.view location :=
  Cells.lookup_erase world.contents cell key location

end World

/-! ## The store interface -/

/-- `InMemoryCache.put`. -/
def InMemoryCache.put (name key : String) (value : Bytes) (world : World) :
    Except JavaException Unit × World :=
  let previous := (world.contents (.inMemory name)).lookup key
  let world := world.put (.inMemory name) key value
  if previous.isNone then (.ok (), world.resize name 1) else (.ok (), world)

/-- `InMemoryCache.remove`. -/
def InMemoryCache.remove (name key : String) (world : World) :
    Except JavaException (Option Bytes) × World :=
  match (world.contents (.inMemory name)).lookup key with
  | some value => (.ok (some value), (world.erase (.inMemory name) key).resize name (-1))
  | none => (.ok none, world)

/-- `store.put(key, value).block()`. -/
def Cache.put (faults : Faults) (cache : Cache) (key : String) (value : Bytes)
    (world : World) : Except JavaException Unit × World :=
  match cache.definition.type with
  | .inMemory => InMemoryCache.put cache.definition.name key value world
  | _ =>
      match faults (.put cache key value) with
      | some thrown => (.error thrown, world)
      | none => (.ok (), world.put cache.cell (cache.storedKey key) value)

/-- `store.remove(key).block()`. -/
def Cache.remove (faults : Faults) (cache : Cache) (key : String) (world : World) :
    Except JavaException (Option Bytes) × World :=
  match cache.definition.type with
  | .inMemory => InMemoryCache.remove cache.definition.name key world
  | _ =>
      match faults (.remove cache key) with
      | some thrown => (.error thrown, world)
      | none =>
          (.ok (world.view (cache.location key)),
            world.erase cache.cell (cache.storedKey key))

/-! ## The factory -/

/-- The cells a new process finds: in-memory stores are empty, remote stores hold
what they held before. -/
def freshContents (persisted : Cell → Records) : Cell → Records
  | .inMemory _ => ∅
  | cell => persisted cell

/-- The world of a fresh process. -/
def World.fresh (persisted : Cell → Records) : World where
  contents := freshContents persisted
  sizes := fun _ => 0
  schemaCache := ∅
  metrics := .zero
  cleared := false

/-- `LinkedHashMap.put`: a new key goes last, a known one keeps its place. -/
def linkedPut {α : Type*} (key : String) (value : α) :
    List (String × α) → List (String × α)
  | [] => [(key, value)]
  | (other, old) :: entries =>
      if other = key then (other, value) :: entries
      else (other, old) :: linkedPut key value entries

/-- `CacheFactory`. -/
structure CacheFactory where
  stores : List (String × Cache)
  schemaToStore : Finmap fun _ : String => String

/-- The name of a backend in the error of its initialization. -/
def StoreType.label : StoreType → String
  | .inMemory => "InMemory"
  | .redis => "Redis"
  | .mongo => "Mongo"
  | .oracle => "Oracle"
  | .postgres => "Postgres"

/-- One store of the constructor's loop: opening a remote store may throw. -/
def openCache (connect : StoreDefinition → Option JavaException)
    (definition : StoreDefinition) : Except JavaException Cache :=
  match definition.type with
  | .inMemory => .ok ⟨definition⟩
  | type =>
      match connect definition with
      | some _ =>
          .error ⟨"Failed to initialize " ++ type.label ++ " store: " ++ definition.name⟩
      | none => .ok ⟨definition⟩

/-- One definition's `schemas` list. -/
def routeSchemas (definition : StoreDefinition)
    (routes : Finmap fun _ : String => String) : Finmap fun _ : String => String :=
  match definition.schemas with
  | some schemas =>
      schemas.foldl (fun routes schema => routes.insert schema definition.name) routes
  | none => routes

/-- The constructor's loop over the store definitions. -/
def openStores (connect : StoreDefinition → Option JavaException) :
    List StoreDefinition → CacheFactory → Except JavaException CacheFactory
  | [], factory => .ok factory
  | definition :: definitions, factory =>
      match openCache connect definition with
      | .error thrown => .error thrown
      | .ok cache =>
          openStores connect definitions
            ⟨linkedPut definition.name cache factory.stores,
              routeSchemas definition factory.schemaToStore⟩

/-- `CacheFactory(AppConfig, MetricsService)`. -/
def CacheFactory.new (connect : StoreDefinition → Option JavaException)
    (definitions : List StoreDefinition) : Except JavaException CacheFactory :=
  openStores connect definitions ⟨[], ∅⟩

/-- `getAllStores`. -/
def CacheFactory.getAllStores (factory : CacheFactory) : List Cache :=
  factory.stores.map Prod.snd

/-- `getStoreForSchema`. -/
def CacheFactory.getStoreForSchema (factory : CacheFactory) (schemaName : String) :
    Option Cache :=
  match factory.schemaToStore.lookup schemaName with
  | some storeName => factory.stores.lookup storeName
  | none => none

end PushCache.Java
