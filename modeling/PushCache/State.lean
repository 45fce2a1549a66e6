import Mathlib.Data.List.AList
import PushCache.Cache.Core
import PushCache.KafkaUtils

/-!
# Service state

`MyState::new` opens the configured stores, flattens their `schemas` lists into
one map from schema names to store names, and preloads the schema cache.  Later
definitions overwrite earlier ones, both in the store map and in the routing
map.

The store map is a hash map: its iteration order is fixed when it is built but
otherwise arbitrary.  A `RandomState` stands for the order the process drew.
-/

namespace PushCache

/-- `HashMap<String, Arc<dyn Cache>>` with its iteration order. -/
abbrev Stores := AList fun _ : String => Cache

abbrev SchemaCache := Finmap fun _ : UInt32 => Schema

/-- An iteration order for the store map. -/
structure RandomState where
  arrange : Stores → Stores
  arrange_perm : ∀ stores, (arrange stores).entries.Perm stores.entries

/-- `MyState`: the part that never changes after start-up. -/
structure MyState where
  config : MyConfig
  stores : Stores
  routes : List RouteDefinition
  schemaToStore : Finmap fun _ : String => String

/-- `stores.values()`. -/
def MyState.caches (state : MyState) : List Cache :=
  state.stores.entries.map Sigma.snd

/-- What the outside world answers while the process starts: the registry, the
metrics recorder, the start-up checks and the backends of remote stores. -/
structure Boot where
  http : Http
  installRecorder : Option String
  runStartupChecks : Option MyError
  connect : StoreType → Option MyError

/-- The recorder and the checks, both only when checks are enabled. -/
def performChecks (boot : Boot) (config : MyConfig) : Except MyError Unit :=
  if config.startupChecksEnabled then
    match boot.installRecorder with
    | some error => .error (.message s!"Failed to install Prometheus recorder: {error}")
    | none =>
        match boot.runStartupChecks with
        | some error => .error error
        | none => .ok ()
  else
    .ok ()

/-- Open the backend of one store definition. -/
def openCache (boot : Boot) (definition : StoreDefinition) : Except MyError Cache :=
  match definition.storeType with
  | .inMemory => .ok ⟨definition.name, .inMemory⟩
  | backend =>
      match boot.connect backend with
      | some error => .error error
      | none => .ok ⟨definition.name, backend⟩

/-- The loop that fills the store map. -/
def openStores (boot : Boot) : List StoreDefinition → Stores → Except MyError Stores
  | [], stores => .ok stores
  | definition :: definitions, stores =>
      match openCache boot definition with
      | .error error => .error error
      | .ok cache =>
          openStores boot definitions (stores.insert definition.name cache)

/-- The loop over one definition's `schemas` list. -/
def routeSchemas (definition : StoreDefinition)
    (routes : Finmap fun _ : String => String) : Finmap fun _ : String => String :=
  match definition.schemas with
  | some schemas =>
      schemas.foldl (fun routes schema => routes.insert schema definition.name) routes
  | none => routes

/-- The loop that fills `schema_to_store`. -/
def schemaRoutes (definitions : List StoreDefinition) :
    Finmap fun _ : String => String :=
  definitions.foldl (fun routes definition => routeSchemas definition routes) ∅

/-- The preload loop, which stops at the first schema it cannot fetch. -/
def preload (crates : Crates) (http : Http) (registryUrl : String) :
    List UInt32 → SchemaCache → Except MyError SchemaCache
  | [], schemaCache => .ok schemaCache
  | id :: ids, schemaCache =>
      match fetchSchemaById crates http registryUrl id with
      | .ok schema => preload crates http registryUrl ids (schemaCache.insert id schema)
      | .error error => .error error

/-- The cells a new process finds: in-memory cells are empty, remote cells hold
what they held before. -/
def freshContents (persisted : Cell → Records) : Cell → Records
  | .inMemory _ => ∅
  | .remote backend => persisted (.remote backend)

/-- `MyState::new`: the state of a new process and the world it shares. -/
def MyState.new (crates : Crates) (order : RandomState) (boot : Boot)
    (config : MyConfig) (persisted : Cell → Records) :
    Except MyError (MyState × World) :=
  match performChecks boot config with
  | .error error => .error error
  | .ok _ =>
      match openStores boot config.cache.stores ∅ with
      | .error error => .error error
      | .ok stores =>
          match preload crates boot.http config.kafka.schemaRegistryUrl.asStr
              (config.kafka.preloadSchemas.getD []) ∅ with
          | .error error => .error error
          | .ok schemaCache =>
              .ok
                ({ config
                   stores := order.arrange stores
                   routes := config.cache.routes
                   schemaToStore := schemaRoutes config.cache.stores },
                 { contents := freshContents persisted
                   schemaCache
                   metrics := .zero
                   startupLagCleared := false })

end PushCache
