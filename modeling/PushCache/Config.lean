import PushCache.Error

/-!
# Configuration

The parts of the service configuration that the ingestion and API layers read.
Configuration is deserialized from YAML; the values here are what the program
sees after that.
-/

namespace PushCache

/-- A parsed URL: its serialization and the components the service reads. -/
structure Url where
  asStr : String
  hostStr : Option String
  port : Option UInt16
  deriving DecidableEq

structure RedisConfig where
  url : Url
  keyPrefix : Option String
  deriving DecidableEq

structure MongoConfig where
  url : Url
  database : String
  collection : String
  deriving DecidableEq

/-- A URL with credentials that may be given apart from it. -/
structure UrlWithUsernamePassword where
  url : Url
  username : Option String
  password : Option String
  deriving DecidableEq

structure OracleConfig where
  url : UrlWithUsernamePassword
  tableName : String
  deriving DecidableEq

structure PostgresConfig where
  url : UrlWithUsernamePassword
  tableName : String
  deriving DecidableEq

/-- `StoreType`: the backend of a store and its settings. -/
inductive StoreType where
  | inMemory
  | redis (config : RedisConfig)
  | mongo (config : MongoConfig)
  | oracle (config : OracleConfig)
  | postgres (config : PostgresConfig)
  deriving DecidableEq

/-- `StoreDefinition`. -/
structure StoreDefinition where
  name : String
  storeType : StoreType
  schemas : Option (List String)
  deriving DecidableEq

/-- The definition names the schema in its `schemas` list. -/
def StoreDefinition.Lists (definition : StoreDefinition) (schema : String) : Prop :=
  schema ∈ definition.schemas.getD []

instance (definition : StoreDefinition) (schema : String) :
    Decidable (definition.Lists schema) :=
  inferInstanceAs (Decidable (schema ∈ definition.schemas.getD []))

/-- `RouteDefinition`: the store a route serves, and the body field that holds
the key on its by-body route, if it has one. -/
structure RouteDefinition where
  store : String
  keyFromBody : Option String
  deriving DecidableEq

/-- `CacheConfig`. -/
structure CacheConfig where
  stores : List StoreDefinition
  routes : List RouteDefinition

/-- `GroupId`: an explicit consumer group or the host's name. -/
inductive GroupId where
  | hostname (useHostname : Bool)
  | explicit (id : String)

/-- `KafkaOffsetReset`. -/
inductive KafkaOffsetReset where
  | earliest
  | latest

def KafkaOffsetReset.toString : KafkaOffsetReset → String
  | .earliest => "earliest"
  | .latest => "latest"

/-- `MyKafkaConfig`. -/
structure MyKafkaConfig where
  brokers : Url
  groupId : GroupId
  topic : String
  schemaRegistryUrl : Url
  cacheMaxAgeSecs : Nat
  offsetReset : KafkaOffsetReset
  forceResetEarliest : Bool
  preloadSchemas : Option (List UInt32)

/-- `MyConfig`. -/
structure MyConfig where
  kafka : MyKafkaConfig
  cache : CacheConfig
  startupChecksEnabled : Bool

/-- `MyKafkaConfig::get_group_id`, given the `HOSTNAME` variable of the
process. -/
def MyKafkaConfig.getGroupId (config : MyKafkaConfig) (hostname : Option String) :
    Except String String :=
  match config.groupId with
  | .hostname true =>
      match hostname with
      | some name => .ok name
      | none =>
          .error "HOSTNAME environment variable is required when use_hostname is true"
  | .hostname false => .error "use_hostname must be true if provided as an object"
  | .explicit id => .ok id

end PushCache
