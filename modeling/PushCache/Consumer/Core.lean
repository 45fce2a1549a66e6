import PushCache.State
import PushCache.Transition.TryForEach

/-!
# The Kafka consumer

`handleMessage` is the closure `start_consumer` applies to every message of the
stream, branch by branch.  `streamProcessor` is the traversal of the stream,
which stops at the first error, and `startConsumer` sets the consumer up before
it.
-/

namespace PushCache

open PushCache.Transition

/-- The part of `BorrowedMessage` the consumer looks at. -/
structure Message where
  key : Option Bytes
  payload : Option Bytes
  deriving DecidableEq

/-- What the outside world answers while one message or request is handled. -/
structure Env where
  http : Http
  faults : Faults

/-- The name a schema is routed by: a record's full name, and the empty string
for every other schema. -/
def fullName : Schema → String
  | .record fullname _ => fullname
  | _ => ""

/-- Fetch the schema of a message unless it is cached.  A failed fetch is
logged and leaves the cache as it is. -/
def cacheSchema (crates : Crates) (state : MyState) (env : Env) (id : UInt32)
    (world : World) : World :=
  if id ∈ world.schemaCache then
    world
  else
    match fetchSchemaById crates env.http state.config.kafka.schemaRegistryUrl.asStr id with
    | .ok schema => { world with schemaCache := world.schemaCache.insert id schema }
    | .error _ => world

/-- `schema_unrouted_count.inc()`. -/
def World.countUnrouted (world : World) : World :=
  { world with
    metrics := { world.metrics with
      schemaUnroutedCount := world.metrics.schemaUnroutedCount + 1 } }

/-- `tombstones_processed.inc()`. -/
def World.countTombstone (world : World) : World :=
  { world with
    metrics := { world.metrics with
      tombstonesProcessed := world.metrics.tombstonesProcessed + 1 } }

/-- `store.remove(key).await?` as a statement: the removed value is dropped. -/
def removeFrom (env : Env) (key : String) (cache : Cache) (world : World) :
    Except MyError Unit × World :=
  match cache.remove env.faults key world with
  | (.ok _, world) => (.ok (), world)
  | (.error error, world) => (.error error, world)

/-- The closure `start_consumer` runs for each message. -/
def handleMessage (crates : Crates) (state : MyState) (env : Env)
    (message : Message) (world : World) : Except MyError Unit × World :=
  match message.payload with
  | some payload =>
      match crates.getBytesResult (some payload) with
      | .valid msgId _ =>
          let world := cacheSchema crates state env msgId world
          match world.schemaCache.lookup msgId with
          | some schema =>
              match state.schemaToStore.lookup (fullName schema) with
              | some storeName =>
                  match state.stores.lookup storeName with
                  | some store =>
                      match message.key with
                      | some keyBytes =>
                          match fromUtf8 keyBytes with
                          | some keyStr => store.insert env.faults keyStr payload world
                          | none => (.ok (), world)
                      | none => (.ok (), world)
                  -- "configured for schema but not found in stores map"
                  | none => (.ok (), world)
              | none => (.ok (), world.countUnrouted)
          | none => (.ok (), world)
      | _ => (.ok (), world)
  | none =>
      match message.key with
      | some keyBytes =>
          match fromUtf8 keyBytes with
          | some keyStr =>
              tryForEach (removeFrom env keyStr) state.caches world.countTombstone
          | none => (.ok (), world)
      | none => (.ok (), world)

/-- The items of the consumer's stream: a message, with what the outside world
answers while it is handled, or an error of the Kafka client. -/
abbrev Stream := List (Except String (Env × Message))

/-- The stream that delivers every message of a log under one environment. -/
def deliveries (env : Env) (log : List Message) : Stream :=
  log.map fun message => .ok (env, message)

/-- One item of the stream. -/
def processItem (crates : Crates) (state : MyState) :
    Except String (Env × Message) → World → Except MyError Unit × World
  | .ok (env, message), world => handleMessage crates state env message world
  | .error text, world => (.error (.kafkaError text), world)

/-- `consumer.stream().map_err(..).try_for_each(..)`. -/
def streamProcessor (crates : Crates) (state : MyState) (stream : Stream)
    (world : World) : Except MyError Unit × World :=
  tryForEach (processItem crates state) stream world

/-- The client settings of the consumer, in the order in which they are set. -/
def consumerSettings (config : MyKafkaConfig) (groupId brokers : String) :
    List (String × String) :=
  [("group.id", groupId),
    ("bootstrap.servers", brokers),
    ("enable.partition.eof", "false"),
    ("session.timeout.ms", "6000"),
    ("enable.auto.commit", "true"),
    ("statistics.interval.ms", "1000"),
    ("auto.offset.reset", config.offsetReset.toString)]

/-- `start_consumer`: creating the client and subscribing to the topic may
fail, which is what `subscribe` answers. -/
def startConsumer (crates : Crates) (hostname : Option String)
    (subscribe : List (String × String) → String → Option String)
    (state : MyState) (stream : Stream) (world : World) :
    Except MyError Unit × World :=
  match state.config.kafka.getGroupId hostname with
  | .error text => (.error (.message text), world)
  | .ok groupId =>
      match getBrokerString state.config.kafka with
      | .error error => (.error error, world)
      | .ok brokers =>
          match subscribe (consumerSettings state.config.kafka groupId brokers)
              state.config.kafka.topic with
          | some text => (.error (.kafkaError text), world)
          | none => streamProcessor crates state stream world

end PushCache
