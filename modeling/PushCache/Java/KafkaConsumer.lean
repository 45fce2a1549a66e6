import PushCache.Consumer.Core
import PushCache.Java.CacheFactory

/-!
# The record handler of the Java service

`processRecord` is the method `KafkaConsumerService` applies to every polled
record, branch by branch, with the schema lookup of `SchemaService`.  A failed
lookup or insertion is caught and logged; an exception of a removal leaves the
method.
-/

namespace PushCache.Java

open PushCache.Transition

/-- The library functions the service calls: Kafka's `StringDeserializer`, the
`schema` field of a registry response and Avro's parser. -/
structure Libraries where
  deserializeString : Bytes → String
  schemaField : String → Except JavaException String
  parseSchema : String → Except JavaException Schema

/-- What an HTTP `GET` of a URL answers: a body, possibly null, or an
exception. -/
abbrev RestClient := String → Except JavaException (Option String)

/-- What the outside world answers while a record is handled. -/
structure Env where
  restClient : RestClient
  faults : Faults

/-- `Schema.getFullName`: the full name of a named schema, and the type name of
any other. -/
def getFullName : Schema → String
  | .record fullname _ => fullname
  | .enum fullname _ => fullname
  | .fixed fullname _ => fullname
  | .other typeName _ => typeName

/-- The registry URL without a slash at its end. -/
def trimUrl (registryUrl : String) : String :=
  if registryUrl.endsWith "/" then (registryUrl.dropEnd 1).toString else registryUrl

/-- The request of `SchemaService.fetchAndCacheSchema`. -/
def fetchSchema (libraries : Libraries) (restClient : RestClient) (registryUrl : String)
    (id : Int32) : Except JavaException Schema :=
  match restClient (trimUrl registryUrl ++ "/schemas/ids/" ++ toString id) with
  | .error _ => .error ⟨"Failed to fetch schema " ++ toString id⟩
  | .ok none => .error ⟨"Schema not found for ID " ++ toString id⟩
  | .ok (some response) =>
      match libraries.schemaField response with
      | .error _ => .error ⟨"Failed to fetch schema " ++ toString id⟩
      | .ok text =>
          match libraries.parseSchema text with
          | .error _ => .error ⟨"Failed to fetch schema " ++ toString id⟩
          | .ok schema => .ok schema

/-- `SchemaService.getSchema`. -/
def getSchema (libraries : Libraries) (restClient : RestClient) (registryUrl : String)
    (id : Int32) (world : World) : Except JavaException Schema × World :=
  match world.schemaCache.lookup id with
  | some schema => (.ok schema, world)
  | none =>
      match fetchSchema libraries restClient registryUrl id with
      | .error thrown => (.error thrown, world)
      | .ok schema =>
          (.ok schema, { world with schemaCache := world.schemaCache.insert id schema })

/-- One round of the loop in `StartupCheckService.preloadSchemas`. -/
def preloadSchema (libraries : Libraries) (restClient : RestClient) (registryUrl : String)
    (id : Int32) (world : World) : Except JavaException Unit × World :=
  match getSchema libraries restClient registryUrl id world with
  | (.ok _, world) => (.ok (), world)
  | (.error _, world) => (.error ⟨"Failed to preload schema ID " ++ toString id⟩, world)

/-- `StartupCheckService.preloadSchemas`. -/
def preloadSchemas (libraries : Libraries) (restClient : RestClient) (registryUrl : String) :
    List Int32 → World → Except JavaException Unit × World :=
  tryForEach (preloadSchema libraries restClient registryUrl)

/-- `ConsumerRecord<String, byte[]>`: the part the consumer looks at. -/
structure ConsumerRecord where
  key : Option String
  value : Option Bytes
  deriving DecidableEq

/-- A message as the Kafka client hands it over. -/
def ConsumerRecord.ofMessage (libraries : Libraries) (message : Message) : ConsumerRecord :=
  ⟨message.key.map libraries.deserializeString, message.payload⟩

/-- A consumer of the topic: its stores and the Kafka settings it reads. -/
structure KafkaConsumerService where
  cacheFactory : CacheFactory
  registryUrl : String
  offsetReset : KafkaOffsetReset
  forceResetEarliest : Bool

/-- `incrementUpdatesReceived`. -/
def World.incrementUpdatesReceived (world : World) : World :=
  { world with
    metrics := { world.metrics with updatesReceived := world.metrics.updatesReceived + 1 } }

/-- `incrementTombstonesProcessed`. -/
def World.incrementTombstonesProcessed (world : World) : World :=
  { world with
    metrics := { world.metrics with
      tombstonesProcessed := world.metrics.tombstonesProcessed + 1 } }

/-- `incrementSchemaMismatchCount`. -/
def World.incrementSchemaMismatchCount (world : World) : World :=
  { world with
    metrics := { world.metrics with
      schemaMismatchCount := world.metrics.schemaMismatchCount + 1 } }

/-- `incrementSchemaUnroutedCount`. -/
def World.incrementSchemaUnroutedCount (world : World) : World :=
  { world with
    metrics := { world.metrics with
      schemaUnroutedCount := world.metrics.schemaUnroutedCount + 1 } }

/-- `store.remove(key).block()` as a statement: the removed value is dropped. -/
def removeFrom (faults : Faults) (key : String) (cache : Cache) (world : World) :
    Except JavaException Unit × World :=
  match cache.remove faults key world with
  | (.ok _, world) => (.ok (), world)
  | (.error thrown, world) => (.error thrown, world)

/-- `buffer.getInt()` after the magic byte. -/
def readSchemaId : Bytes → Int32
  | _ :: first :: second :: third :: fourth :: _ =>
      (fromBeBytes first second third fourth).toInt32
  | _ => 0

/-- `KafkaConsumerService.processRecord`. -/
def processRecord (libraries : Libraries) (service : KafkaConsumerService) (env : Env)
    (record : ConsumerRecord) (world : World) : Except JavaException Unit × World :=
  match record.value with
  | none =>
      match record.key with
      | some key =>
          match tryForEach (removeFrom env.faults key) service.cacheFactory.getAllStores
              world with
          | (.ok _, world) => (.ok (), world.incrementTombstonesProcessed)
          | (.error thrown, world) => (.error thrown, world)
      | none => (.ok (), world)
  | some value =>
      if value.length < 5 ∨ value.head? ≠ some 0 then
        (.ok (), world.incrementSchemaMismatchCount)
      else
        match getSchema libraries env.restClient service.registryUrl (readSchemaId value)
            world with
        -- "Failed to process message with schema ID": caught and logged
        | (.error _, world) => (.ok (), world)
        | (.ok schema, world) =>
            match service.cacheFactory.getStoreForSchema (getFullName schema) with
            | some store =>
                match record.key with
                | some key =>
                    match store.put env.faults key value world with
                    | (.ok _, world) => (.ok (), world.incrementUpdatesReceived)
                    | (.error _, world) => (.ok (), world)
                | none => (.ok (), world)
            | none => (.ok (), world.incrementSchemaUnroutedCount)

/-! ## What a store call does -/

/-- Everything in the world but the records and their sizes. -/
def World.rest (world : World) : (Finmap fun _ : Int32 => Schema) × Metrics × Bool :=
  (world.schemaCache, world.metrics, world.cleared)

/-- The exception of a removal, if any: in-memory stores never throw. -/
def removeFault (faults : Faults) (key : String) (cache : Cache) : Option JavaException :=
  if cache.definition.type = .inMemory then none else faults (.remove cache key)

/-- The exception of an insertion, if any. -/
def putFault (faults : Faults) (key : String) (value : Bytes) (cache : Cache) :
    Option JavaException :=
  if cache.definition.type = .inMemory then none else faults (.put cache key value)

theorem Cache.location_of_inMemory {cache : Cache}
    (inMemory : cache.definition.type = .inMemory) (key : String) :
    cache.location key = (.inMemory cache.definition.name, key) := by
  simp [location, cell, storedKey, inMemory]

theorem Cache.remove_of_remote {cache : Cache} (remote : cache.definition.type ≠ .inMemory)
    (faults : Faults) (key : String) (world : World) :
    cache.remove faults key world =
      match faults (.remove cache key) with
      | some thrown => (.error thrown, world)
      | none =>
          (.ok (world.view (cache.location key)),
            world.erase cache.cell (cache.storedKey key)) := by
  cases typeEq : cache.definition.type with
  | inMemory => exact absurd typeEq remote
  | _ => cases faulted : faults (.remove cache key) <;> simp only [remove, typeEq, faulted]

theorem Cache.put_of_remote {cache : Cache} (remote : cache.definition.type ≠ .inMemory)
    (faults : Faults) (key : String) (value : Bytes) (world : World) :
    cache.put faults key value world =
      match faults (.put cache key value) with
      | some thrown => (.error thrown, world)
      | none => (.ok (), world.put cache.cell (cache.storedKey key) value) := by
  cases typeEq : cache.definition.type with
  | inMemory => exact absurd typeEq remote
  | _ => cases faulted : faults (.put cache key value) <;> simp only [put, typeEq, faulted]

/-- A removal throws and changes nothing, or empties its place. -/
theorem removeFrom_spec (faults : Faults) (key : String) (cache : Cache) (world : World) :
    (∃ thrown, removeFault faults key cache = some thrown ∧
        removeFrom faults key cache world = (.error thrown, world)) ∨
      removeFault faults key cache = none ∧
        ∃ next, removeFrom faults key cache world = (.ok (), next) ∧
          (∀ location, next.view location =
            if location = cache.location key then none else world.view location) ∧
          next.rest = world.rest := by
  simp only [removeFault, removeFrom]
  by_cases inMemory : cache.definition.type = .inMemory
  · refine Or.inr ⟨if_pos inMemory, ?_⟩
    simp only [Cache.remove, inMemory, InMemoryCache.remove,
      Cache.location_of_inMemory inMemory]
    cases found : (world.contents (.inMemory cache.definition.name)).lookup key with
    | none =>
        refine ⟨world, rfl, fun location => ?_, rfl⟩
        split
        · next here => rw [here, World.view, found]
        · rfl
    | some value =>
        refine ⟨_, rfl, fun location => ?_, rfl⟩
        rw [World.view_resize, World.view_erase]
  · rw [if_neg inMemory, Cache.remove_of_remote inMemory]
    cases faults (.remove cache key) with
    | some thrown => exact Or.inl ⟨thrown, rfl, rfl⟩
    | none =>
        exact Or.inr ⟨rfl, world.erase cache.cell (cache.storedKey key), rfl,
          World.view_erase world _ _, rfl⟩

theorem removeFrom_rest (faults : Faults) (key : String) (cache : Cache) (world : World) :
    (removeFrom faults key cache world).2.rest = world.rest := by
  rcases removeFrom_spec faults key cache world with
    ⟨thrown, _, removed⟩ | ⟨_, next, removed, _, same⟩
  · rw [removed]
  · rw [removed, same]

/-- A broadcast removal changes records only. -/
theorem removeAll_rest (faults : Faults) (key : String) (caches : List Cache) (world : World) :
    (tryForEach (removeFrom faults key) caches world).2.rest = world.rest :=
  tryForEach_induction (fun after : World => after.rest = world.rest)
    (fun cache _ before same => (removeFrom_rest faults key cache before).trans same) rfl

/-- An insertion throws and changes nothing, or leaves its value. -/
theorem put_spec (faults : Faults) (cache : Cache) (key : String) (value : Bytes)
    (world : World) :
    (∃ thrown, putFault faults key value cache = some thrown ∧
        cache.put faults key value world = (.error thrown, world)) ∨
      putFault faults key value cache = none ∧
        ∃ next, cache.put faults key value world = (.ok (), next) ∧
          (∀ location, next.view location =
            if location = cache.location key then some value else world.view location) ∧
          next.rest = world.rest := by
  simp only [putFault]
  by_cases inMemory : cache.definition.type = .inMemory
  · refine Or.inr ⟨if_pos inMemory, ?_⟩
    simp only [Cache.put, inMemory, InMemoryCache.put, Cache.location_of_inMemory inMemory]
    split
    · refine ⟨_, rfl, fun location => ?_, rfl⟩
      rw [World.view_resize, World.view_put]
    · exact ⟨_, rfl, World.view_put world _ _ value, rfl⟩
  · rw [if_neg inMemory, Cache.put_of_remote inMemory]
    cases faults (.put cache key value) with
    | some thrown => exact Or.inl ⟨thrown, rfl, rfl⟩
    | none =>
        exact Or.inr ⟨rfl, world.put cache.cell (cache.storedKey key) value, rfl,
          World.view_put world _ _ value, rfl⟩

theorem put_rest (faults : Faults) (cache : Cache) (key : String) (value : Bytes)
    (world : World) : (cache.put faults key value world).2.rest = world.rest := by
  rcases put_spec faults cache key value world with
    ⟨thrown, _, inserted⟩ | ⟨_, next, inserted, _, same⟩
  · rw [inserted]
  · rw [inserted, same]

theorem getSchema_cleared (libraries : Libraries) (restClient : RestClient)
    (registryUrl : String) (id : Int32) (world : World) :
    (getSchema libraries restClient registryUrl id world).2.cleared = world.cleared := by
  simp only [getSchema]
  split
  · rfl
  · split <;> rfl

/-- Handling a record does not touch the readiness flag. -/
theorem processRecord_cleared (libraries : Libraries) (service : KafkaConsumerService)
    (env : Env) (record : ConsumerRecord) (world : World) :
    (processRecord libraries service env record world).2.cleared = world.cleared := by
  rcases record with ⟨key, value⟩
  cases value with
  | none =>
      cases key with
      | none => rfl
      | some key =>
          have kept : (tryForEach (removeFrom env.faults key) service.cacheFactory.getAllStores
              world).2.cleared = world.cleared :=
            congrArg (·.2.2) (removeAll_rest env.faults key _ world)
          simp only [processRecord]
          split <;> next removed => rwa [removed] at kept
  | some value =>
      have resolved := getSchema_cleared libraries env.restClient service.registryUrl
        (readSchemaId value) world
      simp only [processRecord]
      split
      · rfl
      · split
        · next got => rwa [got] at resolved
        · next after got =>
            rw [got] at resolved
            split
            · next store _ =>
                cases key with
                | none => exact resolved
                | some key =>
                    have kept : (store.put env.faults key value after).2.cleared =
                        after.cleared :=
                      congrArg (·.2.2) (put_rest env.faults store key value after)
                    rcases inserted : store.put env.faults key value after with ⟨_ | _, next⟩
                    · rw [inserted] at kept
                      simp only [inserted]
                      exact kept.trans resolved
                    · rw [inserted] at kept
                      simp only [inserted]
                      exact kept.trans resolved
            · exact resolved

end PushCache.Java
