import PushCache.Consumer.Flow
import PushCache.Java.Tombstone

/-!
# The ingestion flow of the Java service

The Java service is the ingestion flow with another reading of messages: its
deserializer decodes every key, and Avro names every schema.  As in the Rust
service, the store of a schema is the last one that lists it.
-/

namespace PushCache.Java

open PushCache.Log
open PushCache.Transition

/-! ## The factory of in-memory stores -/

/-- The same definition in the configuration of the Java service. -/
def inMemoryDefinition (definition : PushCache.StoreDefinition) : StoreDefinition where
  name := definition.name
  type := .inMemory
  schemas := definition.schemas
  url := none
  keyPrefix := none
  database := none
  collection := none
  tableName := none

theorem mem_linkedPut {α : Type*} {key : String} {value : α} {entries : List (String × α)}
    {entry : String × α} (member : entry ∈ linkedPut key value entries) :
    entry = (key, value) ∨ entry ∈ entries := by
  induction entries with
  | nil => exact Or.inl (List.mem_singleton.mp member)
  | cons first entries ih =>
      rcases first with ⟨other, old⟩
      by_cases here : other = key
      · simp only [linkedPut, if_pos here, List.mem_cons] at member
        rcases member with rfl | later
        · exact Or.inl (by rw [here])
        · exact Or.inr (List.mem_cons_of_mem _ later)
      · simp only [linkedPut, if_neg here, List.mem_cons] at member
        rcases member with rfl | later
        · exact Or.inr List.mem_cons_self
        · exact (ih later).imp_right (List.mem_cons_of_mem _)

theorem linkedPut_keys {α : Type*} (key : String) (value : α) (entries : List (String × α))
    (name : String) :
    name ∈ (linkedPut key value entries).map Prod.fst ↔
      name = key ∨ name ∈ entries.map Prod.fst := by
  induction entries with
  | nil => simp [linkedPut]
  | cons first entries ih =>
      rcases first with ⟨other, old⟩
      by_cases here : other = key
      · simp [linkedPut, here]
      · simp only [linkedPut, if_neg here, List.map_cons, List.mem_cons, ih]
        exact or_left_comm

/-- A factory with an in-memory store for every definition. -/
structure CacheFactory.OpenedFrom (factory : CacheFactory)
    (definitions : List PushCache.StoreDefinition) : Prop where
  routes : factory.schemaToStore = schemaRoutes definitions
  own : ∀ entry ∈ factory.stores, entry.2.definition.type = .inMemory ∧
    entry.2.definition.name = entry.1
  names : ∀ name, name ∈ factory.stores.map Prod.fst ↔
    name ∈ definitions.map PushCache.StoreDefinition.name

theorem CacheFactory.OpenedFrom.openStores {connect : StoreDefinition → Option JavaException}
    {definitions seen : List PushCache.StoreDefinition} {factory opened : CacheFactory}
    (before : factory.OpenedFrom seen)
    (ok : openStores connect (definitions.map inMemoryDefinition) factory = .ok opened) :
    opened.OpenedFrom (seen ++ definitions) := by
  induction definitions generalizing seen factory with
  | nil =>
      cases ok
      rwa [List.append_nil]
  | cons definition definitions ih =>
      rw [List.append_cons]
      refine ih ⟨?_, ?_, fun name => ?_⟩ ok
      · rw [schemaRoutes, List.foldl_append, ← schemaRoutes, ← before.routes]
        rfl
      · intro entry member
        rcases mem_linkedPut member with rfl | older
        · exact ⟨rfl, rfl⟩
        · exact before.own entry older
      · rw [linkedPut_keys, before.names, List.map_append, List.mem_append, or_comm]
        exact or_congr_right List.mem_singleton.symm

/-- What the constructor establishes for in-memory definitions. -/
theorem CacheFactory.new_openedFrom {connect : StoreDefinition → Option JavaException}
    {definitions : List PushCache.StoreDefinition} {factory : CacheFactory}
    (ok : CacheFactory.new connect (definitions.map inMemoryDefinition) = .ok factory) :
    factory.OpenedFrom definitions := by
  have empty : CacheFactory.OpenedFrom ⟨[], ∅⟩ [] :=
    ⟨rfl, fun _ member => absurd member List.not_mem_nil, fun _ => Iff.rfl⟩
  exact empty.openStores ok

section Opened

variable {factory : CacheFactory} {definitions : List PushCache.StoreDefinition}

theorem CacheFactory.OpenedFrom.mem_getAllStores (opened : factory.OpenedFrom definitions)
    {cache : Cache} (member : cache ∈ factory.getAllStores) :
    cache.definition.type = .inMemory ∧
      cache.definition.name ∈ definitions.map PushCache.StoreDefinition.name := by
  rcases List.mem_map.mp member with ⟨entry, entryMem, rfl⟩
  rcases opened.own entry entryMem with ⟨inMemory, nameEq⟩
  exact ⟨inMemory, nameEq ▸ (opened.names _).mp (List.mem_map_of_mem entryMem)⟩

/-- Every configured name leads to an in-memory store of that name. -/
theorem CacheFactory.OpenedFrom.lookup (opened : factory.OpenedFrom definitions)
    {name : String} (configured : name ∈ definitions.map PushCache.StoreDefinition.name) :
    ∃ cache, factory.stores.lookup name = some cache ∧ cache ∈ factory.getAllStores ∧
      cache.definition.type = .inMemory ∧ cache.definition.name = name := by
  rcases List.mem_map.mp ((opened.names name).mpr configured) with ⟨entry, entryMem, nameEq⟩
  have isSome := List.lookup_isSome_iff.mpr ⟨entry, entryMem, beq_iff_eq.mpr nameEq.symm⟩
  rcases Option.isSome_iff_exists.mp isSome with ⟨cache, found⟩
  rcases List.lookup_eq_some_iff.mp found with ⟨before, after, split, _⟩
  have member : (name, cache) ∈ factory.stores := by simp [split]
  rcases opened.own _ member with ⟨inMemory, own⟩
  exact ⟨cache, found, List.mem_map_of_mem member, inMemory, own⟩

/-- The places a key has in the stores. -/
theorem CacheFactory.OpenedFrom.location_iff (opened : factory.OpenedFrom definitions)
    {key name text : String} :
    (∃ cache ∈ factory.getAllStores, cache.location key = (.inMemory name, text)) ↔
      name ∈ definitions.map PushCache.StoreDefinition.name ∧ key = text := by
  constructor
  · rintro ⟨cache, member, here⟩
    rcases opened.mem_getAllStores member with ⟨inMemory, configured⟩
    rw [Cache.location_of_inMemory inMemory, Prod.mk.injEq, Cell.inMemory.injEq] at here
    exact ⟨here.1 ▸ configured, here.2⟩
  · rintro ⟨configured, rfl⟩
    rcases opened.lookup configured with ⟨cache, _, member, inMemory, nameEq⟩
    exact ⟨cache, member, by rw [Cache.location_of_inMemory inMemory, nameEq]⟩

/-- A schema is routed to the last definition that lists it. -/
theorem CacheFactory.OpenedFrom.getStoreForSchema (opened : factory.OpenedFrom definitions)
    (schemaName : String) :
    (lastListing definitions schemaName = none ∧
        factory.getStoreForSchema schemaName = none) ∨
      ∃ definition store, lastListing definitions schemaName = some definition ∧
        factory.getStoreForSchema schemaName = some store ∧
        store.definition.type = .inMemory ∧ store.definition.name = definition.name := by
  simp only [CacheFactory.getStoreForSchema, opened.routes, schemaRoutes_lookup]
  cases last : lastListing definitions schemaName with
  | none => exact Or.inl ⟨rfl, rfl⟩
  | some definition =>
      rcases opened.lookup (List.mem_map_of_mem (mem_of_lastListing last)) with
        ⟨store, found, _, inMemory, nameEq⟩
      exact Or.inr ⟨definition, store, rfl, found, inMemory, nameEq⟩

end Opened

/-! ## Schemas -/

/-- The registry answers every id as `schemas` does its unsigned value. -/
def Serves (libraries : Libraries) (restClient : RestClient) (registryUrl : String)
    (schemas : UInt32 → Option Schema) : Prop :=
  ∀ id : Int32,
    (fetchSchema libraries restClient registryUrl id).toOption = schemas id.toUInt32

/-- Every cached schema is the one `schemas` gives for its id. -/
def World.Agrees (world : World) (schemas : UInt32 → Option Schema) : Prop :=
  ∀ id schema, world.schemaCache.lookup id = some schema → schemas id.toUInt32 = some schema

/-- With a fixed registry, a schema is the registry's answer. -/
theorem getSchema_spec {libraries : Libraries} {restClient : RestClient} {registryUrl : String}
    {schemas : UInt32 → Option Schema} {world : World}
    (serves : Serves libraries restClient registryUrl schemas) (agrees : world.Agrees schemas)
    (id : Int32) :
    ∃ result next, getSchema libraries restClient registryUrl id world = (result, next) ∧
      result.toOption = schemas id.toUInt32 ∧ next.view = world.view ∧ next.Agrees schemas := by
  simp only [getSchema]
  cases cached : world.schemaCache.lookup id with
  | some schema => exact ⟨_, _, rfl, (agrees id schema cached).symm, rfl, agrees⟩
  | none =>
      have answered := serves id
      cases fetched : fetchSchema libraries restClient registryUrl id with
      | error thrown =>
          rw [fetched] at answered
          exact ⟨_, _, rfl, answered, rfl, agrees⟩
      | ok schema =>
          rw [fetched] at answered
          refine ⟨_, _, rfl, answered, rfl, fun other found lookedUp => ?_⟩
          by_cases here : other = id
          · subst here
            rw [Finmap.lookup_insert] at lookedUp
            exact answered.symm.trans lookedUp
          · rw [Finmap.lookup_insert_of_ne _ here] at lookedUp
            exact agrees other found lookedUp

/-- Preloading touches the schema cache only, and keeps the agreement. -/
theorem preloadSchemas_spec {libraries : Libraries} {restClient : RestClient}
    {registryUrl : String} {schemas : UInt32 → Option Schema} {world : World}
    (serves : Serves libraries restClient registryUrl schemas) (agrees : world.Agrees schemas)
    (ids : List Int32) :
    (preloadSchemas libraries restClient registryUrl ids world).2.view = world.view ∧
      (preloadSchemas libraries restClient registryUrl ids world).2.Agrees schemas := by
  refine tryForEach_induction (fun next : World => next.view = world.view ∧ next.Agrees schemas)
    (fun id _ next kept => ?_) ⟨rfl, agrees⟩
  rcases getSchema_spec serves kept.2 id with ⟨result, after, got, _, viewEq, afterAgrees⟩
  rw [preloadSchema, got]
  rcases result with _ | _ <;> exact ⟨viewEq.trans kept.1, afterAgrees⟩

/-! ## One record -/

/-- The reading of the Java service: its deserializer decodes every key. -/
def recordReading (libraries : Libraries) : Reading :=
  ⟨fun bytes => some (libraries.deserializeString bytes), getFullName⟩

theorem recordReading_key (libraries : Libraries) (message : Message) :
    (recordReading libraries).key message =
      (ConsumerRecord.ofMessage libraries message).key := by
  cases keyEq : message.key <;> simp [Reading.key, recordReading, ConsumerRecord.ofMessage, keyEq]

/-- The records of the in-memory stores. -/
def World.records (world : World) (place : Place) : Option Bytes :=
  world.view (.inMemory place.1, place.2)

/-- The magic check and the schema id of `processRecord` read what the sample
parser reads. -/
theorem readSchemaId_spec (value : Bytes) :
    ((value.length < 5 ∨ value.head? ≠ some 0) ∧
        ∀ id data, confluentParser (some value) ≠ .valid id data) ∨
      ¬(value.length < 5 ∨ value.head? ≠ some 0) ∧
        ∃ data, confluentParser (some value) = .valid (readSchemaId value).toUInt32 data := by
  rcases value with _ | ⟨magic, _ | ⟨first, _ | ⟨second, _ | ⟨third, _ | ⟨fourth, data⟩⟩⟩⟩⟩
  case cons.cons.cons.cons.cons =>
    by_cases zero : magic = 0
    · refine Or.inr ⟨by simp [zero], data, ?_⟩
      simp [confluentParser, zero, readSchemaId]
    · refine Or.inl ⟨Or.inr (by simpa using zero), fun id data => ?_⟩
      simp [confluentParser, zero]
  all_goals exact Or.inl ⟨Or.inl (by simp), fun id data => by simp [confluentParser]⟩

/-- An insertion into an in-memory store. -/
theorem put_of_inMemory (faults : Faults) {cache : Cache}
    (inMemory : cache.definition.type = .inMemory) (key : String) (value : Bytes)
    (world : World) :
    ∃ next, cache.put faults key value world = (.ok (), next) ∧
      next.records =
        (Patch.placing (some (cache.definition.name, key)) (some value)).apply world.records ∧
      next.schemaCache = world.schemaCache := by
  rcases put_spec faults cache key value world with
    ⟨thrown, faulted, _⟩ | ⟨_, next, stored, view, cached⟩
  · rw [putFault, if_pos inMemory] at faulted
    cases faulted
  · refine ⟨next, stored, funext fun place => ?_, congrArg Prod.fst cached⟩
    rw [World.records, view, Cache.location_of_inMemory inMemory, Patch.placing_apply]
    by_cases here : (cache.definition.name, key) = place
    · rw [if_pos (congrArg some here), if_pos (by rw [← here])]
    · rw [if_neg fun equal => here (Option.some.inj equal), if_neg, World.records]
      intro equal
      rcases Prod.mk.inj equal with ⟨cellEq, textEq⟩
      exact here (Prod.ext (Cell.inMemory.inj cellEq).symm textEq.symm)

section Record

variable {libraries : Libraries} {service : KafkaConsumerService} {env : Env}
  {definitions : List PushCache.StoreDefinition} {schemas : UInt32 → Option Schema}
  {world : World}

/-- What a record leaves in the in-memory stores. -/
def Follows (libraries : Libraries) (definitions : List PushCache.StoreDefinition)
    (schemas : UInt32 → Option Schema) (message : Message) (world next : World) : Prop :=
  next.records =
      ((recordReading libraries).patch definitions schemas message).apply world.records ∧
    next.Agrees schemas

theorem processRecord_tombstone (opened : service.cacheFactory.OpenedFrom definitions)
    (agrees : world.Agrees schemas) {message : Message} (tombstone : message.payload = none) :
    ∃ next, processRecord libraries service env (.ofMessage libraries message) world =
        (.ok (), next) ∧ Follows libraries definitions schemas message world next := by
  have keyEq := recordReading_key libraries message
  have valueEq : (ConsumerRecord.ofMessage libraries message).value = none := tombstone
  simp only [processRecord, valueEq]
  cases decoded : (ConsumerRecord.ofMessage libraries message).key with
  | none =>
      refine ⟨world, rfl, funext fun place => ?_, agrees⟩
      rcases place with ⟨name, text⟩
      simp [Reading.tombstone_patch_apply _ tombstone, keyEq, decoded, Patch.placing_apply]
  | some key =>
      have healthy : ∀ cache ∈ service.cacheFactory.getAllStores,
          removeThrows env.faults key cache = false := by
        intro cache member
        rw [removeThrows, removeFault, if_pos (opened.mem_getAllStores member).1]
        rfl
      rcases (removeFrom_empties env.faults key).tryForEach_of_healthy healthy world with
        ⟨next, removed, cleared, unchanged⟩
      have cached : (tryForEach (removeFrom env.faults key) service.cacheFactory.getAllStores
          world).2.schemaCache = world.schemaCache :=
        congrArg Prod.fst (removeAll_rest env.faults key _ world)
      simp only [removed] at cached ⊢
      refine ⟨_, rfl, funext fun place => ?_, fun id schema found => ?_⟩
      · rcases place with ⟨name, text⟩
        have location : (∃ cache ∈ service.cacheFactory.getAllStores,
            cache.location key = (.inMemory name, text)) ↔
              name ∈ definitions.map PushCache.StoreDefinition.name ∧ key = text :=
          opened.location_iff
        rw [Reading.tombstone_patch_apply _ tombstone, keyEq, decoded, Patch.placing_apply]
        by_cases configured : name ∈ definitions.map PushCache.StoreDefinition.name
        · rw [if_pos configured]
          by_cases same : key = text
          · rw [if_pos (congrArg some same)]
            exact cleared _ (location.mpr ⟨configured, same⟩)
          · rw [if_neg fun equal => same (Option.some.inj equal)]
            exact unchanged _ fun stored => same (location.mp stored).2
        · rw [if_neg configured]
          exact unchanged _ fun stored => configured (location.mp stored).1
      · rw [World.incrementTombstonesProcessed, cached] at found
        exact agrees id schema found

/-- A record on in-memory stores. -/
theorem processRecord_record (opened : service.cacheFactory.OpenedFrom definitions)
    (serves : Serves libraries env.restClient service.registryUrl schemas)
    (agrees : world.Agrees schemas) {message : Message} {payload : Bytes}
    (payloadEq : message.payload = some payload) :
    ∃ next, processRecord libraries service env (.ofMessage libraries message) world =
        (.ok (), next) ∧ Follows libraries definitions schemas message world next := by
  have keyEq := recordReading_key libraries message
  have valueEq : (ConsumerRecord.ofMessage libraries message).value = some payload := payloadEq
  have untouched : ∀ next : World, next.view = world.view →
      (recordReading libraries).target definitions schemas message payload = none →
        next.records =
          ((recordReading libraries).patch definitions schemas message).apply world.records := by
    intro next same nowhere
    funext place
    simp only [Reading.patch, payloadEq, nowhere, Patch.placing_apply]
    exact congrFun same _
  simp only [processRecord, valueEq]
  rcases readSchemaId_spec payload with ⟨mismatch, invalid⟩ | ⟨magic, data, parsed⟩
  · rw [if_pos mismatch]
    refine ⟨_, rfl, untouched _ rfl ?_, agrees⟩
    cases targeted : (recordReading libraries).target definitions schemas message payload with
    | none => rfl
    | some place =>
        rcases Reading.target_eq_some_iff.mp targeted with ⟨id, body, _, _, valid, _⟩
        exact absurd valid (invalid id body)
  · rw [if_neg magic]
    rcases getSchema_spec serves agrees (readSchemaId payload) with
      ⟨result, next, got, resolved, viewEq, nextAgrees⟩
    rw [got]
    cases result with
    | error thrown =>
        refine ⟨_, rfl, untouched _ viewEq ?_, nextAgrees⟩
        simp only [Reading.target, parsed, ← resolved, Except.toOption]
    | ok schema =>
        rcases opened.getStoreForSchema (getFullName schema) with
          ⟨last, missing⟩ | ⟨definition, store, last, found, inMemory, nameEq⟩
        · simp only [missing]
          refine ⟨_, rfl, untouched _ viewEq ?_, nextAgrees⟩
          cases targeted :
              (recordReading libraries).target definitions schemas message payload with
          | none => rfl
          | some place =>
              rcases Reading.target_eq_some_iff.mp targeted with
                ⟨_, _, other, definition, valid, found, listed, _⟩
              rw [parsed] at valid
              cases valid
              cases resolved.trans found
              cases last.symm.trans listed
        · simp only [found]
          cases decoded : (ConsumerRecord.ofMessage libraries message).key with
          | none =>
              refine ⟨_, rfl, untouched _ viewEq ?_, nextAgrees⟩
              simp only [Reading.target, parsed, keyEq, decoded, ← resolved, Except.toOption]
          | some key =>
              have target : (recordReading libraries).target definitions schemas message payload =
                  some (definition.name, key) :=
                Reading.target_eq_some_iff.mpr ⟨_, data, schema, definition, parsed,
                  resolved.symm, last, rfl, keyEq.trans decoded⟩
              rcases put_of_inMemory env.faults inMemory key payload next with
                ⟨after, stored, recordsEq, cached⟩
              simp only [stored]
              refine ⟨_, rfl, ?_, fun id other lookedUp => ?_⟩
              · simp only [Reading.patch, payloadEq, target, ← nameEq]
                rw [show world.records = next.records from funext fun place =>
                  (congrFun viewEq _).symm, ← recordsEq]
                rfl
              · rw [World.incrementUpdatesReceived, cached] at lookedUp
                exact nextAgrees id other lookedUp

/-- With in-memory stores and a fixed registry, the Java service is the flow. -/
theorem processRecord_follows (opened : service.cacheFactory.OpenedFrom definitions)
    (serves : Serves libraries env.restClient service.registryUrl schemas)
    (agrees : world.Agrees schemas) (message : Message) :
    ∃ next, processRecord libraries service env (.ofMessage libraries message) world =
        (.ok (), next) ∧ Follows libraries definitions schemas message world next := by
  cases payloadEq : message.payload with
  | none => exact processRecord_tombstone opened agrees payloadEq
  | some payload => exact processRecord_record opened serves agrees payloadEq

end Record

end PushCache.Java
