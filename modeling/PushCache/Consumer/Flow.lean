import PushCache.Startup

/-!
# The ingestion flow

What a message does to in-memory stores, apart from how a service carries it
out: a tombstone erases its key from every store, and a record goes to the store
its schema is routed to.  Services may differ in how they read a message, that
is in how they decode its key and by which name they route its schema.  The
consumer is the flow with its own reading.
-/

namespace PushCache

open PushCache.Log

/-- How a service reads a message. -/
structure Reading where
  decodeKey : Bytes → Option String
  nameOf : Schema → String

/-- The name of a store and a key in it. -/
abbrev Place := String × String

namespace Reading

/-- The key of a message. -/
def key (reading : Reading) (message : Message) : Option String :=
  message.key.bind reading.decodeKey

/-- Where a message with a payload is inserted. -/
def target (reading : Reading) (definitions : List StoreDefinition)
    (schemas : UInt32 → Option Schema) (message : Message) (payload : Bytes) : Option Place :=
  match confluentParser (some payload) with
  | .valid id _ =>
      match schemas id, reading.key message with
      | some schema, some key =>
          (lastListing definitions (reading.nameOf schema)).map fun last => (last.name, key)
      | _, _ => none
  | _ => none

/-- What a message leaves in the stores. -/
def patch (reading : Reading) (definitions : List StoreDefinition)
    (schemas : UInt32 → Option Schema) (message : Message) : Patch Place (Option Bytes) :=
  match message.payload with
  | some payload =>
      Patch.placing (reading.target definitions schemas message payload) (some payload)
  | none => fun place =>
      if place.1 ∈ definitions.map StoreDefinition.name then
        Patch.placing (reading.key message) none place.2
      else
        none

/-- Two readings of a message come to the same on the records there are: they
agree on where it goes, or find there what they would leave. -/
def AgreesOn (first second : Reading) (definitions : List StoreDefinition)
    (schemas : UInt32 → Option Schema) (records : Place → Option Bytes) (message : Message) :
    Prop :=
  match message.payload with
  | some payload =>
      first.target definitions schemas message payload =
          second.target definitions schemas message payload ∨
        ∀ place, first.target definitions schemas message payload = some place ∨
            second.target definitions schemas message payload = some place →
          records place = some payload
  | none =>
      ∀ name ∈ definitions.map StoreDefinition.name,
        first.key message = second.key message ∨
          ∀ key, first.key message = some key ∨ second.key message = some key →
            records (name, key) = none

/-- Everything a target depends on. -/
theorem target_eq_some_iff {reading : Reading} {definitions : List StoreDefinition}
    {schemas : UInt32 → Option Schema} {message : Message} {payload : Bytes} {place : Place} :
    reading.target definitions schemas message payload = some place ↔
      ∃ id data schema definition, confluentParser (some payload) = .valid id data ∧
        schemas id = some schema ∧
        lastListing definitions (reading.nameOf schema) = some definition ∧
        definition.name = place.1 ∧ reading.key message = some place.2 := by
  constructor
  · intro targeted
    simp only [target] at targeted
    split at targeted
    · next id data parsed =>
        split at targeted
        · next schema key resolved keyEq =>
            rcases Option.map_eq_some_iff.mp targeted with ⟨definition, last, rfl⟩
            exact ⟨id, data, schema, definition, parsed, resolved, last, rfl, keyEq⟩
        · cases targeted
    · cases targeted
  · rintro ⟨id, data, schema, definition, parsed, resolved, last, nameEq, keyEq⟩
    simp only [target, parsed, resolved, keyEq, last, Option.map_some, nameEq]

/-- A target depends on the key and the names of schemas only. -/
theorem target_congr {first second : Reading} {definitions : List StoreDefinition}
    {schemas : UInt32 → Option Schema} {message : Message} {payload : Bytes}
    (sameKey : first.key message = second.key message)
    (sameName : ∀ id schema, schemas id = some schema →
      first.nameOf schema = second.nameOf schema) :
    first.target definitions schemas message payload =
      second.target definitions schemas message payload := by
  apply Option.ext
  intro place
  rw [target_eq_some_iff, target_eq_some_iff, sameKey]
  constructor
  · rintro ⟨id, data, schema, definition, parsed, resolved, last, rest⟩
    rw [sameName id schema resolved] at last
    exact ⟨id, data, schema, definition, parsed, resolved, last, rest⟩
  · rintro ⟨id, data, schema, definition, parsed, resolved, last, rest⟩
    rw [← sameName id schema resolved] at last
    exact ⟨id, data, schema, definition, parsed, resolved, last, rest⟩

theorem patch_eq_some_some_iff {reading : Reading} {definitions : List StoreDefinition}
    {schemas : UInt32 → Option Schema} {message : Message} {place : Place} {value : Bytes} :
    reading.patch definitions schemas message place = some (some value) ↔
      message.payload = some value ∧
        reading.target definitions schemas message value = some place := by
  simp only [patch]
  cases message.payload with
  | some payload =>
      simp only [Patch.placing_eq_some_iff, Option.some.injEq]
      constructor
      · rintro ⟨here, rfl⟩
        exact ⟨rfl, here⟩
      · rintro ⟨rfl, here⟩
        exact ⟨here, rfl⟩
  | none =>
      by_cases configured : place.1 ∈ definitions.map StoreDefinition.name
      · simp [configured, Patch.placing_eq_some_iff]
      · simp [configured]

theorem patch_eq_some_none_iff {reading : Reading} {definitions : List StoreDefinition}
    {schemas : UInt32 → Option Schema} {message : Message} {place : Place} :
    reading.patch definitions schemas message place = some none ↔
      message.payload = none ∧ reading.key message = some place.2 ∧
        place.1 ∈ definitions.map StoreDefinition.name := by
  simp only [patch]
  cases message.payload with
  | some payload => simp [Patch.placing_eq_some_iff]
  | none =>
      by_cases configured : place.1 ∈ definitions.map StoreDefinition.name
      · simp [configured, Patch.placing_eq_some_iff]
      · simp [configured]

theorem tombstone_patch_apply (reading : Reading) {definitions : List StoreDefinition}
    {schemas : UInt32 → Option Schema} {message : Message} (tombstone : message.payload = none)
    (records : Place → Option Bytes) (name key : String) :
    (reading.patch definitions schemas message).apply records (name, key) =
      if name ∈ definitions.map StoreDefinition.name then
        (Patch.placing (reading.key message) none).apply (fun key => records (name, key)) key
      else
        records (name, key) := by
  simp only [Patch.apply, patch, tombstone]
  by_cases configured : name ∈ definitions.map StoreDefinition.name
  · rw [if_pos configured, if_pos configured]
  · rw [if_neg configured, if_neg configured, Option.getD_none]

/-- Two readings of a message leave the same records exactly when they agree on
it. -/
theorem patch_apply_eq_iff {first second : Reading} {definitions : List StoreDefinition}
    {schemas : UInt32 → Option Schema} {records : Place → Option Bytes} {message : Message} :
    (first.patch definitions schemas message).apply records =
        (second.patch definitions schemas message).apply records ↔
      first.AgreesOn second definitions schemas records message := by
  cases payloadEq : message.payload with
  | some payload =>
      simp only [patch, AgreesOn, payloadEq]
      exact Patch.placing_apply_eq_iff
  | none =>
      simp only [AgreesOn, payloadEq]
      constructor
      · intro same name configured
        apply Patch.placing_apply_eq_iff.mp
        funext key
        have here := congrFun same (name, key)
        rwa [tombstone_patch_apply first payloadEq, tombstone_patch_apply second payloadEq,
          if_pos configured, if_pos configured] at here
      · intro agree
        funext place
        rcases place with ⟨name, key⟩
        rw [tombstone_patch_apply first payloadEq, tombstone_patch_apply second payloadEq]
        by_cases configured : name ∈ definitions.map StoreDefinition.name
        · rw [if_pos configured, if_pos configured]
          exact congrFun (Patch.placing_apply_eq_iff.mpr (agree name configured)) key
        · rw [if_neg configured, if_neg configured]

end Reading

/-! ## The consumer -/

/-- The consumer skips malformed keys, and knows the names of records only. -/
def consumerReading : Reading := ⟨fromUtf8, fullName⟩

/-- The records of the in-memory stores. -/
def World.records (world : World) (place : Place) : Option Bytes :=
  world.view (.inMemory place.1, place.2)

/-- Any parser with Confluent framing reads what the sample parser reads. -/
theorem ConfluentFraming.valid_iff {getBytesResult : Option Bytes → BytesResult}
    (framing : ConfluentFraming getBytesResult) {payload data : Bytes} {id : UInt32} :
    getBytesResult (some payload) = .valid id data ↔
      confluentParser (some payload) = .valid id data :=
  (framing payload id data).trans (confluentParser_framing payload id data).symm

section Started

variable {crates : Crates} {order : RandomState} {boot : Boot} {config : MyConfig}
  {persisted : Cell → Records} {state : MyState} {initial : World}

/-- The places a key has in the stores of a service with in-memory stores. -/
theorem MyState.new_location_iff
    (started : MyState.new crates order boot config persisted = .ok (state, initial))
    (inMemory : state.InMemory) {key : String} {place : Place} :
    (∃ cache ∈ state.caches, cache.location key = (.inMemory place.1, place.2)) ↔
      place.1 ∈ config.cache.stores.map StoreDefinition.name ∧ key = place.2 := by
  constructor
  · rintro ⟨cache, member, here⟩
    rw [Cache.location_of_inMemory (inMemory cache member), Prod.mk.injEq,
      Cell.inMemory.injEq] at here
    rw [← here.1]
    constructor
    · rcases List.mem_map.mp member with ⟨⟨name, other⟩, entry, rfl⟩
      rcases MyState.new_stores_lookup started (AList.mem_lookup_iff.mpr entry) with
        ⟨definition, configured, _, rfl⟩
      exact List.mem_map_of_mem configured
    · exact here.2
  · rintro ⟨configured, rfl⟩
    rcases List.mem_map.mp configured with ⟨definition, member, nameEq⟩
    rcases MyState.new_stores_mem started member with ⟨cache, found⟩
    have cacheMem := MyState.mem_caches_of_lookup found
    rcases MyState.new_stores_lookup started found with ⟨other, _, otherName, rfl⟩
    refine ⟨_, cacheMem, ?_⟩
    rw [Cache.location_of_inMemory (inMemory _ cacheMem), ← nameEq, ← otherName]

/-- The store of a route, and where it keeps a key. -/
theorem MyState.new_route_location
    (started : MyState.new crates order boot config persisted = .ok (state, initial))
    (inMemory : state.InMemory) {definition : StoreDefinition}
    (member : definition ∈ config.cache.stores) (key : String) :
    ∃ cache, state.stores.lookup definition.name = some cache ∧
      cache.location key = (.inMemory definition.name, key) := by
  rcases MyState.new_stores_mem started member with ⟨cache, found⟩
  refine ⟨cache, found, ?_⟩
  rw [Cache.location_of_inMemory (inMemory cache (MyState.mem_caches_of_lookup found))]
  rcases MyState.new_stores_lookup started found with ⟨other, _, otherName, rfl⟩
  rw [otherName]

/-- The writes of a message are the flow's. -/
theorem storePatch_eq_flow
    (started : MyState.new crates order boot config persisted = .ok (state, initial))
    (inMemory : state.InMemory) (framing : ConfluentFraming crates.getBytesResult)
    (schemas : UInt32 → Option Schema) (message : Message) (place : Place) :
    storePatch crates state schemas message (.inMemory place.1, place.2) =
      consumerReading.patch config.cache.stores schemas message place := by
  have routes : state.schemaToStore = schemaRoutes config.cache.stores := by
    rcases MyState.new_eq_ok started with ⟨_, _, _, _, rfl, _⟩
    rfl
  apply Option.ext
  intro content
  rcases content with _ | value
  · rw [storePatch_eq_some_none_iff, Reading.patch_eq_some_none_iff]
    constructor
    · rintro ⟨key, decided, stored⟩
      rcases command_eq_tombstone_iff.mp decided with ⟨payloadEq, keyEq⟩
      rcases (MyState.new_location_iff started inMemory).mp stored with ⟨configured, rfl⟩
      exact ⟨payloadEq, keyEq, configured⟩
    · rintro ⟨payloadEq, keyEq, configured⟩
      exact ⟨place.2, command_eq_tombstone_iff.mpr ⟨payloadEq, keyEq⟩,
        (MyState.new_location_iff started inMemory).mpr ⟨configured, rfl⟩⟩
  · rw [storePatch_eq_some_some_iff, Reading.patch_eq_some_some_iff, Reading.target_eq_some_iff]
    constructor
    · rintro ⟨cache, key, decided, here⟩
      rcases command_eq_insert_iff.mp decided with
        ⟨payloadEq, keyEq, id, data, schema, name, parsed, resolved, routed, found⟩
      rw [routes, schemaRoutes_lookup] at routed
      rcases Option.map_eq_some_iff.mp routed with ⟨definition, last, rfl⟩
      rcases MyState.new_route_location started inMemory (mem_of_lastListing last) key with
        ⟨other, otherFound, otherHere⟩
      rw [found, Option.some.injEq] at otherFound
      rw [← otherFound, here, Prod.mk.injEq, Cell.inMemory.injEq] at otherHere
      refine ⟨payloadEq, id, data, schema, definition, framing.valid_iff.mp parsed, resolved,
        last, otherHere.1.symm, ?_⟩
      rw [otherHere.2]
      exact keyEq
    · rintro ⟨payloadEq, id, data, schema, definition, parsed, resolved, last, nameEq, keyEq⟩
      rcases MyState.new_route_location started inMemory (mem_of_lastListing last) place.2 with
        ⟨cache, found, here⟩
      refine ⟨cache, place.2, command_eq_insert_iff.mpr ⟨payloadEq, keyEq, id, data, schema,
        definition.name, framing.valid_iff.mpr parsed, resolved, ?_, found⟩, ?_⟩
      · rw [routes, schemaRoutes_lookup]
        exact Option.map_eq_some_iff.mpr ⟨definition, last, rfl⟩
      · rw [here, nameEq]

/-- With in-memory stores and a fixed registry, the consumer is the flow. -/
theorem handleMessage_records
    (started : MyState.new crates order boot config persisted = .ok (state, initial))
    (inMemory : state.InMemory) (framing : ConfluentFraming crates.getBytesResult) {env : Env}
    {world : World} (agrees : world.Agrees (registry crates state env)) (message : Message) :
    (handleMessage crates state env message world).2.records =
      (consumerReading.patch config.cache.stores (registry crates state env) message).apply
        world.records := by
  funext place
  rw [World.records, (handleMessage_fixed inMemory agrees message).1, Patch.apply,
    storePatch_eq_flow started inMemory framing]
  rfl

end Started

end PushCache
