import PushCache.Startup

/-!
# Ingestion computes log compaction

The specification is stated in terms of the log alone: which messages write a
record to a store, which delete a key, and which payload a log therefore leaves
under a key.  The consumer's stores hold exactly that.
-/

namespace PushCache

open PushCache.Log
open PushCache.Transition

/-! ## Specification -/

/-- The message carries the key, as UTF-8 text. -/
def Message.HasKey (message : Message) (key : String) : Prop :=
  ∃ bytes, message.key = some bytes ∧ fromUtf8 bytes = some key

/-- A schema name is routed to the store of the last definition that lists
it. -/
def RoutedTo (config : MyConfig) (schema store : String) : Prop :=
  ∃ definition, lastListing config.cache.stores schema = some definition ∧
    definition.name = store

/-- The name a schema is routed by: a record schema goes by its full name, and any
other by the empty string. -/
inductive RoutingName : Schema → String → Prop
  | record (fullname text : String) : RoutingName (.record fullname text) fullname
  | enum (fullname text : String) : RoutingName (.enum fullname text) ""
  | fixed (fullname text : String) : RoutingName (.fixed fullname text) ""
  | other (typeName text : String) : RoutingName (.other typeName text) ""

/-- The schemas a registry has: those of the ids for which it answers with success, and
with a body that carries a schema. -/
def RegistryHolds (crates : Crates) (http : Http) (registryUrl : String)
    (schemas : UInt32 → Option Schema) : Prop :=
  ∀ id schema, schemas id = some schema ↔
    ∃ response text, http s!"{registryUrl}schemas/ids/{id}" = .ok response ∧
      200 ≤ response.status.code ∧ response.status.code < 300 ∧
      crates.schemaResponse response.body = .ok text ∧ crates.parseStr text = .ok schema

/-- The message is a routed record for the store: a framed payload whose schema
resolves and whose routing name is routed to the store. -/
def Message.Writes (message : Message) (config : MyConfig)
    (schemas : UInt32 → Option Schema) (store key : String) (payload : Bytes) : Prop :=
  message.HasKey key ∧ message.payload = some payload ∧
    ∃ id data schema name, Framed payload id data ∧ schemas id = some schema ∧
      RoutingName schema name ∧ RoutedTo config name store

/-- The message is a tombstone for the key. -/
def Message.Deletes (message : Message) (key : String) : Prop :=
  message.HasKey key ∧ message.payload = none

/-- The payload is the one of the last routed record for the key, and no
tombstone for the key comes after it. -/
def Compacted (config : MyConfig) (schemas : UInt32 → Option Schema)
    (log : List Message) (store key : String) (payload : Bytes) : Prop :=
  ∃ earlier message later, log = earlier ++ message :: later ∧
    message.Writes config schemas store key payload ∧
    (∀ other ∈ later, ∀ value, ¬other.Writes config schemas store key value) ∧
    ∀ other ∈ later, ¬other.Deletes key

/-- A tombstone for the key, and no routed record for it comes after it. -/
def Cleared (config : MyConfig) (schemas : UInt32 → Option Schema)
    (log : List Message) (store key : String) : Prop :=
  ∃ earlier message later, log = earlier ++ message :: later ∧ message.Deletes key ∧
    ∀ other ∈ later, ∀ value, ¬other.Writes config schemas store key value

/-! ## The consumer's stores -/

theorem Message.hasKey_iff (message : Message) (key : String) :
    message.HasKey key ↔ message.key.bind fromUtf8 = some key := by
  rw [Option.bind_eq_some_iff]
  rfl

/-- The consumer routes a schema by its routing name. -/
theorem routingName_iff (schema : Schema) (name : String) :
    RoutingName schema name ↔ fullName schema = name := by
  constructor
  · intro routing
    cases routing <;> rfl
  · rintro rfl
    cases schema with
    | record fullname text => exact .record fullname text
    | enum fullname text => exact .enum fullname text
    | fixed fullname text => exact .fixed fullname text
    | other typeName text => exact .other typeName text

/-- A fetch succeeds with the schema a registry has. -/
theorem fetchSchemaById_eq_ok_iff {crates : Crates} {http : Http} {registryUrl : String}
    {id : UInt32} {schema : Schema} :
    fetchSchemaById crates http registryUrl id = .ok schema ↔
      ∃ response text, http s!"{registryUrl}schemas/ids/{id}" = .ok response ∧
        200 ≤ response.status.code ∧ response.status.code < 300 ∧
        crates.schemaResponse response.body = .ok text ∧ crates.parseStr text = .ok schema := by
  constructor
  · intro fetched
    simp only [fetchSchemaById] at fetched
    split at fetched
    · cases fetched
    · next response answered =>
        split at fetched
        · next success =>
            rw [StatusCode.isSuccess, Bool.and_eq_true, decide_eq_true_eq, decide_eq_true_eq]
              at success
            split at fetched
            · cases fetched
            · next text read =>
                split at fetched
                · cases fetched
                · next parsed =>
                    cases fetched
                    exact ⟨response, text, answered, success.1, success.2, read, parsed⟩
        · cases fetched
  · rintro ⟨response, text, answered, lower, upper, read, parsed⟩
    have success : response.status.isSuccess = true := by
      rw [StatusCode.isSuccess, decide_eq_true lower, decide_eq_true upper]
      rfl
    simp only [fetchSchemaById, answered, success, if_true, read, parsed]

/-- The consumer learns the schemas the registry has. -/
theorem RegistryHolds.registry_eq {crates : Crates} {state : MyState} {env : Env}
    {schemas : UInt32 → Option Schema}
    (holds : RegistryHolds crates env.http state.config.kafka.schemaRegistryUrl.asStr schemas) :
    registry crates state env = schemas := by
  funext id
  apply Option.ext
  intro schema
  rw [holds, ← fetchSchemaById_eq_ok_iff, registry]
  cases fetchSchemaById crates env.http state.config.kafka.schemaRegistryUrl.asStr id <;>
    simp [Except.toOption]

/-- No two stores of the service keep records in one place. -/
def MyState.Separated (state : MyState) : Prop :=
  ∀ first ∈ state.caches, ∀ second ∈ state.caches, ∀ key other,
    first.location key = second.location other → first = second ∧ key = other

section Started

variable {crates : Crates} {order : RandomState} {boot : Boot} {config : MyConfig}
  {persisted : Cell → Records} {state : MyState} {world : World}
  {schemas : UInt32 → Option Schema}

theorem MyState.new_routedTo_iff
    (started : MyState.new crates order boot config persisted = .ok (state, world))
    (schema store : String) :
    state.schemaToStore.lookup schema = some store ↔ RoutedTo config schema store := by
  rcases MyState.new_eq_ok started with ⟨_, _, _, _, rfl, _⟩
  rw [schemaRoutes_lookup, Option.map_eq_some_iff]
  rfl

/-- A store handle is found under its own name. -/
theorem MyState.new_lookup_of_mem
    (started : MyState.new crates order boot config persisted = .ok (state, world))
    {cache : Cache} (member : cache ∈ state.caches) :
    state.stores.lookup cache.name = some cache := by
  rcases List.mem_map.mp member with ⟨⟨name, _⟩, entry, rfl⟩
  have found := AList.mem_lookup_iff.mpr entry
  rcases MyState.new_stores_lookup started found with ⟨definition, _, sameName, cacheEq⟩
  rw [cacheEq] at found ⊢
  rwa [← sameName] at found

theorem MyState.InMemory.separated (inMemory : state.InMemory)
    (started : MyState.new crates order boot config persisted = .ok (state, world)) :
    state.Separated := by
  intro first firstMem second secondMem key other same
  rw [Cache.location_of_inMemory (inMemory first firstMem),
    Cache.location_of_inMemory (inMemory second secondMem), Prod.mk.injEq,
    Cell.inMemory.injEq] at same
  rcases same with ⟨sameName, rfl⟩
  have firstFound := MyState.new_lookup_of_mem started firstMem
  rw [sameName, MyState.new_lookup_of_mem started secondMem] at firstFound
  exact ⟨(Option.some.inj firstFound).symm, rfl⟩

/-- A message writes a record of a store exactly when the specification says
so. -/
theorem storePatch_writes_iff (framing : ConfluentFraming crates.getBytesResult)
    (started : MyState.new crates order boot config persisted = .ok (state, world))
    (separated : state.Separated) {cache : Cache} (member : cache ∈ state.caches)
    (message : Message) (key : String) (payload : Bytes) :
    storePatch crates state schemas message (cache.location key) = some (some payload) ↔
      message.Writes config schemas cache.name key payload := by
  rw [storePatch_eq_some_some_iff]
  constructor
  · rintro ⟨other, own, decided, here⟩
    obtain ⟨payloadEq, keyEq, id, data, schema, name, parsed, schemaEq, routed, found⟩ :=
      command_eq_insert_iff.mp decided
    obtain ⟨rfl, rfl⟩ :=
      separated other (MyState.mem_caches_of_lookup found) cache member own key here
    rcases MyState.new_stores_lookup started found with ⟨definition, _, sameName, rfl⟩
    exact ⟨(message.hasKey_iff own).mpr keyEq, payloadEq, id, data, schema, fullName schema,
      (framing payload id data).mp parsed, schemaEq, (routingName_iff schema _).mpr rfl,
      (MyState.new_routedTo_iff started _ _).mp (sameName ▸ routed)⟩
  · rintro ⟨hasKey, payloadEq, id, data, schema, routingName, framed, schemaEq, routing, routed⟩
    obtain rfl := (routingName_iff schema _).mp routing
    exact ⟨cache, key, command_eq_insert_iff.mpr
      ⟨payloadEq, (message.hasKey_iff key).mp hasKey, id, data, schema, cache.name,
        (framing payload id data).mpr framed, schemaEq,
        (MyState.new_routedTo_iff started _ _).mpr routed,
        MyState.new_lookup_of_mem started member⟩, rfl⟩

theorem storePatch_deletes_iff (separated : state.Separated) {cache : Cache}
    (member : cache ∈ state.caches) (message : Message) (key : String) :
    storePatch crates state schemas message (cache.location key) = some none ↔
      message.Deletes key := by
  rw [storePatch_eq_some_none_iff, Message.Deletes, Message.hasKey_iff]
  constructor
  · rintro ⟨own, decided, other, otherMem, here⟩
    rcases separated other otherMem cache member own key here with ⟨_, rfl⟩
    rcases command_eq_tombstone_iff.mp decided with ⟨payloadEq, keyEq⟩
    exact ⟨keyEq, payloadEq⟩
  · rintro ⟨keyEq, payloadEq⟩
    exact ⟨key, command_eq_tombstone_iff.mpr ⟨payloadEq, keyEq⟩, cache, member, rfl⟩

/-- A message that neither writes nor deletes leaves the location alone. -/
theorem storePatch_eq_none_iff (framing : ConfluentFraming crates.getBytesResult)
    (started : MyState.new crates order boot config persisted = .ok (state, world))
    (separated : state.Separated) {cache : Cache} (member : cache ∈ state.caches)
    (message : Message) (key : String) :
    storePatch crates state schemas message (cache.location key) = none ↔
      (∀ payload, ¬message.Writes config schemas cache.name key payload) ∧
        ¬message.Deletes key := by
  constructor
  · intro untouched
    constructor
    · intro payload writes
      rw [(storePatch_writes_iff framing started separated member message key payload).mpr
        writes] at untouched
      cases untouched
    · intro deletes
      rw [(storePatch_deletes_iff separated member message key).mpr deletes] at untouched
      cases untouched
  · rintro ⟨noWrite, noDelete⟩
    cases touched : storePatch crates state schemas message (cache.location key) with
    | none => rfl
    | some content =>
        cases content with
        | some payload =>
            exact absurd ((storePatch_writes_iff framing started separated member message
              key payload).mp touched) (noWrite payload)
        | none =>
            exact absurd ((storePatch_deletes_iff separated member message key).mp touched)
              noDelete

/-- The last write of a log at a record of a store leaves the compacted
payload. -/
theorem latest_compacted_iff (framing : ConfluentFraming crates.getBytesResult)
    (started : MyState.new crates order boot config persisted = .ok (state, world))
    (separated : state.Separated) {cache : Cache} (member : cache ∈ state.caches)
    (log : List Message) (key : String) (payload : Bytes) :
    Patch.latest (log.map (storePatch crates state schemas)) (cache.location key) =
        some (some payload) ↔
      Compacted config schemas log cache.name key payload := by
  rw [Patch.latest_map_eq_some_iff]
  constructor
  · rintro ⟨earlier, message, later, rfl, touched, untouched⟩
    have silent : ∀ other ∈ later,
        (∀ value, ¬other.Writes config schemas cache.name key value) ∧
          ¬other.Deletes key :=
      fun other otherMem =>
        (storePatch_eq_none_iff framing started separated member other key).mp
          (untouched other otherMem)
    exact ⟨earlier, message, later, rfl,
      (storePatch_writes_iff framing started separated member message key payload).mp
        touched,
      fun other otherMem => (silent other otherMem).1,
      fun other otherMem => (silent other otherMem).2⟩
  · rintro ⟨earlier, message, later, rfl, writes, noWrite, noDelete⟩
    exact ⟨earlier, message, later, rfl,
      (storePatch_writes_iff framing started separated member message key payload).mpr
        writes,
      fun other otherMem =>
        (storePatch_eq_none_iff framing started separated member other key).mpr
          ⟨noWrite other otherMem, noDelete other otherMem⟩⟩

/-- The last write of a log at a record of a store is a deletion exactly when
the key is cleared. -/
theorem latest_cleared_iff (framing : ConfluentFraming crates.getBytesResult)
    (started : MyState.new crates order boot config persisted = .ok (state, world))
    (separated : state.Separated) {cache : Cache} (member : cache ∈ state.caches)
    (log : List Message) (key : String) :
    Patch.latest (log.map (storePatch crates state schemas)) (cache.location key) =
        some none ↔
      Cleared config schemas log cache.name key := by
  constructor
  · intro last
    obtain ⟨earlier, message, later, rfl, touched, untouched⟩ :=
      Patch.latest_map_eq_some_iff.mp last
    exact ⟨earlier, message, later, rfl,
      (storePatch_deletes_iff separated member message key).mp touched,
      fun other otherMem =>
        ((storePatch_eq_none_iff framing started separated member other key).mp
          (untouched other otherMem)).1⟩
  · rintro ⟨earlier, message, later, rfl, deletes, noWrite⟩
    rw [List.map_append, Patch.latest_append, List.map_cons, Patch.latest_cons,
      (storePatch_deletes_iff separated member message key).mpr deletes]
    -- A later entry that touches the key can only be another tombstone.
    cases decided : Patch.latest (later.map (storePatch crates state schemas))
        (cache.location key) with
    | none => rfl
    | some content =>
        cases content with
        | none => rfl
        | some payload =>
            rcases Patch.exists_mem_of_latest_eq_some decided with ⟨_, patchMem, touched⟩
            rcases List.mem_map.mp patchMem with ⟨other, otherMem, rfl⟩
            exact absurd ((storePatch_writes_iff framing started separated member other key
              payload).mp touched) (noWrite other otherMem payload)

/-- Over a registry that has the given schemas, after any log, the store of a configured
name holds under every key the compacted payload of the log, and nothing where there is
none; the store a schema is routed to always exists. -/
theorem streamProcessor_compacts {env : Env}
    (framing : ConfluentFraming crates.getBytesResult)
    (allInMemory : ∀ definition ∈ config.cache.stores,
      definition.storeType = .inMemory)
    (started : MyState.new crates order boot config persisted = .ok (state, world))
    (fixed : env.http = boot.http)
    (holds : RegistryHolds crates env.http config.kafka.schemaRegistryUrl.asStr schemas)
    (log : List Message) :
    ∃ final, streamProcessor crates state (deliveries env log) world = (.ok (), final) ∧
      (∀ definition ∈ config.cache.stores, ∃ cache,
        state.stores.lookup definition.name = some cache ∧
          ∀ key, ∃ content, cache.get env.faults key final = .ok content ∧
            ∀ payload, content = some payload ↔
              Compacted config schemas log definition.name key payload) ∧
      ∀ schema name, state.schemaToStore.lookup schema = some name →
        ∃ cache, state.stores.lookup name = some cache := by
  have inMemory := MyState.new_inMemory started allInMemory
  have known : registry crates state env = schemas := by
    apply RegistryHolds.registry_eq
    rcases MyState.new_eq_ok started with ⟨_, _, _, _, rfl, _⟩
    exact holds
  refine ⟨_, streamProcessor_deliveries inMemory world log, ?_,
    fun _ _ routed => MyState.new_route_found started routed⟩
  intro definition configured
  rcases MyState.new_stores_mem started configured with ⟨cache, found⟩
  have member := MyState.mem_caches_of_lookup found
  have nameEq : cache.name = definition.name := by
    rcases MyState.new_stores_lookup started found with ⟨_, _, sameName, cacheEq⟩
    rw [cacheEq, sameName]
  have separated := inMemory.separated started
  refine ⟨cache, found, fun key =>
    ⟨(ingest crates state env world log).view (cache.location key),
      Cache.get_of_inMemory (inMemory cache member) env.faults key _, ?_⟩⟩
  intro payload
  have startsEmpty : world.view (cache.location key) = none := by
    rcases MyState.new_eq_ok started with ⟨_, _, _, _, _, rfl⟩
    rw [Cache.location_of_inMemory (inMemory cache member)]
    simp [World.view, freshContents]
  rw [ingest_view inMemory (MyState.new_agrees started fixed) log, known, Patch.apply,
    startsEmpty, ← nameEq, ← latest_compacted_iff framing started separated member]
  cases Patch.latest (log.map (storePatch crates state schemas))
    (cache.location key) <;> simp

end Started

namespace Sample

/-- The sample registry has the schema of the customer for every id. -/
theorem registry_holds :
    RegistryHolds crates env.http url.asStr fun _ => some (.record "customer" "customer") := by
  intro id schema
  constructor
  · intro same
    cases same
    exact ⟨⟨⟨200, "200 OK"⟩, "customer"⟩, "customer", rfl, by decide, by decide, rfl, rfl⟩
  · rintro ⟨response, text, answered, _, _, read, parsed⟩
    cases answered
    cases read
    cases parsed
    rfl

/-- A record, a tombstone and a second record of one key. -/
def replaced : List Message := [record 1, tombstone, record 2]

theorem replaced_compacted :
    Compacted (config .inMemory) (fun _ => some (.record "customer" "customer")) replaced
      "customers" "k" (payload 2) := by
  have writes : (record 2).Writes (config .inMemory)
      (fun _ => some (.record "customer" "customer")) "customers" "k" (payload 2) := by
    have hasKey : (record 2).HasKey "k" := ⟨key, rfl, by decide⟩
    have framed : Framed (payload 2) 7 [2] := ⟨0, 0, 0, 7, rfl, rfl⟩
    exact ⟨hasKey, rfl, 7, [2], _, "customer", framed, rfl, .record _ _,
      customers .inMemory, rfl, rfl⟩
  exact ⟨[record 1, tombstone], record 2, [], rfl, writes, by simp, by simp⟩

end Sample

/-- The second record is what the store holds, in the small deployment. -/
theorem streamProcessor_compacts_sample :
    ∃ final, streamProcessor Sample.crates (Sample.state .inMemory)
        (deliveries Sample.env Sample.replaced) (Sample.world fun _ => ∅) = (.ok (), final) ∧
      ∃ cache, (Sample.state .inMemory).stores.lookup "customers" = some cache ∧
        cache.get Sample.env.faults "k" final = .ok (some (Sample.payload 2)) := by
  rcases streamProcessor_compacts confluentParser_framing
      (by simp [Sample.config, Sample.customers]) (Sample.started .inMemory fun _ => ∅)
      (show Sample.env.http = Sample.boot.http from rfl) Sample.registry_holds Sample.replaced
    with ⟨final, ok, stores, _⟩
  rcases stores (Sample.customers .inMemory) (by simp [Sample.config]) with
    ⟨cache, found, holds⟩
  rcases holds "k" with ⟨content, got, compacted⟩
  have held : content = some (Sample.payload 2) :=
    (compacted (Sample.payload 2)).mpr Sample.replaced_compacted
  exact ⟨final, ok, cache, found, got.trans (congrArg Except.ok held)⟩

end PushCache
