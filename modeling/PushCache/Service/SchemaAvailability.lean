import PushCache.Service.Core

/-!
# Schemas of stored records

A reader needs the schema of a stored record in the schema cache.  The consumer
caches the schema before it stores a record, but a record posted by a client and
a record found after a restart bring no schema with them.  Every stored record
is readable, in every state of a run, exactly when each posted record and each
record that survives a restart carries a schema id known at that moment.
-/

namespace PushCache

open PushCache.Transition

/-- Every stored value is in Confluent format and its schema is cached. -/
def World.Readable (world : World) : Prop :=
  ∀ location value, world.view location = some value →
    ∃ id data, Framed value id data ∧ id ∈ world.schemaCache

/-- No reader of a stored record misses its schema. -/
def Service.NeverMisses (crates : Crates) (service : Service) : Prop :=
  ∀ env cache key value, cache.get env.faults key service.world = .ok (some value) →
    (retrieveRecordLogic crates service.state env cache key service.world).1 ≠
      .error (.notFound "Schema not found in cache")

/-- A posted record that is stored carries the id of a cached schema, and after
a restart every record that is still there carries a preloaded id. -/
def Service.SchemasKnown (config : MyConfig) (service : Service) : Service.Action → Prop
  | .create env route key body =>
      ∀ cache id, service.state.mounted route = some cache → checkRecord body = .ok id →
        (StoreWrite.insert cache key body).fault env = none → id ∈ service.world.schemaCache
  | .restart _ _ =>
      ∀ backend key value id data,
        service.world.view (.remote backend, key) = some value → Framed value id data →
          id ∈ config.kafka.preloadSchemas.getD []
  | _ => True

/-- A readable record never runs into the missing schema. -/
theorem World.Readable.neverMisses {crates : Crates}
    (framing : ConfluentFraming crates.getBytesResult) {service : Service}
    (readable : service.world.Readable) : service.NeverMisses crates := by
  intro env cache key value got
  rcases readable _ value (Cache.get_of_ok got) with ⟨id, data, framed, known⟩
  rcases Finmap.mem_iff.mp known with ⟨schema, found⟩
  rw [retrieveRecordLogic_of_framed framing service.state got framed]
  simp only [renderRecord, found]
  repeat' split
  all_goals simp

/-! ## One step -/

section Steps

variable {crates : Crates} {config : MyConfig} {service next : Service}
  {action : Service.Action}

/-- Within a process, no schema is forgotten. -/
theorem handleMessage_mem_schemaCache {state : MyState} {env : Env} {message : Message}
    {world : World} {id : UInt32} (known : id ∈ world.schemaCache) :
    id ∈ (handleMessage crates state env message world).2.schemaCache := by
  rcases Finmap.mem_iff.mp known with ⟨schema, found⟩
  refine Finmap.mem_iff.mpr ⟨schema, ?_⟩
  have learned := congrFun (handleMessage_schemaOf crates state env message world) id
  rw [World.schemaOf] at learned
  rw [learned, learn, World.schemaOf, found]
  split <;> rfl

theorem perform_schemaCache (env : Env) (write : StoreWrite) (world : World) :
    (perform env write world).2.schemaCache = world.schemaCache :=
  congrArg Prod.fst (perform_rest env write world)

/-- A step that stores nothing new and leaves the schema cache alone keeps every
record readable. -/
theorem World.Readable.of_kept {world other : World} (readable : world.Readable)
    (stored : ∀ location value, other.view location = some value →
      world.view location = some value)
    (schemas : other.schemaCache = world.schemaCache) : other.Readable := by
  intro location value here
  rw [schemas]
  exact readable location value (stored location value here)

/-- A step that writes nothing leaves only values that were there before. -/
theorem Service.step_kept (stepped : step crates config service action = some next)
    (silent : ∀ location value id data,
      ¬action.Writes crates service location value id data)
    (location : Cell × String) (value : Bytes)
    (stored : next.world.view location = some value) :
    service.world.view location = some value := by
  rcases step_stored stepped stored with before | ⟨id, data, writes⟩
  · exact before
  · exact (silent location value id data writes).elim

/-- The consumer caches the schema of the records it stores. -/
theorem handleMessage_readable (framing : ConfluentFraming crates.getBytesResult)
    (state : MyState) (env : Env) (message : Message) {world : World}
    (readable : world.Readable) :
    (handleMessage crates state env message world).2.Readable := by
  intro location value stored
  rcases handleMessage_stored stored with before | ⟨cache, key, decided, _⟩
  · rcases readable location value before with ⟨id, data, framed, known⟩
    exact ⟨id, data, framed, handleMessage_mem_schemaCache known⟩
  · rcases command_eq_insert_iff.mp decided with ⟨_, _, id, data, schema, _, parsed, found, _⟩
    rw [← handleMessage_schemaOf] at found
    exact ⟨id, data, (framing value id data).mp parsed, Finmap.mem_iff.mpr ⟨schema, found⟩⟩

/-- A posted record that is stored is readable exactly when its schema is
already cached. -/
theorem createRecord_readable_iff {env : Env} {store : Cache} {key : String} {body : Bytes}
    {world : World} (readable : world.Readable) :
    (createRecord env store key body world).2.Readable ↔
      ∀ id, checkRecord body = .ok id → (StoreWrite.insert store key body).fault env = none →
        id ∈ world.schemaCache := by
  cases checked : checkRecord body with
  | error error =>
      rw [createRecord_of_rejected checked]
      exact ⟨fun _ _ accepted => (by cases accepted), fun _ => readable⟩
  | ok own =>
      rcases checkRecord_eq_ok_iff.mp checked with ⟨data, reading⟩
      have schemas := perform_schemaCache env (.insert store key body) world
      rw [createRecord_world checked]
      cases faulted : (StoreWrite.insert store key body).fault env with
      | some error =>
          rw [perform_eq, faulted]
          exact ⟨fun _ _ _ noFault => (by cases noFault), fun _ => readable⟩
      | none =>
          have written : (perform env (.insert store key body) world).2.view
              (store.location key) = some body := by
            rw [perform_eq, faulted, World.view_resize, StoreWrite.view_effect,
              StoreWrite.patch_apply, StoreWrite.location, if_pos rfl, StoreWrite.content]
          constructor
          · intro after id same _
            cases same
            rcases after _ body written with ⟨id, _, other, known⟩
            rw [(reading.unique other).1, ← schemas]
            exact known
          · intro known location value stored
            rw [schemas]
            rcases perform_stored stored with before | ⟨_, content⟩
            · exact readable location value before
            · cases content
              exact ⟨own, data, reading, known own rfl rfl⟩

/-- After a restart the stored records are readable exactly when each that is
still there carries a preloaded id. -/
theorem MyState.new_readable_iff {order : RandomState} {boot : Boot} {persisted world : World}
    {state : MyState}
    (restarted : MyState.new crates order boot config persisted.contents =
      .ok (state, world)) (readable : persisted.Readable) :
    world.Readable ↔
      ∀ backend key value id data, persisted.view (.remote backend, key) = some value →
        Framed value id data → id ∈ config.kafka.preloadSchemas.getD [] := by
  constructor
  · intro after backend key value id data stored framed
    obtain ⟨other, _, reading, known⟩ := after (.remote backend, key) value
      ((MyState.new_view_eq_some_iff restarted).mpr ⟨⟨backend, rfl⟩, stored⟩)
    rw [(framed.unique reading).1]
    exact (MyState.new_mem_schemaCache_iff restarted other).mp known
  · rintro preloaded ⟨cell, key⟩ value stored
    rcases (MyState.new_view_eq_some_iff restarted).mp stored with ⟨⟨backend, rfl⟩, before⟩
    rcases readable (.remote backend, key) value before with ⟨id, data, framed, _⟩
    exact ⟨id, data, framed, (MyState.new_mem_schemaCache_iff restarted id).mpr
      (preloaded backend key value id data before framed)⟩

/-- A step keeps the records readable exactly when it meets the condition. -/
theorem Service.step_readable_iff (framing : ConfluentFraming crates.getBytesResult)
    (readable : service.world.Readable)
    (stepped : step crates config service action = some next) :
    next.world.Readable ↔ SchemasKnown config service action := by
  cases action with
  | message env delivered =>
      rw [(step_message stepped).2]
      exact iff_of_true
        (handleMessage_readable framing service.state env delivered readable) trivial
  | create env route key body =>
      rcases request_eq_some stepped with ⟨cache, mounted, _, world⟩
      rw [world, createRecord_readable_iff readable]
      constructor
      · intro known other id otherMounted accepted noFault
        obtain rfl : cache = other := Option.some.inj (mounted.symm.trans otherMounted)
        exact known id accepted noFault
      · exact fun known id => known cache id mounted
  | delete env route key =>
      rcases request_eq_some stepped with ⟨cache, _, _, world⟩
      refine iff_of_true (readable.of_kept (step_kept stepped fun _ _ _ _ => id) ?_) trivial
      rw [world, deleteRecord_world, perform_schemaCache]
  | get env route key =>
      rcases request_eq_some stepped with ⟨cache, _, _, world⟩
      refine iff_of_true (readable.of_kept (step_kept stepped fun _ _ _ _ => id) ?_) trivial
      rw [world, getRecord, (retrieveRecordLogic_contents ..).2]
  | getByBody env route body =>
      rcases step_getByBody stepped with ⟨keyField, answered⟩
      rcases request_eq_some answered with ⟨cache, _, _, world⟩
      refine iff_of_true (readable.of_kept (step_kept stepped fun _ _ _ _ => id) ?_) trivial
      rw [world, (getRecordByBody_contents ..).2]
  | restart order boot => exact MyState.new_readable_iff (step_restart stepped) readable

end Steps

/-! ## Whole runs -/

/-- Over any run of a service that starts with empty stores, every stored
record's schema is available to its readers in every state exactly when every
posted record carries the id of a schema cached by then and every record that
survives a restart carries a preloaded id. -/
theorem schemaAvailable_iff {crates : Crates} {order : RandomState} {boot : Boot}
    {config : MyConfig} {state : MyState} {world : World} {final : Service}
    {actions : List Service.Action} (framing : ConfluentFraming crates.getBytesResult)
    (started : MyState.new crates order boot config (fun _ => ∅) = .ok (state, world))
    (ran : run (Service.step crates config) (Service.started state world) actions =
      some final) :
    (∀ earlier later reached, actions = earlier ++ later →
      run (Service.step crates config) (Service.started state world) earlier =
          some reached →
        reached.world.Readable ∧ reached.NeverMisses crates) ↔
      Guarded (Service.step crates config) (Service.SchemasKnown config)
        (Service.started state world) actions := by
  have initial : world.Readable := by
    intro location value stored
    rw [MyState.new_view_of_empty started] at stored
    cases stored
  have exact_guard := guarded_iff_forall_reached
    (fun _ _ _ readable stepped => Service.step_readable_iff framing readable stepped)
    initial ran
  rw [exact_guard]
  constructor
  · intro available earlier later reached split reachedBy
    exact (available earlier later reached split reachedBy).1
  · intro readable earlier later reached split reachedBy
    have here := readable earlier later reached split reachedBy
    exact ⟨here, here.neverMisses framing⟩

theorem schemaAvailable_iff_sample :
    ∃ final, run (Service.step Sample.crates (Sample.config .inMemory))
        (Service.started (Sample.state .inMemory) (Sample.world fun _ => ∅)) Sample.served =
          some final ∧
      final.world.Readable ∧ final.NeverMisses Sample.crates := by
  obtain ⟨final, ran⟩ : ∃ final, run (Service.step Sample.crates (Sample.config .inMemory))
      (Service.started (Sample.state .inMemory) (Sample.world fun _ => ∅)) Sample.served =
        some final := ⟨_, rfl⟩
  have available := schemaAvailable_iff confluentParser_framing
    (Sample.started .inMemory fun _ => ∅) ran
  refine ⟨final, ran, available.mpr ?_ Sample.served [] final (List.append_nil _).symm ran⟩
  refine ⟨trivial, fun middle stepped => ⟨?_, fun _ _ => ⟨trivial, fun _ _ => trivial⟩⟩⟩
  intro cache id _ accepted _
  cases stepped
  cases accepted
  exact Finmap.mem_iff.mpr ⟨_, rfl⟩

/-- A posted record whose schema no message has brought cannot be read. -/
theorem created_record_unreadable :
    ∃ reached, run (Service.step Sample.crates (Sample.config .inMemory))
        (Service.started (Sample.state .inMemory) (Sample.world fun _ => ∅))
        [.create Sample.env Sample.route "k" (Sample.payload 1)] = some reached ∧
      (Sample.cache .inMemory).get Sample.env.faults "k" reached.world =
        .ok (some (Sample.payload 1)) ∧
      (retrieveRecordLogic Sample.crates reached.state Sample.env (Sample.cache .inMemory) "k"
        reached.world).1 = .error (.notFound "Schema not found in cache") :=
  ⟨_, rfl, rfl, rfl⟩

end PushCache
