import PushCache.Java.Equivalence
import PushCache.Java.SchemaAvailability
import PushCache.Service.History

/-!
# The two services on the same traffic

Both services take the same messages, posted records, deletions, lookups and
restarts, each with its own stores and its own schema cache.  Their stores stay
equal exactly as long as they read each message alike, and then they answer every
posted record, deletion and lookup by path alike, except for the lookup of a record
whose schema the Rust service has not cached or that only one of the two codecs can
render.  Listings and lookups by body are not compared here.
-/

namespace PushCache.Java.Application

open PushCache.Log
open PushCache.Transition

/-! ## The Java service applies patches -/

/-- The registry the action consults, if it does, answers as `schemas`. -/
def Action.Consults (libraries : Libraries) (config : AppConfig)
    (schemas : UInt32 → Option Schema) : Action → Prop
  | .preload restClient _ => Serves libraries restClient config.registryUrl schemas
  | .message env _ => Serves libraries env.restClient config.registryUrl schemas
  | .get env _ _ => Serves libraries env.restClient config.registryUrl schemas
  | .getByBody env _ _ => Serves libraries env.restClient config.registryUrl schemas
  | _ => True

/-- What an action leaves in the stores.  A restart empties them all. -/
def Action.patch (libraries : Libraries) (definitions : List PushCache.StoreDefinition)
    (schemas : UInt32 → Option Schema) : Action → Patch Place (Option Bytes)
  | .message _ delivered => (recordReading libraries).patch definitions schemas delivered
  | .create _ route id body =>
      if Accepted body then Patch.placing (some (route.store, id)) (some body)
      else fun _ => none
  | .delete _ route id => Patch.placing (some (route.store, id)) none
  | .restart _ => fun _ => some none
  | _ => fun _ => none

/-- The process has opened the configured stores, and has cached what the registry
answers. -/
structure Settled (definitions : List PushCache.StoreDefinition)
    (schemas : UInt32 → Option Schema) (application : Application) : Prop where
  opened : application.cacheFactory.OpenedFrom definitions
  agrees : application.process.world.Agrees schemas

section Steps

variable {libraries : Libraries} {codec : Codec} {config : AppConfig}
  {definitions : List PushCache.StoreDefinition} {schemas : UInt32 → Option Schema}
  {application next : Application} {route : RouteDefinition} {handler : RecordHandler}

/-- The store of a route is in memory and has the route's store name. -/
theorem mounted_spec (opened : application.cacheFactory.OpenedFrom definitions)
    (found : application.mounted config route = some handler) :
    handler.cache.definition.type = .inMemory ∧ handler.cache.definition.name = route.store ∧
      handler.registryUrl = config.registryUrl := by
  rcases mounted_eq_some found with ⟨store, got, rfl⟩
  rcases List.lookup_eq_some_iff.mp got with ⟨before, after, split, _⟩
  rcases opened.own (route.store, store) (by simp [split]) with ⟨inMemory, named⟩
  exact ⟨inMemory, named, rfl⟩

/-- A removal from an in-memory store. -/
theorem removeFrom_of_inMemory (faults : Faults) {cache : Cache}
    (inMemory : cache.definition.type = .inMemory) (key : String) (world : World) :
    (removeFrom faults key cache world).2.records =
        (Patch.placing (some (cache.definition.name, key)) none).apply world.records ∧
      (removeFrom faults key cache world).2.schemaCache = world.schemaCache := by
  rcases removeFrom_spec faults key cache world with
    ⟨thrown, faulted, _⟩ | ⟨_, next, removed, view, rest⟩
  · rw [removeFault, if_pos inMemory] at faulted
    cases faulted
  · rw [removed]
    refine ⟨funext fun place => ?_, congrArg Prod.fst rest⟩
    rw [World.records, view, Cache.location_of_inMemory inMemory, Patch.placing_apply]
    by_cases here : (cache.definition.name, key) = place
    · rw [if_pos (congrArg some here), if_pos (by rw [← here])]
    · rw [if_neg fun equal => here (Option.some.inj equal), if_neg, World.records]
      intro equal
      rcases Prod.mk.inj equal with ⟨cellEq, textEq⟩
      exact here (Prod.ext (Cell.inMemory.inj cellEq).symm textEq.symm)

/-- Worlds with the same records and schemas. -/
theorem Settled.of_same (settled : Settled definitions schemas application)
    (factory : next.cacheFactory = application.cacheFactory)
    (cached : next.process.world.schemaCache = application.process.world.schemaCache) :
    Settled definitions schemas next := by
  refine ⟨factory ▸ settled.opened, fun id schema found => settled.agrees id schema ?_⟩
  rwa [cached] at found

/-- A lookup of a schema keeps the agreement and the records. -/
theorem Settled.of_getSchema (settled : Settled definitions schemas application)
    {restClient : RestClient} {registryUrl : String}
    (serves : Serves libraries restClient registryUrl schemas)
    (factory : next.cacheFactory = application.cacheFactory) (id : Int32)
    (world : next.process.world =
      (getSchema libraries restClient registryUrl id application.process.world).2) :
    Settled definitions schemas next ∧
      next.process.world.records = application.process.world.records := by
  rcases getSchema_spec serves settled.agrees id with ⟨result, after, got, _, viewEq, agrees⟩
  rw [got] at world
  refine ⟨⟨factory ▸ settled.opened, world ▸ agrees⟩, funext fun place => ?_⟩
  rw [World.records, world]
  exact congrFun viewEq _

/-- A lookup of a record changes no record. -/
theorem Settled.of_lookup (settled : Settled definitions schemas application)
    {restClient : RestClient} {registryUrl : String}
    (serves : Serves libraries restClient registryUrl schemas)
    (factory : next.cacheFactory = application.cacheFactory)
    (world : next.process.world = application.process.world ∨
      ∃ id, next.process.world =
        (getSchema libraries restClient registryUrl id application.process.world).2) :
    Settled definitions schemas next ∧
      next.process.world.records = application.process.world.records := by
  rcases world with same | ⟨id, fetched⟩
  · exact ⟨settled.of_same factory (congrArg World.schemaCache same), by rw [same]⟩
  · exact settled.of_getSchema serves factory id fetched

/-- Every action of the service over in-memory stores applies its patch. -/
theorem step_applies (stores : config.stores = definitions.map inMemoryDefinition) :
    Applies (step libraries codec config) (Settled definitions schemas)
      (Action.Consults libraries config schemas)
      (fun application => application.process.world.records)
      (Action.patch libraries definitions schemas) := by
  intro source action target settled consults stepped
  cases action with
  | preload restClient id =>
      rw [step_preload stepped]
      refine settled.of_getSchema consults rfl id ?_
      simp only [preloadSchema]
      split <;> next got => rw [got]
  | startConsumer =>
      rw [step_startConsumer stepped]
      exact ⟨settled.of_same rfl rfl, rfl⟩
  | message env delivered =>
      rcases step_message stepped with ⟨factory, process⟩
      have opened : (config.consumer source.cacheFactory).cacheFactory.OpenedFrom definitions :=
        settled.opened
      have serves : Serves libraries env.restClient
          (config.consumer source.cacheFactory).registryUrl schemas := consults
      rcases processRecord_follows opened serves settled.agrees delivered with
        ⟨after, handled, records, agrees⟩
      have world : target.process.world = after := by rw [process, handled]
      refine ⟨⟨factory ▸ settled.opened, world ▸ agrees⟩, ?_⟩
      change target.process.world.records = _
      rw [world]
      exact records
  | create env route id body =>
      rcases request_eq_some stepped with ⟨handler, found, rfl⟩
      rcases mounted_spec settled.opened found with ⟨inMemory, named, _⟩
      by_cases accepted : Accepted body
      · rcases put_of_inMemory env.faults inMemory id body source.process.world with
          ⟨after, stored, records, cached⟩
        rw [RecordHandler.createRecord_of_accepted accepted, stored]
        refine ⟨settled.of_same rfl cached, ?_⟩
        rw [Action.patch, if_pos accepted, ← named]
        exact records
      · rcases RecordHandler.createRecord_of_rejected accepted with ⟨text, answered⟩
        rw [answered, Action.patch, if_neg accepted]
        exact ⟨settled.of_same rfl rfl, rfl⟩
  | delete env route id =>
      rcases request_eq_some stepped with ⟨handler, found, rfl⟩
      rcases mounted_spec settled.opened found with ⟨inMemory, named, _⟩
      rcases removeFrom_of_inMemory env.faults inMemory id source.process.world with
        ⟨records, cached⟩
      rw [RecordHandler.deleteRecord_process, Action.patch, ← named]
      exact ⟨settled.of_same rfl cached, records⟩
  | get env route id =>
      rcases request_eq_some stepped with ⟨handler, found, rfl⟩
      rcases mounted_spec settled.opened found with ⟨_, _, url⟩
      exact settled.of_lookup (url ▸ consults) rfl
        (RecordHandler.retrieveRecord_world libraries codec handler env id
          (source.process.incrementRequestsTotal handler.cache.definition.name))
  | getByBody env route body =>
      rcases request_eq_some (step_getByBody stepped) with ⟨handler, found, rfl⟩
      rcases mounted_spec settled.opened found with ⟨_, _, url⟩
      exact settled.of_lookup (url ▸ consults) rfl
        (RecordHandler.getRecordByBody_world libraries codec handler env body source.process)
  | restart connect =>
      rcases step_restart stepped with ⟨cacheFactory, created, rfl⟩
      rw [stores] at created
      refine ⟨⟨CacheFactory.new_openedFrom created, fun id schema cached => ?_⟩, rfl⟩
      cases cached

end Steps

end PushCache.Java.Application

namespace PushCache

open PushCache.Log
open PushCache.Transition

/-! ## Both services -/

/-- The two services, with their libraries and their configurations. -/
structure Twins where
  crates : Crates
  config : MyConfig
  libraries : Java.Libraries
  codec : Java.Codec
  javaConfig : Java.AppConfig

/-- The same route in the configuration of the Rust service. -/
def Java.RouteDefinition.inRust (route : Java.RouteDefinition) : PushCache.RouteDefinition :=
  ⟨route.store, route.keyFromBody⟩

/-- What the two services are sent, with the outside world each of them sees; the
start-up checks and the start of the consumer are steps of the Java service alone. -/
inductive Traffic where
  | message (env : Env) (javaEnv : Java.Env) (message : Message)
  | create (env : Env) (javaEnv : Java.RequestEnv) (route : Java.RouteDefinition) (key : String)
      (body : Bytes)
  | delete (env : Env) (javaEnv : Java.RequestEnv) (route : Java.RouteDefinition) (key : String)
  | get (env : Env) (javaEnv : Java.RequestEnv) (route : Java.RouteDefinition) (key : String)
  | getByBody (env : Env) (javaEnv : Java.RequestEnv) (route : Java.RouteDefinition)
      (body : Json) (javaBody : Except Java.JavaException (Option (List (String × Json))))
  | restart (order : RandomState) (boot : Boot)
      (connect : Java.StoreDefinition → Option Java.JavaException)
  | preload (restClient : Java.RestClient) (id : Int32)
  | startConsumer

namespace Traffic

/-- What the Rust service does. -/
def rust : Traffic → Option Service.Action
  | .message env _ delivered => some (.message env delivered)
  | .create env _ route key body => some (.create env route.inRust key body)
  | .delete env _ route key => some (.delete env route.inRust key)
  | .get env _ route key => some (.get env route.inRust key)
  | .getByBody env _ route body _ => some (.getByBody env route.inRust body)
  | .restart order boot _ => some (.restart order boot)
  | .preload _ _ => none
  | .startConsumer => none

/-- What the Java service does. -/
def java : Traffic → Option Java.Application.Action
  | .message _ javaEnv delivered => some (.message javaEnv delivered)
  | .create _ javaEnv route key body => some (.create javaEnv route key body)
  | .delete _ javaEnv route key => some (.delete javaEnv route key)
  | .get _ javaEnv route key => some (.get javaEnv route key)
  | .getByBody _ javaEnv route _ javaBody => some (.getByBody javaEnv route javaBody)
  | .restart _ _ connect => some (.restart connect)
  | .preload restClient id => some (.preload restClient id)
  | .startConsumer => some .startConsumer

end Traffic

/-- The status of what the Rust service answers. -/
def status : Except MyError Response → Nat
  | .ok response => response.status
  | .error error => error.intoResponse.status

/-- The status of what the Java service answers; Spring turns what a handler throws
into an internal server error. -/
def Java.status : Except JavaException ServerResponse → Nat
  | .ok response => response.status
  | .error _ => 500

/-- The codecs of the Rust service turn the body of a record into JSON. -/
def Crates.Renders (crates : Crates) (schema : Schema) (data : Bytes) : Prop :=
  ∃ value, crates.fromAvroDatum schema data = .ok value ∧ ∃ json, crates.fromValue value = .ok json

/-- The codec of the Java service does. -/
def Java.Codec.Renders (codec : Codec) (schema : Schema) (data : Bytes) : Prop :=
  ∃ datum, codec.read schema data = .ok datum ∧ ∃ json, codec.encode schema datum = .ok json

/-- The two services accept the same bodies. -/
theorem accepted_iff_checkRecord (body : Bytes) :
    Java.Accepted body ↔ ∃ id, checkRecord body = .ok id := by
  simp only [Java.accepted_iff, checkRecord_eq_ok_iff]

namespace Twins

/-- Both services take the traffic. -/
def step (twins : Twins) : Step (Service × Java.Application) Traffic :=
  lockstep (Service.step twins.crates twins.config)
    (Java.Application.step twins.libraries twins.codec twins.javaConfig) Traffic.rust Traffic.java

/-- Both services are configured with the same in-memory stores. -/
structure Paired (twins : Twins) : Prop where
  inMemory : ∀ definition ∈ twins.config.cache.stores, definition.storeType = .inMemory
  framing : ConfluentFraming twins.crates.getBytesResult
  stores : twins.javaConfig.stores = twins.config.cache.stores.map Java.inMemoryDefinition

/-- The registry answers both services as `schemas`. -/
structure Consults (twins : Twins) (schemas : UInt32 → Option Schema) (traffic : Traffic) :
    Prop where
  rust : ∀ own, traffic.rust = some own → own.Consults twins.crates twins.config schemas
  java : ∀ own, traffic.java = some own →
    own.Consults twins.libraries twins.javaConfig schemas

/-- The services read a message alike, as far as it matters for the records there
are. -/
def ReadsAlike (twins : Twins) (schemas : UInt32 → Option Schema)
    (states : Service × Java.Application) : Traffic → Prop
  | .message _ _ delivered =>
      consumerReading.AgreesOn (Java.recordReading twins.libraries) twins.config.cache.stores
        schemas states.1.world.records delivered
  | _ => True

/-- Every store has the same records in both services. -/
def SameRecords (states : Service × Java.Application) : Prop :=
  states.1.world.records = states.2.process.world.records

/-- If there is a record and the registry knows its schema, the Rust service has it in
its cache, and both codecs render the record or none does. -/
def RendersAlike (twins : Twins) (schemas : UInt32 → Option Schema) (service : Service)
    (place : Place) : Prop :=
  ∀ value id data schema, service.world.records place = some value → Framed value id data →
    schemas id = some schema → service.world.schemaOf id ≠ none ∧
      (twins.crates.Renders schema data ↔ twins.codec.Renders schema data)

/-- Both services have just started, with their stores open. -/
structure Started (twins : Twins) (schemas : UInt32 → Option Schema)
    (states : Service × Java.Application) : Prop where
  rust : ∃ order boot persisted state world,
    Answers twins.crates twins.config schemas boot.http ∧
      MyState.new twins.crates order boot twins.config persisted = .ok (state, world) ∧
        states.1 = Service.started state world
  java : ∃ connect cacheFactory,
    Java.CacheFactory.new connect twins.javaConfig.stores = .ok cacheFactory ∧
      states.2 = Java.Application.opened cacheFactory fun _ => ∅

section Runs

variable {twins : Twins} {schemas : UInt32 → Option Schema}
  {start final : Service × Java.Application} {traffic : List Traffic}

/-- The patches of the two services differ on messages only, as their readings do. -/
theorem patchedAlike_iff (states : Service × Java.Application) (traffic : Traffic) :
    PatchedAlike Traffic.rust Traffic.java (fun service : Service => service.world.records)
        (Service.Action.patch twins.config schemas)
        (Java.Application.Action.patch twins.libraries twins.config.cache.stores schemas)
        states traffic ↔
      twins.ReadsAlike schemas states traffic := by
  cases traffic with
  | message env javaEnv delivered => exact Reading.patch_apply_eq_iff
  | create env javaEnv route key body =>
      refine iff_of_true ?_ trivial
      have same : Service.Action.patch twins.config schemas (.create env route.inRust key body) =
          Java.Application.Action.patch twins.libraries twins.config.cache.stores schemas
            (.create javaEnv route key body) := by
        simp only [Service.Action.patch, Java.Application.Action.patch]
        cases checked : checkRecord body with
        | error error =>
            have rejected : ¬Java.Accepted body := by
              rw [accepted_iff_checkRecord, checked]
              rintro ⟨id, accepted⟩
              cases accepted
            rw [if_neg rejected]
        | ok id =>
            rw [if_pos ((accepted_iff_checkRecord body).mpr ⟨id, checked⟩)]
            rfl
      exact congrArg (fun patch : Patch Place (Option Bytes) =>
        patch.apply states.1.world.records) same
  | _ => exact iff_of_true rfl trivial

/-- The Java service applies patches, and all its records are in Confluent format. -/
theorem java_applies (paired : twins.Paired) :
    Applies (Java.Application.step twins.libraries twins.codec twins.javaConfig)
      (fun application => Java.Application.Settled twins.config.cache.stores schemas application ∧
        application.process.world.AllAccepted)
      (Java.Application.Action.Consults twins.libraries twins.javaConfig schemas)
      (fun application => application.process.world.records)
      (Java.Application.Action.patch twins.libraries twins.config.cache.stores schemas) :=
  (Java.Application.step_applies paired.stores).and_preserved
    Java.Application.allAccepted_preserved

/-- Fresh services have settled, and have no records. -/
theorem Started.settled (started : twins.Started schemas start) (paired : twins.Paired) :
    Service.Settled twins.crates twins.config schemas start.1 ∧
      (Java.Application.Settled twins.config.cache.stores schemas start.2 ∧
        start.2.process.world.AllAccepted) ∧ SameRecords start := by
  rcases started.rust with ⟨order, boot, persisted, state, world, answers, created, rustEq⟩
  rcases started.java with ⟨connect, cacheFactory, opened, javaEq⟩
  rcases Service.settled_of_new (Service.started state world) answers created with
    ⟨settled, empty⟩
  rw [paired.stores] at opened
  refine ⟨rustEq ▸ settled, ?_, ?_⟩
  · rw [javaEq]
    refine ⟨⟨Java.CacheFactory.new_openedFrom opened, fun id schema cached => ?_⟩,
      fun location value stored => ?_⟩
    · cases cached
    · cases Java.Application.opened_stored stored
  · rw [SameRecords, rustEq, javaEq]
    exact empty

/-- What a run of both services on the same traffic establishes. -/
theorem settled_of_run (paired : twins.Paired) (started : twins.Started schemas start)
    (consults : ∀ item ∈ traffic, twins.Consults schemas item)
    (ran : run twins.step start traffic = some final) :
    Service.Settled twins.crates twins.config schemas final.1 ∧
      Java.Application.Settled twins.config.cache.stores schemas final.2 ∧
        final.2.process.world.AllAccepted := by
  rcases started.settled paired with ⟨rust, java, _⟩
  exact (Service.step_applies paired.framing paired.inMemory).lockstep_invariants
    (java_applies paired) rust java (fun item member => (consults item member).rust)
    (fun item member => (consults item member).java) ran

/-- They have the same records as long as they read each message alike. -/
theorem readsAlike_iff_sameRecords (paired : twins.Paired)
    (started : twins.Started schemas start)
    (consults : ∀ item ∈ traffic, twins.Consults schemas item)
    (ran : run twins.step start traffic = some final) :
    Guarded twins.step (twins.ReadsAlike schemas) start traffic ↔
      ∀ earlier later reached, traffic = earlier ++ later →
        run twins.step start earlier = some reached → SameRecords reached := by
  rcases started.settled paired with ⟨rust, java, same⟩
  have applies : Applies (Service.step twins.crates twins.config)
      (Service.Settled twins.crates twins.config schemas)
      (Service.Action.Consults twins.crates twins.config schemas)
      (fun service => service.world.records) (Service.Action.patch twins.config schemas) :=
    Service.step_applies paired.framing paired.inMemory
  have alike := applies.lockstep_views_iff (java_applies paired) rust java same
    (fun item member => (consults item member).rust)
    (fun item member => (consults item member).java) ran
  have guards : PatchedAlike Traffic.rust Traffic.java
      (fun service : Service => service.world.records)
      (Service.Action.patch twins.config schemas)
      (Java.Application.Action.patch twins.libraries twins.config.cache.stores schemas) =
        twins.ReadsAlike schemas := by
    funext states item
    exact propext (patchedAlike_iff states item)
  rw [guards] at alike
  exact alike

end Runs

section Answers

variable {crates : Crates} {state : MyState} {env : Env} {cache : Cache} {key : String}
  {world : World}

/-- A body is rejected with an internal server error. -/
theorem checkRecord_status {body : Bytes} {error : MyError}
    (rejected : checkRecord body = .error error) : error.intoResponse.status = 500 := by
  rcases body with _ | ⟨magic, _ | ⟨first, _ | ⟨second, _ | ⟨third, _ | ⟨fourth, data⟩⟩⟩⟩⟩
  case cons.cons.cons.cons.cons =>
    simp only [checkRecord] at rejected
    split at rejected
    · cases rejected
      rfl
    · cases rejected
  all_goals
    cases rejected
    rfl

theorem createRecord_status (inMemory : cache.storeType = .inMemory) (body : Bytes) :
    status (createRecord env cache key body world).1 =
      if Java.Accepted body then 201 else 500 := by
  cases checked : checkRecord body with
  | error error =>
      have rejected : ¬Java.Accepted body := by
        rw [accepted_iff_checkRecord, checked]
        exact fun ⟨_, accepted⟩ => by cases accepted
      rw [createRecord_of_rejected checked, if_neg rejected]
      exact checkRecord_status checked
  | ok id =>
      have accepted := (accepted_iff_checkRecord body).mpr ⟨id, checked⟩
      simp only [createRecord, checked, Cache.insert, inMemory, InMemoryCache.insert,
        if_pos accepted]
      split <;> next inserted => split at inserted <;> cases inserted <;> rfl

theorem deleteRecord_status (inMemory : cache.storeType = .inMemory) :
    status (deleteRecord env cache key world).1 =
      match world.records (cache.name, key) with
      | some _ => 200
      | none => 404 := by
  simp only [deleteRecord, Cache.remove, inMemory, InMemoryCache.remove, World.records,
    World.view]
  cases (world.contents (.inMemory cache.name)).lookup key <;> rfl

/-- A record is rendered, misses its schema or cannot be decoded. -/
theorem renderRecord_status (crates : Crates) (state : MyState) (world : World) (id : UInt32)
    (data : Bytes) :
    (world.schemaOf id = none ∧ status (renderRecord crates state id data world) = 404) ∨
      ∃ schema, world.schemaOf id = some schema ∧
        (crates.Renders schema data ∧
            status (renderRecord crates state id data world) = 200 ∨
          ¬crates.Renders schema data ∧
            status (renderRecord crates state id data world) = 500) := by
  simp only [renderRecord, World.schemaOf]
  cases world.schemaCache.lookup id with
  | none => exact Or.inl ⟨rfl, rfl⟩
  | some schema =>
      refine Or.inr ⟨schema, rfl, ?_⟩
      simp only [Crates.Renders]
      cases decoded : crates.fromAvroDatum schema data with
      | error text => exact Or.inr ⟨by simp, rfl⟩
      | ok value =>
          cases converted : crates.fromValue value with
          | error text => exact Or.inr ⟨by simp [converted], by simp [status, converted,
              MyError.intoResponse]⟩
          | ok json => exact Or.inl ⟨⟨value, rfl, json, converted⟩, by simp [status, converted]⟩

/-- The Java service renders a record or fails to decode it. -/
theorem answerDatum_status (codec : Java.Codec) (handler : Java.RecordHandler)
    (schema : Schema) (data : Bytes) :
    codec.Renders schema data ∧ (handler.answerDatum codec schema data).status = 200 ∨
      ¬codec.Renders schema data ∧ (handler.answerDatum codec schema data).status = 500 := by
  simp only [Java.RecordHandler.answerDatum, Java.Codec.Renders]
  cases decoded : codec.read schema data with
  | error text => exact Or.inr ⟨by simp, rfl⟩
  | ok datum =>
      cases encoded : codec.encode schema datum with
      | error text => exact Or.inr ⟨by simp [encoded], by simp [encoded,
          Java.ServerResponse.message, Java.ServerResponse.singleton]⟩
      | ok json => exact Or.inl ⟨⟨datum, rfl, json, encoded⟩, by simp [encoded]⟩

section Java

variable {handler : Java.RecordHandler} {javaEnv : Java.RequestEnv} {process : Java.Process}

theorem java_createRecord_status (inMemory : handler.cache.definition.type = .inMemory)
    (body : Bytes) :
    Java.status (handler.createRecord javaEnv key body process).1 =
      if Java.Accepted body then 201 else 500 := by
  by_cases accepted : Java.Accepted body
  · rcases Java.put_of_inMemory javaEnv.faults inMemory key body process.world with
      ⟨next, stored, _⟩
    rw [Java.RecordHandler.createRecord_of_accepted accepted, stored, if_pos accepted]
    rfl
  · rcases Java.RecordHandler.createRecord_of_rejected accepted with ⟨text, answered⟩
    rw [answered, if_neg accepted]
    rfl

theorem java_deleteRecord_status (inMemory : handler.cache.definition.type = .inMemory) :
    Java.status (handler.deleteRecord javaEnv key process).1 =
      match process.world.records (handler.cache.definition.name, key) with
      | some _ => 200
      | none => 404 := by
  simp only [Java.RecordHandler.deleteRecord, Java.Cache.remove, inMemory,
    Java.InMemoryCache.remove, Java.World.records, Java.World.view]
  cases (process.world.contents (.inMemory handler.cache.definition.name)).lookup key <;> rfl

end Java

end Answers

section Runs

variable {twins : Twins} {schemas : UInt32 → Option Schema}
  {start final : Service × Java.Application} {traffic : List Traffic}

/-- With a registry that answers as `schemas`, a lookup of a schema ends with it. -/
theorem resolve_eq {application : Java.Application}
    (settled : Java.Application.Settled twins.config.cache.stores schemas application)
    {restClient : Java.RestClient} {registryUrl : String}
    (serves : Java.Serves twins.libraries restClient registryUrl schemas) (id : UInt32) :
    application.process.world.resolve twins.libraries restClient registryUrl id.toInt32 =
      schemas id := by
  rcases Java.getSchema_spec serves settled.agrees id.toInt32 with ⟨result, next, got, known, _⟩
  have result_eq := Java.getSchema_result twins.libraries restClient registryUrl id.toInt32
    application.process.world
  rw [got] at result_eq
  exact result_eq.symm.trans known

/-- On the same records, a lookup is answered alike unless only one of the services
renders the record. -/
theorem lookup_status_iff {service : Service} {application : Java.Application}
    (settled : Service.Settled twins.crates twins.config schemas service)
    (javaSettled : Java.Application.Settled twins.config.cache.stores schemas application)
    (accepted : application.process.world.AllAccepted) (paired : twins.Paired)
    (same : SameRecords (service, application)) {route : Java.RouteDefinition} {cache : Cache}
    {handler : Java.RecordHandler} (mounted : service.state.mounted route.inRust = some cache)
    (javaMounted : application.mounted twins.javaConfig route = some handler) (env : Env)
    {javaEnv : Java.RequestEnv}
    (serves : Java.Serves twins.libraries javaEnv.restClient twins.javaConfig.registryUrl schemas)
    (key : String) :
    status (getRecord twins.crates service.state env cache key service.world).1 =
        Java.status (handler.getRecord twins.libraries twins.codec javaEnv key
          application.process).1 ↔
      twins.RendersAlike schemas service (route.store, key) := by
  obtain ⟨_, _, _, _, created⟩ := settled.started
  rcases Service.mounted_spec created paired.inMemory mounted with ⟨inMemory, here⟩
  rcases Java.Application.mounted_spec javaSettled.opened javaMounted with
    ⟨javaInMemory, named, url⟩
  have got := Cache.get_of_inMemory inMemory env.faults key service.world
  have javaGot := Java.Cache.get_of_inMemory javaInMemory javaEnv.readFaults key
    application.process.world
  have records : service.world.view (cache.location key) =
      service.world.records (route.store, key) := by
    rw [here]
    rfl
  have javaRecords : application.process.world.records (handler.cache.definition.name, key) =
      service.world.records (route.store, key) := by
    rw [named]
    exact (congrFun same (route.store, key)).symm
  rw [records] at got
  rw [javaRecords] at javaGot
  rw [RendersAlike]
  cases stored : service.world.records (route.store, key) with
  | none =>
      rw [stored] at got javaGot
      have rust : status (getRecord twins.crates service.state env cache key service.world).1 =
          404 := by simp only [getRecord, retrieveRecordLogic, got]; rfl
      rw [rust, Java.RecordHandler.getRecord_of_absent javaGot]
      exact iff_of_true rfl fun _ _ _ _ held => by cases held
  | some value =>
      rw [stored] at got javaGot
      have confluent : Java.Accepted value := by
        refine accepted (.inMemory route.store, key) value ?_
        have held := congrFun same (route.store, key)
        exact held.symm.trans stored
      rcases (Java.accepted_iff value).mp confluent with ⟨id, data, framed⟩
      have only : (∀ other otherId otherData schema, some value = some other →
          Framed other otherId otherData → schemas otherId = some schema →
            service.world.schemaOf otherId ≠ none ∧
              (twins.crates.Renders schema otherData ↔ twins.codec.Renders schema otherData)) ↔
          ∀ schema, schemas id = some schema → service.world.schemaOf id ≠ none ∧
            (twins.crates.Renders schema data ↔ twins.codec.Renders schema data) := by
        constructor
        · exact fun all schema known => all value id data schema rfl framed known
        · rintro one _ otherId otherData schema ⟨⟩ reading known
          rcases framed.unique reading with ⟨rfl, rfl⟩
          exact one schema known
      have rust : getRecord twins.crates service.state env cache key service.world =
          (renderRecord twins.crates service.state id data service.world, service.world) :=
        retrieveRecordLogic_of_framed paired.framing service.state got framed
      have java := (Java.RecordHandler.getRecord_of_framed twins.libraries twins.codec javaGot
        framed).1
      rw [url, resolve_eq javaSettled serves id] at java
      rw [only, rust, java]
      cases known : schemas id with
      | none =>
          have uncached : service.world.schemaOf id = none := by
            cases cached : service.world.schemaOf id with
            | none => rfl
            | some schema => cases known.symm.trans (settled.agrees id schema cached)
          refine iff_of_true ?_ fun _ found => by cases found
          rcases renderRecord_status twins.crates service.state service.world id data with
            ⟨_, missing⟩ | ⟨schema, cached, _⟩
          · exact missing
          · cases uncached.symm.trans cached
      | some schema =>
          have answered := answerDatum_status twins.codec handler schema data
          rcases renderRecord_status twins.crates service.state service.world id data with
            ⟨uncached, missing⟩ | ⟨other, cached, rendered⟩
          · refine iff_of_false ?_ fun all => (all schema rfl).1 uncached
            rw [missing]
            rcases answered with ⟨_, ok⟩ | ⟨_, failed⟩
            · simp [Java.status, ok]
            · simp [Java.status, failed]
          · obtain rfl : schema = other :=
              Option.some.inj (known.symm.trans (settled.agrees id other cached))
            have codecs : (∀ found, some schema = some found → service.world.schemaOf id ≠ none ∧
                (twins.crates.Renders found data ↔ twins.codec.Renders found data)) ↔
                (twins.crates.Renders schema data ↔ twins.codec.Renders schema data) := by
              simp [cached]
            rw [codecs]
            rcases rendered with ⟨renders, ok⟩ | ⟨fails, error⟩ <;>
              rcases answered with ⟨javaRenders, javaOk⟩ | ⟨javaFails, javaError⟩ <;>
              simp_all [Java.status]

end Runs

end Twins

namespace Sample

/-- Both services with the sample's store and one schema. -/
def twins : Twins where
  crates := crates
  config := config .inMemory
  libraries := libraries (.record "customer" "customer")
  codec := codec
  javaConfig := appConfig .inMemory

/-- Both services before their first request. -/
def twinsStarted : Service × Java.Application :=
  (Service.started (state .inMemory) (world fun _ => ∅), application .inMemory)

/-- A message, a posted record and a lookup for both services. -/
def twinsTraffic : List Traffic :=
  [.startConsumer, .message env registryUp.toEnv (record 1),
    .create env registryUp javaRoute "other" (payload 2), .get env registryUp javaRoute "k"]

end Sample

end PushCache
