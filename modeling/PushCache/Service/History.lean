import PushCache.Consumer.Flow
import PushCache.Log.Journal
import PushCache.Service.Core
import PushCache.Webserver.Listing

/-!
# A service over in-memory stores is its history

Messages, posted records, deletions and restarts all write to the stores, in one
order.  Each action denotes a patch of the records, and the records a run leaves
are the combined patch of its actions: in every store the last action that
touches a key decides.  Whatever a client reads, one record or a listing, it reads
from that history.
-/

namespace PushCache

open PushCache.Listing
open PushCache.Log
open PushCache.Transition

/-- The registry answers `fetch_schema_by_id` as `schemas` does. -/
def Answers (crates : Crates) (config : MyConfig) (schemas : UInt32 → Option Schema)
    (http : Http) : Prop :=
  ∀ id, (fetchSchemaById crates http config.kafka.schemaRegistryUrl.asStr id).toOption =
    schemas id

/-- `InMemoryCache::keys`: the keys of the map, each once, in the order in which the
map walks its shards. -/
def InMemoryCache.Keys (name : String) (world : World) (keys : Vec String) : Prop :=
  keys.toList.Nodup ∧ ∀ key, key ∈ keys.toList ↔ key ∈ world.contents (.inMemory name)

/-- Rendering a record never answers that there is none. -/
theorem renderRecord_ne_missing (crates : Crates) (state : MyState) (id : UInt32)
    (data : Bytes) (world : World) :
    renderRecord crates state id data world ≠
      .error (.notFound "User not found in dynamic cache") := by
  simp only [renderRecord]
  repeat' split
  all_goals simp

namespace Service

/-- The registry the action consults, if it does, answers as `schemas`. -/
def Action.Consults (crates : Crates) (config : MyConfig) (schemas : UInt32 → Option Schema) :
    Action → Prop
  | .message env _ => Answers crates config schemas env.http
  | .restart _ boot => Answers crates config schemas boot.http
  | _ => True

/-- What an action leaves in the stores.  A restart empties them all. -/
def Action.patch (config : MyConfig) (schemas : UInt32 → Option Schema) :
    Action → Patch Place (Option Bytes)
  | .message _ delivered => consumerReading.patch config.cache.stores schemas delivered
  | .create _ route key body =>
      match checkRecord body with
      | .ok _ => Patch.placing (some (route.store, key)) (some body)
      | .error _ => fun _ => none
  | .delete _ route key => Patch.placing (some (route.store, key)) none
  | .get _ _ _ => fun _ => none
  | .getByBody _ _ _ => fun _ => none
  | .restart _ _ => fun _ => some none

/-- The records a list of actions leaves in stores that start empty. -/
def history (config : MyConfig) (schemas : UInt32 → Option Schema) (actions : List Action) :
    Place → Option Bytes :=
  (Patch.latest (actions.map (Action.patch config schemas))).apply fun _ => none

/-- The process was started from the configuration, and has cached what the
registry answers. -/
structure Settled (crates : Crates) (config : MyConfig) (schemas : UInt32 → Option Schema)
    (service : Service) : Prop where
  started : ∃ order boot persisted initial,
    MyState.new crates order boot config persisted = .ok (service.state, initial)
  agrees : service.world.Agrees schemas

variable {crates : Crates} {config : MyConfig} {schemas : UInt32 → Option Schema}
  {service next : Service}

/-! ## Single steps -/

/-- A write on an in-memory store succeeds, and is its patch. -/
theorem perform_of_inMemory (env : Env) {write : StoreWrite}
    (inMemory : write.cache.storeType = .inMemory) (world : World) :
    (perform env write world).2.view = write.patch.apply world.view := by
  have faultless : write.fault env = none := if_pos inMemory
  have performed : perform env write world =
      (.ok (), (write.effect world).resize (write.growth world)) := by
    rw [perform_eq, faultless]
  rw [performed]
  exact perform_view_of_ok performed

/-- On the records of the in-memory stores the patch touches one place. -/
theorem records_of_perform (env : Env) (write : StoreWrite) (place : Place)
    (inMemory : write.cache.storeType = .inMemory)
    (here : write.location = (.inMemory place.1, place.2)) (world : World) :
    (perform env write world).2.records =
      (Patch.placing (some place) write.content).apply world.records := by
  funext other
  rw [World.records, perform_of_inMemory env inMemory, StoreWrite.patch_apply, here,
    Patch.placing_apply]
  by_cases same : place = other
  · rw [if_pos (congrArg some same), if_pos (by rw [same])]
  · rw [if_neg fun equal => same (Option.some.inj equal), if_neg, World.records]
    intro equal
    rcases Prod.mk.inj equal with ⟨cellEq, keyEq⟩
    exact same (Prod.ext (Cell.inMemory.inj cellEq).symm keyEq.symm)

section Mounted

variable {order : RandomState} {boot : Boot} {persisted : Cell → Records} {state : MyState}
  {initial : World} {route : RouteDefinition} {cache : Cache}

/-- The store a route is mounted to is in memory and has the route's store name. -/
theorem mounted_spec
    (started : MyState.new crates order boot config persisted = .ok (state, initial))
    (allInMemory : ∀ definition ∈ config.cache.stores, definition.storeType = .inMemory)
    (mounted : state.mounted route = some cache) :
    cache.storeType = .inMemory ∧
      ∀ key, cache.location key = (.inMemory route.store, key) := by
  have found : state.stores.lookup route.store = some cache := by
    rw [MyState.mounted] at mounted
    split at mounted
    · exact mounted
    · cases mounted
  rcases MyState.new_stores_lookup started found with ⟨definition, configured, named, rfl⟩
  have inMemory := allInMemory definition configured
  refine ⟨inMemory, fun key => ?_⟩
  rw [Cache.location_of_inMemory inMemory, named]

end Mounted

/-- A write of a request keeps what the process has settled. -/
theorem Settled.of_request (settled : Settled crates config schemas service)
    {env : Env} {write : StoreWrite} (state : next.state = service.state)
    (world : next.world = (perform env write service.world).2) :
    Settled crates config schemas next := by
  refine ⟨state ▸ settled.started, fun id schema found => settled.agrees id schema ?_⟩
  have cached : next.world.schemaCache = service.world.schemaCache := by
    rw [world]
    exact congrArg Prod.fst (perform_rest env write service.world)
  rwa [World.schemaOf, cached] at found

/-- A step that reads changes nothing of either. -/
theorem Settled.of_read (settled : Settled crates config schemas service)
    (state : next.state = service.state)
    (kept : next.world.contents = service.world.contents ∧
      next.world.schemaCache = service.world.schemaCache) :
    Settled crates config schemas next ∧ next.world.records = service.world.records := by
  refine ⟨⟨state ▸ settled.started, fun id schema found => settled.agrees id schema ?_⟩, ?_⟩
  · rwa [World.schemaOf, kept.2] at found
  · funext place
    rw [World.records, World.view, kept.1]
    rfl

/-- A process keeps its settings; a restart settles them anew, with empty stores. -/
theorem settled_of_new (service : Service) {order : RandomState} {boot : Boot}
    {persisted : Cell → Records} (answers : Answers crates config schemas boot.http)
    (started : MyState.new crates order boot config persisted =
      .ok (service.state, service.world)) :
    Settled crates config schemas service ∧ service.world.records = fun _ => none := by
  have configured : service.state.config = config := by
    rcases MyState.new_eq_ok started with ⟨_, _, _, _, stateEq, _⟩
    rw [stateEq]
  have agrees : service.world.Agrees (registry crates service.state ⟨boot.http, fun _ => none⟩) :=
    MyState.new_agrees started rfl
  have registryEq : registry crates service.state ⟨boot.http, fun _ => none⟩ = schemas := by
    funext id
    rw [registry, configured, answers id]
  rw [registryEq] at agrees
  refine ⟨⟨⟨order, boot, persisted, _, started⟩, agrees⟩, ?_⟩
  funext place
  rcases MyState.new_eq_ok started with ⟨_, _, _, _, _, worldEq⟩
  rw [worldEq]
  exact Finmap.lookup_empty place.2

/-- Every action of a service over in-memory stores applies its patch. -/
theorem step_applies (framing : ConfluentFraming crates.getBytesResult)
    (allInMemory : ∀ definition ∈ config.cache.stores, definition.storeType = .inMemory) :
    Applies (step crates config) (Settled crates config schemas)
      (Action.Consults crates config schemas) (fun service => service.world.records)
      (Action.patch config schemas) := by
  intro source action target settled consults stepped
  obtain ⟨order, boot, persisted, initial, started⟩ := settled.started
  cases action with
  | message env delivered =>
      rcases step_message stepped with ⟨state, world⟩
      have inMemory := MyState.new_inMemory started allInMemory
      have configured : source.state.config = config := by
        rcases MyState.new_eq_ok started with ⟨_, _, _, _, stateEq, _⟩
        rw [stateEq]
      have registryEq : registry crates source.state env = schemas := by
        funext id
        rw [registry, configured, consults id]
      have agrees : source.world.Agrees (registry crates source.state env) :=
        registryEq ▸ settled.agrees
      have records := handleMessage_records started inMemory framing agrees delivered
      have kept := handleMessage_agrees inMemory agrees delivered
      rw [registryEq, ← world] at records kept
      exact ⟨⟨⟨order, boot, persisted, initial, state ▸ started⟩, kept⟩, records⟩
  | create env route key body =>
      rcases request_eq_some stepped with ⟨cache, mounted, state, world⟩
      rcases mounted_spec started allInMemory mounted with ⟨inMemory, here⟩
      cases checked : checkRecord body with
      | error error =>
          rw [createRecord_of_rejected checked] at world
          rcases settled.of_read state (by rw [world]; exact ⟨rfl, rfl⟩) with ⟨kept, same⟩
          refine ⟨kept, same.trans ?_⟩
          simp only [Action.patch, checked]
          rfl
      | ok id =>
          rw [createRecord_world checked] at world
          refine ⟨settled.of_request state world, ?_⟩
          simp only [Action.patch, checked, world]
          exact records_of_perform env (.insert cache key body) (route.store, key) inMemory
            (here key) source.world
  | delete env route key =>
      rcases request_eq_some stepped with ⟨cache, mounted, state, world⟩
      rcases mounted_spec started allInMemory mounted with ⟨inMemory, here⟩
      rw [deleteRecord_world] at world
      refine ⟨settled.of_request state world, ?_⟩
      simp only [Action.patch, world]
      exact records_of_perform env (.remove cache key) (route.store, key) inMemory (here key)
        source.world
  | get env route key =>
      rcases request_eq_some stepped with ⟨cache, _, state, world⟩
      refine settled.of_read state ?_
      rw [world, getRecord]
      exact retrieveRecordLogic_contents ..
  | getByBody env route body =>
      rcases step_getByBody stepped with ⟨keyField, answered⟩
      rcases request_eq_some answered with ⟨cache, _, state, world⟩
      refine settled.of_read state ?_
      rw [world]
      exact getRecordByBody_contents ..
  | restart order boot =>
      rcases settled_of_new target consults (step_restart stepped) with ⟨kept, empty⟩
      exact ⟨kept, empty⟩

/-! ## Reading from the history -/

/-- Whatever an action writes is in Confluent format. -/
theorem Action.patch_framed {action : Action} {place : Place} {value : Bytes}
    (written : action.patch config schemas place = some (some value)) :
    ∃ id data, Framed value id data := by
  cases action with
  | message env delivered =>
      rcases Reading.patch_eq_some_some_iff.mp written with ⟨_, targeted⟩
      rcases Reading.target_eq_some_iff.mp targeted with ⟨id, data, _, _, parsed, _⟩
      exact ⟨id, data, (confluentParser_framing value id data).mp parsed⟩
  | create env route key body =>
      cases checked : checkRecord body with
      | error error =>
          simp only [Action.patch, checked] at written
          cases written
      | ok id =>
          simp only [Action.patch, checked] at written
          rcases Patch.placing_eq_some_iff.mp written with ⟨_, same⟩
          cases same
          exact ⟨id, checkRecord_eq_ok_iff.mp checked⟩
  | delete env route key =>
      rcases Patch.placing_eq_some_iff.mp written with ⟨_, same⟩
      cases same
  | get env route key => cases written
  | getByBody env route body => cases written
  | restart order boot => cases written

theorem history_framed {actions : List Action} {place : Place} {value : Bytes}
    (stored : history config schemas actions place = some value) :
    ∃ id data, Framed value id data := by
  rw [history, Patch.apply] at stored
  cases decided : Patch.latest (actions.map (Action.patch config schemas)) place with
  | none =>
      rw [decided] at stored
      cases stored
  | some content =>
      rw [decided] at stored
      rcases Patch.exists_mem_of_latest_eq_some decided with ⟨_, member, written⟩
      rcases List.mem_map.mp member with ⟨action, _, rfl⟩
      cases stored
      exact action.patch_framed written

section Runs

variable {order : RandomState} {boot : Boot} {persisted : Cell → Records} {state : MyState}
  {world : World} {final : Service} {actions : List Action}

/-- What a run over in-memory stores establishes. -/
theorem settled_of_run (framing : ConfluentFraming crates.getBytesResult)
    (allInMemory : ∀ definition ∈ config.cache.stores, definition.storeType = .inMemory)
    (answers : Answers crates config schemas boot.http)
    (started : MyState.new crates order boot config persisted = .ok (state, world))
    (consults : ∀ action ∈ actions, action.Consults crates config schemas)
    (ran : run (step crates config) (Service.started state world) actions = some final) :
    Settled crates config schemas final ∧
      final.world.records = history config schemas actions := by
  rcases settled_of_new (Service.started state world) answers started with ⟨settled, empty⟩
  rcases (step_applies framing allInMemory).of_run settled consults ran with ⟨kept, records⟩
  simp only [empty] at records
  exact ⟨kept, records⟩

/-- A lookup is answered from the records, whatever they hold. -/
theorem Settled.getRecord_eq (settled : Settled crates config schemas final)
    (framing : ConfluentFraming crates.getBytesResult)
    (allInMemory : ∀ definition ∈ config.cache.stores, definition.storeType = .inMemory)
    (records : final.world.records = history config schemas actions) (env : Env)
    {route : RouteDefinition} {cache : Cache}
    (mounted : final.state.mounted route = some cache) (key : String) :
    match history config schemas actions (route.store, key) with
    | none => getRecord crates final.state env cache key final.world =
        (.error (.notFound "User not found in dynamic cache"), final.world.countMiss)
    | some value => ∃ id data, Framed value id data ∧
        getRecord crates final.state env cache key final.world =
          (renderRecord crates final.state id data final.world, final.world) := by
  obtain ⟨_, _, _, _, created⟩ := settled.started
  rcases mounted_spec created allInMemory mounted with ⟨inMemory, here⟩
  have got := Cache.get_of_inMemory inMemory env.faults key final.world
  have held : final.world.view (cache.location key) =
      history config schemas actions (route.store, key) := by
    rw [here, ← records]
    rfl
  rw [held] at got
  cases stored : history config schemas actions (route.store, key) with
  | none =>
      rw [stored] at got
      simp only [getRecord, retrieveRecordLogic, got]
  | some value =>
      rw [stored] at got
      rcases history_framed stored with ⟨id, data, framed⟩
      exact ⟨id, data, framed, retrieveRecordLogic_of_framed framing final.state got framed⟩

/-- After every run over in-memory stores, with a registry that keeps giving the
same answers, the stores hold the history of the run, and a lookup of a key is
answered from it: as a miss where the history has nothing, else from the schema id
and the body of the record it has. -/
theorem reads_follow_history (framing : ConfluentFraming crates.getBytesResult)
    (allInMemory : ∀ definition ∈ config.cache.stores, definition.storeType = .inMemory)
    (answers : Answers crates config schemas boot.http)
    (started : MyState.new crates order boot config persisted = .ok (state, world))
    (consults : ∀ action ∈ actions, action.Consults crates config schemas)
    (ran : run (step crates config) (Service.started state world) actions = some final) :
    final.world.records = history config schemas actions ∧
      ∀ env route cache key, final.state.mounted route = some cache →
        match history config schemas actions (route.store, key) with
        | none => getRecord crates final.state env cache key final.world =
            (.error (.notFound "User not found in dynamic cache"), final.world.countMiss)
        | some value => ∃ id data, Framed value id data ∧
            getRecord crates final.state env cache key final.world =
              (renderRecord crates final.state id data final.world, final.world) := by
  rcases settled_of_run framing allInMemory answers started consults ran with
    ⟨settled, records⟩
  exact ⟨records, fun env _ _ key mounted =>
    settled.getRecord_eq framing allInMemory records env mounted key⟩

/-- In every state of such a run, and in whatever order the store gives its keys: a
listing is a page of one sorted list without repetition, which has the keys that the
history holds a record for and the filter selects.  These are the selected keys
whose lookup is not a miss. -/
theorem listing_follows_history (framing : ConfluentFraming crates.getBytesResult)
    (allInMemory : ∀ definition ∈ config.cache.stores, definition.storeType = .inMemory)
    (answers : Answers crates config schemas boot.http)
    (started : MyState.new crates order boot config persisted = .ok (state, world))
    (consults : ∀ action ∈ actions, action.Consults crates config schemas)
    (ran : run (step crates config) (Service.started state world) actions = some final)
    {route : RouteDefinition} {cache : Cache} (mounted : final.state.mounted route = some cache)
    {keys : Vec String} (listed : InMemoryCache.Keys cache.name final.world keys)
    (params : ListUsersParams) :
    ∃ texts : List String, texts.Pairwise (· ≤ ·) ∧ texts.Nodup ∧
      listRecords (.ok keys) params =
        .ok ⟨200, [], .array ((pageOf params texts).map .string)⟩ ∧
      ∀ env key, (key ∈ texts ↔ Selected params.filter key ∧
          ∃ value, history config schemas actions (route.store, key) = some value) ∧
        (key ∈ texts ↔ Selected params.filter key ∧
          (getRecord crates final.state env cache key final.world).1 ≠
            .error (.notFound "User not found in dynamic cache")) := by
  rcases settled_of_run framing allInMemory answers started consults ran with
    ⟨settled, records⟩
  obtain ⟨_, _, _, _, created⟩ := settled.started
  rcases mounted_spec created allInMemory mounted with ⟨inMemory, here⟩
  have named : cache.name = route.store := by
    have located := here ""
    rw [Cache.location_of_inMemory inMemory, Prod.mk.injEq, Cell.inMemory.injEq] at located
    exact located.1
  have held : ∀ key, key ∈ keys.toList ↔
      ∃ value, history config schemas actions (route.store, key) = some value := by
    intro key
    rw [listed.2, ← Finmap.lookup_isSome, Option.isSome_iff_exists, ← records, named]
    rfl
  have member : ∀ key, key ∈ listing params.filter keys.toList ↔
      Selected params.filter key ∧
        ∃ value, history config schemas actions (route.store, key) = some value := by
    intro key
    rw [(listing_perm params.filter keys.toList).mem_iff, List.mem_filter, decide_eq_true_eq,
      held, and_comm]
  refine ⟨listing params.filter keys.toList, listing_pairwise _ _,
    (listing_perm _ _).nodup_iff.mpr (listed.1.filter _), listRecords_eq keys params,
    fun env key => ⟨member key, (member key).trans (and_congr_right fun _ => ?_)⟩⟩
  have reads := settled.getRecord_eq framing allInMemory records env mounted key
  cases stored : history config schemas actions (route.store, key) with
  | none =>
      rw [stored] at reads
      exact iff_of_false (by simp) fun found => found (congrArg Prod.fst reads)
  | some value =>
      rw [stored] at reads
      rcases reads with ⟨id, data, _, rendered⟩
      rw [rendered]
      exact iff_of_true ⟨value, rfl⟩
        (renderRecord_ne_missing crates final.state id data final.world)

end Runs

end Service

namespace Sample

/-- The sample registry has one schema, under every id. -/
theorem answers (storeType : StoreType) :
    Answers crates (config storeType) (fun _ => some (.record "customer" "customer")) http :=
  fun _ => rfl

theorem served_consults : ∀ action ∈ served,
    action.Consults crates (config .inMemory) fun _ => some (.record "customer" "customer") := by
  intro action member
  rcases List.mem_cons.mp member with rfl | member
  · exact answers .inMemory
  · rcases List.mem_cons.mp member with rfl | member
    · trivial
    · obtain rfl := List.mem_singleton.mp member
      trivial

/-- A message, a posted record and a read: both records are there. -/
theorem reads_follow_history_of_served :
    ∃ final, run (Service.step crates (config .inMemory))
        (Service.started (state .inMemory) (world fun _ => ∅)) served = some final ∧
      final.world.records ("customers", "k") = some (payload 1) ∧
        final.world.records ("customers", "other") = some (payload 2) := by
  have ran : run (Service.step crates (config .inMemory))
      (Service.started (state .inMemory) (world fun _ => ∅)) served = some _ := rfl
  have records := (Service.reads_follow_history confluentParser_framing
    (by simp [config, customers]) (answers .inMemory) (started .inMemory fun _ => ∅)
    served_consults ran).1
  exact ⟨_, ran, congrFun records ("customers", "k"), congrFun records ("customers", "other")⟩

/-- The keys of the store after that run. -/
def servedKeys : Vec String := ⟨["other", "k"], by decide⟩

theorem served_keys :
    ∃ final, run (Service.step crates (config .inMemory))
        (Service.started (state .inMemory) (world fun _ => ∅)) served = some final ∧
      final.state = state .inMemory ∧
        InMemoryCache.Keys "customers" final.world servedKeys := by
  refine ⟨_, rfl, rfl, by decide, fun key => ?_⟩
  change key ∈ servedKeys.toList ↔
    key ∈ ((∅ : Records).insert "k" (payload 1)).insert "other" (payload 2)
  have nothing : key ∉ (∅ : Records) := Finmap.notMem_empty
  simp [servedKeys, Finmap.mem_insert, nothing]

/-- The listing has the key of the message. -/
theorem listing_follows_history_of_served :
    ∃ texts, listRecords (.ok servedKeys) ⟨none, none, none⟩ =
        .ok ⟨200, [], .array ((pageOf ⟨none, none, none⟩ texts).map .string)⟩ ∧
      "k" ∈ texts := by
  rcases served_keys with ⟨final, ran, stateEq, listed⟩
  have mounted : final.state.mounted route = some (cache .inMemory) := by
    rw [stateEq]
    rfl
  obtain ⟨texts, _, _, answered, exactly⟩ := Service.listing_follows_history
    confluentParser_framing (by simp [config, customers]) (answers .inMemory)
    (started .inMemory fun _ => ∅) served_consults ran mounted listed ⟨none, none, none⟩
  have selected : Selected none "k" := fun _ given => by cases given
  exact ⟨texts, answered, (exactly env "k").1.mpr ⟨selected, payload 1, rfl⟩⟩

end Sample

end PushCache
