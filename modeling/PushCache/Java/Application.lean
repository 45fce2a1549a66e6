import PushCache.Java.RecordHandler
import PushCache.Log.Journal

/-!
# The running Java service

A process opens its stores and serves requests; its start-up checks fetch the
configured schemas, one after the other and possibly more than once; only then the
consumer starts.  It ends with the first exception that leaves `processRecord`.  A
step is one of these, a handled record, a request for a record or a restart.
Whatever a process leaves in its stores is in Confluent format.
-/

namespace PushCache.Java

open PushCache.Log
open PushCache.Transition

deriving instance DecidableEq for RouteDefinition

/-- `AppConfig`, as far as the consumer and the record routes read it. -/
structure AppConfig where
  stores : List StoreDefinition
  routes : List RouteDefinition
  registryUrl : String
  cacheMaxAge : Nat
  offsetReset : KafkaOffsetReset
  forceResetEarliest : Bool

/-- Where a process is: before its consumer has started, with a consumer, or after
the consumer has ended. -/
inductive Application.Phase where
  | starting
  | consuming
  | ended
  deriving DecidableEq

/-- A process with its stores. -/
structure Application where
  cacheFactory : CacheFactory
  process : Process
  phase : Application.Phase

/-- What the service does. -/
inductive Application.Action where
  | preload (restClient : RestClient) (id : Int32)
  | startConsumer
  | message (env : Env) (message : Message)
  | create (env : RequestEnv) (route : RouteDefinition) (id : String) (body : Bytes)
  | delete (env : RequestEnv) (route : RouteDefinition) (id : String)
  | get (env : RequestEnv) (route : RouteDefinition) (id : String)
  | getByBody (env : RequestEnv) (route : RouteDefinition)
      (body : Except JavaException (Option (List (String × Json))))
  | restart (connect : StoreDefinition → Option JavaException)

/-- The consumer of the process. -/
def AppConfig.consumer (config : AppConfig) (cacheFactory : CacheFactory) :
    KafkaConsumerService :=
  ⟨cacheFactory, config.registryUrl, config.offsetReset, config.forceResetEarliest⟩

/-- `new RecordHandler(store, ..)` for a route. -/
def AppConfig.handler (config : AppConfig) (route : RouteDefinition) (store : Cache) :
    RecordHandler :=
  ⟨store, config.registryUrl, config.cacheMaxAge, route.keyFromBody⟩

namespace Application

/-- A process before its first request: remote stores hold what they held. -/
def opened (cacheFactory : CacheFactory) (persisted : Cell → Records) : Application :=
  ⟨cacheFactory, ⟨.fresh persisted, fun _ => 0, fun _ => 0⟩, .starting⟩

/-- The handler of a route; a route whose store does not exist is not mounted. -/
def mounted (config : AppConfig) (application : Application) (route : RouteDefinition) :
    Option RecordHandler :=
  if route ∈ config.routes then
    (application.cacheFactory.getStore route.store).map (config.handler route)
  else
    none

/-- Answer a request on a mounted route. -/
def request (config : AppConfig) (application : Application) (route : RouteDefinition)
    (handle : RecordHandler → Process → Except JavaException ServerResponse × Process) :
    Option Application :=
  (application.mounted config route).map fun handler =>
    { application with process := (handle handler application.process).2 }

/-- The transition system. -/
def step (libraries : Libraries) (codec : Codec) (config : AppConfig) :
    Step Application Action
  | application, .preload restClient id =>
      if application.phase = .starting then
        some { application with
          process := { application.process with
            world := (preloadSchema libraries restClient config.registryUrl id
              application.process.world).2 } }
      else
        none
  | application, .startConsumer =>
      if application.phase = .starting then some { application with phase := .consuming }
      else none
  | application, .message env message =>
      if application.phase = .consuming then
        match processRecord libraries (config.consumer application.cacheFactory) env
            (.ofMessage libraries message) application.process.world with
        | (.ok _, world) =>
            some { application with process := { application.process with world } }
        | (.error _, world) =>
            some { application with
              process := { application.process with world }, phase := .ended }
      else
        none
  | application, .create env route id body =>
      application.request config route fun handler => handler.createRecord env id body
  | application, .delete env route id =>
      application.request config route fun handler => handler.deleteRecord env id
  | application, .get env route id =>
      application.request config route fun handler => handler.getRecord libraries codec env id
  | application, .getByBody env route body =>
      if WebConfig.hasBodyPath route then
        application.request config route fun handler =>
          handler.getRecordByBody libraries codec env body
      else
        none
  | application, .restart connect =>
      match CacheFactory.new connect config.stores with
      | .ok cacheFactory => some (opened cacheFactory application.process.world.contents)
      | .error _ => none

/-! ## The steps -/

section Steps

variable {libraries : Libraries} {codec : Codec} {config : AppConfig}
  {application next : Application} {env : RequestEnv} {route : RouteDefinition}

theorem mounted_eq_some {handler : RecordHandler}
    (found : application.mounted config route = some handler) :
    ∃ store, application.cacheFactory.getStore route.store = some store ∧
      config.handler route store = handler := by
  rw [mounted] at found
  split at found
  · exact Option.map_eq_some_iff.mp found
  · cases found

theorem request_eq_some
    {handle : RecordHandler → Process → Except JavaException ServerResponse × Process}
    (answered : application.request config route handle = some next) :
    ∃ handler, application.mounted config route = some handler ∧
      next = { application with process := (handle handler application.process).2 } := by
  rcases Option.map_eq_some_iff.mp answered with ⟨handler, found, rfl⟩
  exact ⟨handler, found, rfl⟩

theorem step_message {env : Env} {message : Message}
    (stepped : step libraries codec config application (.message env message) = some next) :
    next.cacheFactory = application.cacheFactory ∧
      next.process = { application.process with
        world := (processRecord libraries (config.consumer application.cacheFactory) env
          (.ofMessage libraries message) application.process.world).2 } := by
  simp only [step] at stepped
  split at stepped
  · split at stepped <;> next handled =>
      cases stepped
      exact ⟨rfl, by rw [handled]⟩
  · cases stepped

theorem step_preload {restClient : RestClient} {id : Int32}
    (stepped : step libraries codec config application (.preload restClient id) = some next) :
    next = { application with
      process := { application.process with
        world := (preloadSchema libraries restClient config.registryUrl id
          application.process.world).2 } } := by
  simp only [step] at stepped
  split at stepped
  · exact (Option.some.inj stepped).symm
  · cases stepped

theorem step_startConsumer
    (stepped : step libraries codec config application .startConsumer = some next) :
    next = { application with phase := .consuming } := by
  simp only [step] at stepped
  split at stepped
  · exact (Option.some.inj stepped).symm
  · cases stepped

theorem step_getByBody {body : Except JavaException (Option (List (String × Json)))}
    (stepped : step libraries codec config application (.getByBody env route body) =
      some next) :
    application.request config route (fun handler =>
      handler.getRecordByBody libraries codec env body) = some next := by
  simp only [step] at stepped
  split at stepped
  · exact stepped
  · cases stepped

theorem step_restart {connect : StoreDefinition → Option JavaException}
    (stepped : step libraries codec config application (.restart connect) = some next) :
    ∃ cacheFactory, CacheFactory.new connect config.stores = .ok cacheFactory ∧
      next = opened cacheFactory application.process.world.contents := by
  simp only [step] at stepped
  split at stepped
  · next cacheFactory created =>
      cases stepped
      exact ⟨cacheFactory, created, rfl⟩
  · cases stepped

end Steps

end Application

/-! ## What a request does to the stores and the schemas -/

section Requests

variable {libraries : Libraries} {handler : RecordHandler} {env : RequestEnv}

/-- Looking a schema up leaves the records alone. -/
theorem getSchema_view (libraries : Libraries) (restClient : RestClient) (registryUrl : String)
    (id : Int32) (world : World) :
    (getSchema libraries restClient registryUrl id world).2.view = world.view := by
  simp only [getSchema]
  split
  · rfl
  · split <;> rfl

/-- A lookup is a lookup of a schema at most. -/
theorem RecordHandler.retrieveRecord_world (libraries : Libraries) (codec : Codec)
    (handler : RecordHandler) (env : RequestEnv) (id : String) (process : Process) :
    (handler.retrieveRecord libraries codec env id process).2.world = process.world ∨
      ∃ schemaId, (handler.retrieveRecord libraries codec env id process).2.world =
        (getSchema libraries env.restClient handler.registryUrl schemaId process.world).2 := by
  simp only [retrieveRecord]
  split
  · exact Or.inl rfl
  · next data _ =>
      by_cases accepted : Accepted data
      · exact Or.inr ⟨readSchemaId data, by rw [renderRecord_of_accepted _ _ _ _ accepted]⟩
      · exact Or.inl (by rw [renderRecord_of_rejected _ _ _ _ accepted])
  · exact Or.inl rfl

theorem RecordHandler.getRecordByBody_world (libraries : Libraries) (codec : Codec)
    (handler : RecordHandler) (env : RequestEnv)
    (body : Except JavaException (Option (List (String × Json)))) (process : Process) :
    (handler.getRecordByBody libraries codec env body process).2.world = process.world ∨
      ∃ schemaId, (handler.getRecordByBody libraries codec env body process).2.world =
        (getSchema libraries env.restClient handler.registryUrl schemaId process.world).2 := by
  rw [getRecordByBody_process]
  split
  · exact retrieveRecord_world ..
  · exact Or.inl rfl

/-- What a creation leaves was there before, or is the accepted body. -/
theorem RecordHandler.createRecord_stored {id : String} {body value : Bytes} {process : Process}
    {location : Cell × String}
    (stored : (handler.createRecord env id body process).2.world.view location = some value) :
    process.world.view location = some value ∨ Accepted body ∧ body = value := by
  by_cases accepted : Accepted body
  · rw [createRecord_of_accepted accepted] at stored
    rcases put_spec env.faults handler.cache id body process.world with
      ⟨_, _, put⟩ | ⟨_, next, put, view, _⟩
    · rw [put] at stored
      exact Or.inl stored
    · rw [put, view] at stored
      split at stored
      · exact Or.inr ⟨accepted, Option.some.inj stored⟩
      · exact Or.inl stored
  · rcases createRecord_of_rejected accepted with ⟨text, answered⟩
    rw [answered] at stored
    exact Or.inl stored

theorem removeFrom_stored {faults : Faults} {key : String} {cache : Cache} {world : World}
    {location : Cell × String} {value : Bytes}
    (stored : (removeFrom faults key cache world).2.view location = some value) :
    world.view location = some value := by
  rcases removeFrom_spec faults key cache world with
    ⟨_, _, removed⟩ | ⟨_, next, removed, view, _⟩
  · rwa [removed] at stored
  · rw [removed, view] at stored
    split at stored
    · cases stored
    · exact stored

/-- What a record leaves was there before, or is its value in Confluent format. -/
theorem processRecord_stored {service : KafkaConsumerService} {env : Env}
    {record : ConsumerRecord} {world : World} {location : Cell × String} {value : Bytes}
    (stored : (processRecord libraries service env record world).2.view location = some value) :
    world.view location = some value ∨ record.value = some value ∧ Accepted value := by
  rcases record with ⟨key, _ | payload⟩
  · left
    cases key with
    | none => exact stored
    | some key =>
        rw [processRecord_tombstone_view] at stored
        exact tryForEach_induction
          (fun next : World => next.view location = some value →
            world.view location = some value)
          (fun cache _ next ih held => ih (removeFrom_stored held)) id stored
  · simp only [processRecord] at stored
    split at stored
    · exact Or.inl stored
    · next accepted =>
        have kept := getSchema_view libraries env.restClient service.registryUrl
          (readSchemaId payload) world
        split at stored
        · next fetched =>
            rw [fetched] at kept
            exact Or.inl (kept ▸ stored)
        · next resolved fetched =>
            rw [fetched] at kept
            split at stored
            · next store _ =>
                split at stored
                · next key =>
                    rcases put_spec env.faults store key payload resolved with
                      ⟨_, _, put⟩ | ⟨_, after, put, view, _⟩
                    · rw [put] at stored
                      exact Or.inl (kept ▸ stored)
                    · rw [put] at stored
                      have held : after.view location = some value := stored
                      rw [view] at held
                      split at held
                      · cases held
                        exact Or.inr ⟨rfl, accepted⟩
                      · exact Or.inl (kept ▸ held)
                · exact Or.inl (kept ▸ stored)
            · exact Or.inl (kept ▸ stored)

end Requests

/-! ## Stored records are in Confluent format -/

/-- Every stored value passes the checks of `retrieveRecord`. -/
def World.AllAccepted (world : World) : Prop :=
  ∀ location value, world.view location = some value → Accepted value

namespace Application

variable {libraries : Libraries} {codec : Codec} {config : AppConfig}

/-- A restart keeps what remote stores hold. -/
theorem opened_stored {cacheFactory : CacheFactory} {persisted : Cell → Records}
    {location : Cell × String} {value : Bytes}
    (stored : (opened cacheFactory persisted).process.world.view location = some value) :
    (persisted location.1).lookup location.2 = some value := by
  rcases location with ⟨_ | _, key⟩
  · cases stored
  · exact stored

/-- Every value a step leaves was there before or is in Confluent format. -/
theorem allAccepted_preserved :
    Preserved (step libraries codec config)
      fun application => application.process.world.AllAccepted := by
  intro source action target holds stepped location value stored
  have fetched : ∀ restClient id,
      (getSchema libraries restClient config.registryUrl id source.process.world).2.view
        location = some value → Accepted value := by
    intro restClient id held
    rw [getSchema_view] at held
    exact holds location value held
  cases action with
  | preload restClient id =>
      rw [step_preload stepped] at stored
      rw [preloadSchema] at stored
      refine fetched restClient id ?_
      split at stored <;> next got => rw [got]; exact stored
  | startConsumer =>
      rw [step_startConsumer stepped] at stored
      exact holds location value stored
  | message env message =>
      rw [(step_message stepped).2] at stored
      rcases processRecord_stored stored with before | ⟨_, accepted⟩
      · exact holds location value before
      · exact accepted
  | create env route id body =>
      rcases request_eq_some stepped with ⟨handler, _, rfl⟩
      rcases RecordHandler.createRecord_stored stored with before | ⟨accepted, rfl⟩
      · exact holds location value before
      · exact accepted
  | delete env route id =>
      rcases request_eq_some stepped with ⟨handler, _, rfl⟩
      rw [RecordHandler.deleteRecord_process] at stored
      exact holds location value (removeFrom_stored stored)
  | get env route id =>
      rcases request_eq_some stepped with ⟨handler, found, rfl⟩
      rcases mounted_eq_some found with ⟨store, _, rfl⟩
      rcases RecordHandler.retrieveRecord_world libraries codec _ env id _ with
        same | ⟨schemaId, same⟩
      · rw [RecordHandler.getRecord, same] at stored
        exact holds location value stored
      · rw [RecordHandler.getRecord, same] at stored
        exact fetched _ schemaId stored
  | getByBody env route body =>
      rcases request_eq_some (step_getByBody stepped) with ⟨handler, found, rfl⟩
      rcases mounted_eq_some found with ⟨store, _, rfl⟩
      rcases RecordHandler.getRecordByBody_world libraries codec _ env body _ with
        same | ⟨schemaId, same⟩
      · rw [same] at stored
        exact holds location value stored
      · rw [same] at stored
        exact fetched _ schemaId stored
  | restart connect =>
      rcases step_restart stepped with ⟨cacheFactory, _, rfl⟩
      exact holds location value (opened_stored stored)

end Application

end PushCache.Java

namespace PushCache.Sample

/-- The route of the sample. -/
def javaRoute : Java.RouteDefinition := ⟨"/users", "customers", none⟩

def appConfig (type : Java.StoreType) : Java.AppConfig where
  stores := [javaCustomers type]
  routes := [javaRoute]
  registryUrl := "http://localhost:8081/"
  cacheMaxAge := 60
  offsetReset := .earliest
  forceResetEarliest := false

/-- A codec that takes the body of a record as it is. -/
def codec : Java.Codec where
  Datum := Bytes
  read := fun _ data => .ok data
  encode := fun _ datum => .ok datum

/-- No store call fails, and the registry answers. -/
def registryUp : Java.RequestEnv := ⟨⟨fun _ => .ok (some "schema"), fun _ => none⟩, fun _ _ => none⟩

/-- No store call fails, and the registry does not answer. -/
def registryDown : Java.RequestEnv := ⟨⟨fun _ => .error ⟨"down"⟩, fun _ => none⟩, fun _ _ => none⟩

/-- The process of the sample before its first request. -/
def application (type : Java.StoreType) : Java.Application :=
  .opened (javaService type).cacheFactory fun _ => ∅

end PushCache.Sample
