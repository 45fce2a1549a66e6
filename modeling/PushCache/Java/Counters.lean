import PushCache.Java.SchemaAvailability

/-!
# The counters of the Java service

`MetricsService` registers four counters of the consumer, and two for every store
that is asked for a record.  This file counts from the outside what each is meant to
count since the process started.  All of them show exactly that in every state, and
no store has more misses than requests.
-/

namespace PushCache.Java

open PushCache.Transition

/-- The counters; those of requests have the store name as a tag. -/
inductive Counter where
  | schemaMismatchCount
  | updatesReceived
  | schemaUnroutedCount
  | tombstonesProcessed
  | requestsTotal (storeName : String)
  | requestsMiss (storeName : String)
  deriving DecidableEq

/-- What a counter shows. -/
def Counter.value (process : Process) : Counter → Nat
  | .schemaMismatchCount => process.world.metrics.schemaMismatchCount
  | .updatesReceived => process.world.metrics.updatesReceived
  | .schemaUnroutedCount => process.world.metrics.schemaUnroutedCount
  | .tombstonesProcessed => process.world.metrics.tombstonesProcessed
  | .requestsTotal storeName => process.requestsTotal storeName
  | .requestsMiss storeName => process.requestsMiss storeName

/-! ## What there is to count -/

section Records

variable (libraries : Libraries) (service : KafkaConsumerService) (env : Env) (world : World)

/-- The schema of a record in Confluent format, if it is to be had. -/
def schemaOf (value : Bytes) : Option Schema :=
  if Accepted value then
    world.resolve libraries env.restClient service.registryUrl (readSchemaId value)
  else
    none

/-- The schema of the record has no store. -/
def isUnrouted (record : ConsumerRecord) : Bool :=
  (record.value.bind (schemaOf libraries service env world)).any fun schema =>
    (service.cacheFactory.getStoreForSchema (getFullName schema)).isNone

/-- The record is put into the store of its schema: it has one, it has a key, and the
store takes it. -/
def isStored (record : ConsumerRecord) : Bool :=
  record.value.any fun value =>
    ((schemaOf libraries service env world value).bind fun schema =>
      service.cacheFactory.getStoreForSchema (getFullName schema)).any fun store =>
        record.key.any fun key => (putFault env.faults key value store).isNone

/-- The record deletes a key, from every store. -/
def isRemoved (record : ConsumerRecord) : Bool :=
  record.value.isNone && record.key.any fun key =>
    service.cacheFactory.getAllStores.all fun cache => (removeFault env.faults key cache).isNone

/-- The record is one of those a counter is meant to count. -/
def ConsumerRecord.isCounted (record : ConsumerRecord) : Counter → Bool
  | .schemaMismatchCount => record.value.any fun value => !decide (Accepted value)
  | .updatesReceived => isStored libraries service env world record
  | .schemaUnroutedCount => isUnrouted libraries service env world record
  | .tombstonesProcessed => isRemoved service env record
  | _ => false

end Records

/-- The store answers that it has nothing. -/
def isNothing : Except JavaException (Option Bytes) → Bool
  | .ok none => true
  | _ => false

namespace Application

/-- The store a request for a record is about. -/
def Action.requested? (config : AppConfig) (application : Application) : Action → Option Cache
  | .get _ route _ => (application.mounted config route).map RecordHandler.cache
  | .getByBody _ route _ => (application.mounted config route).map RecordHandler.cache
  | _ => none

/-- What the store of a request answers, once the request names a record. -/
def Action.answer? (config : AppConfig) (application : Application) :
    Action → Option (Except JavaException (Option Bytes))
  | .get env route id =>
      (application.mounted config route).map fun handler =>
        handler.cache.get env.readFaults id application.process.world
  | .getByBody env route body =>
      (application.mounted config route).bind fun handler =>
        (handler.requestedId body).map fun id =>
          handler.cache.get env.readFaults id application.process.world
  | _ => none

/-- The store of a request answers that it has nothing. -/
def Action.isMiss (config : AppConfig) (application : Application) (action : Action) : Bool :=
  (action.answer? config application).any isNothing

/-- The action is one of those a counter is meant to count. -/
def Action.isCounted (libraries : Libraries) (config : AppConfig) (application : Application)
    (action : Action) : Counter → Bool
  | .requestsTotal storeName =>
      (action.requested? config application).any fun cache => cache.definition.name = storeName
  | .requestsMiss storeName =>
      ((action.requested? config application).any fun cache =>
        cache.definition.name = storeName) && action.isMiss config application
  | counter =>
      match action with
      | .message env delivered =>
          (ConsumerRecord.ofMessage libraries delivered).isCounted libraries
            (config.consumer application.cacheFactory) env application.process.world counter
      | _ => false

/-- How often each kind of action has occurred since the process started. -/
abbrev Tally := Counter → Nat

/-- The tally after an action. -/
def Tally.after (libraries : Libraries) (config : AppConfig) (application : Application)
    (action : Action) (tally : Tally) : Tally :=
  match action with
  | .restart _ => fun _ => 0
  | action => fun counter =>
      tally counter + if action.isCounted libraries config application counter then 1 else 0

/-- The service next to the tally. -/
structure Audited where
  application : Application
  tally : Tally

/-- The transition system of the service with the tally. -/
def auditedStep (libraries : Libraries) (codec : Codec) (config : AppConfig) :
    Step Audited Action
  | audited, action =>
      (step libraries codec config audited.application action).map fun next =>
        ⟨next, audited.tally.after libraries config audited.application action⟩

/-- Every counter shows its tally, and no store has more misses than requests. -/
structure Audited.Truthful (audited : Audited) : Prop where
  exactly : ∀ counter : Counter,
    counter.value audited.application.process = audited.tally counter
  fewer : ∀ storeName : String, audited.application.process.requestsMiss storeName ≤
    audited.application.process.requestsTotal storeName

end Application

/-! ## One record -/

section Records

variable {libraries : Libraries} {service : KafkaConsumerService} {env : Env}

theorem getSchema_metrics (libraries : Libraries) (restClient : RestClient)
    (registryUrl : String) (id : Int32) (world : World) :
    (getSchema libraries restClient registryUrl id world).2.metrics = world.metrics := by
  simp only [getSchema]
  split
  · rfl
  · split <;> rfl

/-- The counters of the consumer after a record: each has moved by what it counts. -/
def metricsAfter (libraries : Libraries) (service : KafkaConsumerService) (env : Env)
    (record : ConsumerRecord) (world : World) : Metrics where
  updatesReceived := world.metrics.updatesReceived +
    if isStored libraries service env world record then 1 else 0
  tombstonesProcessed := world.metrics.tombstonesProcessed +
    if isRemoved service env record then 1 else 0
  schemaMismatchCount := world.metrics.schemaMismatchCount +
    if record.value.any fun value => !decide (Accepted value) then 1 else 0
  schemaUnroutedCount := world.metrics.schemaUnroutedCount +
    if isUnrouted libraries service env world record then 1 else 0
  consumerLag := world.metrics.consumerLag

/-- A tombstone counts once all removals have worked. -/
theorem processRecord_metrics_of_tombstone (key : Option String) (world : World) :
    (processRecord libraries service env ⟨key, none⟩ world).2.metrics =
      metricsAfter libraries service env ⟨key, none⟩ world := by
  cases key with
  | none => rfl
  | some key =>
      have same : (tryForEach (removeFrom env.faults key) service.cacheFactory.getAllStores
          world).2.metrics = world.metrics :=
        congrArg (·.2.1) (removeAll_rest env.faults key _ world)
      have completes : (∃ next, tryForEach (removeFrom env.faults key)
          service.cacheFactory.getAllStores world = (.ok (), next)) ↔
            ∀ cache ∈ service.cacheFactory.getAllStores,
              removeThrows env.faults key cache = false :=
        (removeFrom_empties env.faults key).tryForEach_ok_iff
      have counted : isRemoved service env ⟨some key, none⟩ = true ↔
          ∃ next, tryForEach (removeFrom env.faults key) service.cacheFactory.getAllStores
            world = (.ok (), next) := by
        rw [completes]
        simp [isRemoved, removeThrows_eq_false_iff]
      simp only [processRecord, metricsAfter]
      rcases removed : tryForEach (removeFrom env.faults key) service.cacheFactory.getAllStores
        world with ⟨_ | _, next⟩
      · replace same : next.metrics = world.metrics := by rwa [removed] at same
        have uncounted : isRemoved service env ⟨some key, none⟩ = false := by
          rw [Bool.eq_false_iff]
          intro holds
          rcases counted.mp holds with ⟨after, completed⟩
          cases removed.symm.trans completed
        simp [uncounted, same, isStored, isUnrouted]
      · replace same : next.metrics = world.metrics := by rwa [removed] at same
        have holds := counted.mpr ⟨next, removed⟩
        simp [holds, same, isStored, isUnrouted, World.incrementTombstonesProcessed]

/-- A record with a value counts as malformed, as unrouted, as put, or not at all. -/
theorem processRecord_metrics_of_value (key : Option String) (value : Bytes) (world : World) :
    (processRecord libraries service env ⟨key, some value⟩ world).2.metrics =
      metricsAfter libraries service env ⟨key, some value⟩ world := by
  by_cases accepted : Accepted value
  · have kept := getSchema_metrics libraries env.restClient service.registryUrl
      (readSchemaId value) world
    have result := getSchema_result libraries env.restClient service.registryUrl
      (readSchemaId value) world
    have schemaEq : schemaOf libraries service env world value =
        world.resolve libraries env.restClient service.registryUrl (readSchemaId value) :=
      if_pos accepted
    simp only [processRecord, if_neg accepted]
    rcases got : getSchema libraries env.restClient service.registryUrl (readSchemaId value)
      world with ⟨_ | schema, resolved⟩
    · rw [got] at result
      replace kept : resolved.metrics = world.metrics := by rwa [got] at kept
      have missing : schemaOf libraries service env world value = none :=
        schemaEq.trans result.symm
      simp [metricsAfter, isStored, isUnrouted, isRemoved, missing, accepted, kept]
    · rw [got] at result
      replace kept : resolved.metrics = world.metrics := by rwa [got] at kept
      have found : schemaOf libraries service env world value = some schema :=
        schemaEq.trans result.symm
      cases routed : service.cacheFactory.getStoreForSchema (getFullName schema) with
      | none =>
          simp [metricsAfter, isStored, isUnrouted, isRemoved, found, accepted, kept, routed,
            World.incrementSchemaUnroutedCount]
      | some store =>
          cases key with
          | none => simp [metricsAfter, isStored, isUnrouted, isRemoved, found, accepted, kept,
              routed]
          | some key =>
              have same : (store.put env.faults key value resolved).2.metrics =
                  resolved.metrics := congrArg (·.2.1) (put_rest env.faults store key value _)
              rcases put_spec env.faults store key value resolved with
                ⟨thrown, faulted, put⟩ | ⟨healthy, next, put, _⟩
              · simp [metricsAfter, isStored, isUnrouted, isRemoved, found, accepted, kept,
                  routed, put, faulted]
              · replace same : next.metrics = resolved.metrics := by rwa [put] at same
                simp [metricsAfter, isStored, isUnrouted, isRemoved, found, accepted, kept,
                  routed, put, healthy, World.incrementUpdatesReceived, same]
  · have missing : schemaOf libraries service env world value = none := if_neg accepted
    simp only [processRecord, if_pos (not_not.mp accepted)]
    simp [metricsAfter, isStored, isUnrouted, isRemoved, missing, accepted,
      World.incrementSchemaMismatchCount]

theorem processRecord_metrics (libraries : Libraries) (service : KafkaConsumerService)
    (env : Env) (record : ConsumerRecord) (world : World) :
    (processRecord libraries service env record world).2.metrics =
      metricsAfter libraries service env record world := by
  rcases record with ⟨key, _ | value⟩
  · exact processRecord_metrics_of_tombstone key world
  · exact processRecord_metrics_of_value key value world

end Records

/-! ## One request -/

section Requests

variable {libraries : Libraries} {codec : Codec} {handler : RecordHandler} {env : RequestEnv}

theorem Counter.value_incrementRequestsTotal (counter : Counter) (process : Process)
    (storeName : String) :
    counter.value (process.incrementRequestsTotal storeName) =
      counter.value process + if counter = .requestsTotal storeName then 1 else 0 := by
  cases counter with
  | requestsTotal other =>
      by_cases same : other = storeName
      · simp [value, Process.incrementRequestsTotal, same]
      · simp [value, Process.incrementRequestsTotal, same]
  | _ => rfl

theorem Counter.value_incrementRequestsMiss (counter : Counter) (process : Process)
    (storeName : String) :
    counter.value (process.incrementRequestsMiss storeName) =
      counter.value process + if counter = .requestsMiss storeName then 1 else 0 := by
  cases counter with
  | requestsMiss other =>
      by_cases same : other = storeName
      · simp [value, Process.incrementRequestsMiss, same]
      · simp [value, Process.incrementRequestsMiss, same]
  | _ => rfl

/-- Another world with the same metrics shows the same counters. -/
theorem Counter.value_of_metrics (counter : Counter) {process : Process} {world : World}
    (same : world.metrics = process.world.metrics) :
    counter.value { process with world } = counter.value process := by
  cases counter <;> simp [value, same]

/-- A lookup counts a miss exactly when the store answers that it has nothing. -/
theorem RecordHandler.retrieveRecord_value (counter : Counter) (id : String)
    (process : Process) :
    counter.value (handler.retrieveRecord libraries codec env id process).2 =
      counter.value process +
        if counter = .requestsMiss handler.cache.definition.name ∧
          isNothing (handler.cache.get env.readFaults id process.world) = true then 1 else 0 := by
  simp only [retrieveRecord]
  rcases handler.cache.get env.readFaults id process.world with thrown | (_ | data)
  · simp [isNothing]
  · simp [isNothing, Counter.value_incrementRequestsMiss]
  · have same : (renderRecord libraries codec handler env.restClient data process.world).2.metrics =
        process.world.metrics := by
      by_cases accepted : Accepted data
      · rw [renderRecord_of_accepted _ _ _ _ accepted]
        exact getSchema_metrics ..
      · rw [renderRecord_of_rejected _ _ _ _ accepted]
    simp [isNothing, counter.value_of_metrics same]

end Requests

/-! ## The steps -/

namespace Application

variable {libraries : Libraries} {codec : Codec} {config : AppConfig}
  {application next : Application} {action : Action}

/-- A request counts for its store, and as a miss of it when there is nothing. -/
theorem isCounted_of_requested {cache : Cache}
    (requested : action.requested? config application = some cache) (counter : Counter) :
    action.isCounted libraries config application counter = true ↔
      counter = .requestsTotal cache.definition.name ∨
        counter = .requestsMiss cache.definition.name ∧
          action.isMiss config application = true := by
  cases counter with
  | requestsTotal storeName =>
      simp only [Action.isCounted, requested, Option.any_some, decide_eq_true_eq,
        Counter.requestsTotal.injEq, reduceCtorEq, false_and, or_false]
      exact eq_comm
  | requestsMiss storeName =>
      simp only [Action.isCounted, requested, Option.any_some, Bool.and_eq_true,
        decide_eq_true_eq, Counter.requestsMiss.injEq, reduceCtorEq, false_or]
      exact and_congr_left' eq_comm
  | _ => cases action <;> first | cases requested | simp [Action.isCounted]

/-- What a request adds to the counters is what it counts. -/
theorem value_of_request {cache : Cache}
    (requested : action.requested? config application = some cache) (counter : Counter) :
    (counter.value application.process +
        if counter = .requestsTotal cache.definition.name then 1 else 0) +
        (if counter = .requestsMiss cache.definition.name ∧
            action.isMiss config application = true then 1 else 0) =
      counter.value application.process +
        if action.isCounted libraries config application counter then 1 else 0 := by
  simp only [isCounted_of_requested requested]
  by_cases total : counter = .requestsTotal cache.definition.name
  · simp [total]
  · simp only [total, if_false, false_or, Nat.add_zero]

/-- One step of a process moves every counter by what it counts. -/
theorem step_value (continues : action.Continues)
    (stepped : step libraries codec config application action = some next) (counter : Counter) :
    counter.value next.process = counter.value application.process +
      if action.isCounted libraries config application counter then 1 else 0 := by
  cases action with
  | preload restClient id =>
      rw [step_preload stepped, counter.value_of_metrics]
      · cases counter <;> rfl
      · have same := getSchema_metrics libraries restClient config.registryUrl id
          application.process.world
        rw [preloadSchema]
        split <;> next got => rwa [got] at same
  | startConsumer =>
      rw [step_startConsumer stepped]
      cases counter <;> rfl
  | message env delivered =>
      rw [(step_message stepped).2]
      have metrics := processRecord_metrics libraries
        (config.consumer application.cacheFactory) env (.ofMessage libraries delivered)
        application.process.world
      cases counter with
      | schemaMismatchCount => exact congrArg Metrics.schemaMismatchCount metrics
      | updatesReceived => exact congrArg Metrics.updatesReceived metrics
      | schemaUnroutedCount => exact congrArg Metrics.schemaUnroutedCount metrics
      | tombstonesProcessed => exact congrArg Metrics.tombstonesProcessed metrics
      | requestsTotal storeName => rfl
      | requestsMiss storeName => rfl
  | create env route id body =>
      rcases request_eq_some stepped with ⟨handler, _, rfl⟩
      have same : counter.value (handler.createRecord env id body application.process).2 =
          counter.value application.process := by
        by_cases accepted : Accepted body
        · rw [RecordHandler.createRecord_of_accepted accepted]
          exact counter.value_of_metrics (congrArg (·.2.1) (put_rest ..))
        · rcases RecordHandler.createRecord_of_rejected accepted with ⟨text, answered⟩
          rw [answered]
      rw [same]
      cases counter <;> rfl
  | delete env route id =>
      rcases request_eq_some stepped with ⟨handler, _, rfl⟩
      have same : counter.value (handler.deleteRecord env id application.process).2 =
          counter.value application.process := by
        rw [RecordHandler.deleteRecord_process]
        exact counter.value_of_metrics (congrArg (·.2.1) (removeFrom_rest ..))
      rw [same]
      cases counter <;> rfl
  | get env route id =>
      rcases request_eq_some stepped with ⟨handler, found, rfl⟩
      rw [RecordHandler.getRecord, RecordHandler.retrieveRecord_value,
        Counter.value_incrementRequestsTotal]
      have requested : (Action.get env route id).requested? config application =
          some handler.cache := by simp only [Action.requested?, found, Option.map_some]
      have missed : (Action.get env route id).isMiss config application =
          isNothing (handler.cache.get env.readFaults id application.process.world) := by
        simp only [Action.isMiss, Action.answer?, found, Option.map_some, Option.any_some]
      rw [← value_of_request requested, missed]
      rfl
  | getByBody env route body =>
      rcases request_eq_some (step_getByBody stepped) with ⟨handler, found, rfl⟩
      have requested : (Action.getByBody env route body).requested? config application =
          some handler.cache := by simp only [Action.requested?, found, Option.map_some]
      have missed : (Action.getByBody env route body).isMiss config application =
          (handler.requestedId body).any fun id =>
            isNothing (handler.cache.get env.readFaults id application.process.world) := by
        simp only [Action.isMiss, Action.answer?, found, Option.bind_some, Option.any_map]
      rw [← value_of_request requested, missed, RecordHandler.getRecordByBody_process]
      cases handler.requestedId body with
      | none =>
          have nothing : ¬(counter = .requestsMiss handler.cache.definition.name ∧
              Option.any (fun id => isNothing (handler.cache.get env.readFaults id
                application.process.world)) none = true) := fun both => by cases both.2
          rw [Counter.value_incrementRequestsTotal, if_neg nothing]
          rfl
      | some id =>
          rw [RecordHandler.retrieveRecord_value, Counter.value_incrementRequestsTotal]
          rfl
  | restart connect => exact continues.elim

/-- A miss is a request for the same store. -/
theorem isCounted_requestsTotal {storeName : String}
    (missed : action.isCounted libraries config application (.requestsMiss storeName) = true) :
    action.isCounted libraries config application (.requestsTotal storeName) = true := by
  simp only [Action.isCounted, Bool.and_eq_true] at missed
  exact missed.1

/-- A process that has just been opened has counted nothing. -/
theorem truthful_opened (cacheFactory : CacheFactory) (persisted : Cell → Records) :
    Audited.Truthful ⟨opened cacheFactory persisted, fun _ => 0⟩ := by
  constructor
  · intro counter
    cases counter <;> rfl
  · exact fun _ => le_rfl

/-- A step keeps the counters truthful. -/
theorem truthful_preserved :
    Preserved (auditedStep libraries codec config) Audited.Truthful := by
  intro source action target truthful stepped
  rcases Option.map_eq_some_iff.mp stepped with ⟨application, applicationStep, rfl⟩
  by_cases continues : action.Continues
  · have moved := step_value continues applicationStep
    have tallied : ∀ counter, source.tally.after libraries config source.application action
        counter = source.tally counter +
          if action.isCounted libraries config source.application counter then 1 else 0 := by
      intro counter
      cases action with
      | restart connect => exact continues.elim
      | _ => rfl
    constructor
    · intro counter
      rw [moved counter, truthful.exactly counter]
      exact (tallied counter).symm
    · intro storeName
      have misses := moved (.requestsMiss storeName)
      have requests := moved (.requestsTotal storeName)
      have fewer := truthful.fewer storeName
      simp only [Counter.value] at misses requests
      rw [misses, requests]
      by_cases missed : action.isCounted libraries config source.application
          (.requestsMiss storeName) = true
      · rw [if_pos missed, if_pos (isCounted_requestsTotal missed)]
        exact Nat.succ_le_succ fewer
      · rw [if_neg missed]
        exact fewer.trans (Nat.le_add_right _ _)
  · cases action with
    | restart connect =>
        rcases step_restart applicationStep with ⟨cacheFactory, _, rfl⟩
        exact truthful_opened cacheFactory _
    | _ => exact absurd trivial continues

/-- In every state of every run, whatever the stores and the registry answer: the
counter of malformed records, of records put into a store, of records without a
store and of tombstones removed from all stores, and for every store the counters of
requests and of misses, show how often that has happened since the process started,
and no store has more misses than requests. -/
theorem java_counters_truthful (cacheFactory : CacheFactory) (persisted : Cell → Records)
    {actions : List Action} {final : Audited}
    (ran : run (auditedStep libraries codec config)
      ⟨opened cacheFactory persisted, fun _ => 0⟩ actions = some final) :
    final.Truthful :=
  truthful_preserved.of_run (truthful_opened cacheFactory persisted) ran

end Application

end PushCache.Java

namespace PushCache.Sample

open PushCache.Java.Application
open PushCache.Transition

/-- A record, a malformed one, and a lookup that finds and one that misses. -/
def counted : List Java.Application.Action :=
  [.startConsumer, .message registryUp.toEnv (record 1),
    .message registryUp.toEnv ⟨some key, some []⟩, .get registryUp javaRoute "k",
    .get registryUp javaRoute "other"]

theorem java_counters_truthful_of_counted :
    ∃ final, run (auditedStep (libraries (.record "customer" "schema")) codec
        (appConfig .inMemory)) ⟨application .inMemory, fun _ => 0⟩ counted = some final ∧
      final.application.process.world.metrics.updatesReceived = 1 ∧
      final.application.process.world.metrics.schemaMismatchCount = 1 ∧
      final.application.process.requestsTotal "customers" = 2 ∧
      final.application.process.requestsMiss "customers" = 1 ∧ final.Truthful := by
  have ran : ∃ final, run (auditedStep (libraries (.record "customer" "schema")) codec
      (appConfig .inMemory)) ⟨application .inMemory, fun _ => 0⟩ counted = some final ∧
      final.application.process.world.metrics.updatesReceived = 1 ∧
      final.application.process.world.metrics.schemaMismatchCount = 1 ∧
      final.application.process.requestsTotal "customers" = 2 ∧
      final.application.process.requestsMiss "customers" = 1 := ⟨_, rfl, rfl, rfl, rfl, rfl⟩
  rcases ran with ⟨final, ran, updates, mismatches, requests, misses⟩
  exact ⟨final, ran, updates, mismatches, requests, misses,
    java_counters_truthful _ (fun _ => ∅) ran⟩

end PushCache.Sample
