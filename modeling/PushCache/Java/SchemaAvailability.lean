import PushCache.Java.Application

/-!
# Schemas of stored records in the Java service

A reader of the Java service fetches the schema it misses, and the process keeps it.
So a stored record is answered with the missing schema only while its schema is
neither cached nor to be had from the registry, and a record that has been decoded
once is decoded for as long as the process lives, whatever the registry does.
-/

namespace PushCache.Java

open PushCache.Transition

/-- The schema a lookup ends with: the cached one, or the one the registry answers. -/
def World.resolve (libraries : Libraries) (restClient : RestClient) (registryUrl : String)
    (id : Int32) (world : World) : Option Schema :=
  (world.schemaCache.lookup id).or (fetchSchema libraries restClient registryUrl id).toOption

/-- The cached schemas are still there. -/
def World.KeepsSchemas (world next : World) : Prop :=
  ∀ id schema, world.schemaCache.lookup id = some schema →
    next.schemaCache.lookup id = some schema

section Schemas

variable {libraries : Libraries} {restClient : RestClient} {registryUrl : String} {id : Int32}
  {world : World}

theorem getSchema_result (libraries : Libraries) (restClient : RestClient)
    (registryUrl : String) (id : Int32) (world : World) :
    (getSchema libraries restClient registryUrl id world).1.toOption =
      world.resolve libraries restClient registryUrl id := by
  simp only [getSchema, World.resolve]
  cases world.schemaCache.lookup id with
  | some schema => rfl
  | none =>
      rw [Option.none_or]
      cases fetchSchema libraries restClient registryUrl id <;> rfl

/-- A lookup leaves the schema it ends with in the cache. -/
theorem getSchema_lookup (other : Int32) :
    (getSchema libraries restClient registryUrl id world).2.schemaCache.lookup other =
      if other = id then world.resolve libraries restClient registryUrl id
      else world.schemaCache.lookup other := by
  simp only [getSchema, World.resolve]
  cases cached : world.schemaCache.lookup id with
  | some schema =>
      by_cases here : other = id
      · rw [if_pos here, here]
        exact cached
      · rw [if_neg here]
  | none =>
      rw [Option.none_or]
      cases fetchSchema libraries restClient registryUrl id with
      | error thrown =>
          by_cases here : other = id
          · rw [if_pos here, here]
            exact cached
          · rw [if_neg here]
      | ok schema =>
          by_cases here : other = id
          · rw [if_pos here, here]
            exact Finmap.lookup_insert _
          · rw [if_neg here]
            exact Finmap.lookup_insert_of_ne _ here

theorem getSchema_keepsSchemas :
    world.KeepsSchemas (getSchema libraries restClient registryUrl id world).2 := by
  intro other schema cached
  rw [getSchema_lookup]
  split
  · next here =>
      rw [World.resolve, ← here, cached]
      rfl
  · exact cached

/-- A cached schema needs no registry. -/
theorem World.resolve_of_cached {schema : Schema}
    (cached : world.schemaCache.lookup id = some schema) :
    world.resolve libraries restClient registryUrl id = some schema := by
  rw [resolve, cached]
  rfl

theorem World.KeepsSchemas.of_eq {next : World} (same : next.schemaCache = world.schemaCache) :
    world.KeepsSchemas next := by
  intro id schema cached
  rwa [same]

theorem World.KeepsSchemas.trans {first second third : World}
    (before : first.KeepsSchemas second) (after : second.KeepsSchemas third) :
    first.KeepsSchemas third :=
  fun id schema cached => after id schema (before id schema cached)

end Schemas

namespace RecordHandler

variable {libraries : Libraries} {codec : Codec} {handler : RecordHandler} {env : RequestEnv}
  {id : String} {process : Process}

theorem getRecord_of_error {thrown : JavaException}
    (got : handler.cache.get env.readFaults id process.world = .error thrown) :
    (handler.getRecord libraries codec env id process).1 = .error thrown := by
  simp only [getRecord, retrieveRecord, Process.incrementRequestsTotal_world, got]

theorem getRecord_of_absent (got : handler.cache.get env.readFaults id process.world = .ok none) :
    (handler.getRecord libraries codec env id process).1 =
      .ok (.message 404 "User not found in dynamic cache") := by
  simp only [getRecord, retrieveRecord, Process.incrementRequestsTotal_world, got]

/-- A record that is there is answered with what the lookup of its schema ends with. -/
theorem getRecord_of_framed (libraries : Libraries) (codec : Codec) {value data : Bytes}
    {schemaId : UInt32}
    (got : handler.cache.get env.readFaults id process.world = .ok (some value))
    (framed : Framed value schemaId data) :
    (handler.getRecord libraries codec env id process).1 =
        .ok (match process.world.resolve libraries env.restClient handler.registryUrl
            schemaId.toInt32 with
          | none => .message 404 "Schema not found in cache"
          | some schema => handler.answerDatum codec schema data) ∧
      (handler.getRecord libraries codec env id process).2.world =
        (getSchema libraries env.restClient handler.registryUrl schemaId.toInt32
          process.world).2 := by
  have accepted : Accepted value := (accepted_iff value).mpr ⟨schemaId, data, framed⟩
  rcases readSchemaId_of_framed framed with ⟨idEq, dataEq⟩
  have signed : readSchemaId value = schemaId.toInt32 := by
    rw [← idEq]
    rfl
  simp only [getRecord, retrieveRecord, Process.incrementRequestsTotal_world, got,
    renderRecord_of_accepted _ _ _ _ accepted, signed, dataEq, ← getSchema_result]
  refine ⟨?_, trivial⟩
  cases (getSchema libraries env.restClient handler.registryUrl schemaId.toInt32
    process.world).1 <;> rfl

end RecordHandler

/-- Handling a record forgets no schema. -/
theorem processRecord_keepsSchemas (libraries : Libraries) (service : KafkaConsumerService)
    (env : Env) (record : ConsumerRecord) (world : World) :
    world.KeepsSchemas (processRecord libraries service env record world).2 := by
  rcases record with ⟨key, _ | value⟩
  · cases key with
    | none => exact fun _ _ cached => cached
    | some key =>
        have same : (tryForEach (removeFrom env.faults key) service.cacheFactory.getAllStores
            world).2.schemaCache = world.schemaCache :=
          congrArg Prod.fst (removeAll_rest env.faults key _ world)
        simp only [processRecord]
        split <;> next removed =>
          rw [removed] at same
          exact .of_eq same
  · have fetched : world.KeepsSchemas
        (getSchema libraries env.restClient service.registryUrl (readSchemaId value) world).2 :=
      getSchema_keepsSchemas
    simp only [processRecord]
    split
    · exact fun _ _ cached => cached
    · split
      · next got => rwa [got] at fetched
      · next resolved got =>
          rw [got] at fetched
          split
          · next store _ =>
              split
              · next key =>
                  have same : (store.put env.faults key value resolved).2.schemaCache =
                      resolved.schemaCache :=
                    congrArg Prod.fst (put_rest env.faults store key value resolved)
                  split <;> next stored =>
                    rw [stored] at same
                    exact fetched.trans (.of_eq same)
              · exact fetched
          · exact fetched

namespace Application

variable {libraries : Libraries} {codec : Codec} {config : AppConfig}
  {application next : Application} {action : Action}

/-- The action goes on in the same process. -/
def Action.Continues : Action → Prop
  | .restart _ => False
  | _ => True

/-- Only a restart forgets a schema. -/
theorem step_keepsSchemas (continues : action.Continues)
    (stepped : step libraries codec config application action = some next) :
    application.process.world.KeepsSchemas next.process.world := by
  have same : ∀ {world : World}, world.KeepsSchemas world := fun _ _ cached => cached
  cases action with
  | preload restClient id =>
      rw [step_preload stepped, preloadSchema]
      have fetched : application.process.world.KeepsSchemas
          (getSchema libraries restClient config.registryUrl id application.process.world).2 :=
        getSchema_keepsSchemas
      split <;> next got => rwa [got] at fetched
  | startConsumer =>
      rw [step_startConsumer stepped]
      exact same
  | message env message =>
      rw [(step_message stepped).2]
      exact processRecord_keepsSchemas libraries _ env _ application.process.world
  | create env route id body =>
      rcases request_eq_some stepped with ⟨handler, _, rfl⟩
      by_cases accepted : Accepted body
      · rw [RecordHandler.createRecord_of_accepted accepted]
        exact .of_eq (congrArg Prod.fst (put_rest ..))
      · rcases RecordHandler.createRecord_of_rejected accepted with ⟨text, answered⟩
        rw [answered]
        exact same
  | delete env route id =>
      rcases request_eq_some stepped with ⟨handler, _, rfl⟩
      rw [RecordHandler.deleteRecord_process]
      exact .of_eq (congrArg Prod.fst (removeFrom_rest ..))
  | get env route id =>
      rcases request_eq_some stepped with ⟨handler, _, rfl⟩
      rw [RecordHandler.getRecord]
      rcases RecordHandler.retrieveRecord_world libraries codec handler env id _ with
        unchanged | ⟨schemaId, fetched⟩
      · rw [unchanged]
        exact same
      · rw [fetched]
        exact getSchema_keepsSchemas
  | getByBody env route body =>
      rcases request_eq_some (step_getByBody stepped) with ⟨handler, _, rfl⟩
      rcases RecordHandler.getRecordByBody_world libraries codec handler env body _ with
        unchanged | ⟨schemaId, fetched⟩
      · rw [unchanged]
        exact same
      · rw [fetched]
        exact getSchema_keepsSchemas
  | restart connect => exact continues.elim

/-- A process that goes on forgets no schema. -/
theorem keepsSchemas_of_run {actions : List Action}
    (continues : ∀ action ∈ actions, action.Continues)
    (ran : run (step libraries codec config) application actions = some next) :
    application.process.world.KeepsSchemas next.process.world := by
  induction actions generalizing application with
  | nil =>
      cases ran
      exact fun _ _ cached => cached
  | cons action actions ih =>
      rcases Option.bind_eq_some_iff.mp ran with ⟨middle, stepped, rest⟩
      have first := step_keepsSchemas (continues action List.mem_cons_self) stepped
      exact first.trans (ih (fun other member =>
        continues other (List.mem_cons_of_mem action member)) rest)

/-- In every state of every run that starts on records in Confluent format, whatever
the stores, the registry and the backends answer: a lookup passes on what its store
throws, is a miss exactly when the store answers that there is nothing, and answers
any record with its schema, or with the missing schema exactly when this is neither
cached nor to be fetched at that moment.  With its schema, a record whose body cannot be
decoded is answered with the error of that, status 500 (`answerDatum`).  From the first
answer with a schema on, every lookup in this process ends with that schema, whatever
the registry answers. -/
theorem reader_availability {cacheFactory : CacheFactory} {persisted : Cell → Records}
    {actions : List Action}
    (accepted : ∀ cell key value, (persisted cell).lookup key = some value → Accepted value)
    (ran : run (step libraries codec config) (opened cacheFactory persisted) actions =
      some application)
    {route : RouteDefinition} {handler : RecordHandler}
    (found : application.mounted config route = some handler) (env : RequestEnv) (id : String) :
    match handler.cache.get env.readFaults id application.process.world with
    | .error thrown =>
        (handler.getRecord libraries codec env id application.process).1 = .error thrown
    | .ok none =>
        (handler.getRecord libraries codec env id application.process).1 =
          .ok (.message 404 "User not found in dynamic cache")
    | .ok (some value) => ∃ schemaId data, Framed value schemaId data ∧
        match application.process.world.resolve libraries env.restClient config.registryUrl
          schemaId.toInt32 with
        | none => (handler.getRecord libraries codec env id application.process).1 =
            .ok (.message 404 "Schema not found in cache")
        | some schema =>
            (handler.getRecord libraries codec env id application.process).1 =
                .ok (handler.answerDatum codec schema data) ∧
              ∀ later final, (∀ action ∈ later, action.Continues) →
                run (step libraries codec config) application (.get env route id :: later) =
                    some final →
                  ∀ restClient, final.process.world.resolve libraries restClient
                    config.registryUrl schemaId.toInt32 = some schema := by
  have allAccepted : application.process.world.AllAccepted := by
    refine allAccepted_preserved.of_run ?_ ran
    intro location value stored
    exact accepted location.1 location.2 value (opened_stored stored)
  rcases mounted_eq_some found with ⟨store, _, rfl⟩
  cases got : (config.handler route store).cache.get env.readFaults id
      application.process.world with
  | error thrown => exact RecordHandler.getRecord_of_error got
  | ok held =>
      cases held with
      | none => exact RecordHandler.getRecord_of_absent got
      | some value =>
          rcases (accepted_iff value).mp (allAccepted _ value (Cache.get_of_ok got)) with
            ⟨schemaId, data, framed⟩
          rcases RecordHandler.getRecord_of_framed libraries codec got framed with ⟨answered, left⟩
          refine ⟨schemaId, data, framed, ?_⟩
          cases resolved : application.process.world.resolve libraries env.restClient
              config.registryUrl schemaId.toInt32 with
          | none =>
              rw [answered]
              simp only [AppConfig.handler, resolved]
          | some schema =>
              constructor
              · rw [answered]
                simp only [AppConfig.handler, resolved]
              · intro later final continues ranLater restClient
                rcases Option.bind_eq_some_iff.mp ranLater with ⟨middle, stepped, rest⟩
                have answers : step libraries codec config application (.get env route id) =
                    some { application with
                      process := ((config.handler route store).getRecord libraries codec env id
                        application.process).2 } := by
                  simp only [step, request, found, Option.map_some]
                obtain rfl := Option.some.inj (answers.symm.trans stepped)
                refine World.resolve_of_cached (keepsSchemas_of_run continues rest _ _ ?_)
                rw [left, getSchema_lookup, if_pos rfl]
                exact resolved

end Application

end PushCache.Java

namespace PushCache.Sample

open PushCache.Transition

/-- A record that is posted, read once and then read without a registry. -/
theorem reader_availability_of_posted :
    ∃ posted final, run (Java.Application.step (libraries (.record "customer" "schema")) codec
        (appConfig .inMemory)) (application .inMemory)
          [.create registryUp javaRoute "k" (payload 1)] = some posted ∧
      run (Java.Application.step (libraries (.record "customer" "schema")) codec
        (appConfig .inMemory)) posted
          [.get registryUp javaRoute "k", .get registryDown javaRoute "k"] = some final ∧
      final.process.world.resolve (libraries (.record "customer" "schema"))
        registryDown.restClient "http://localhost:8081/" 7 =
          some (.record "customer" "schema") := by
  have posted : ∃ posted, run (Java.Application.step (libraries (.record "customer" "schema"))
      codec (appConfig .inMemory)) (application .inMemory)
        [.create registryUp javaRoute "k" (payload 1)] = some posted ∧
      posted.mounted (appConfig .inMemory) javaRoute =
        some ((appConfig .inMemory).handler javaRoute ⟨javaCustomers .inMemory⟩) ∧
      Java.Cache.get registryUp.readFaults ⟨javaCustomers .inMemory⟩ "k" posted.process.world =
        .ok (some (payload 1)) ∧
      posted.process.world.resolve (libraries (.record "customer" "schema"))
        registryUp.restClient "http://localhost:8081/" 7 = some (.record "customer" "schema") ∧
      ∃ final, run (Java.Application.step (libraries (.record "customer" "schema")) codec
        (appConfig .inMemory)) posted
          [.get registryUp javaRoute "k", .get registryDown javaRoute "k"] = some final :=
    ⟨_, rfl, rfl, rfl, rfl, _, rfl⟩
  rcases posted with ⟨posted, ran, mounted, got, resolved, final, ranLater⟩
  have available := Java.Application.reader_availability (fun _ _ _ held => by cases held) ran
    mounted registryUp "k"
  simp only [Java.AppConfig.handler, got] at available
  rcases available with ⟨schemaId, data, framed, answered⟩
  obtain rfl : (7 : UInt32) = schemaId :=
    (Framed.unique ⟨0, 0, 0, 7, rfl, rfl⟩ framed).1
  have signed : (7 : UInt32).toInt32 = 7 := rfl
  simp only [appConfig, signed, resolved] at answered
  refine ⟨posted, final, ran, ranLater, answered.2 [.get registryDown javaRoute "k"] final ?_
    ranLater registryDown.restClient⟩
  intro action member
  obtain rfl := List.mem_singleton.mp member
  trivial

end PushCache.Sample
