import PushCache.Concurrency.Join
import PushCache.RegistryRequests
import PushCache.StartupTools

/-!
# The start-up checks

`run_startup_checks` checks the schema registry, the Kafka topic and every Redis store,
each in a retry loop of its own, and joins the loops.  `MyState::new` opens no store
before they have all passed.
-/

namespace PushCache

open PushCache.Concurrency PushCache.Retry PushCache.Transition

/-! ## The three checks -/

/-- The metadata of a topic, as far as the check reads it. -/
structure TopicMetadata where
  name : String
  error : Option String
  partitions : List Int32

/-- A Kafka client: its creation, and what it fetches about a topic. -/
structure KafkaClient where
  create : String → Except String Unit
  fetchMetadata : String → String → Except String (List TopicMetadata)

/-- `check_kafka_metadata`. -/
def checkKafkaMetadata (client : KafkaClient) (config : MyKafkaConfig) : Except MyError Unit :=
  match getBrokerString config with
  | .error error => .error error
  | .ok brokers =>
      match client.create brokers with
      | .error error => .error (.kafkaError error)
      | .ok _ =>
          match client.fetchMetadata brokers config.topic with
          | .error error => .error (.kafkaError error)
          | .ok topics =>
              if topics.any fun topic =>
                  topic.name = config.topic && topic.error.isNone && !topic.partitions.isEmpty
              then .ok ()
              else
                .error (.message s!"Kafka topic {config.topic} not found or has no partitions")

/-- What becomes of the steps of a check of Redis. -/
structure RedisProbe where
  opened : Except String Unit
  connected : Except String Unit
  pinged : Except String Unit

/-- `check_redis`. -/
def checkRedis (probe : RedisProbe) : Except MyError Unit :=
  match probe.opened with
  | .error error => .error (.message s!"Redis connect error: {error}")
  | .ok _ =>
      match probe.connected with
      | .error error => .error (.message s!"Redis connection error: {error}")
      | .ok _ =>
          match probe.pinged with
          | .error error => .error (.message s!"Redis PING error: {error}")
          | .ok _ => .ok ()

/-! ## All checks -/

/-- What the outside world answers to each attempt at each check; the stores are told
apart by their position in the configuration. -/
structure Probes where
  http : Nat → Http
  kafka : Nat → KafkaClient
  redis : Nat → Nat → Url → RedisProbe

/-- A check with the name it is reported under. -/
structure NamedCheck where
  name : String
  makeFuture : Nat → Except MyError Unit

section Checks

variable (crate : UrlCrate) (types : SchemaTypes) (probes : Probes)
  (checksConfig : StartupCheckConfig) (config : MyConfig)

/-- The check of a store, if it is a Redis store. -/
def redisCheck (entry : StoreDefinition × Nat) : Option NamedCheck :=
  match entry.1.storeType with
  | .redis redisConf =>
      some ⟨s!"Redis Store: {entry.1.name}", fun attempt =>
        checkRedis (probes.redis entry.2 attempt redisConf.url)⟩
  | _ => none

/-- The checks that `run_startup_checks` collects. -/
def startupChecks : List NamedCheck :=
  ⟨"Schema Registry Connectivity", fun attempt =>
    checkSchemaRegistry crate types (probes.http attempt) config.kafka.schemaRegistryUrl "AVRO"⟩ ::
  ⟨"Kafka Metadata Connectivity", fun attempt =>
    checkKafkaMetadata (probes.kafka attempt) config.kafka⟩ ::
  config.cache.stores.zipIdx.filterMap (redisCheck probes)

/-- The retry loop of a check, before its first attempt. -/
def NamedCheck.future (check : NamedCheck) :
    Join.Future (Locals UInt32 Nat) (Run MyError Unit Nat) :=
  .pending (runCheckPass check.name checksConfig check.makeFuture) (start checksConfig.fails)

/-- The retry loops of all checks. -/
def startupFutures : List (Join.Future (Locals UInt32 Nat) (Run MyError Unit Nat)) :=
  (startupChecks crate types probes config).map (NamedCheck.future checksConfig)

/-- `run_startup_checks` returns. -/
def RunStartupChecks (result : Except MyError Unit) : Prop :=
  ∃ joined : Except MyError (List Unit),
    Join.Joins Prod.fst (startupFutures crate types probes checksConfig config) joined ∧
      result = joined.map fun _ => ()

end Checks

/-- The process starts with this result of the checks. -/
def Boot.afterChecks (boot : Boot) (result : Except MyError Unit) : Boot :=
  { boot with
    runStartupChecks :=
      match result with
      | .ok _ => none
      | .error error => some error }

/-- The check passes in one of the attempts it has. -/
def NamedCheck.Passes (checksConfig : StartupCheckConfig) (check : NamedCheck) : Prop :=
  ∃ attempt < checksConfig.fails.toNat, (check.makeFuture attempt).isOk = true

variable {crate : UrlCrate} {types : SchemaTypes} {probes : Probes}
  {checksConfig : StartupCheckConfig} {config : MyConfig}

/-! ## What the loops come to -/

/-- Each loop has one result: it succeeds, or it fails with the error of its check. -/
theorem exists_startup_results (checks : List NamedCheck) (checksConfig : StartupCheckConfig) :
    ∃ runOf : NamedCheck → Run MyError Unit Nat,
      List.Forall₂ Join.Future.Settles (checks.map (NamedCheck.future checksConfig))
        (checks.map runOf) ∧
      (∀ check, (runOf check).1 = .ok () ↔ check.Passes checksConfig) ∧
      ∀ check error, (runOf check).1 = .error error ↔
        ¬check.Passes checksConfig ∧ error = checkFailed check.name checksConfig := by
  choose runOf leaves budgeted using fun check : NamedCheck =>
    exists_runCheck_budgeted check.name checksConfig check.makeFuture
  have passes : ∀ check, (runOf check).1 = .ok () ↔ check.Passes checksConfig := by
    intro check
    rw [NamedCheck.Passes, ← (budgeted check).isOk_iff]
    cases (runOf check).1 with
    | ok value => exact iff_of_true rfl rfl
    | error error => exact iff_of_false (by simp) Bool.false_ne_true
  have fails : ∀ check, ¬check.Passes checksConfig →
      (runOf check).1 = .error (checkFailed check.name checksConfig) := by
    intro check not
    rw [(budgeted check).fails]
    intro attempt below
    rw [← Bool.not_eq_true]
    exact fun ok => not ⟨attempt, below, ok⟩
  refine ⟨runOf, ?_, passes, ?_⟩
  · rw [List.forall₂_map_left_iff, List.forall₂_map_right_iff, List.forall₂_same]
    exact fun check _ => leaves check
  · intro check error
    by_cases pass : check.Passes checksConfig
    · rw [(passes check).mpr pass]
      exact iff_of_false (by simp) fun failed => failed.1 pass
    · rw [fails check pass, Except.error.injEq, and_iff_right pass]
      exact eq_comm

/-- What the checks are. -/
theorem forall_startupChecks {property : NamedCheck → Prop} :
    (∀ check ∈ startupChecks crate types probes config, property check) ↔
      property ⟨"Schema Registry Connectivity", fun attempt =>
        checkSchemaRegistry crate types (probes.http attempt) config.kafka.schemaRegistryUrl
          "AVRO"⟩ ∧
      property ⟨"Kafka Metadata Connectivity", fun attempt =>
        checkKafkaMetadata (probes.kafka attempt) config.kafka⟩ ∧
      ∀ position definition redisConf, config.cache.stores[position]? = some definition →
        definition.storeType = .redis redisConf →
          property ⟨s!"Redis Store: {definition.name}", fun attempt =>
            checkRedis (probes.redis position attempt redisConf.url)⟩ := by
  rw [startupChecks, List.forall_mem_cons, List.forall_mem_cons]
  refine and_congr_right fun _ => and_congr_right fun _ => ?_
  constructor
  · intro all position definition redisConf there isRedis
    apply all
    rw [List.mem_filterMap]
    refine ⟨(definition, position), List.mem_zipIdx_iff_getElem?.mpr there, ?_⟩
    simp only [redisCheck, isRedis]
  · intro all check mem
    rcases List.mem_filterMap.mp mem with ⟨⟨definition, position⟩, entry, some⟩
    simp only [redisCheck] at some
    split at some
    · next redisConf isRedis =>
        cases some
        exact all position definition redisConf (List.mem_zipIdx_iff_getElem?.mp entry) isRedis
    · cases some

/-! ## The gate -/

/-- The checks succeed exactly when each passes within its attempts, in every order in
which their loops may run, and they fail with the error of one that does not. -/
theorem runStartupChecks_iff (crate : UrlCrate) (types : SchemaTypes) (probes : Probes)
    (checksConfig : StartupCheckConfig) (config : MyConfig) :
    (RunStartupChecks crate types probes checksConfig config (.ok ()) ↔
      ∀ check ∈ startupChecks crate types probes config, check.Passes checksConfig) ∧
    ∀ error, RunStartupChecks crate types probes checksConfig config (.error error) ↔
      ∃ check ∈ startupChecks crate types probes config,
        ¬check.Passes checksConfig ∧ error = checkFailed check.name checksConfig := by
  rcases exists_startup_results (startupChecks crate types probes config) checksConfig with
    ⟨runOf, settle, passes, fails⟩
  constructor
  · constructor
    · rintro ⟨joined, joins, same⟩ check mem
      cases joined with
      | error error => cases same
      | ok values =>
          have ok := (Join.joins_ok_iff settle values).mp joins
          have here : (runOf check).1 ∈ values.map Except.ok :=
            ok ▸ List.mem_map_of_mem (List.mem_map_of_mem mem)
          rcases List.mem_map.mp here with ⟨value, _, own⟩
          exact (passes check).mp own.symm
    · intro all
      refine ⟨.ok ((startupChecks crate types probes config).map fun _ => ()),
        (Join.joins_ok_iff settle _).mpr ?_, rfl⟩
      rw [List.map_map, List.map_map]
      exact List.map_congr_left fun check mem => (passes check).mpr (all check mem)
  · intro error
    constructor
    · rintro ⟨joined, joins, same⟩
      cases joined with
      | ok values => cases same
      | error own =>
          cases same
          rcases (Join.joins_error_iff settle error).mp joins with ⟨result, mem, failed⟩
          rcases List.mem_map.mp mem with ⟨check, checkMem, rfl⟩
          exact ⟨check, checkMem, (fails check error).mp failed⟩
    · rintro ⟨check, mem, failed⟩
      exact ⟨.error error, (Join.joins_error_iff settle error).mpr
        ⟨runOf check, List.mem_map_of_mem mem, (fails check error).mpr failed⟩, rfl⟩

/-- The registry knows the type of the schemas, the topic has partitions and every Redis
server answers, each in one of the attempts there are. -/
structure OutsideReady (crate : UrlCrate) (types : SchemaTypes) (probes : Probes)
    (checksConfig : StartupCheckConfig) (config : MyConfig) : Prop where
  registry : ∃ attempt < checksConfig.fails.toNat,
    (checkSchemaRegistry crate types (probes.http attempt) config.kafka.schemaRegistryUrl
      "AVRO").isOk = true
  kafka : ∃ attempt < checksConfig.fails.toNat,
    (checkKafkaMetadata (probes.kafka attempt) config.kafka).isOk = true
  redis : ∀ position definition redisConf, config.cache.stores[position]? = some definition →
    definition.storeType = .redis redisConf →
      ∃ attempt < checksConfig.fails.toNat,
        (checkRedis (probes.redis position attempt redisConf.url)).isOk = true

theorem forall_passes_iff : (∀ check ∈ startupChecks crate types probes config,
    check.Passes checksConfig) ↔ OutsideReady crate types probes checksConfig config := by
  rw [forall_startupChecks]
  exact ⟨fun ⟨registry, kafka, redis⟩ => ⟨registry, kafka, redis⟩,
    fun ready => ⟨ready.registry, ready.kafka, ready.redis⟩⟩

section Gate

variable {boot : Boot}

theorem performChecks_afterChecks {result : Except MyError Unit}
    (enabled : config.startupChecksEnabled = true) (recorded : boot.installRecorder = none) :
    performChecks (boot.afterChecks result) config = result := by
  cases result with
  | ok value => simp only [performChecks, Boot.afterChecks, enabled, recorded, if_true]
  | error error => simp only [performChecks, Boot.afterChecks, enabled, recorded, if_true]

/-- The loops of the checks always come to an end, in every order.  A process whose checks
are enabled opens its stores only if the outside world is ready in time, whatever the
order; otherwise it fails with the error of a check that did not pass, and nothing that
the backends of the stores would answer matters. -/
theorem startup_gated (crate : UrlCrate) (types : SchemaTypes) (probes : Probes)
    (checksConfig : StartupCheckConfig) (crates : Crates) (order : RandomState)
    (persisted : Cell → Records) (enabled : config.startupChecksEnabled = true)
    (recorded : boot.installRecorder = none) :
    ((∃ bound, ∀ polls final,
        run Join.step (startupFutures crate types probes checksConfig config) polls = some final →
          polls.length ≤ bound) ∧
      ∀ polls final,
        run Join.step (startupFutures crate types probes checksConfig config) polls = some final →
          ∃ more last joined, run Join.step final more = some last ∧
            Join.Ends Prod.fst last joined) ∧
    ∀ result, RunStartupChecks crate types probes checksConfig config result →
      (performChecks (boot.afterChecks result) config = .ok () ↔
        OutsideReady crate types probes checksConfig config) ∧
      (¬OutsideReady crate types probes checksConfig config →
        ∃ check ∈ startupChecks crate types probes config, ¬check.Passes checksConfig ∧
          ∀ connect http,
            MyState.new crates order { boot.afterChecks result with connect, http } config
              persisted = .error (checkFailed check.name checksConfig)) := by
  rcases exists_startup_results (startupChecks crate types probes config) checksConfig with
    ⟨runOf, settle, _, _⟩
  refine ⟨Join.runs_end Prod.fst settle, fun result ran => ?_⟩
  have gate := runStartupChecks_iff crate types probes checksConfig config
  rw [performChecks_afterChecks enabled recorded, ← forall_passes_iff]
  cases result with
  | ok value =>
      have ready := gate.1.mp ran
      exact ⟨iff_of_true rfl ready, fun unready => absurd ready unready⟩
  | error error =>
      rcases (gate.2 error).mp ran with ⟨check, mem, fails, rfl⟩
      refine ⟨iff_of_false (by simp) fun ready => fails (ready check mem), fun _ =>
        ⟨check, mem, fails, fun connect http => ?_⟩⟩
      simp only [MyState.new, performChecks, Boot.afterChecks, enabled, recorded, if_true]

end Gate

end PushCache

namespace PushCache.Sample

open PushCache.Concurrency PushCache.Retry PushCache.Transition

/-- Two attempts at each check, a second apart. -/
def twoAttempts : StartupCheckConfig := ⟨2, 1000000000⟩

/-- A deployment with one Redis store, whose process runs the start-up checks. -/
def checkedConfig : MyConfig :=
  { config redis with startupChecksEnabled := true }

/-- The registry and the broker answer at once, Redis at the second attempt. -/
def redisAtSecond : Probes where
  http _ _ := .ok ⟨⟨200, "200 OK"⟩, "[\"AVRO\"]"⟩
  kafka _ := ⟨fun _ => .ok (), fun _ topic => .ok [⟨topic, none, [0]⟩]⟩
  redis _ attempt _ :=
    ⟨.ok (), if attempt = 0 then .error "Connection refused" else .ok (), .ok ()⟩

theorem redisAtSecond_ready :
    OutsideReady urlCrate schemaTypes redisAtSecond twoAttempts checkedConfig where
  registry := ⟨0, by decide, by decide +kernel⟩
  kafka := ⟨0, by decide, by decide⟩
  redis position definition redisConf there isRedis := ⟨1, by decide, rfl⟩

theorem startup_gated_of_redisAtSecond :
    performChecks (boot.afterChecks (.ok ())) checkedConfig = .ok () := by
  have passed := (runStartupChecks_iff urlCrate schemaTypes redisAtSecond twoAttempts
    checkedConfig).1.mpr (forall_passes_iff.mpr redisAtSecond_ready)
  have enabled : checkedConfig.startupChecksEnabled = true := rfl
  have recorded : boot.installRecorder = none := rfl
  exact ((startup_gated urlCrate schemaTypes redisAtSecond twoAttempts crates order (fun _ => ∅)
    enabled recorded).2 (.ok ()) passed).1.mpr redisAtSecond_ready

end PushCache.Sample
