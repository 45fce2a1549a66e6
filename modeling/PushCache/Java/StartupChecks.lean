import PushCache.Java.Tombstone

/-!
# The start-up checks of the Java service

`runStartupChecks` runs four checks, each until it passes or has used up its
attempts.  A store's health check is a deferred `Mono`: it does nothing until it
is subscribed.  `CacheHealthIndicator` subscribes it, the start-up check of the
stores drops it, so the start-up check runs no health check.  It only fails where
there is no `Mono` to drop: a Redis store opens its connection before it makes one.
-/

namespace PushCache.Java

open PushCache.Transition

/-! ## Health checks -/

/-- What the backends do at one moment: whether a Redis store has its shared connection
or can open it, which it keeps from then on, and what a health check finds. -/
structure Backends where
  getReactiveConnection : Cache → Except JavaException Unit
  health : Cache → Except JavaException Unit

/-- The health checks that have been run, with whether they succeeded. -/
abbrev Checked := List (Cache × Bool)

/-- A deferred `Mono<Void>` of a store: its outcome depends on the moment at which
it is subscribed. -/
structure Mono where
  cache : Cache
  outcome : Backends → Except JavaException Unit

/-- `Mono.block`: subscribe, and wait for the outcome. -/
def Mono.block (mono : Mono) (backends : Backends) (checked : Checked) :
    Except JavaException Unit × Checked :=
  (mono.outcome backends, checked ++ [(mono.cache, (mono.outcome backends).isOk)])

/-- `checkHealth`: an in-memory store is always healthy, any other asks its backend when
the `Mono` is subscribed.  A Redis store gets its connection in the call itself. -/
def Cache.checkHealth (cache : Cache) (backends : Backends) : Except JavaException Mono :=
  match cache.definition.type with
  | .inMemory => .ok ⟨cache, fun _ => .ok ()⟩
  | .redis =>
      match backends.getReactiveConnection cache with
      | .error thrown => .error thrown
      | .ok _ => .ok ⟨cache, fun later => later.health cache⟩
  | .mongo | .oracle | .postgres => .ok ⟨cache, fun later => later.health cache⟩

/-- `cache.checkHealth().block()`. -/
def Cache.blockHealth (cache : Cache) (backends : Backends) (checked : Checked) :
    Except JavaException Unit × Checked :=
  match cache.checkHealth backends with
  | .error thrown => (.error thrown, checked)
  | .ok mono => mono.block backends checked

/-- The store's health check is run and succeeds at a moment. -/
def Cache.Healthy (cache : Cache) (backends : Backends) : Prop :=
  ∃ mono, cache.checkHealth backends = .ok mono ∧ mono.outcome backends = .ok ()

/-- A Redis store has its connection or can open it at a moment. -/
def Cache.Connects (cache : Cache) (backends : Backends) : Prop :=
  cache.definition.type = .redis → backends.getReactiveConnection cache = .ok ()

/-- `Status`. -/
inductive Status where
  | up
  | down
  deriving DecidableEq

/-- `Health`. -/
structure Health where
  status : Status
  details : Finmap fun _ : String => String

/-- The loop of `CacheHealthIndicator.health`, over the stores that are left. -/
def healthLoop (backends : Backends) :
    List Cache → Bool → (Finmap fun _ : String => String) → Checked → Health × Checked
  | [], allHealthy, details, checked => (⟨if allHealthy then .up else .down, details⟩, checked)
  | cache :: caches, allHealthy, details, checked =>
      match cache.blockHealth backends checked with
      | (.ok _, checked) =>
          healthLoop backends caches allHealthy (details.insert cache.definition.name "UP") checked
      | (.error thrown, checked) =>
          healthLoop backends caches false
            (details.insert cache.definition.name ("DOWN: " ++ thrown.message)) checked

/-- `CacheHealthIndicator.health`. -/
def health (cacheFactory : CacheFactory) (backends : Backends) : Health × Checked :=
  healthLoop backends cacheFactory.getAllStores true ∅ []

/-- The call `cache.checkHealth()` in `checkCaches`: the `Mono` it returns is
dropped. -/
def callCheckHealth (backends : Backends) (cache : Cache) (checked : Checked) :
    Except JavaException Unit × Checked :=
  match cache.checkHealth backends with
  | .error thrown => (.error thrown, checked)
  | .ok _mono => (.ok (), checked)

/-- `StartupCheckService.checkCaches`. -/
def checkCaches (cacheFactory : CacheFactory) (backends : Backends) (checked : Checked) :
    Except JavaException Unit × Checked :=
  tryForEach (fun cache checked =>
    match callCheckHealth backends cache checked with
    | (.ok _, checked) => (.ok (), checked)
    | (.error _, checked) =>
        (.error ⟨"Health check failed for cache: " ++ cache.definition.name⟩, checked))
    cacheFactory.getAllStores checked

/-! ## The other checks -/

/-- `StartupCheckConfig`, without the time between two attempts. -/
structure StartupCheckConfig where
  fails : Int32
  enabled : Bool

/-- `StartupCheckService`, with the Kafka settings it reads. -/
structure StartupCheckService where
  startupChecks : StartupCheckConfig
  schemaRegistryUrl : String
  preloadSchemas : Option (List Int32)
  brokers : Url
  topic : String
  cacheFactory : CacheFactory

/-- What the outside world answers at one moment: the registry to the two kinds of
request, the broker with the partitions of a topic, and the backends. -/
structure Outside where
  schemaTypes : String → Except JavaException (Option (List String))
  restClient : RestClient
  partitionsFor : String → String → Except JavaException (Option (List Int32))
  backends : Backends

namespace StartupCheckService

/-- `List.toString`, or `null`. -/
def showList : Option (List String) → String
  | none => "null"
  | some items => "[" ++ String.intercalate ", " items ++ "]"

/-- `checkSchemaRegistry`. -/
def checkSchemaRegistry (service : StartupCheckService) (outside : Outside) :
    Except JavaException Unit :=
  match outside.schemaTypes (trimUrl service.schemaRegistryUrl ++ "/schemas/types") with
  | .error thrown => .error thrown
  | .ok types =>
      if (types.getD []).contains "AVRO" then .ok ()
      else .error ⟨"Schema type AVRO is not supported by the Schema Registry. Supported types: " ++
        showList types⟩

/-- `checkKafkaMetadata`. -/
def checkKafkaMetadata (service : StartupCheckService) (outside : Outside) :
    Except JavaException Unit :=
  match service.brokers.hostStr, service.brokers.port with
  | some host, some port =>
      match outside.partitionsFor (host ++ ":" ++ toString port) service.topic with
      | .error thrown => .error thrown
      | .ok partitions =>
          if (partitions.getD []).isEmpty then
            .error ⟨"Kafka topic " ++ service.topic ++ " not found or has no partitions"⟩
          else .ok ()
  | _, _ => .error ⟨"Kafka broker host or port not defined in URI: " ++ service.brokers.asStr⟩

/-! ## Attempts -/

section Attempts

variable {σ : Type*}

/-- The loop of `runCheck`: the attempts that remain, and the number of the next
one.  After a failed attempt the thread sleeps, and may be interrupted. -/
def runAttempts (name : String) (config : StartupCheckConfig) (interrupted : Nat → Bool)
    (check : Nat → σ → Except JavaException Unit × σ) :
    Nat → Nat → σ → Except JavaException Unit × σ
  | 0, _, state =>
      (.error ⟨"Check " ++ name ++ " failed after " ++ toString config.fails ++ " attempts"⟩,
        state)
  | attemptsRemaining + 1, attempt, state =>
      match check attempt state with
      | (.ok _, state) => (.ok (), state)
      | (.error _, state) =>
          if 0 < attemptsRemaining ∧ interrupted attempt then
            (.error ⟨"Interrupted while waiting for retry"⟩, state)
          else
            runAttempts name config interrupted check attemptsRemaining (attempt + 1) state

/-- `runCheck`. -/
def runCheck (name : String) (config : StartupCheckConfig) (interrupted : Nat → Bool)
    (check : Nat → σ → Except JavaException Unit × σ) (state : σ) :
    Except JavaException Unit × σ :=
  runAttempts name config interrupted check config.fails.toInt.toNat 0 state

end Attempts

/-- `CompletableFuture.allOf(..).get()`: an exception of one of the checks, if
there is one; which of several is not specified. -/
def allOf : List (Except JavaException Unit) → Except JavaException Unit
  | [] => .ok ()
  | .ok _ :: results => allOf results
  | .error thrown :: _ => .error thrown

/-- The outside world over time, attempt by attempt, and the attempts of each
check whose sleep is interrupted. -/
structure History where
  outside : Nat → Outside
  interrupted : String → Nat → Bool

/-- `schemaRegistryCheck`. -/
def schemaRegistryCheck (service : StartupCheckService) (history : History) :
    Except JavaException Unit :=
  (runCheck "Schema Registry Connectivity" service.startupChecks
    (history.interrupted "Schema Registry Connectivity")
    (fun attempt _ => (service.checkSchemaRegistry (history.outside attempt), ())) ()).1

/-- `schemaPreloadCheck`. -/
def schemaPreloadCheck (libraries : Libraries) (service : StartupCheckService)
    (history : History) (world : World) : Except JavaException Unit × World :=
  runCheck "Schema Preloading" service.startupChecks
    (history.interrupted "Schema Preloading")
    (fun attempt => Java.preloadSchemas libraries (history.outside attempt).restClient
      service.schemaRegistryUrl (service.preloadSchemas.getD [])) world

/-- `kafkaCheck`. -/
def kafkaCheck (service : StartupCheckService) (history : History) :
    Except JavaException Unit :=
  (runCheck "Kafka Metadata Connectivity" service.startupChecks
    (history.interrupted "Kafka Metadata Connectivity")
    (fun attempt _ => (service.checkKafkaMetadata (history.outside attempt), ())) ()).1

/-- `cacheCheck`, with the health checks each attempt has run. -/
def cacheCheck (service : StartupCheckService) (history : History) :
    Except JavaException Unit × List Checked :=
  runCheck "Cache Connectivity" service.startupChecks
    (history.interrupted "Cache Connectivity")
    (fun attempt attempts =>
      let (result, checked) :=
        checkCaches service.cacheFactory (history.outside attempt).backends []
      (result, attempts ++ [checked])) []

/-- How the checks end: the result, the world with the preloaded schemas, and the
health checks each attempt at the stores has run. -/
structure Outcome where
  result : Except JavaException Unit
  world : World
  attempts : List Checked

/-- `runStartupChecks`. -/
def runStartupChecks (libraries : Libraries) (service : StartupCheckService)
    (history : History) (world : World) : Outcome :=
  if service.startupChecks.enabled then
    let schemaPreloadCheck := service.schemaPreloadCheck libraries history world
    let cacheCheck := service.cacheCheck history
    ⟨allOf [service.schemaRegistryCheck history, schemaPreloadCheck.1,
      service.kafkaCheck history, cacheCheck.1], schemaPreloadCheck.2, cacheCheck.2⟩
  else
    ⟨.ok (), world, []⟩

/-- The start-up checks return normally only after an attempt, within the allowed
number, in which every store's health check was run and succeeded. -/
def Gates (libraries : Libraries) (service : StartupCheckService) (history : History)
    (world : World) : Prop :=
  (service.runStartupChecks libraries history world).result = .ok () →
    ∃ attempt < service.startupChecks.fails.toInt.toNat, ∃ checked,
      (service.runStartupChecks libraries history world).attempts[attempt]? = some checked ∧
        ∀ cache ∈ service.cacheFactory.getAllStores, (cache, true) ∈ checked

/-- The checks of the registry, the schemas and the broker pass. -/
def OthersPass (libraries : Libraries) (service : StartupCheckService) (history : History)
    (world : World) : Prop :=
  service.schemaRegistryCheck history = .ok () ∧
    (service.schemaPreloadCheck libraries history world).1 = .ok () ∧
      service.kafkaCheck history = .ok ()

/-- In some attempt, within the allowed number and before an interruption, every Redis
store has its connection. -/
def ConnectsInTime (service : StartupCheckService) (history : History) : Prop :=
  ∃ attempt < service.startupChecks.fails.toInt.toNat,
    (∀ cache ∈ service.cacheFactory.getAllStores,
      cache.Connects (history.outside attempt).backends) ∧
    ∀ earlier < attempt, history.interrupted "Cache Connectivity" earlier = false

end StartupCheckService

/-! ## What the two users of a health check see -/

/-- A call gives a `Mono` exactly when the store does not miss its connection. -/
theorem Cache.connects_iff (cache : Cache) (backends : Backends) :
    cache.Connects backends ↔ ∃ mono, cache.checkHealth backends = .ok mono := by
  rw [Connects, checkHealth]
  cases cache.definition.type with
  | redis =>
      cases backends.getReactiveConnection cache with
      | error thrown => simp
      | ok => exact ⟨fun _ => ⟨_, rfl⟩, fun _ _ => rfl⟩
  | inMemory | mongo | oracle | postgres =>
      constructor
      · intro _
        exact ⟨_, rfl⟩
      · intro _ redis
        cases redis

theorem Cache.Healthy.connects {cache : Cache} {backends : Backends}
    (healthy : cache.Healthy backends) : cache.Connects backends := by
  rcases healthy with ⟨mono, called, _⟩
  exact (cache.connects_iff backends).mpr ⟨mono, called⟩

/-- The check of the stores runs no health check, and passes exactly when every Redis store
has its connection. -/
theorem checkCaches_spec (cacheFactory : CacheFactory) (backends : Backends)
    (checked : Checked) :
    ((checkCaches cacheFactory backends checked).1 = .ok () ↔
      ∀ cache ∈ cacheFactory.getAllStores, cache.Connects backends) ∧
    (checkCaches cacheFactory backends checked).2 = checked := by
  rw [checkCaches]
  induction cacheFactory.getAllStores with
  | nil => simp
  | cons cache caches ih =>
      cases called : cache.checkHealth backends with
      | ok mono =>
          have connects := (cache.connects_iff backends).mpr ⟨mono, called⟩
          simp only [tryForEach, callCheckHealth, called, List.forall_mem_cons, connects,
            true_and]
          exact ih
      | error thrown =>
          have refused : ¬cache.Connects backends := by
            intro connects
            rcases (cache.connects_iff backends).mp connects with ⟨mono, given⟩
            rw [called] at given
            cases given
          simp [tryForEach, callCheckHealth, called, refused]

theorem Cache.blockHealth_isOk (cache : Cache) (backends : Backends) (checked : Checked) :
    (cache.blockHealth backends checked).1 = .ok () ↔ cache.Healthy backends := by
  rw [blockHealth, Healthy]
  cases cache.checkHealth backends with
  | error thrown => simp
  | ok mono => simp [Mono.block]

theorem healthLoop_status (backends : Backends) (caches : List Cache) (allHealthy : Bool)
    (details : Finmap fun _ : String => String) (checked : Checked) :
    (healthLoop backends caches allHealthy details checked).1.status = .up ↔
      allHealthy = true ∧ ∀ cache ∈ caches, cache.Healthy backends := by
  induction caches generalizing allHealthy details checked with
  | nil => cases allHealthy <;> simp [healthLoop]
  | cons cache caches ih =>
      have healthy := cache.blockHealth_isOk backends checked
      rcases blocked : cache.blockHealth backends checked with ⟨_ | _, later⟩
      · rw [blocked] at healthy
        have unhealthy : ¬cache.Healthy backends := by
          intro own
          cases healthy.mpr own
        simp only [healthLoop, blocked, ih, List.forall_mem_cons, unhealthy, false_and,
          and_false, reduceCtorEq]
      · rw [blocked] at healthy
        have own : cache.Healthy backends := healthy.mp rfl
        simp only [healthLoop, blocked, ih, List.forall_mem_cons, own, true_and]

/-- `health` reports UP exactly when every store is healthy at that moment. -/
theorem health_up_iff (cacheFactory : CacheFactory) (backends : Backends) :
    (health cacheFactory backends).1.status = .up ↔
      ∀ cache ∈ cacheFactory.getAllStores, cache.Healthy backends := by
  rw [health, healthLoop_status, and_iff_right rfl]

namespace StartupCheckService

/-! ## What a check does with its attempts -/

section Attempts

variable {σ : Type*} {name : String} {config : StartupCheckConfig} {interrupted : Nat → Bool}
  {check : Nat → σ → Except JavaException Unit × σ} {state next : σ}

/-- What every attempt keeps, `runCheck` keeps. -/
theorem runCheck_induction (invariant : σ → Prop)
    (preserved : ∀ attempt state, invariant state → invariant (check attempt state).2)
    (initial : invariant state) :
    invariant (runCheck name config interrupted check state).2 := by
  rw [runCheck]
  generalize config.fails.toInt.toNat = remaining
  generalize 0 = attempt
  induction remaining generalizing attempt state with
  | zero => exact initial
  | succ remaining ih =>
      have kept := preserved attempt state initial
      rw [runAttempts]
      rcases outcome : check attempt state with ⟨_ | _, next⟩ <;> rw [outcome] at kept
      · simp only
        split
        · exact kept
        · exact ih kept (attempt + 1)
      · exact kept

/-- Where it depends on the moment alone whether an attempt passes, `runCheck` passes
exactly when an allowed attempt does that no interruption comes before. -/
theorem runCheck_ok_iff {passes : Nat → Prop}
    (decides : ∀ attempt state, (check attempt state).1 = .ok () ↔ passes attempt) :
    (runCheck name config interrupted check state).1 = .ok () ↔
      ∃ attempt < config.fails.toInt.toNat, passes attempt ∧
        ∀ earlier < attempt, interrupted earlier = false := by
  have from_attempt : ∀ remaining first state,
      (runAttempts name config interrupted check remaining first state).1 = .ok () ↔
        ∃ later < remaining, passes (first + later) ∧
          ∀ earlier < later, interrupted (first + earlier) = false := by
    intro remaining
    induction remaining with
    | zero => simp [runAttempts]
    | succ remaining ih =>
        intro first state
        have own := decides first state
        rw [runAttempts]
        rcases outcome : check first state with ⟨_ | _, next⟩ <;> rw [outcome] at own
        · have fails : ¬passes first := by
            intro passed
            cases own.mpr passed
          simp only
          by_cases stops : 0 < remaining ∧ interrupted first = true
          · rw [if_pos stops]
            constructor
            · intro ok
              cases ok
            · rintro ⟨later, _, passed, calm⟩
              cases later with
              | zero => exact absurd passed fails
              | succ later =>
                  have noInterrupt := calm 0 (Nat.succ_pos later)
                  rw [Nat.add_zero, stops.2] at noInterrupt
                  cases noInterrupt
          · rw [if_neg stops, ih]
            constructor
            · rintro ⟨later, within, passed, calm⟩
              refine ⟨later + 1, Nat.succ_lt_succ within, ?_, ?_⟩
              · rwa [Nat.add_right_comm] at passed
              · intro earlier before
                cases earlier with
                | zero =>
                    have positive : 0 < remaining := Nat.lt_of_le_of_lt (Nat.zero_le _) within
                    exact Bool.eq_false_iff.mpr fun yes => stops ⟨positive, yes⟩
                | succ earlier =>
                    have later := calm earlier (Nat.lt_of_succ_lt_succ before)
                    rwa [Nat.add_right_comm] at later
            · rintro ⟨later, within, passed, calm⟩
              cases later with
              | zero => exact absurd passed fails
              | succ later =>
                  refine ⟨later, Nat.lt_of_succ_lt_succ within, ?_, ?_⟩
                  · rwa [Nat.add_right_comm]
                  · intro earlier before
                    rw [Nat.add_right_comm]
                    exact calm (earlier + 1) (Nat.succ_lt_succ before)
        · have passed : passes first := own.mp rfl
          constructor
          · intro _
            exact ⟨0, Nat.succ_pos remaining, passed,
              fun _ before => absurd before (Nat.not_lt_zero _)⟩
          · intro _
            rfl
  rw [runCheck, from_attempt]
  simp only [Nat.zero_add]

end Attempts

theorem allOf_eq_ok_iff (results : List (Except JavaException Unit)) :
    allOf results = .ok () ↔ ∀ result ∈ results, result = .ok () := by
  induction results with
  | nil => simp [allOf]
  | cons result results ih => cases result <;> simp [allOf, ih]

variable {libraries : Libraries} {service : StartupCheckService} {history : History}
  {world : World}

/-- The check of the stores passes exactly when all Redis stores have their connections in
time. -/
theorem cacheCheck_ok_iff :
    (service.cacheCheck history).1 = .ok () ↔ service.ConnectsInTime history := by
  apply runCheck_ok_iff
  intro attempt attempts
  exact (checkCaches_spec service.cacheFactory (history.outside attempt).backends []).1

/-- No attempt at the stores runs a health check. -/
theorem cacheCheck_checks_nothing {checked : Checked}
    (attempted : checked ∈ (service.cacheCheck history).2) : checked = [] := by
  have kept : ∀ checked ∈ (service.cacheCheck history).2, checked = [] := by
    apply runCheck_induction fun attempts => ∀ checked ∈ attempts, checked = []
    · intro attempt attempts before checked member
      rcases List.mem_append.mp member with earlier | here
      · exact before checked earlier
      · rw [List.mem_singleton.mp here]
        exact (checkCaches_spec service.cacheFactory (history.outside attempt).backends []).2
    · intro checked member
      cases member
  exact kept checked attempted

/-- The start-up checks return normally exactly when the other three do and the stores'
connections are there in time. -/
theorem runStartupChecks_ok_iff (enabled : service.startupChecks.enabled = true) :
    (service.runStartupChecks libraries history world).result = .ok () ↔
      service.OthersPass libraries history world ∧ service.ConnectsInTime history := by
  simp only [runStartupChecks, enabled, if_true, allOf_eq_ok_iff, List.forall_mem_cons,
    List.not_mem_nil, false_imp_iff, implies_true, and_true, OthersPass, cacheCheck_ok_iff,
    and_assoc]

/-- Without stores there is an attempt at them, which passes. -/
theorem cacheCheck_of_no_stores (allowed : 0 < service.startupChecks.fails.toInt)
    (none : service.cacheFactory.getAllStores = []) :
    (service.cacheCheck history).2 = [[]] := by
  have counted : service.startupChecks.fails.toInt.toNat =
      service.startupChecks.fails.toInt.toNat - 1 + 1 := by omega
  rw [cacheCheck, runCheck, counted, runAttempts]
  simp only [checkCaches, none, tryForEach_nil, List.nil_append]

end StartupCheckService

end PushCache.Java

namespace PushCache.Sample

open PushCache.Java.StartupCheckService

/-- Three attempts, no schemas to preload, and one store. -/
def startupChecks (type : Java.StoreType) : Java.StartupCheckService where
  startupChecks := ⟨3, true⟩
  schemaRegistryUrl := "http://localhost:8081/"
  preloadSchemas := none
  brokers := ⟨"kafka://localhost:9092", some "localhost", some 9092⟩
  topic := "customers"
  cacheFactory := (javaService type).cacheFactory

/-- The registry and the broker are up at all times, and the backends answer as
given. -/
def history (backends : Java.Backends) : History where
  outside := fun _ =>
    { schemaTypes := fun _ => .ok (some ["AVRO"])
      restClient := fun _ => .ok none
      partitionsFor := fun _ _ => .ok (some [0])
      backends }
  interrupted := fun _ _ => false

/-- Every store is up. -/
def allUp : Java.Backends := ⟨fun _ => .ok (), fun _ => .ok ()⟩

/-- Every store is down. -/
def allDown : Java.Backends :=
  ⟨fun _ => .error ⟨"Unable to connect"⟩, fun _ => .error ⟨"Connection refused"⟩⟩

/-- A Redis store that is down is noticed, where it has no connection to keep. -/
example : ((startupChecks .redis).runStartupChecks (libraries (.record "customer" "schema"))
    (history allDown) (.fresh fun _ => ∅)).result ≠ .ok () := by
  decide

end PushCache.Sample
