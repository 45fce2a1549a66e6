import PushCache.Consumer.Requests
import PushCache.Service.SchemaAvailability

/-!
# Schema resolution over time

The registry may answer differently at every fetch.  A process keeps the first
schema it has obtained for an id: the consumer fetches only ids it does not
know, and nothing else writes the schema cache once the process has started.  So
the schema of an id, and with it the store its messages go to, stays what it is,
and the registry is not asked for it again.
Only the preload loop, which fetches an id as often as the configuration lists
it, can replace an entry.
-/

namespace PushCache

open PushCache.Transition

/-! ## Preloading from a changing registry -/

/-- The preload loop, each fetch with what the registry answers at its time. -/
def preloadOver (crates : Crates) (registryUrl : String) :
    List (Http × UInt32) → SchemaCache → Except MyError SchemaCache
  | [], schemaCache => .ok schemaCache
  | (http, id) :: fetches, schemaCache =>
      match fetchSchemaById crates http registryUrl id with
      | .ok schema => preloadOver crates registryUrl fetches (schemaCache.insert id schema)
      | .error error => .error error

/-- The fetches of the preload loop, when the registry's answers are given fetch
by fetch. -/
def MyConfig.preloadFetches (config : MyConfig) (registry : Nat → Http) :
    List (Http × UInt32) :=
  (config.kafka.preloadSchemas.getD []).zipIdx.map fun entry => (registry entry.2, entry.1)

/-- `MyState::new`, with a registry that may change its answers while the
schemas are preloaded. -/
def MyState.newOver (crates : Crates) (order : RandomState) (boot : Boot)
    (config : MyConfig) (persisted : Cell → Records) (registry : Nat → Http) :
    Except MyError (MyState × World) :=
  match performChecks boot config with
  | .error error => .error error
  | .ok _ =>
      match openStores boot config.cache.stores ∅ with
      | .error error => .error error
      | .ok stores =>
          match preloadOver crates config.kafka.schemaRegistryUrl.asStr
              (config.preloadFetches registry) ∅ with
          | .error error => .error error
          | .ok schemaCache =>
              .ok
                ({ config
                   stores := order.arrange stores
                   routes := config.cache.routes
                   schemaToStore := schemaRoutes config.cache.stores },
                 { contents := freshContents persisted
                   schemaCache
                   metrics := .zero
                   startupLagCleared := false })

section Preload

variable {crates : Crates} {registryUrl : String}

theorem preload_eq_preloadOver (http : Http) (ids : List UInt32) (schemaCache : SchemaCache) :
    preload crates http registryUrl ids schemaCache =
      preloadOver crates registryUrl (ids.map fun id => (http, id)) schemaCache := by
  induction ids generalizing schemaCache with
  | nil => rfl
  | cons id ids ih =>
      simp only [preload, List.map_cons, preloadOver]
      cases fetchSchemaById crates http registryUrl id with
      | error error => rfl
      | ok schema => exact ih _

/-- With a registry that keeps its answers this is `MyState.new`. -/
theorem MyState.new_eq_newOver (order : RandomState) (boot : Boot) (config : MyConfig)
    (persisted : Cell → Records) :
    MyState.new crates order boot config persisted =
      MyState.newOver crates order boot config persisted fun _ => boot.http := by
  have fetches : config.preloadFetches (fun _ => boot.http) =
      (config.kafka.preloadSchemas.getD []).map fun id => (boot.http, id) := by
    have split : (fun entry : UInt32 × Nat => (boot.http, entry.1)) =
        (fun id => (boot.http, id)) ∘ Prod.fst := rfl
    rw [MyConfig.preloadFetches, split, ← List.map_map, List.zipIdx_map_fst]
  simp only [MyState.new, preload_eq_preloadOver, ← fetches]
  rfl

/-- An entry stays until its id is fetched again. -/
theorem preloadOver_kept {first second : List (Http × UInt32)} {start final : SchemaCache}
    (ok : preloadOver crates registryUrl (first ++ second) start = .ok final) :
    ∃ middle, preloadOver crates registryUrl first start = .ok middle ∧
      ∀ id schema, middle.lookup id = some schema → (∀ fetch ∈ second, fetch.2 ≠ id) →
        final.lookup id = some schema := by
  induction first generalizing start with
  | nil =>
      refine ⟨start, rfl, ?_⟩
      rw [List.nil_append] at ok
      induction second generalizing start with
      | nil =>
          cases ok
          exact fun _ _ found _ => found
      | cons fetch second ih =>
          rcases fetch with ⟨http, own⟩
          simp only [preloadOver] at ok
          split at ok
          · intro id schema found others
            refine ih ok id schema ?_ fun other member =>
              others other (List.mem_cons_of_mem _ member)
            rw [Finmap.lookup_insert_of_ne _ (Ne.symm (others _ List.mem_cons_self))]
            exact found
          · cases ok
  | cons fetch first ih =>
      rcases fetch with ⟨http, own⟩
      simp only [List.cons_append, preloadOver] at ok ⊢
      split at ok
      · exact ih ok
      · cases ok

/-- Every listed id is known after preloading. -/
theorem preloadOver_mem {fetches : List (Http × UInt32)} {start final : SchemaCache}
    (ok : preloadOver crates registryUrl fetches start = .ok final) :
    (∀ id ∈ start, id ∈ final) ∧ ∀ fetch ∈ fetches, fetch.2 ∈ final := by
  induction fetches generalizing start with
  | nil =>
      cases ok
      exact ⟨fun _ known => known, by simp⟩
  | cons fetch fetches ih =>
      rcases fetch with ⟨http, own⟩
      simp only [preloadOver] at ok
      split at ok
      · rcases ih ok with ⟨kept, added⟩
        constructor
        · intro id known
          exact kept id (Finmap.mem_insert.mpr (Or.inr known))
        · intro other member
          rcases List.mem_cons.mp member with rfl | later
          · exact kept own (Finmap.mem_insert.mpr (Or.inl rfl))
          · exact added other later
      · cases ok

end Preload

section Started

variable {crates : Crates} {order : RandomState} {boot : Boot} {config : MyConfig}
  {persisted : Cell → Records} {registry : Nat → Http} {state : MyState} {world : World}

/-- The schema cache of a started service is what the preload loop left. -/
theorem MyState.newOver_preloaded
    (started : MyState.newOver crates order boot config persisted registry =
      .ok (state, world)) :
    preloadOver crates config.kafka.schemaRegistryUrl.asStr (config.preloadFetches registry)
        ∅ = .ok world.schemaCache ∧ state.config = config := by
  simp only [MyState.newOver] at started
  split at started
  · cases started
  · split at started
    · cases started
    · split at started
      · cases started
      · next preloaded =>
          cases started
          exact ⟨preloaded, rfl⟩

/-- A started service knows the preloaded ids. -/
theorem MyState.newOver_mem_schemaCache
    (started : MyState.newOver crates order boot config persisted registry =
      .ok (state, world)) {id : UInt32}
    (preloaded : id ∈ config.kafka.preloadSchemas.getD []) : id ∈ world.schemaCache := by
  rw [← List.zipIdx_map_fst 0 (config.kafka.preloadSchemas.getD [])] at preloaded
  rcases List.mem_map.mp preloaded with ⟨entry, member, rfl⟩
  exact (preloadOver_mem (newOver_preloaded started).1).2 (registry entry.2, entry.1)
    (List.mem_map_of_mem member)

end Started

/-! ## A running process -/

/-- The process goes on: no restart. -/
def Service.Action.InProcess : Service.Action → Prop
  | .restart _ _ => False
  | _ => True

/-- The known schemas after an action. -/
def Service.Action.learned (crates : Crates) (state : MyState)
    (schemas : UInt32 → Option Schema) : Service.Action → UInt32 → Option Schema
  | .message env delivered => learn crates state (env, delivered) schemas
  | _ => schemas

theorem learn_of_known {crates : Crates} {state : MyState} {item : Env × Message}
    {schemas : UInt32 → Option Schema} {id : UInt32} {schema : Schema}
    (known : schemas id = some schema) : learn crates state item schemas id = some schema := by
  rw [learn, known]
  split <;> rfl

section Steps

variable {crates : Crates} {config : MyConfig} {service next : Service}
  {action : Service.Action}

/-- Within a process the state stays, and only a message teaches a schema. -/
theorem Service.step_learned (stepped : step crates config service action = some next)
    (inProcess : action.InProcess) :
    next.state = service.state ∧
      next.world.schemaOf =
        action.learned crates service.state service.world.schemaOf := by
  have unchanged : next.world.schemaCache = service.world.schemaCache →
      next.world.schemaOf = service.world.schemaOf := by
    intro same
    funext id
    rw [World.schemaOf, same, World.schemaOf]
  cases action with
  | message env delivered =>
      rcases step_message stepped with ⟨state, world⟩
      exact ⟨state, by rw [world]; exact handleMessage_schemaOf ..⟩
  | create env route key body =>
      rcases request_eq_some stepped with ⟨cache, _, state, world⟩
      refine ⟨state, unchanged ?_⟩
      rw [world]
      cases checked : checkRecord body with
      | error error => rw [createRecord_of_rejected checked]
      | ok id => rw [createRecord_world checked, perform_schemaCache]
  | delete env route key =>
      rcases request_eq_some stepped with ⟨cache, _, state, world⟩
      exact ⟨state, unchanged (by rw [world, deleteRecord_world, perform_schemaCache])⟩
  | get env route key =>
      rcases request_eq_some stepped with ⟨cache, _, state, world⟩
      exact ⟨state, unchanged (by rw [world, getRecord, (retrieveRecordLogic_contents ..).2])⟩
  | getByBody env route body =>
      rcases step_getByBody stepped with ⟨keyField, answered⟩
      rcases request_eq_some answered with ⟨cache, _, state, world⟩
      exact ⟨state, unchanged (by rw [world, (getRecordByBody_contents ..).2])⟩
  | restart order boot => exact inProcess.elim

/-- A known schema is kept by every action of the process. -/
theorem Service.step_schemaOf_kept (stepped : step crates config service action = some next)
    (inProcess : action.InProcess) {id : UInt32} {schema : Schema}
    (known : service.world.schemaOf id = some schema) :
    next.world.schemaOf id = some schema := by
  rw [(step_learned stepped inProcess).2]
  cases action <;> first | exact known | exact learn_of_known known

end Steps

/-! ## The requests of a process -/

/-- The transition system, with the requests the process has sent to the registry.  Only
the consumer sends any; the records are served from the schema cache. -/
def Service.requestStep (crates : Crates) (config : MyConfig) :
    Step (Service × List String) Service.Action
  | (service, requests), .message env message =>
      if service.consuming then
        match (handleMessageProgram crates service.state env.faults message
            service.world).against env.http with
        | ((.ok _, world), sent) => some ({ service with world }, requests ++ sent)
        | ((.error _, world), sent) =>
            some ({ service with world, consuming := false }, requests ++ sent)
      else
        none
  | (service, requests), action =>
      (step crates config service action).map fun next => (next, requests)

/-- The requests of an action. -/
def Service.Action.sent (crates : Crates) (service : Service) : Service.Action → List String
  | .message env delivered =>
      ((handleMessageProgram crates service.state env.faults delivered service.world).against
        env.http).2
  | _ => []

section Requests

variable {crates : Crates} {config : MyConfig} {service final : Service}
  {actions : List Service.Action}

/-- Noting the requests changes nothing else. -/
theorem Service.requestStep_eq (service : Service) (requests : List String)
    (action : Service.Action) :
    requestStep crates config (service, requests) action =
      (step crates config service action).map fun next =>
        (next, requests ++ action.sent crates service) := by
  cases action with
  | message env message =>
      simp only [requestStep, step, Service.Action.sent]
      rw [← handleMessageProgram_result]
      rcases (handleMessageProgram crates service.state env.faults message
        service.world).against env.http with ⟨⟨_ | _, world⟩, sent⟩ <;>
          cases service.consuming <;> rfl
  | create | delete | get | getByBody | restart =>
      simp only [requestStep, Service.Action.sent, List.append_nil]

/-- No action asks for a schema the process knows. -/
theorem Service.Action.not_mem_sent (action : Service.Action) {id : UInt32} {schema : Schema}
    (known : service.world.schemaOf id = some schema) :
    service.state.config.schemaUrl id ∉ action.sent crates service := by
  intro requested
  cases action with
  | message env message =>
      rcases handleMessageProgram_requests env requested with ⟨own, _, unknown, same⟩
      rw [service.state.config.schemaUrl_injective same, unknown] at known
      cases known
  | _ => cases requested

/-- A process sends requests, and none for a schema it knows. -/
theorem Service.run_requests (inProcess : ∀ action ∈ actions, action.InProcess)
    (ran : run (step crates config) service actions = some final) {id : UInt32}
    {schema : Schema} (known : service.world.schemaOf id = some schema)
    (requests : List String) :
    ∃ sent, run (requestStep crates config) (service, requests) actions =
        some (final, requests ++ sent) ∧ service.state.config.schemaUrl id ∉ sent := by
  induction actions generalizing service requests with
  | nil =>
      cases ran
      exact ⟨[], by rw [run_nil, List.append_nil], List.not_mem_nil⟩
  | cons action actions ih =>
      rcases Option.bind_eq_some_iff.mp ran with ⟨middle, stepped, rest⟩
      have here := inProcess action List.mem_cons_self
      rcases ih (fun other member => inProcess other (List.mem_cons_of_mem _ member)) rest
        (step_schemaOf_kept stepped here known) (requests ++ action.sent crates service) with
          ⟨sent, traced, unasked⟩
      refine ⟨action.sent crates service ++ sent, ?_, ?_⟩
      · rw [run_cons, requestStep_eq, stepped, ← List.append_assoc]
        exact traced
      · rw [List.mem_append, not_or]
        rw [(step_learned stepped here).1] at unasked
        exact ⟨action.not_mem_sent known, unasked⟩

end Requests

/-! ## Messages with a known schema -/

/-- What the handler does with a payload whose schema is known.  The registry has
no part in it. -/
def handleResolved (state : MyState) (faults : Faults) (schema : Schema)
    (key : Option Bytes) (payload : Bytes) (world : World) : Except MyError Unit × World :=
  match state.schemaToStore.lookup (fullName schema) with
  | some storeName =>
      match state.stores.lookup storeName, key.bind fromUtf8 with
      | some store, some keyStr => store.insert faults keyStr payload world
      | _, _ => (.ok (), world)
  | none => (.ok (), world.countUnrouted)

section Messages

variable {crates : Crates} {state : MyState} {message : Message} {payload data : Bytes}
  {id : UInt32} {world : World}

theorem valid_of_messageId (own : messageId crates message = some id) :
    ∃ payload data, message.payload = some payload ∧
      crates.getBytesResult (some payload) = .valid id data := by
  simp only [messageId] at own
  split at own
  · next payload payloadEq =>
      split at own
      · next parsedId data parsed =>
          cases own
          exact ⟨payload, data, payloadEq, parsed⟩
      · cases own
  · cases own

theorem handleMessage_of_known {schema : Schema} (env : Env)
    (payloadEq : message.payload = some payload)
    (parsed : crates.getBytesResult (some payload) = .valid id data)
    (known : world.schemaOf id = some schema) :
    handleMessage crates state env message world =
      handleResolved state env.faults schema message.key payload world := by
  have cached : id ∈ world.schemaCache := Finmap.mem_iff.mpr ⟨schema, known⟩
  have found : world.schemaCache.lookup id = some schema := known
  simp only [handleMessage, payloadEq, parsed, cacheSchema, if_pos cached, found, handleResolved]
  cases state.schemaToStore.lookup (fullName schema) with
  | none => rfl
  | some storeName =>
      simp only
      cases state.stores.lookup storeName with
      | none => rfl
      | some store =>
          cases message.key with
          | none => rfl
          | some bytes =>
              simp only [Option.bind_some]
              cases fromUtf8 bytes <;> rfl

/-- A message is dropped for want of a schema when its id is not known and the
fetch for it fails. -/
theorem handleMessage_of_unresolved {env : Env} (own : messageId crates message = some id)
    (unresolved : (resolveMessage crates state env message world).schemaOf id = none) :
    handleMessage crates state env message world = (.ok (), world) ∧
      world.schemaOf id = none ∧
        ∀ schema, fetchSchemaById crates env.http
          state.config.kafka.schemaRegistryUrl.asStr id ≠ .ok schema := by
  rw [resolveMessage_schemaOf, learn, if_pos own, Option.or_eq_none_iff] at unresolved
  rcases unresolved with ⟨unknown, unanswered⟩
  have failed : ∀ schema, fetchSchemaById crates env.http
      state.config.kafka.schemaRegistryUrl.asStr id ≠ .ok schema := by
    intro schema fetched
    rw [registry, fetched] at unanswered
    cases unanswered
  refine ⟨?_, unknown, failed⟩
  rcases valid_of_messageId own with ⟨payload, data, payloadEq, parsed⟩
  have missing : id ∉ world.schemaCache := Finmap.lookup_eq_none.mp unknown
  have notFound : world.schemaCache.lookup id = none := unknown
  simp only [handleMessage, payloadEq, parsed, cacheSchema, if_neg missing]
  cases fetched : fetchSchemaById crates env.http
      state.config.kafka.schemaRegistryUrl.asStr id with
  | ok schema => exact absurd fetched (failed schema)
  | error error => simp only [notFound]

end Messages

/-! ## Every run -/

section Runs

variable {crates : Crates} {config : MyConfig} {service final : Service}
  {actions : List Service.Action}

theorem Service.run_state (inProcess : ∀ action ∈ actions, action.InProcess)
    (ran : run (step crates config) service actions = some final) :
    final.state = service.state := by
  have kept : PreservedWhen (step crates config) (fun _ action => action.InProcess)
      fun reached => reached.state = service.state :=
    fun _ _ _ same allowed stepped => (step_learned stepped allowed).1.trans same
  exact kept.of_run rfl (guarded_of_forall (fun action member _ => inProcess action member) _) ran

/-- Within a process a known schema is never removed or replaced. -/
theorem Service.run_schemaOf_kept (inProcess : ∀ action ∈ actions, action.InProcess)
    (ran : run (step crates config) service actions = some final) {id : UInt32}
    {schema : Schema} (known : service.world.schemaOf id = some schema) :
    final.world.schemaOf id = some schema := by
  have kept : PreservedWhen (step crates config) (fun _ action => action.InProcess)
      fun reached => reached.world.schemaOf id = some schema :=
    fun _ _ _ here allowed stepped => step_schemaOf_kept stepped allowed here
  exact kept.of_run known (guarded_of_forall (fun action member _ => inProcess action member) _)
    ran

/-- A message of the run whose fetch would succeed leaves its schema known. -/
theorem Service.run_schemaOf_of_fetched (inProcess : ∀ action ∈ actions, action.InProcess)
    (ran : run (step crates config) service actions = some final) {env : Env}
    {message : Message} (member : .message env message ∈ actions) {id : UInt32}
    (own : messageId crates message = some id) {schema : Schema}
    (fetched : fetchSchemaById crates env.http
      service.state.config.kafka.schemaRegistryUrl.asStr id = .ok schema) :
    ∃ known, final.world.schemaOf id = some known := by
  rcases List.append_of_mem member with ⟨earlier, later, rfl⟩
  rw [run_append] at ran
  rcases Option.bind_eq_some_iff.mp ran with ⟨before, ranEarlier, rest⟩
  rcases Option.bind_eq_some_iff.mp rest with ⟨after, stepped, ranLater⟩
  have sameState := run_state
    (fun action earlierMem => inProcess action (List.mem_append_left _ earlierMem)) ranEarlier
  have learned := congrFun (step_learned stepped trivial).2 id
  rw [Service.Action.learned, learn, if_pos own, registry, sameState, fetched] at learned
  have known : ∃ known, after.world.schemaOf id = some known := by
    rw [learned]
    cases before.world.schemaOf id with
    | some known => exact ⟨known, rfl⟩
    | none => exact ⟨schema, rfl⟩
  rcases known with ⟨known, here⟩
  exact ⟨known, run_schemaOf_kept (fun action laterMem => inProcess action
    (List.mem_append_right _ (List.mem_cons_of_mem _ laterMem))) ranLater here⟩

end Runs

namespace Sample

/-- The sample deployment with preloaded ids. -/
def preloading (ids : List UInt32) : MyConfig :=
  { config .inMemory with kafka := { kafka with preloadSchemas := some ids } }

/-- A registry that changes the schema text between the first two fetches. -/
def changing : Nat → Http
  | 0 => http
  | _ => fun _ => .ok ⟨⟨200, "200 OK"⟩, "renamed"⟩

/-- The registry is down. -/
def offline : Env := ⟨fun _ => .error "connection refused", fun _ => none⟩

end Sample

end PushCache
