import PushCache.Service.Core

/-!
# The counters of the service

Six counters are registered for the metrics endpoint.  This file counts, from the
outside, what each of them is meant to count since the process started, and
compares.  Unrouted messages, tombstones and misses are always counted exactly.
Nothing moves the other three, so the counters tell the truth about a run exactly
when it has no malformed payload, no inserted message and no record lookup.
-/

namespace PushCache

open PushCache.Transition

/-- The counters. -/
inductive Counter where
  | schemaMismatchCount
  | updatesReceived
  | schemaUnroutedCount
  | tombstonesProcessed
  | requestsTotal
  | requestsMiss
  deriving DecidableEq

/-- What a counter shows. -/
def Counter.value (metrics : Metrics) : Counter → Nat
  | .schemaMismatchCount => metrics.schemaMismatchCount
  | .updatesReceived => metrics.updatesReceived
  | .schemaUnroutedCount => metrics.schemaUnroutedCount
  | .tombstonesProcessed => metrics.tombstonesProcessed
  | .requestsTotal => metrics.requestsTotal
  | .requestsMiss => metrics.requestsMiss

/-- The counters that some line of the service increments. -/
def Counter.isIncremented : Counter → Bool
  | .schemaMismatchCount => false
  | .updatesReceived => false
  | .schemaUnroutedCount => true
  | .tombstonesProcessed => true
  | .requestsTotal => false
  | .requestsMiss => true

/-! ## What there is to count -/

/-- The store that takes the records of a schema. -/
def MyState.storeOf (state : MyState) (schema : Schema) : Option Cache :=
  (state.schemaToStore.lookup (fullName schema)).bind fun name => state.stores.lookup name

/-- The payload of the message is not in Confluent format. -/
def Message.isMismatched (crates : Crates) (message : Message) : Bool :=
  message.payload.isSome && (messageId crates message).isNone

/-- The message deletes a key. -/
def Message.isTombstone (message : Message) : Bool :=
  message.payload.isNone && (message.key.bind fromUtf8).isSome

namespace Service

/-- The schema a message resolves to: the cached one of its id, or else the one
the registry answers. -/
def resolvedSchema (crates : Crates) (service : Service) (env : Env) (message : Message) :
    Option Schema :=
  (messageId crates message).bind fun id =>
    (service.world.schemaOf id).or (registry crates service.state env id)

/-- The schema of the message has no store. -/
def isUnrouted (crates : Crates) (service : Service) (env : Env) (message : Message) : Bool :=
  (service.resolvedSchema crates env message).any fun schema =>
    (service.state.storeOf schema).isNone

/-- The message is inserted into the store of its schema: it has one, its key is
text, and the insertion works. -/
def isInserted (crates : Crates) (service : Service) (env : Env) (message : Message) : Bool :=
  ((service.resolvedSchema crates env message).bind service.state.storeOf).any fun store =>
    (message.key.bind fromUtf8).any fun key =>
      message.payload.any fun payload => ((StoreWrite.insert store key payload).fault env).isNone

/-- The record a request looks up. -/
def Action.lookup? : Action → Option (Env × RouteDefinition × String)
  | .get env route key => some (env, route, key)
  | .getByBody env route body =>
      route.keyFromBody.bind fun keyField =>
        (bodyKey keyField body).toOption.map fun key => (env, route, key)
  | _ => none

/-- The store of the route answers that it does not have the key. -/
def isAbsent (service : Service) : Env × RouteDefinition × String → Bool
  | (env, route, key) =>
      (service.state.mounted route).any fun store =>
        match store.get env.faults key service.world with
        | .ok none => true
        | _ => false

/-- The action is one of those a counter is meant to count. -/
def Action.isCounted (crates : Crates) (service : Service) : Counter → Action → Bool
  | .schemaMismatchCount, .message _ delivered => delivered.isMismatched crates
  | .updatesReceived, .message env delivered => service.isInserted crates env delivered
  | .schemaUnroutedCount, .message env delivered => service.isUnrouted crates env delivered
  | .tombstonesProcessed, .message _ delivered => delivered.isTombstone
  | .requestsTotal, action => action.lookup?.isSome
  | .requestsMiss, action => action.lookup?.any service.isAbsent
  | _, _ => false

/-- How often each kind of action has occurred since the process started. -/
abbrev Tally := Counter → Nat

/-- The tally after an action. -/
def Tally.after (crates : Crates) (service : Service) (action : Action) (tally : Tally) : Tally :=
  match action with
  | .restart _ _ => fun _ => 0
  | action => fun counter =>
      tally counter + if action.isCounted crates service counter then 1 else 0

/-- The service next to the tally. -/
structure Audited where
  service : Service
  tally : Tally

/-- The transition system of the service with the tally. -/
def auditedStep (crates : Crates) (config : MyConfig) : Step Audited Action
  | audited, action =>
      (step crates config audited.service action).map fun next =>
        ⟨next, audited.tally.after crates audited.service action⟩

/-- Every counter shows its tally, and there are no more misses than requests. -/
def Audited.Truthful (audited : Audited) : Prop :=
  (∀ counter : Counter, counter.value audited.service.world.metrics = audited.tally counter) ∧
    audited.service.world.metrics.requestsMiss ≤ audited.service.world.metrics.requestsTotal

end Service

/-! ## One message -/

/-- Every routed schema name has a store. -/
def MyState.RoutesFound (state : MyState) : Prop :=
  ∀ schema name, state.schemaToStore.lookup schema = some name →
    ∃ store, state.stores.lookup name = some store

/-- The counter a command moves. -/
def Command.counter? : Command → Option Counter
  | .tombstone _ => some .tombstonesProcessed
  | .unrouted => some .schemaUnroutedCount
  | _ => none

theorem Command.value_note (command : Command) (world : World) (counter : Counter) :
    counter.value (command.note world).metrics =
      counter.value world.metrics + if command.counter? = some counter then 1 else 0 := by
  cases command <;> cases counter <;> rfl

theorem Counter.value_of_rest {first second : World} (same : first.rest = second.rest)
    (counter : Counter) : counter.value first.metrics = counter.value second.metrics := by
  have metrics := congrArg (fun rest => counter.value rest.2.2) same
  cases counter <;> exact metrics

theorem resolveMessage_metrics (crates : Crates) (state : MyState) (env : Env)
    (message : Message) (world : World) :
    (resolveMessage crates state env message world).metrics = world.metrics := by
  simp only [resolveMessage, cacheSchema]
  repeat' split
  all_goals rfl

/-- Handling a message moves the counter of its command. -/
theorem handleMessage_value (crates : Crates) (state : MyState) (env : Env)
    (message : Message) (world : World) (counter : Counter) :
    counter.value (handleMessage crates state env message world).2.metrics =
      counter.value world.metrics +
        if (command crates state (learn crates state (env, message) world.schemaOf)
          message).counter? = some counter then 1 else 0 := by
  rw [Counter.value_of_rest (handleMessage_rest crates state env message world),
    Command.value_note, resolveMessage_metrics]

/-- The command for a payload, in terms of the schema it resolves to. -/
theorem command_of_payload {crates : Crates} {service : Service}
    (found : service.state.RoutesFound) (env : Env) (key : Option Bytes) (payload : Bytes) :
    command crates service.state
        (learn crates service.state (env, ⟨key, some payload⟩) service.world.schemaOf)
        ⟨key, some payload⟩ =
      match (service.resolvedSchema crates env ⟨key, some payload⟩).map
          service.state.storeOf with
      | none => .skip
      | some none => .unrouted
      | some (some store) =>
          match key.bind fromUtf8 with
          | some text => .insert store text payload
          | none => .skip := by
  cases parsed : crates.getBytesResult (some payload) with
  | null => simp [command, Service.resolvedSchema, messageId, parsed]
  | invalid bytes => simp [command, Service.resolvedSchema, messageId, parsed]
  | valid id data =>
      have learned : learn crates service.state (env, ⟨key, some payload⟩)
          service.world.schemaOf id =
            (service.world.schemaOf id).or (registry crates service.state env id) := by
        simp [learn, messageId, parsed]
      simp only [command, Service.resolvedSchema, messageId, parsed, learned, Option.bind_some]
      cases (service.world.schemaOf id).or (registry crates service.state env id) with
      | none => rfl
      | some schema =>
          simp only [Option.map_some, MyState.storeOf]
          cases routed : service.state.schemaToStore.lookup (fullName schema) with
          | none => rfl
          | some name =>
              rcases found _ name routed with ⟨store, there⟩
              simp only [Option.bind_some, there]
              cases key.bind fromUtf8 <;> rfl

/-- The command of a message moves a counter exactly when the counter is one that
is incremented and the message is one it is meant to count. -/
theorem command_counter?_iff {crates : Crates} {service : Service}
    (found : service.state.RoutesFound) (env : Env) (message : Message) (counter : Counter) :
    (command crates service.state
        (learn crates service.state (env, message) service.world.schemaOf)
        message).counter? = some counter ↔
      counter.isIncremented = true ∧
        (Service.Action.message env message).isCounted crates service counter = true := by
  rcases message with ⟨key, payload⟩
  cases payload with
  | none =>
      have unresolved : service.resolvedSchema crates env ⟨key, none⟩ = none := rfl
      cases decoded : key.bind fromUtf8 <;> cases counter <;>
        simp [command, Command.counter?, Counter.isIncremented, Service.Action.isCounted,
          Service.isUnrouted, unresolved, Message.isTombstone, decoded, Service.Action.lookup?]
  | some payload =>
      rw [command_of_payload found env key payload]
      cases counter
      case schemaUnroutedCount =>
        simp only [Counter.isIncremented, Service.Action.isCounted, Service.isUnrouted, true_and]
        cases service.resolvedSchema crates env ⟨key, some payload⟩ with
        | none => simp [Command.counter?]
        | some schema =>
            cases stored : service.state.storeOf schema <;> cases key.bind fromUtf8 <;>
              simp [Command.counter?, stored]
      all_goals
        simp only [Counter.isIncremented, Service.Action.isCounted, Message.isTombstone,
          Service.Action.lookup?]
        repeat' split
        all_goals simp [Command.counter?]

/-! ## One request -/

/-- A lookup moves the counter of misses when the store does not have the key. -/
theorem retrieveRecordLogic_value (crates : Crates) (service : Service) {env : Env}
    {route : RouteDefinition} {store : Cache} (mounted : service.state.mounted route = some store)
    (key : String) (counter : Counter) :
    counter.value (retrieveRecordLogic crates service.state env store key
        service.world).2.metrics =
      counter.value service.world.metrics +
        if counter = .requestsMiss ∧ service.isAbsent (env, route, key) = true then 1 else 0 := by
  simp only [retrieveRecordLogic, Service.isAbsent, mounted, Option.any_some]
  cases store.get env.faults key service.world with
  | error error => simp
  | ok found =>
      cases found with
      | none => cases counter <;> rfl
      | some payload =>
          simp only
          cases crates.getBytesResult (some payload) <;> simp

/-- A lookup is counted as a request, and as a miss when the key is absent. -/
theorem Service.isCounted_of_lookup {crates : Crates} {service : Service} {action : Action}
    {env : Env} {route : RouteDefinition} {key : String}
    (looksUp : action.lookup? = some (env, route, key)) (counter : Counter) :
    (counter.isIncremented = true ∧ action.isCounted crates service counter = true) ↔
      counter = .requestsMiss ∧ service.isAbsent (env, route, key) = true := by
  cases action <;> cases counter <;>
    simp_all [Counter.isIncremented, Action.isCounted, Action.lookup?]

section Steps

variable {crates : Crates} {config : MyConfig} {service next : Service}
  {action : Service.Action}

/-- One step of a process moves the counters that are incremented as they are
meant to be, and no others. -/
theorem Service.step_value (found : service.state.RoutesFound)
    (stepped : step crates config service action = some next)
    (running : ∀ order boot, action ≠ .restart order boot) (counter : Counter) :
    counter.value next.world.metrics =
      counter.value service.world.metrics +
        if counter.isIncremented = true ∧ action.isCounted crates service counter = true
        then 1 else 0 := by
  cases action with
  | message env delivered =>
      rw [(step_message stepped).2, handleMessage_value]
      simp only [command_counter?_iff found env delivered counter]
  | create env route key body =>
      rcases request_eq_some stepped with ⟨store, _, _, world⟩
      have same : next.world.rest = service.world.rest := by
        rw [world]
        cases checked : checkRecord body with
        | error error => rw [createRecord_of_rejected checked]
        | ok id => rw [createRecord_world checked, perform_rest]
      rw [Counter.value_of_rest same]
      cases counter <;> rfl
  | delete env route key =>
      rcases request_eq_some stepped with ⟨store, _, _, world⟩
      rw [world, deleteRecord_world,
        Counter.value_of_rest (perform_rest env (.remove store key) service.world)]
      cases counter <;> rfl
  | get env route key =>
      rcases request_eq_some stepped with ⟨store, mounted, _, world⟩
      rw [world, getRecord, retrieveRecordLogic_value crates service mounted]
      simp only [isCounted_of_lookup (show (Action.get env route key).lookup? = _ from rfl)]
  | getByBody env route body =>
      simp only [step] at stepped
      split at stepped
      · next keyField keyed =>
          rcases request_eq_some stepped with ⟨store, mounted, _, world⟩
          rw [world, getRecordByBody]
          cases extracted : bodyKey keyField body with
          | error error =>
              have none : (Action.getByBody env route body).lookup? = none := by
                simp [Action.lookup?, keyed, extracted, Except.toOption]
              cases counter <;> simp [Counter.isIncremented, Action.isCounted, none]
          | ok key =>
              have looksUp : (Action.getByBody env route body).lookup? =
                  some (env, route, key) := by
                simp [Action.lookup?, keyed, extracted, Except.toOption]
              simp only [isCounted_of_lookup looksUp]
              exact retrieveRecordLogic_value crates service mounted key counter
      · cases stepped
  | restart order boot => exact absurd rfl (running order boot)

/-- The process goes on with the routes it was started with, or is a new one. -/
theorem Service.step_routesFound (found : service.state.RoutesFound)
    (stepped : step crates config service action = some next) : next.state.RoutesFound := by
  rcases step_state stepped with same | ⟨order, boot, created⟩
  · rw [same]
    exact found
  · intro schema name routed
    exact MyState.new_route_found created routed

end Steps

/-! ## Runs -/

namespace Service

variable {crates : Crates} {config : MyConfig}

/-- The counters that are incremented show their tally, and no more misses than
requests have been counted. -/
structure Accounted (audited : Audited) : Prop where
  found : audited.service.state.RoutesFound
  exactly : ∀ counter : Counter, counter.isIncremented = true →
    counter.value audited.service.world.metrics = audited.tally counter
  fewer : audited.tally .requestsMiss ≤ audited.tally .requestsTotal

/-- The action is not a payload in another format, an inserted message or a
lookup, which no counter counts. -/
def Remembered (crates : Crates) (audited : Audited) (action : Action) : Prop :=
  ∀ counter ∈ [Counter.schemaMismatchCount, .updatesReceived, .requestsTotal],
    action.isCounted crates audited.service counter = false

theorem remembered_iff {audited : Audited} {action : Action} :
    Remembered crates audited action ↔ ∀ counter : Counter, counter.isIncremented = false →
      action.isCounted crates audited.service counter = false := by
  apply forall_congr'
  rintro (_ | _ | _ | _ | _ | _) <;> simp [Counter.isIncremented]

variable {audited next : Audited} {action : Action}

/-- A service that has just started has counted nothing. -/
theorem accounted_started {order : RandomState} {boot : Boot} {persisted : Cell → Records}
    {state : MyState} {world : World}
    (created : MyState.new crates order boot config persisted = .ok (state, world)) :
    Accounted ⟨Service.started state world, fun _ => 0⟩ ∧
      Audited.Truthful ⟨Service.started state world, fun _ => 0⟩ := by
  have zero : world.metrics = .zero := by
    rcases MyState.new_eq_ok created with ⟨_, _, _, _, _, rfl⟩
    rfl
  have shown : ∀ counter : Counter, counter.value world.metrics = 0 := by
    intro counter
    rw [zero]
    cases counter <;> rfl
  constructor
  · exact ⟨fun _ _ => MyState.new_route_found created, fun counter _ => shown counter, le_rfl⟩
  · refine ⟨shown, ?_⟩
    rw [Service.started, zero]
    exact le_rfl

/-- A miss is a lookup. -/
theorem isCounted_requestsTotal {service : Service}
    (missed : action.isCounted crates service .requestsMiss = true) :
    action.isCounted crates service .requestsTotal = true := by
  simp only [Action.isCounted] at missed ⊢
  cases looksUp : action.lookup? with
  | none => simp [looksUp] at missed
  | some lookup => rfl

/-- A restart counts from zero; every other step moves the tallies of the action,
and those counters among them that are incremented. -/
theorem auditedStep_eq_some (accounted : Accounted audited)
    (stepped : auditedStep crates config audited action = some next) :
    (Accounted next ∧ next.Truthful ∧ Remembered crates audited action) ∨
      next.service.state.RoutesFound ∧
        ∀ counter : Counter,
          counter.value next.service.world.metrics =
              counter.value audited.service.world.metrics +
                (if counter.isIncremented = true ∧
                  action.isCounted crates audited.service counter = true then 1 else 0) ∧
            next.tally counter = audited.tally counter +
              if action.isCounted crates audited.service counter then 1 else 0 := by
  rcases Option.map_eq_some_iff.mp stepped with ⟨service, serviceStep, rfl⟩
  by_cases restarts : ∃ order boot, action = .restart order boot
  · rcases restarts with ⟨order, boot, rfl⟩
    left
    simp only [step] at serviceStep
    split at serviceStep
    · next created =>
        cases serviceStep
        rcases accounted_started created with ⟨accounted, truthful⟩
        refine ⟨accounted, truthful, remembered_iff.mpr fun counter _ => ?_⟩
        cases counter <;> rfl
    · cases serviceStep
  · right
    have running : ∀ order boot, action ≠ .restart order boot := fun order boot same =>
      restarts ⟨order, boot, same⟩
    refine ⟨step_routesFound accounted.found serviceStep, fun counter => ⟨?_, ?_⟩⟩
    · exact step_value accounted.found serviceStep running counter
    · cases action <;> first | rfl | exact absurd rfl (running _ _)

/-- One step keeps the counters that are incremented exact. -/
theorem Accounted.step (accounted : Accounted audited)
    (stepped : auditedStep crates config audited action = some next) : Accounted next := by
  rcases auditedStep_eq_some accounted stepped with ⟨kept, _⟩ | ⟨found, moved⟩
  · exact kept
  · constructor
    · exact found
    · intro counter incremented
      rw [(moved counter).1, (moved counter).2, accounted.exactly counter incremented]
      simp only [incremented, true_and]
    · rw [(moved .requestsMiss).2, (moved .requestsTotal).2]
      have fewer := accounted.fewer
      by_cases missed : action.isCounted crates audited.service .requestsMiss = true
      · rw [if_pos missed, if_pos (isCounted_requestsTotal missed)]
        omega
      · rw [if_neg missed]
        omega

/-- From a truthful state, a step leads to one exactly when no counter forgets its
action. -/
theorem truthful_step_iff (accounted : Accounted audited) (truthful : audited.Truthful)
    (stepped : auditedStep crates config audited action = some next) :
    next.Truthful ↔ Remembered crates audited action := by
  have kept := accounted.step stepped
  rcases auditedStep_eq_some accounted stepped with ⟨_, holds, remembered⟩ | ⟨_, moved⟩
  · exact iff_of_true holds remembered
  · rw [remembered_iff]
    constructor
    · intro holds counter forgotten
      have same := holds.1 counter
      rw [(moved counter).1, (moved counter).2, truthful.1 counter, forgotten] at same
      by_contra counted
      rw [Bool.not_eq_false] at counted
      simp [counted] at same
    · intro remembered
      have shown : ∀ counter : Counter,
          counter.value next.service.world.metrics = next.tally counter := by
        intro counter
        rw [(moved counter).1, (moved counter).2, truthful.1 counter]
        cases incremented : counter.isIncremented with
        | true => simp only [true_and]
        | false => simp [remembered counter incremented]
      refine ⟨shown, ?_⟩
      have misses := shown .requestsMiss
      have lookups := shown .requestsTotal
      simp only [Counter.value] at misses lookups
      rw [misses, lookups]
      exact kept.fewer

/-- In every run of a started service: the counters for unrouted messages,
tombstones and misses are exact at the end, and all six are exact, with no more
misses than requests, in every state reached exactly when no action of the run is
a message with a payload in another format, a message that is inserted, or a
record lookup. -/
theorem counters_truthful_iff {order : RandomState} {boot : Boot} {persisted : Cell → Records}
    {state : MyState} {world : World}
    (created : MyState.new crates order boot config persisted = .ok (state, world))
    {actions : List Action} {final : Audited}
    (ran : run (auditedStep crates config) ⟨started state world, fun _ => 0⟩ actions =
      some final) :
    (∀ counter : Counter, counter.isIncremented = true →
      counter.value final.service.world.metrics = final.tally counter) ∧
    (Guarded (auditedStep crates config) (Remembered crates)
        ⟨started state world, fun _ => 0⟩ actions ↔
      ∀ earlier later reached, actions = earlier ++ later →
        run (auditedStep crates config) ⟨started state world, fun _ => 0⟩ earlier =
          some reached → reached.Truthful) := by
  have initial := accounted_started created
  have preserved : Preserved (auditedStep crates config) Accounted :=
    fun _ _ _ accounted stepped => accounted.step stepped
  constructor
  · exact (preserved.of_run initial.1 ran).exactly
  · have exactGuard : ∀ ⦃source action target⦄, Accounted source ∧ source.Truthful →
        auditedStep crates config source action = some target →
          (Accounted target ∧ target.Truthful ↔ Remembered crates source action) := by
      intro source action target holds stepped
      rw [and_iff_right (holds.1.step stepped)]
      exact truthful_step_iff holds.1 holds.2 stepped
    rw [guarded_iff_forall_reached exactGuard initial ran]
    constructor
    · intro everywhere earlier later reached split reachedBy
      exact (everywhere earlier later reached split reachedBy).2
    · intro everywhere earlier later reached split reachedBy
      exact ⟨preserved.of_run initial.1 reachedBy,
        everywhere earlier later reached split reachedBy⟩

end Service

namespace Sample

open PushCache.Service hiding started

/-- A tombstone is counted. -/
theorem counters_truthful_of_tombstone :
    ∃ final, run (auditedStep crates (config redis))
        ⟨Service.started (state redis) (world fun _ => ∅), fun _ => 0⟩ [.message env tombstone] =
          some final ∧
      final.service.world.metrics.tombstonesProcessed = 1 ∧ final.Truthful := by
  have ran : ∃ final, run (auditedStep crates (config redis))
      ⟨Service.started (state redis) (world fun _ => ∅), fun _ => 0⟩ [.message env tombstone] =
        some final ∧ final.service.world.metrics.tombstonesProcessed = 1 := ⟨_, rfl, rfl⟩
  rcases ran with ⟨final, ran, counted⟩
  have remembered : Remembered crates
      ⟨Service.started (state redis) (world fun _ => ∅), fun _ => 0⟩ (.message env tombstone) := by
    rw [Remembered]
    decide
  have truthful := (counters_truthful_iff (started redis fun _ => ∅) ran).2.mp
    ⟨remembered, fun _ _ => trivial⟩
  exact ⟨final, ran, counted, truthful _ [] final (List.append_nil _).symm ran⟩

/-- An inserted record and a request for an absent key: the update is not counted,
and there is a miss without a request. -/
theorem counters_forget :
    ∃ final, run (auditedStep crates (config redis))
        ⟨Service.started (state redis) (world fun _ => ∅), fun _ => 0⟩
        [.message env (record 1), .get env route "other"] = some final ∧
      final.tally .updatesReceived = 1 ∧ final.service.world.metrics.updatesReceived = 0 ∧
      final.tally .requestsTotal = 1 ∧ final.service.world.metrics.requestsTotal = 0 ∧
      final.service.world.metrics.requestsMiss = 1 :=
  ⟨_, rfl, rfl, rfl, rfl, rfl, rfl⟩

end Sample

end PushCache
