import PushCache.Startup
import PushCache.Transition.Core
import PushCache.Webserver.Core

/-!
# The running service

One service: its consumer, its record routes and its restarts as one transition
system.  A step is a handled message, an answered request or a restart; listing
the keys of a store changes nothing and is left out.  The file states what one
step can store.
-/

namespace PushCache

open PushCache.Transition

/-- A running service; its consumer ends with the first error. -/
structure Service where
  state : MyState
  world : World
  consuming : Bool

/-- Everything the service does. -/
inductive Service.Action where
  | message (env : Env) (message : Message)
  | create (env : Env) (route : RouteDefinition) (key : String) (body : Bytes)
  | delete (env : Env) (route : RouteDefinition) (key : String)
  | get (env : Env) (route : RouteDefinition) (key : String)
  | getByBody (env : Env) (route : RouteDefinition) (body : Json)
  | restart (order : RandomState) (boot : Boot)

/-- A service that has just started. -/
def Service.started (state : MyState) (world : World) : Service :=
  ⟨state, world, true⟩

/-- Answer a request on a mounted route. -/
def Service.request (service : Service) (route : RouteDefinition)
    (handler : Cache → World → Except MyError Response × World) : Option Service :=
  (service.state.mounted route).map fun cache =>
    { service with world := (handler cache service.world).2 }

/-- The transition system. -/
def Service.step (crates : Crates) (config : MyConfig) : Step Service Service.Action
  | service, .message env message =>
      if service.consuming then
        match handleMessage crates service.state env message service.world with
        | (.ok _, world) => some { service with world }
        | (.error _, world) => some { service with world, consuming := false }
      else
        none
  | service, .create env route key body =>
      service.request route fun cache => createRecord env cache key body
  | service, .delete env route key =>
      service.request route fun cache => deleteRecord env cache key
  | service, .get env route key =>
      service.request route fun cache => getRecord crates service.state env cache key
  | service, .getByBody env route body =>
      match route.keyFromBody with
      | some keyField =>
          service.request route fun cache =>
            getRecordByBody crates service.state env cache keyField body
      | none => none
  | service, .restart order boot =>
      match MyState.new crates order boot config service.world.contents with
      | .ok (state, world) => some (Service.started state world)
      | .error _ => none

/-- The action writes the value at the location, and its writer has read it as
the schema id and the body. -/
def Service.Action.Writes (crates : Crates) (service : Service)
    (location : Cell × String) (value : Bytes) (id : UInt32) (data : Bytes) :
    Service.Action → Prop
  | .message env delivered =>
      (∃ cache key, command crates service.state
          (learn crates service.state (env, delivered) service.world.schemaOf) delivered =
            .insert cache key value ∧ cache.location key = location) ∧
        crates.getBytesResult (some value) = .valid id data
  | .create _ route key body =>
      (∃ cache, service.state.mounted route = some cache ∧ cache.location key = location) ∧
        body = value ∧ checkRecord body = .ok id ∧ data = body.drop 5
  | _ => False

/-! ## The steps -/

section Steps

variable {crates : Crates} {config : MyConfig} {service next : Service} {env : Env}
  {route : RouteDefinition}

theorem Service.request_eq_some {handler : Cache → World → Except MyError Response × World}
    (answered : service.request route handler = some next) :
    ∃ cache, service.state.mounted route = some cache ∧ next.state = service.state ∧
      next.world = (handler cache service.world).2 := by
  rcases Option.map_eq_some_iff.mp answered with ⟨cache, mounted, rfl⟩
  exact ⟨cache, mounted, rfl, rfl⟩

theorem Service.step_message {message : Message}
    (stepped : step crates config service (.message env message) = some next) :
    next.state = service.state ∧
      next.world = (handleMessage crates service.state env message service.world).2 := by
  simp only [step] at stepped
  split at stepped
  · split at stepped <;> next handled =>
      cases stepped
      exact ⟨rfl, by rw [handled]⟩
  · cases stepped

theorem Service.step_getByBody {body : Json}
    (stepped : step crates config service (.getByBody env route body) = some next) :
    ∃ keyField, service.request route
      (fun cache => getRecordByBody crates service.state env cache keyField body) =
        some next := by
  simp only [step] at stepped
  split at stepped
  · exact ⟨_, stepped⟩
  · cases stepped

theorem Service.step_restart {order : RandomState} {boot : Boot}
    (stepped : step crates config service (.restart order boot) = some next) :
    MyState.new crates order boot config service.world.contents =
      .ok (next.state, next.world) := by
  simp only [step] at stepped
  split at stepped
  · next created =>
      cases stepped
      exact created
  · cases stepped

/-- A process keeps its state; only a restart makes a new one. -/
theorem Service.step_state {action : Service.Action}
    (stepped : step crates config service action = some next) :
    next.state = service.state ∨
      ∃ order boot, MyState.new crates order boot config service.world.contents =
        .ok (next.state, next.world) := by
  cases action with
  | message env delivered => exact Or.inl (step_message stepped).1
  | create env route key body =>
      rcases request_eq_some stepped with ⟨_, _, state, _⟩
      exact Or.inl state
  | delete env route key =>
      rcases request_eq_some stepped with ⟨_, _, state, _⟩
      exact Or.inl state
  | get env route key =>
      rcases request_eq_some stepped with ⟨_, _, state, _⟩
      exact Or.inl state
  | getByBody env route body =>
      rcases step_getByBody stepped with ⟨_, answered⟩
      rcases request_eq_some answered with ⟨_, _, state, _⟩
      exact Or.inl state
  | restart order boot => exact Or.inr ⟨order, boot, step_restart stepped⟩

end Steps

/-! ## What a step can store -/

/-- A write leaves at most its own content behind. -/
theorem perform_stored {env : Env} {write : StoreWrite} {world : World}
    {location : Cell × String} {value : Bytes}
    (stored : (perform env write world).2.view location = some value) :
    world.view location = some value ∨
      write.location = location ∧ write.content = some value := by
  rw [perform_eq] at stored
  split at stored
  · exact Or.inl stored
  · rw [World.view_resize, write.view_effect, write.patch_apply] at stored
    by_cases here : location = write.location
    · rw [if_pos here] at stored
      exact Or.inr ⟨here.symm, stored⟩
    · rw [if_neg here] at stored
      exact Or.inl stored

/-- An accepted record is inserted. -/
theorem createRecord_world {env : Env} {store : Cache} {key : String} {body : Bytes}
    {id : UInt32} (accepted : checkRecord body = .ok id) (world : World) :
    (createRecord env store key body world).2 =
      (perform env (.insert store key body) world).2 := by
  simp only [createRecord, accepted, perform]
  split <;> next inserted => rw [inserted]

/-- A deletion removes the record. -/
theorem deleteRecord_world (env : Env) (store : Cache) (key : String) (world : World) :
    (deleteRecord env store key world).2 = (perform env (.remove store key) world).2 := by
  simp only [deleteRecord, perform, removeFrom]
  split <;> next removed => simp only [removed]

section Stored

variable {crates : Crates} {config : MyConfig} {service next : Service}
  {action : Service.Action} {env : Env} {location : Cell × String} {value : Bytes}

/-- A message stores at most its payload, where its command inserts it. -/
theorem handleMessage_stored {state : MyState} {message : Message} {world : World}
    (stored : (handleMessage crates state env message world).2.view location =
      some value) :
    world.view location = some value ∨
      ∃ cache key, command crates state
          (learn crates state (env, message) world.schemaOf) message =
            .insert cache key value ∧ cache.location key = location := by
  rw [handleMessage_eq, resolveMessage_schemaOf] at stored
  generalize command crates state (learn crates state (env, message) world.schemaOf)
    message = decided at stored ⊢
  have written := tryForEach_induction
    (fun next : World => next.view location = some value →
      world.view location = some value ∨ ∃ write ∈ decided.writes state,
        write.location = location ∧ write.content = some value)
    (fun write member next ih performed => by
      rcases perform_stored performed with before | ⟨here, content⟩
      · exact ih before
      · exact Or.inr ⟨write, member, here, content⟩)
    (fun before => Or.inl (by rwa [Command.view_note, resolveMessage_view] at before))
    stored
  rcases written with before | ⟨write, member, here, content⟩
  · exact Or.inl before
  · cases decided with
    | insert cache key payload =>
        obtain rfl := List.mem_singleton.mp member
        cases content
        exact Or.inr ⟨cache, key, rfl, here⟩
    | tombstone key =>
        rcases List.mem_map.mp member with ⟨cache, _, rfl⟩
        cases content
    | unrouted => cases member
    | skip => cases member

theorem createRecord_stored {store : Cache} {key : String} {body : Bytes} {world : World}
    (stored : (createRecord env store key body world).2.view location = some value) :
    world.view location = some value ∨
      store.location key = location ∧ body = value ∧ ∃ id, checkRecord body = .ok id := by
  cases checked : checkRecord body with
  | error error =>
      rw [createRecord_of_rejected checked] at stored
      exact Or.inl stored
  | ok id =>
      rw [createRecord_world checked] at stored
      rcases perform_stored stored with before | ⟨here, content⟩
      · exact Or.inl before
      · cases content
        exact Or.inr ⟨here, rfl, id, rfl⟩

/-- Every value a step leaves was there before, or the step writes it. -/
theorem Service.step_stored (stepped : step crates config service action = some next)
    (stored : next.world.view location = some value) :
    service.world.view location = some value ∨
      ∃ id data, action.Writes crates service location value id data := by
  cases action with
  | message env delivered =>
      rw [(step_message stepped).2] at stored
      rcases handleMessage_stored stored with before | ⟨cache, key, decided, here⟩
      · exact Or.inl before
      · rcases command_eq_insert_iff.mp decided with ⟨_, _, id, data, _, _, parsed, _⟩
        exact Or.inr ⟨id, data, ⟨cache, key, decided, here⟩, parsed⟩
  | create env route key body =>
      rcases request_eq_some stepped with ⟨cache, mounted, _, world⟩
      rw [world] at stored
      rcases createRecord_stored stored with before | ⟨here, same, id, accepted⟩
      · exact Or.inl before
      · exact Or.inr ⟨id, body.drop 5, ⟨cache, mounted, here⟩, same, accepted, rfl⟩
  | delete env route key =>
      rcases request_eq_some stepped with ⟨cache, _, _, world⟩
      rw [world, deleteRecord_world] at stored
      rcases perform_stored stored with before | ⟨_, content⟩
      · exact Or.inl before
      · cases content
  | get env route key =>
      rcases request_eq_some stepped with ⟨cache, _, _, world⟩
      rw [world, World.view, getRecord, (retrieveRecordLogic_contents ..).1] at stored
      exact Or.inl stored
  | getByBody env route body =>
      rcases step_getByBody stepped with ⟨keyField, answered⟩
      rcases request_eq_some answered with ⟨cache, _, _, world⟩
      rw [world, World.view, (getRecordByBody_contents ..).1] at stored
      exact Or.inl stored
  | restart order boot =>
      exact Or.inl ((MyState.new_view_eq_some_iff (step_restart stepped)).mp stored).2

/-- A writer reads the value the way the wire format says. -/
theorem Service.Action.Writes.framed (framing : ConfluentFraming crates.getBytesResult)
    {id : UInt32} {data : Bytes}
    (writes : action.Writes crates service location value id data) :
    Framed value id data := by
  cases action with
  | message env delivered => exact (framing value id data).mp writes.2
  | create env route key body =>
      rcases writes with ⟨_, rfl, accepted, rfl⟩
      rcases checkRecord_eq_ok_iff.mp accepted with
        ⟨data, first, second, third, fourth, rfl, rfl⟩
      exact ⟨first, second, third, fourth, rfl, rfl⟩
  | delete env route key => exact writes.elim
  | get env route key => exact writes.elim
  | getByBody env route body => exact writes.elim
  | restart order boot => exact writes.elim

end Stored

/-- A message that brings its schema, a posted record with the same schema, and
a read. -/
def Sample.served : List Service.Action :=
  [.message env (record 1), .create env route "other" (payload 2), .get env route "other"]

end PushCache
