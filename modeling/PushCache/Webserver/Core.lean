import PushCache.Consumer.Plan

/-!
# Request handlers

The handlers of the record routes: reading a record by path or by body, creating
one and deleting one.  A handler answers a response or an error, which
`intoResponse` turns into a response.
-/

namespace PushCache

/-- `start_app_api`: the store a configured route is mounted to; a route whose
store does not exist is not mounted. -/
def MyState.mounted (state : MyState) (route : RouteDefinition) : Option Cache :=
  if route ∈ state.routes then state.stores.lookup route.store else none

/-- What the service answers to a request. -/
structure Response where
  status : Nat
  headers : List (String × String)
  body : Json

/-- `MyError::into_response`, for the errors of this model. -/
def MyError.intoResponse (error : MyError) : Response :=
  let (status, answer) :=
    match error with
    | .message text => (500, text)
    | .badRequest text => (400, text)
    | .notFound text => (404, text)
    | .kafkaError _ => (500, "Kafka Error")
    | .avroError _ => (500, "Avro Deserialization Error")
  ⟨status, [], .object [("message", .string answer)]⟩

/-- `requests_miss.inc()`. -/
def World.countMiss (world : World) : World :=
  { world with
    metrics := { world.metrics with requestsMiss := world.metrics.requestsMiss + 1 } }

/-- The checks of `create_record` and the schema id it reads from an accepted
body; the id is only logged. -/
def checkRecord : Bytes → Except MyError UInt32
  | magic :: first :: second :: third :: fourth :: _ =>
      if magic ≠ 0 then .error (.message "Invalid Magic Byte")
      else .ok (fromBeBytes first second third fourth)
  | _ => .error (.message "Payload too short")

/-- `create_record`. -/
def createRecord (env : Env) (store : Cache) (key : String) (body : Bytes)
    (world : World) : Except MyError Response × World :=
  match checkRecord body with
  | .error error => (.error error, world)
  | .ok _ =>
      match store.insert env.faults key body world with
      | (.ok _, world) => (.ok ⟨201, [], .object [("id", .string key)]⟩, world)
      | (.error error, world) => (.error error, world)

/-- `delete_record`. -/
def deleteRecord (env : Env) (store : Cache) (accountId : String) (world : World) :
    Except MyError Response × World :=
  match store.remove env.faults accountId world with
  | (.error error, world) => (.error error, world)
  | (.ok (some customer), world) =>
      (.ok ⟨200, [], .array (customer.map fun byte => .number (.posInt byte.toNat))⟩, world)
  | (.ok none, world) => (.error (.notFound "User not found"), world)

/-- The second half of `retrieve_record_logic`: from the schema id and the body
of a stored record to the response. -/
def renderRecord (crates : Crates) (state : MyState) (id : UInt32) (data : Bytes)
    (world : World) : Except MyError Response :=
  match world.schemaCache.lookup id with
  | none => .error (.notFound "Schema not found in cache")
  | some schema =>
      match crates.fromAvroDatum schema data with
      | .error text => .error (.avroError text)
      | .ok avroValue =>
          match crates.fromValue avroValue with
          | .error text => .error (.avroError text)
          | .ok json =>
              .ok ⟨200, [("Cache-Control",
                s!"public, max-age={state.config.kafka.cacheMaxAgeSecs}")], json⟩

/-- `retrieve_record_logic`. -/
def retrieveRecordLogic (crates : Crates) (state : MyState) (env : Env) (store : Cache)
    (key : String) (world : World) : Except MyError Response × World :=
  match store.get env.faults key world with
  | .error error => (.error error, world)
  | .ok none => (.error (.notFound "User not found in dynamic cache"), world.countMiss)
  | .ok (some payloadBytes) =>
      match crates.getBytesResult (some payloadBytes) with
      | .valid id data => (renderRecord crates state id data world, world)
      | _ => (.error (.message "Invalid Avro message format"), world)

/-- `get_record`. -/
def getRecord (crates : Crates) (state : MyState) (env : Env) (store : Cache)
    (accountId : String) (world : World) : Except MyError Response × World :=
  retrieveRecordLogic crates state env store accountId world

/-- The key `get_record_by_body` takes from the request body. -/
def bodyKey (keyField : String) (body : Json) : Except MyError String :=
  match body.get keyField with
  | none => .error (.badRequest s!"Missing key '{keyField}' in body")
  | some (.string text) => .ok text
  | some (.number number) => .ok number.toString
  | some _ => .error (.badRequest s!"Key '{keyField}' must be a string or number")

/-- `get_record_by_body`. -/
def getRecordByBody (crates : Crates) (state : MyState) (env : Env) (store : Cache)
    (keyField : String) (body : Json) (world : World) : Except MyError Response × World :=
  match bodyKey keyField body with
  | .error error => (.error error, world)
  | .ok key => retrieveRecordLogic crates state env store key world

/-! ## What the handlers do to the records -/

/-- A body is accepted exactly when it is in Confluent format, and its id is
the one read. -/
theorem checkRecord_eq_ok_iff {body : Bytes} {id : UInt32} :
    checkRecord body = .ok id ↔ ∃ data, Framed body id data := by
  constructor
  · intro accepted
    rcases body with _ | ⟨magic, _ | ⟨first, _ | ⟨second, _ | ⟨third, _ | ⟨fourth, rest⟩⟩⟩⟩⟩
    case cons.cons.cons.cons.cons =>
      simp only [checkRecord] at accepted
      by_cases zero : magic = 0
      · rw [if_neg (not_not.mpr zero)] at accepted
        cases accepted
        exact ⟨rest, first, second, third, fourth, by rw [zero], rfl⟩
      · rw [if_pos zero] at accepted
        cases accepted
    all_goals cases accepted
  · rintro ⟨data, first, second, third, fourth, rfl, rfl⟩
    simp [checkRecord]

/-- A rejected body changes nothing. -/
theorem createRecord_of_rejected {env : Env} {store : Cache} {key : String} {body : Bytes}
    {world : World} {error : MyError} (rejected : checkRecord body = .error error) :
    createRecord env store key body world = (.error error, world) := by
  simp only [createRecord, rejected]

/-- A record in Confluent format is rendered from its id and its body. -/
theorem retrieveRecordLogic_of_framed {crates : Crates}
    (framing : ConfluentFraming crates.getBytesResult) (state : MyState) {env : Env}
    {store : Cache} {key : String} {value data : Bytes} {id : UInt32} {world : World}
    (got : store.get env.faults key world = .ok (some value))
    (framed : Framed value id data) :
    retrieveRecordLogic crates state env store key world =
      (renderRecord crates state id data world, world) := by
  simp only [retrieveRecordLogic, got, (framing value id data).mpr framed]

/-- Rendering fails with a missing schema or with an Avro error. -/
theorem renderRecord_ne_message (crates : Crates) (state : MyState) (id : UInt32)
    (data : Bytes) (world : World) (text : String) :
    renderRecord crates state id data world ≠ .error (.message text) := by
  simp only [renderRecord]
  repeat' split
  all_goals simp

/-- Reading a record changes counters only. -/
theorem retrieveRecordLogic_contents (crates : Crates) (state : MyState) (env : Env)
    (store : Cache) (key : String) (world : World) :
    (retrieveRecordLogic crates state env store key world).2.contents = world.contents ∧
      (retrieveRecordLogic crates state env store key world).2.schemaCache =
        world.schemaCache := by
  simp only [retrieveRecordLogic]
  repeat' split
  all_goals exact ⟨rfl, rfl⟩

theorem getRecordByBody_contents (crates : Crates) (state : MyState) (env : Env)
    (store : Cache) (keyField : String) (body : Json) (world : World) :
    (getRecordByBody crates state env store keyField body world).2.contents =
        world.contents ∧
      (getRecordByBody crates state env store keyField body world).2.schemaCache =
        world.schemaCache := by
  simp only [getRecordByBody]
  split
  · exact ⟨rfl, rfl⟩
  · exact retrieveRecordLogic_contents crates state env store _ world

end PushCache
