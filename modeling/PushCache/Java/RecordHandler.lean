import PushCache.Java.Flow
import PushCache.Java.WebConfig

/-!
# The record handler of the web service

The methods of `RecordHandler` that read, create and delete one record.  Unlike the
Rust service, a reader fetches a schema that is not cached, and both requests for a
record count it before they look it up.  What a store throws leaves the handler;
what decoding a record throws is caught and answered.
-/

namespace PushCache.Java

/-- The body of a response: a JSON value, or bytes that are written as they are. -/
inductive ResponseBody where
  | json (value : Json)
  | bytes (value : Bytes)

/-- `ServerResponse`. -/
structure ServerResponse where
  status : Nat
  headers : List (String × String)
  body : ResponseBody

/-- A response with a JSON object of a single field. -/
def ServerResponse.singleton (status : Nat) (field text : String) : ServerResponse :=
  ⟨status, [("Content-Type", "application/json")], .json (.object [(field, .string text)])⟩

/-- A response with a `message`. -/
def ServerResponse.message (status : Nat) (text : String) : ServerResponse :=
  .singleton status "message" text

/-- Avro's datum reader and its JSON encoder; the message of an exception can be
null. -/
structure Codec where
  Datum : Type
  read : Schema → Bytes → Except (Option String) Datum
  encode : Schema → Datum → Except (Option String) Bytes

/-- What the outside world answers while a request is handled. -/
structure RequestEnv extends Env where
  readFaults : Cache → String → Option JavaException

/-- The state of a process: what the beans share, and the request counters of every
store name. -/
structure Process where
  world : World
  requestsTotal : String → Nat
  requestsMiss : String → Nat

/-- `incrementRequestsTotal`. -/
def Process.incrementRequestsTotal (process : Process) (storeName : String) : Process :=
  { process with
    requestsTotal :=
      Function.update process.requestsTotal storeName (process.requestsTotal storeName + 1) }

/-- `incrementRequestsMiss`. -/
def Process.incrementRequestsMiss (process : Process) (storeName : String) : Process :=
  { process with
    requestsMiss :=
      Function.update process.requestsMiss storeName (process.requestsMiss storeName + 1) }

@[simp]
theorem Process.incrementRequestsTotal_world (process : Process) (storeName : String) :
    (process.incrementRequestsTotal storeName).world = process.world :=
  rfl

@[simp]
theorem Process.incrementRequestsMiss_world (process : Process) (storeName : String) :
    (process.incrementRequestsMiss storeName).world = process.world :=
  rfl

/-- `store.get(key)`. -/
def Cache.get (readFaults : Cache → String → Option JavaException) (cache : Cache)
    (key : String) (world : World) : Except JavaException (Option Bytes) :=
  match cache.definition.type with
  | .inMemory => .ok ((world.contents (.inMemory cache.definition.name)).lookup key)
  | _ =>
      match readFaults cache key with
      | some thrown => .error thrown
      | none => .ok (world.view (cache.location key))

/-- `RecordHandler`: its store, and what it reads of the configuration. -/
structure RecordHandler where
  cache : Cache
  registryUrl : String
  cacheMaxAge : Nat
  keyFromBody : Option String

namespace RecordHandler

/-- `createRecord`; an empty body is no body. -/
def createRecord (handler : RecordHandler) (env : RequestEnv) (id : String) (body : Bytes)
    (process : Process) : Except JavaException ServerResponse × Process :=
  if body.isEmpty then (.ok (.message 500 "Failed to read body"), process)
  else if body.length < 5 then (.ok (.message 500 "Payload too short"), process)
  else if body.head? ≠ some 0 then (.ok (.message 500 "Invalid Magic Byte"), process)
  else
    match handler.cache.put env.faults id body process.world with
    | (.ok _, world) => (.ok (.singleton 201 "id" id), { process with world })
    | (.error thrown, world) => (.error thrown, { process with world })

/-- The end of `retrieveRecord`: from the schema and the body of a record to the
response; what Avro throws is caught and answered. -/
def answerDatum (codec : Codec) (handler : RecordHandler) (schema : Schema) (binary : Bytes) :
    ServerResponse :=
  match codec.read schema binary with
  | .error text => .message 500 (text.getD "Avro Deserialization Error")
  | .ok datum =>
      match codec.encode schema datum with
      | .error text => .message 500 (text.getD "Avro Deserialization Error")
      | .ok jsonBytes =>
          ⟨200, [("Content-Type", "application/json"),
            ("Cache-Control", s!"max-age={handler.cacheMaxAge}, public")], .bytes jsonBytes⟩

/-- What `retrieveRecord` makes of the bytes of a record. -/
def renderRecord (libraries : Libraries) (codec : Codec) (handler : RecordHandler)
    (restClient : RestClient) (data : Bytes) (world : World) : ServerResponse × World :=
  -- thrown and caught in the same `try`
  if data.length < 5 ∨ data.head? ≠ some 0 then
    (.message 500 "Invalid Avro message format", world)
  else
    match getSchema libraries restClient handler.registryUrl (readSchemaId data) world with
    | (.error _, world) => (.message 404 "Schema not found in cache", world)
    | (.ok schema, world) => (handler.answerDatum codec schema (data.drop 5), world)

/-- `retrieveRecord`. -/
def retrieveRecord (libraries : Libraries) (codec : Codec) (handler : RecordHandler)
    (env : RequestEnv) (id : String) (process : Process) :
    Except JavaException ServerResponse × Process :=
  match handler.cache.get env.readFaults id process.world with
  | .error thrown => (.error thrown, process)
  | .ok (some data) =>
      match renderRecord libraries codec handler env.restClient data process.world with
      | (response, world) => (.ok response, { process with world })
  | .ok none =>
      (.ok (.message 404 "User not found in dynamic cache"),
        process.incrementRequestsMiss handler.cache.definition.name)

/-- `getRecord`. -/
def getRecord (libraries : Libraries) (codec : Codec) (handler : RecordHandler)
    (env : RequestEnv) (id : String) (process : Process) :
    Except JavaException ServerResponse × Process :=
  retrieveRecord libraries codec handler env id
    (process.incrementRequestsTotal handler.cache.definition.name)

/-- The id `getRecordByBody` takes from the object of a body, or its answer. -/
def bodyId (handler : RecordHandler) (body : List (String × Json)) :
    Except ServerResponse String :=
  match handler.keyFromBody with
  | none => .error (.message 500 "key_from_body not configured")
  | some keyFromBody =>
      match body.lookup keyFromBody with
      | none => .error (.message 400 s!"Missing key '{keyFromBody}' in body")
      | some (.string text) => .ok text
      | some (.number number) => .ok number.toString
      | some _ => .error (.message 400 s!"Key '{keyFromBody}' must be a string or number")

/-- `getRecordByBody`, given what `bodyToMono(Map.class)` emits. -/
def getRecordByBody (libraries : Libraries) (codec : Codec) (handler : RecordHandler)
    (env : RequestEnv) (body : Except JavaException (Option (List (String × Json))))
    (process : Process) : Except JavaException ServerResponse × Process :=
  let process := process.incrementRequestsTotal handler.cache.definition.name
  match body with
  | .error thrown => (.error thrown, process)
  | .ok none => (.ok (.message 400 "Invalid JSON body"), process)
  | .ok (some body) =>
      match handler.bodyId body with
      | .error response => (.ok response, process)
      | .ok id => retrieveRecord libraries codec handler env id process

/-- `deleteRecord`. -/
def deleteRecord (handler : RecordHandler) (env : RequestEnv) (id : String)
    (process : Process) : Except JavaException ServerResponse × Process :=
  match handler.cache.remove env.faults id process.world with
  | (.error thrown, world) => (.error thrown, { process with world })
  | (.ok (some data), world) => (.ok ⟨200, [], .bytes data⟩, { process with world })
  | (.ok none, world) => (.ok (.message 404 "User not found"), { process with world })

end RecordHandler

/-! ## What the handlers do to the stores -/

/-- The checks of `createRecord` accept a body. -/
def Accepted (body : Bytes) : Prop :=
  ¬(body.length < 5 ∨ body.head? ≠ some 0)

instance (body : Bytes) : Decidable (Accepted body) :=
  inferInstanceAs (Decidable ¬(body.length < 5 ∨ body.head? ≠ some 0))

/-- They accept what the checks of the Rust service accept. -/
theorem accepted_iff (body : Bytes) : Accepted body ↔ ∃ id data, Framed body id data := by
  rw [exists_framed_iff, Accepted, not_or, not_lt, not_not, Nat.succ_le_iff]

/-- A value in Confluent format is read as its id and its body. -/
theorem readSchemaId_of_framed {value data : Bytes} {id : UInt32} (framed : Framed value id data) :
    (readSchemaId value).toUInt32 = id ∧ value.drop 5 = data := by
  rcases framed with ⟨first, second, third, fourth, rfl, rfl⟩
  exact ⟨rfl, rfl⟩

theorem Cache.get_of_inMemory {cache : Cache} (inMemory : cache.definition.type = .inMemory)
    (readFaults : Cache → String → Option JavaException) (key : String) (world : World) :
    cache.get readFaults key world = .ok (world.records (cache.definition.name, key)) := by
  rw [Cache.get, inMemory]
  rfl

/-- What a store answers is what it holds. -/
theorem Cache.get_of_ok {cache : Cache} {readFaults : Cache → String → Option JavaException}
    {key : String} {world : World} {found : Option Bytes}
    (got : cache.get readFaults key world = .ok found) :
    world.view (cache.location key) = found := by
  by_cases inMemory : cache.definition.type = .inMemory
  · rw [get_of_inMemory inMemory] at got
    cases got
    rw [location_of_inMemory inMemory]
    rfl
  · rw [get] at got
    split at got
    · contradiction
    · split at got
      · cases got
      · cases got
        rfl

namespace RecordHandler

variable {handler : RecordHandler} {env : RequestEnv} {id : String} {body : Bytes}
  {process : Process}

/-- An accepted body is put. -/
theorem createRecord_of_accepted (accepted : Accepted body) :
    createRecord handler env id body process =
      ((handler.cache.put env.faults id body process.world).1.map fun _ => .singleton 201 "id" id,
        { process with world := (handler.cache.put env.faults id body process.world).2 }) := by
  rcases not_or.mp accepted with ⟨long, magic⟩
  have nonempty : body.isEmpty ≠ true := by
    intro empty
    rw [List.isEmpty_iff.mp empty] at long
    exact long (Nat.zero_lt_succ 4)
  simp only [createRecord, if_neg nonempty, if_neg long, if_neg magic]
  split <;> next stored =>
    rw [stored]
    rfl

/-- A rejected body is answered, and changes nothing. -/
theorem createRecord_of_rejected (rejected : ¬Accepted body) :
    ∃ text, createRecord handler env id body process =
      (.ok (.message 500 text), process) := by
  rcases not_not.mp rejected with short | magic
  · by_cases empty : body.isEmpty = true
    · exact ⟨"Failed to read body", if_pos empty⟩
    · exact ⟨"Payload too short", by rw [createRecord, if_neg empty, if_pos short]⟩
  · by_cases empty : body.isEmpty = true
    · exact ⟨"Failed to read body", if_pos empty⟩
    · by_cases short : body.length < 5
      · exact ⟨"Payload too short", by rw [createRecord, if_neg empty, if_pos short]⟩
      · exact ⟨"Invalid Magic Byte", by
          rw [createRecord, if_neg empty, if_neg short, if_pos magic]⟩

/-- The id a body names, if it does. -/
def requestedId (handler : RecordHandler)
    (body : Except JavaException (Option (List (String × Json)))) : Option String :=
  body.toOption.join.bind fun fields => (handler.bodyId fields).toOption

/-- A request by body is the lookup of the id it names; else it is only counted. -/
theorem getRecordByBody_process (libraries : Libraries) (codec : Codec)
    (body : Except JavaException (Option (List (String × Json)))) :
    (getRecordByBody libraries codec handler env body process).2 =
      match handler.requestedId body with
      | some id => (retrieveRecord libraries codec handler env id
          (process.incrementRequestsTotal handler.cache.definition.name)).2
      | none => process.incrementRequestsTotal handler.cache.definition.name := by
  rcases body with thrown | (_ | fields)
  · rfl
  · rfl
  · have requested : handler.requestedId (.ok (some fields)) =
        (handler.bodyId fields).toOption := rfl
    rw [requested, getRecordByBody]
    cases handler.bodyId fields <;> rfl

/-- A deletion is a removal. -/
theorem deleteRecord_process :
    (deleteRecord handler env id process).2 =
      { process with world := (removeFrom env.faults id handler.cache process.world).2 } := by
  simp only [deleteRecord, removeFrom]
  split <;> next removed => simp only [removed]

/-- Rendering a record that is not in Confluent format does nothing. -/
theorem renderRecord_of_rejected (libraries : Libraries) (codec : Codec)
    (handler : RecordHandler) (restClient : RestClient) {data : Bytes} (rejected : ¬Accepted data)
    (world : World) :
    renderRecord libraries codec handler restClient data world =
      (.message 500 "Invalid Avro message format", world) := by
  rw [renderRecord, if_pos (not_not.mp rejected)]

/-- Rendering any other record looks its schema up first. -/
theorem renderRecord_of_accepted (libraries : Libraries) (codec : Codec)
    (handler : RecordHandler) (restClient : RestClient) {data : Bytes} (accepted : Accepted data)
    (world : World) :
    renderRecord libraries codec handler restClient data world =
      ((match (getSchema libraries restClient handler.registryUrl (readSchemaId data) world).1 with
        | .error _ => .message 404 "Schema not found in cache"
        | .ok schema => handler.answerDatum codec schema (data.drop 5)),
        (getSchema libraries restClient handler.registryUrl (readSchemaId data) world).2) := by
  rw [renderRecord, if_neg accepted]
  split <;> next fetched => rw [fetched]

end RecordHandler

end PushCache.Java
