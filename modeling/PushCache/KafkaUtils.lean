import PushCache.Config
import PushCache.Crates

/-!
# Kafka and schema-registry utilities

The broker address of the consumer and the fetch of one schema from the
registry.  The registry is reached over HTTP; what a `GET` answers is a
parameter.
-/

namespace PushCache

/-- A status code and its printed form. -/
structure StatusCode where
  code : Nat
  printed : String
  deriving DecidableEq

/-- `StatusCode::is_success`. -/
def StatusCode.isSuccess (status : StatusCode) : Bool :=
  200 ≤ status.code && status.code < 300

structure HttpResponse where
  status : StatusCode
  body : String
  deriving DecidableEq

/-- What an HTTP `GET` of a URL answers: a response or a transport error. -/
abbrev Http := String → Except String HttpResponse

/-- `get_broker_string`. -/
def getBrokerString (config : MyKafkaConfig) : Except MyError String :=
  match config.brokers.hostStr with
  | none => .error (.message s!"Kafka broker host not defined {config.brokers.asStr}")
  | some host =>
      match config.brokers.port with
      | none => .error (.message s!"Kafka broker port not defined {config.brokers.asStr}")
      | some port => .ok s!"{host}:{port}"

/-- `fetch_schema_by_id`. -/
def fetchSchemaById (crates : Crates) (http : Http) (registryUrl : String)
    (id : UInt32) : Except MyError Schema :=
  match http s!"{registryUrl}schemas/ids/{id}" with
  | .error error => .error (.message s!"Failed to fetch schema {id}: {error}")
  | .ok response =>
      if response.status.isSuccess then
        match crates.schemaResponse response.body with
        | .error error => .error (.message s!"Failed to parse schema response: {error}")
        | .ok text =>
            match crates.parseStr text with
            | .error error =>
                .error (.message s!"Failed to parse fetched schema {id}: {error}")
            | .ok schema => .ok schema
      else
        .error (.message (s!"Schema Registry returned status {response.status.printed} " ++
          s!"for schema {id}: {response.body}"))

end PushCache
