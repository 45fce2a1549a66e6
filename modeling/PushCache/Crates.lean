import PushCache.Wire

/-!
# Library types and functions the service calls

The service rests on libraries whose source is not part of the repository: the
Avro codec, the schema-registry client and the JSON codec.  Their data is
modelled as far as the service looks at it, and their functions are the fields
of `Crates`, a parameter of every definition that calls them.
-/

namespace PushCache

/-- `apache_avro::Schema`, told apart by what the service asks of it: the full
name of a named schema or the type name of any other, and its JSON text. -/
inductive Schema where
  | record (fullname : String) (text : String)
  | enum (fullname : String) (text : String)
  | fixed (fullname : String) (text : String)
  | other (typeName : String) (text : String)
  deriving DecidableEq

/-- `serde_json::Number`: integers are kept exactly, any other number as it is
printed. -/
inductive Number where
  | posInt (value : Nat)
  | negInt (value : Int)
  | float (printed : String)
  deriving DecidableEq

/-- `Number::to_string`. -/
def Number.toString : Number → String
  | .posInt value => s!"{value}"
  | .negInt value => s!"{value}"
  | .float printed => printed

/-- `serde_json::Value`. -/
inductive Json where
  | null
  | bool (value : Bool)
  | number (value : Number)
  | string (value : String)
  | array (items : List Json)
  | object (fields : List (String × Json))

/-- `Value::get`: the field of an object. -/
def Json.get (field : String) : Json → Option Json
  | .object fields => fields.lookup field
  | _ => none

/-- The library functions, by the names under which the service calls them.
`schemaResponse` reads the `schema` field of a registry response body. -/
structure Crates where
  AvroValue : Type
  getBytesResult : Option Bytes → BytesResult
  schemaResponse : String → Except String String
  parseStr : String → Except String Schema
  fromAvroDatum : Schema → Bytes → Except String AvroValue
  fromValue : AvroValue → Except String Json

end PushCache
