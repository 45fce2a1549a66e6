import PushCache.Java.Application
import PushCache.Webserver.LookupByBody

/-!
# Lookup by body in the Java service

Jackson keeps an integer of any size.  The one integer literal it does not keep is
minus zero, so a request by body is the request by path for every string and every
other integer.  Other values of the key field are left open: a decimal, for example, is
read without the zeros at its end.
-/

namespace PushCache.Java

/-- The number Jackson makes of an integer literal: a zero has no sign. -/
def integerOf (literal : IntegerLiteral) : Number :=
  if literal.negative = true ∧ 0 < literal.magnitude then .negInt (-literal.magnitude)
  else .posInt literal.magnitude

/-- `bodyToMono(Map.class)`, on a text. -/
structure Jackson where
  readMap : BodyText → Except JavaException (Option (List (String × Json)))

/-- What Jackson makes of a value. -/
def ReadAs (json : Option Json) : ValueText → Prop
  | .string value => json = some (.string value)
  | .integer literal => json = some (.number (integerOf literal))
  | .other => True

/-- The documented reading of the key field of this body, if the body is accepted. -/
def Jackson.Reads (jackson : Jackson) (body : BodyText) (keyField : String) : Prop :=
  ∀ fields value, jackson.readMap body = .ok (some fields) →
    body.field keyField = some value → ReadAs (fields.lookup keyField) value

/-- The value is a number without its sign. -/
def IsMinusZero (value : ValueText) : Prop :=
  value = .integer ⟨true, 0⟩

/-- A literal other than minus zero is printed as it was written. -/
theorem toString_integerOf {literal : IntegerLiteral} (signed : literal ≠ ⟨true, 0⟩) :
    (integerOf literal).toString = literal.text := by
  rcases literal with ⟨_ | _, magnitude⟩
  · rfl
  · cases magnitude with
    | zero => exact absurd rfl signed
    | succ magnitude => rfl

section Requests

variable {jackson : Jackson} {libraries : Libraries} {codec : Codec} {handler : RecordHandler}
  {env : RequestEnv} {body : BodyText} {value : ValueText} {keyField key : String}
  {fields : List (String × Json)} {process : Process}

/-- A request by body whose value is kept looks up the key it stands for. -/
theorem bodyId_of_kept (configured : handler.keyFromBody = some keyField)
    (readAs : ReadAs (fields.lookup keyField) value) (kept : ¬IsMinusZero value)
    (keyText : value.key = some key) : handler.bodyId fields = .ok key := by
  cases value with
  | string text =>
      cases keyText
      simp only [RecordHandler.bodyId, configured]
      rw [show fields.lookup keyField = some (.string key) from readAs]
  | integer literal =>
      cases keyText
      have signed : literal ≠ ⟨true, 0⟩ := fun same => kept (congrArg ValueText.integer same)
      simp only [RecordHandler.bodyId, configured]
      rw [show fields.lookup keyField = some (.number (integerOf literal)) from readAs]
      exact congrArg Except.ok (toString_integerOf signed)
  | other => cases keyText

/-- Minus zero looks up zero. -/
theorem bodyId_of_minusZero (configured : handler.keyFromBody = some keyField)
    (readAs : ReadAs (fields.lookup keyField) value) (unsigned : IsMinusZero value) :
    handler.bodyId fields = .ok "0" := by
  rw [unsigned] at readAs
  simp only [RecordHandler.bodyId, configured]
  rw [show fields.lookup keyField = some (.number (integerOf ⟨true, 0⟩)) from readAs]
  rfl

/-- A fresh process whose in-memory store holds one record, in no format. -/
def processWith (key : String) : Process where
  world := (World.fresh fun _ => ∅).put (.inMemory "") key []
  requestsTotal := fun _ => 0
  requestsMiss := fun _ => 0

/-- An in-memory store. -/
def memoryStore : Cache :=
  ⟨⟨"", .inMemory, none, none, none, none, none, none⟩⟩

/-- By path, the record is found. -/
theorem getRecord_processWith :
    ({ handler with cache := memoryStore }.getRecord libraries codec env key
      (processWith key)).1 = .ok (.message 500 "Invalid Avro message format") := by
  have held : memoryStore.get env.readFaults key (processWith key).world = .ok (some []) :=
    congrArg Except.ok (Finmap.lookup_insert (∅ : Records))
  simp only [RecordHandler.getRecord, RecordHandler.retrieveRecord,
    Process.incrementRequestsTotal_world, held]
  rfl

/-- Another key is not. -/
theorem retrieveRecord_processWith_ne (libraries : Libraries) (codec : Codec)
    (handler : RecordHandler) (env : RequestEnv) {other : String} (different : other ≠ key)
    {counted : Process} (same : counted.world = (processWith key).world) :
    ({ handler with cache := memoryStore }.retrieveRecord libraries codec env other counted).1 =
      .ok (.message 404 "User not found in dynamic cache") := by
  have absent : memoryStore.get env.readFaults other counted.world = .ok none := by
    rw [same]
    exact congrArg Except.ok ((Finmap.lookup_insert_of_ne (∅ : Records) different).trans
      (Finmap.lookup_empty other))
  simp only [RecordHandler.retrieveRecord, absent]

/-- For a body whose key field is a string or an integer literal, the two requests agree
on every store, process and outside world, in their answers and in what they count,
exactly when the body is accepted and its key is not minus zero. -/
theorem java_requestByBody_agrees_iff (libraries : Libraries) (codec : Codec)
    (handler : RecordHandler) (configured : handler.keyFromBody = some keyField)
    (reads : jackson.Reads body keyField)
    (field : body.field keyField = some value) (keyText : value.key = some key) :
    (∀ env cache process,
      { handler with cache }.getRecordByBody libraries codec env (jackson.readMap body) process =
        { handler with cache }.getRecord libraries codec env key process) ↔
      (∃ fields, jackson.readMap body = .ok (some fields)) ∧ ¬IsMinusZero value := by
  constructor
  · intro agrees
    let env : RequestEnv := ⟨⟨fun _ => .ok none, fun _ => none⟩, fun _ _ => none⟩
    have here := congrArg Prod.fst (agrees env memoryStore (processWith key))
    rw [getRecord_processWith] at here
    rcases read : jackson.readMap body with thrown | (_ | fields)
    · rw [read] at here
      cases here
    · rw [read] at here
      cases here
    · refine ⟨⟨fields, rfl⟩, fun unsigned => ?_⟩
      have keyEq : key = "-0" := by
        rw [unsigned] at keyText
        exact (Option.some.inj keyText).symm
      have named : { handler with cache := memoryStore }.bodyId fields = .ok "0" :=
        bodyId_of_minusZero configured (reads fields value read field) unsigned
      have missed := retrieveRecord_processWith_ne libraries codec handler env
        (show "0" ≠ key by rw [keyEq]; decide)
        (Process.incrementRequestsTotal_world (processWith key) "")
      rw [read] at here
      simp only [RecordHandler.getRecordByBody, named] at here
      have statuses := here.symm.trans missed
      cases statuses
  · rintro ⟨⟨fields, read⟩, kept⟩ env cache process
    have named : { handler with cache }.bodyId fields = .ok key :=
      bodyId_of_kept configured (reads fields value read field) kept keyText
    simp only [RecordHandler.getRecordByBody, read, named, RecordHandler.getRecord]

end Requests

end PushCache.Java

namespace PushCache.Sample

open PushCache.Java

/-- Jackson, on every body. -/
def jackson : Jackson where
  readMap := fun body => .ok (some (body.reverse.map fun field =>
    (field.1, match field.2 with
      | .string value => .string value
      | .integer literal => .number (integerOf literal)
      | .other => .null)))

/-- The handler of a route that takes its key from a body. -/
def keyedHandler : RecordHandler :=
  (appConfig .inMemory).handler ⟨"/users", "customers", some "user_id"⟩ Java.memoryStore

/-- The record of 2^64 is found by body as by path. -/
theorem java_requestByBody_agrees_of_largeBody :
    keyedHandler.getRecordByBody (libraries (.record "customer" "schema")) codec registryUp
        (jackson.readMap largeBody) (processWith "18446744073709551616") =
      keyedHandler.getRecord (libraries (.record "customer" "schema")) codec registryUp
        "18446744073709551616" (processWith "18446744073709551616") := by
  have reads : jackson.Reads largeBody "user_id" := by
    intro fields value read field
    cases read
    cases field
    rfl
  refine (java_requestByBody_agrees_iff _ codec keyedHandler rfl reads rfl rfl).mpr
    ⟨⟨_, rfl⟩, fun zero => ?_⟩ registryUp Java.memoryStore _
  cases zero

end PushCache.Sample
