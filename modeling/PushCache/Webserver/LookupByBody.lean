import PushCache.Startup
import PushCache.Webserver.Core

/-!
# Lookup by body and lookup by path

The request by body takes its key from a JSON object.  The JSON library keeps a
string and an integer of 64 bits; it turns any other integer literal into a
floating-point number, whose printed form is no longer the literal.
-/

namespace PushCache

/-! ## The text of a body -/

/-- An integer literal: its sign and its digits. -/
structure IntegerLiteral where
  negative : Bool
  magnitude : Nat
  deriving DecidableEq

/-- The literal as it is written. -/
def IntegerLiteral.text (literal : IntegerLiteral) : String :=
  if literal.negative then "-" ++ toString literal.magnitude else toString literal.magnitude

/-- The number the JSON library keeps: it has no integer for minus zero and for what
does not fit 64 bits. -/
def IntegerLiteral.kept (literal : IntegerLiteral) : Option Number :=
  if literal.negative then
    if 0 < literal.magnitude ∧ literal.magnitude ≤ 2 ^ 63 then
      some (.negInt (-literal.magnitude))
    else none
  else
    if literal.magnitude < 2 ^ 64 then some (.posInt literal.magnitude) else none

/-- A value in the text of a body, as far as a key can be taken from it. -/
inductive ValueText where
  | string (value : String)
  | integer (literal : IntegerLiteral)
  | other
  deriving DecidableEq

/-- The fields of an object in the text of a body. -/
abbrev BodyText := List (String × ValueText)

/-- The value of a field; of several fields of one name the last counts. -/
def BodyText.field (body : BodyText) (name : String) : Option ValueText :=
  body.reverse.lookup name

/-- The key a value stands for. -/
def ValueText.key : ValueText → Option String
  | .string value => some value
  | .integer literal => some literal.text
  | .other => none

/-- The JSON library keeps the value as it is written. -/
def ValueText.Kept : ValueText → Prop
  | .string _ => True
  | .integer literal => literal.kept.isSome = true
  | .other => False

instance (value : ValueText) : Decidable value.Kept :=
  match value with
  | .string _ => inferInstanceAs (Decidable True)
  | .integer literal => inferInstanceAs (Decidable (literal.kept.isSome = true))
  | .other => inferInstanceAs (Decidable False)

/-! ## The JSON library -/

/-- The answer of the extractor to a body it does not accept. -/
structure JsonRejection where
  status : Nat
  text : String
  deriving DecidableEq

/-- `serde_json::from_slice`, as the `Json` extractor calls it. -/
structure SerdeJson where
  fromSlice : BodyText → Except JsonRejection Json

/-- What the JSON library makes of a value. -/
def ValueText.ReadAs (json : Option Json) : ValueText → Prop
  | .string value => json = some (.string value)
  | .integer literal =>
      match literal.kept with
      | some number => json = some (.number number)
      | none => ∃ printed, json = some (.number (.float printed)) ∧
          ('.' ∈ printed.toList ∨ 'e' ∈ printed.toList)
  | .other => True

/-- The documented reading of the key field of this body, if the body is accepted. -/
def SerdeJson.Reads (serde : SerdeJson) (body : BodyText) (keyField : String) : Prop :=
  ∀ json value, serde.fromSlice body = .ok json → body.field keyField = some value →
    value.ReadAs (json.get keyField)

/-! ## The two requests -/

/-- A request by body: the extractor, and `get_record_by_body` on what it accepts. -/
def requestByBody (serde : SerdeJson) (crates : Crates) (state : MyState) (env : Env)
    (store : Cache) (keyField : String) (body : BodyText) (world : World) :
    Except JsonRejection (Except MyError Response) × World :=
  match serde.fromSlice body with
  | .error rejection => (.error rejection, world)
  | .ok json =>
      ((.ok (getRecordByBody crates state env store keyField json world).1),
        (getRecordByBody crates state env store keyField json world).2)

/-- A request by path. -/
def requestByPath (crates : Crates) (state : MyState) (env : Env) (store : Cache)
    (accountId : String) (world : World) :
    Except JsonRejection (Except MyError Response) × World :=
  (.ok (getRecord crates state env store accountId world).1,
    (getRecord crates state env store accountId world).2)

/-! ## Decimal texts -/

theorem isDigit_of_mem_toString {number : Nat} {char : Char}
    (member : char ∈ (toString number).toList) : char.isDigit = true := by
  rw [Nat.toString_eq_repr, Nat.toList_repr] at member
  exact Nat.isDigit_of_mem_toDigits (by decide) (by decide) member

theorem IntegerLiteral.mem_text {literal : IntegerLiteral} {char : Char}
    (member : char ∈ literal.text.toList) : char = '-' ∨ char.isDigit = true := by
  rw [IntegerLiteral.text] at member
  split at member
  · rw [String.toList_append, List.mem_append] at member
    rcases member with sign | digit
    · exact Or.inl (List.mem_singleton.mp sign)
    · exact Or.inr (isDigit_of_mem_toString digit)
  · exact Or.inr (isDigit_of_mem_toString member)

/-- A printed floating-point number is no integer literal. -/
theorem IntegerLiteral.text_ne_float (literal : IntegerLiteral) {printed : String}
    (float : '.' ∈ printed.toList ∨ 'e' ∈ printed.toList) : printed ≠ literal.text := by
  rintro rfl
  rcases float with dot | exponent
  · exact absurd (IntegerLiteral.mem_text dot) (by decide)
  · exact absurd (IntegerLiteral.mem_text exponent) (by decide)

/-- A number that is kept is printed as it was written. -/
theorem IntegerLiteral.toString_of_kept {literal : IntegerLiteral} {number : Number}
    (kept : literal.kept = some number) : number.toString = literal.text := by
  rcases literal with ⟨_ | _, magnitude⟩
  · simp only [IntegerLiteral.kept, Bool.false_eq_true, if_false] at kept
    split at kept
    · cases kept
      rfl
    · cases kept
  · simp only [IntegerLiteral.kept, if_true] at kept
    split at kept
    · next fits =>
        cases kept
        obtain ⟨predecessor, rfl⟩ := Nat.exists_eq_succ_of_ne_zero (Nat.ne_of_gt fits.1)
        rfl
    · cases kept

/-! ## The key of a request by body -/

variable {serde : SerdeJson} {crates : Crates} {state : MyState} {env : Env} {store : Cache}
  {keyField key : String} {body : BodyText} {value : ValueText} {world : World} {json : Json}

/-- A value that is kept gives the key it stands for. -/
theorem bodyKey_of_kept (readAs : value.ReadAs (json.get keyField)) (kept : value.Kept)
    (keyText : value.key = some key) : bodyKey keyField json = .ok key := by
  cases value with
  | string text =>
      cases keyText
      rw [bodyKey, readAs]
  | integer literal =>
      cases keyText
      obtain ⟨number, keptAs⟩ := Option.isSome_iff_exists.mp kept
      simp only [ValueText.ReadAs, keptAs] at readAs
      rw [bodyKey, readAs]
      exact congrArg Except.ok (IntegerLiteral.toString_of_kept keptAs)
  | other => cases kept

/-- Any other integer gives another key. -/
theorem bodyKey_of_not_kept (readAs : value.ReadAs (json.get keyField)) (converted : ¬value.Kept)
    (keyText : value.key = some key) :
    ∃ other ≠ key, bodyKey keyField json = .ok other := by
  cases value with
  | string text => exact absurd trivial converted
  | integer literal =>
      cases keyText
      have none_kept : literal.kept = none := Option.not_isSome_iff_eq_none.mp converted
      simp only [ValueText.ReadAs, none_kept] at readAs
      rcases readAs with ⟨printed, readAs, float⟩
      refine ⟨printed, literal.text_ne_float float, ?_⟩
      rw [bodyKey, readAs]
      rfl
  | other => cases keyText

/-! ## One record tells two keys apart -/

/-- An in-memory store. -/
def memoryStore : Cache := ⟨"", .inMemory⟩

/-- A fresh process whose in-memory store holds one record. -/
def worldWith (key : String) : World where
  contents := fun _ => (∅ : Records).insert key []
  schemaCache := ∅
  metrics := .zero
  startupLagCleared := false

/-- A lookup of the record counts no miss, whatever it answers. -/
theorem retrieveRecordLogic_worldWith :
    (retrieveRecordLogic crates state env memoryStore key (worldWith key)).2 = worldWith key := by
  have held : memoryStore.get env.faults key (worldWith key) = .ok (some []) :=
    congrArg Except.ok (Finmap.lookup_insert (∅ : Records))
  simp only [retrieveRecordLogic, held]
  split <;> rfl

/-- A lookup of another key does. -/
theorem retrieveRecordLogic_worldWith_ne {other : String} (different : other ≠ key) :
    (retrieveRecordLogic crates state env memoryStore other (worldWith key)).2 =
      (worldWith key).countMiss := by
  have absent : memoryStore.get env.faults other (worldWith key) = .ok none :=
    congrArg Except.ok ((Finmap.lookup_insert_of_ne (∅ : Records) different).trans
      (Finmap.lookup_empty other))
  simp only [retrieveRecordLogic, absent]

theorem countMiss_ne (world : World) : world.countMiss ≠ world := by
  intro same
  have misses := congrArg (fun world : World => world.metrics.requestsMiss) same
  exact Nat.succ_ne_self world.metrics.requestsMiss misses

/-- The two requests agree on every store, schema cache and fault exactly when the body
is accepted and its key is a string or an integer that the JSON library keeps. -/
theorem requestByBody_agrees_iff (crates : Crates) (state : MyState)
    (reads : serde.Reads body keyField) (field : body.field keyField = some value)
    (keyText : value.key = some key) :
    (∀ env store world, requestByBody serde crates state env store keyField body world =
      requestByPath crates state env store key world) ↔
      (serde.fromSlice body).isOk = true ∧ value.Kept := by
  constructor
  · intro agrees
    let env : Env := ⟨fun _ => .error "", fun _ => none⟩
    have here := agrees env memoryStore (worldWith key)
    rw [requestByBody] at here
    cases accepted : serde.fromSlice body with
    | error rejection =>
        rw [accepted] at here
        cases congrArg Prod.fst here
    | ok json =>
        refine ⟨rfl, ?_⟩
        by_contra converted
        rcases bodyKey_of_not_kept (reads json value accepted field) converted keyText with
          ⟨other, different, otherKey⟩
        rw [accepted] at here
        have worlds := congrArg Prod.snd here
        simp only [requestByPath, getRecord, getRecordByBody, otherKey,
          retrieveRecordLogic_worldWith, retrieveRecordLogic_worldWith_ne different] at worlds
        exact countMiss_ne _ worlds
  · rintro ⟨accepted, kept⟩
    intro env store world
    cases extracted : serde.fromSlice body with
    | error rejection =>
        rw [extracted] at accepted
        cases accepted
    | ok json =>
        have bodyKeyEq := bodyKey_of_kept (reads json value extracted field) kept keyText
        simp only [requestByBody, extracted, getRecordByBody, bodyKeyEq, requestByPath, getRecord]

end PushCache

namespace PushCache.Sample

/-- How a value is read; 2^64 and minus zero become floating-point numbers. -/
def readValue : ValueText → Json
  | .string value => .string value
  | .integer literal =>
      match literal.kept with
      | some number => .number number
      | none =>
          .number (.float (if literal.magnitude = 0 then "-0.0" else "1.8446744073709552e+19"))
  | .other => .null

/-- A JSON library that accepts every body. -/
def serdeJson : SerdeJson where
  fromSlice := fun body =>
    .ok (.object (body.reverse.map fun field => (field.1, readValue field.2)))

/-- A key that is a 64-bit integer. -/
def smallBody : BodyText := [("user_id", .integer ⟨false, 42⟩)]

/-- A key that is 2^64. -/
def largeBody : BodyText := [("user_id", .integer ⟨false, 2 ^ 64⟩)]

/-- Asking for 42 by body and by path is the same. -/
theorem smallBody_agrees :
    requestByBody serdeJson crates (state .inMemory) env memoryStore "user_id" smallBody
        (worldWith "42") =
      requestByPath crates (state .inMemory) env memoryStore "42" (worldWith "42") := by
  have reads : serdeJson.Reads smallBody "user_id" := by
    intro json value accepted field
    cases accepted
    cases field
    rfl
  exact (requestByBody_agrees_iff crates (state .inMemory) reads rfl rfl).mpr
    ⟨rfl, by decide⟩ env memoryStore (worldWith "42")

/-- The record of 2^64 is found by path, and missed by body. -/
theorem largeBody_misses :
    (requestByPath crates (state .inMemory) env memoryStore "18446744073709551616"
        (worldWith "18446744073709551616")).2.metrics.requestsMiss = 0 ∧
      (requestByBody serdeJson crates (state .inMemory) env memoryStore "user_id" largeBody
        (worldWith "18446744073709551616")).2.metrics.requestsMiss = 1 ∧
      requestByBody serdeJson crates (state .inMemory) env memoryStore "user_id" largeBody
          (worldWith "18446744073709551616") ≠
        requestByPath crates (state .inMemory) env memoryStore "18446744073709551616"
          (worldWith "18446744073709551616") := by
  have byPath : (requestByPath crates (state .inMemory) env memoryStore "18446744073709551616"
      (worldWith "18446744073709551616")).2 = worldWith "18446744073709551616" :=
    retrieveRecordLogic_worldWith
  have byBody : (requestByBody serdeJson crates (state .inMemory) env memoryStore "user_id"
      largeBody (worldWith "18446744073709551616")).2 =
        (worldWith "18446744073709551616").countMiss :=
    retrieveRecordLogic_worldWith_ne (by decide : "1.8446744073709552e+19" ≠ _)
  refine ⟨by rw [byPath]; rfl, by rw [byBody]; rfl, fun same => ?_⟩
  have worlds := congrArg Prod.snd same
  rw [byPath, byBody] at worlds
  exact countMiss_ne _ worlds

end PushCache.Sample
