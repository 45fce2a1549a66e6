import PushCache.Cache.Backends
import PushCache.Java.RedisClear

/-!
# Both services on one store

The remote stores of the Java service send nearly the same commands as those of the Rust
service.  On a Mongo collection, on the tables of either SQL server and on a Redis
database, clients of both services whose calls come one after the other still see one
map, except where an empty Redis prefix means two different things.
-/

namespace PushCache.Java

open PushCache.Keyed

/-! ## Redis -/

namespace RedisCache

/-- The name `getKeys` gives a key of the database. -/
def nameOf (keyPrefix : Option String) (key : String) : String :=
  match keyPrefix with
  | some text => if text.isEmpty then key else (stripPrefix (text ++ ":") key).getD key
  | none => key

/-- The answer to a command, if the connection is up. -/
def received {α : Type*} (down : Option JavaException) (answer : Except Redis.WrongType α) :
    Except JavaException α :=
  match down with
  | some thrown => .error thrown
  | none => answer.mapError fun _ => ⟨"WRONGTYPE"⟩

/-- Which of the commands of a call throw: the first, and the `DEL` of a removal. -/
structure Down where
  command : Option JavaException
  delete : Option JavaException

section Methods

variable (deserialize : Bytes → String) (keyPrefix : Option String) (down : Down)

/-- `get`. -/
def get (key : String) (database : Redis.Database Redis.Value) :
    Except JavaException (Option Bytes) :=
  received down.command (Redis.get (asBytes (formatKey keyPrefix key)) database)

/-- `put`. -/
def put (key : String) (value : Bytes) (database : Redis.Database Redis.Value) :
    Except JavaException Unit × Redis.Database Redis.Value :=
  match down.command with
  | some thrown => (.error thrown, database)
  | none => (.ok (), Redis.set (asBytes (formatKey keyPrefix key)) value database)

/-- `remove`: `GET`, and `DEL` if there is a value. -/
def remove (key : String) (database : Redis.Database Redis.Value) :
    Except JavaException (Option Bytes) × Redis.Database Redis.Value :=
  match get keyPrefix down key database with
  | .error thrown => (.error thrown, database)
  | .ok none => (.ok none, database)
  | .ok (some value) =>
      match down.delete with
      | some thrown => (.error thrown, database)
      | none => (.ok (some value), database.erase (asBytes (formatKey keyPrefix key)))

/-- `getKeys`, given the answer to the scan. -/
def getKeys (scanned : List Bytes) : Except JavaException (List String) :=
  match down.command with
  | some thrown => .error thrown
  | none => .ok (scanned.map fun key => nameOf keyPrefix (deserialize key))

/-- `containsKey`. -/
def containsKey (key : String) (database : Redis.Database Redis.Value) :
    Except JavaException Bool :=
  received down.command (.ok (Redis.exists? (asBytes (formatKey keyPrefix key)) database))

end Methods

/-- What the store may do. -/
inductive Performed (deserialize : Bytes → String) (keyPrefix : Option String) :
    Performs Down (Redis.Database Redis.Value) String Bytes JavaException
  | get (down : Down) (key : String) (database : Redis.Database Redis.Value) :
      Performed deserialize keyPrefix down (.get key) database
        ((get keyPrefix down key database).map .found) database
  | put (down : Down) (key : String) (value : Bytes) (database : Redis.Database Redis.Value) :
      Performed deserialize keyPrefix down (.insert key value) database
        ((put keyPrefix down key value database).1.map fun _ => .done)
        (put keyPrefix down key value database).2
  | remove (down : Down) (key : String) (database : Redis.Database Redis.Value) :
      Performed deserialize keyPrefix down (.remove key) database
        ((remove keyPrefix down key database).1.map .found)
        (remove keyPrefix down key database).2
  | getKeys (down : Down) (database : Redis.Database Redis.Value) {scanned : List Bytes}
      (scans : Redis.Scans database (asBytes (scanPattern keyPrefix)) scanned) :
      Performed deserialize keyPrefix down .keys database
        ((getKeys deserialize keyPrefix down scanned).map .keys) database
  | containsKey (down : Down) (key : String) (database : Redis.Database Redis.Value) :
      Performed deserialize keyPrefix down (.containsKey key) database
        ((containsKey keyPrefix down key database).map .present) database

/-- A command throws. -/
def MayFail : Reason Down String Bytes := fun down _ _ =>
  down.command.isSome = true ∨ down.delete.isSome = true

section SamePrefix

variable {config : RedisConfig}

/-- Apart from the empty prefix, both services make the same keys, patterns and names. -/
theorem formatKey_eq (filled : config.keyPrefix ≠ some "") (key : String) :
    formatKey config.keyPrefix key = PushCache.RedisCache.formatKey config key := by
  rcases config with ⟨url, keyPrefix⟩
  cases keyPrefix with
  | none => rfl
  | some text =>
      have nonempty : text.isEmpty = false := by simpa using filled
      simp only [formatKey, nonempty]
      rfl

theorem scanPattern_eq (filled : config.keyPrefix ≠ some "") :
    scanPattern config.keyPrefix = PushCache.RedisCache.matchPattern config := by
  rcases config with ⟨url, keyPrefix⟩
  cases keyPrefix with
  | none => rfl
  | some text =>
      have nonempty : text.isEmpty = false := by simpa using filled
      simp only [scanPattern, nonempty]
      rfl

theorem nameOf_eq (filled : config.keyPrefix ≠ some "") (key : String) :
    nameOf config.keyPrefix key = PushCache.RedisCache.nameOf config key := by
  rcases config with ⟨url, keyPrefix⟩
  cases keyPrefix with
  | none => rfl
  | some text =>
      have nonempty : text.isEmpty = false := by simpa using filled
      have joined : toString text ++ toString ":" = text ++ ":" := rfl
      simp only [nameOf, nonempty, PushCache.RedisCache.nameOf, joined]
      cases stripPrefix (text ++ ":") key <;> rfl

/-- The store is the map that the Rust service sees. -/
theorem refines {deserialize : Bytes → String} (decodes : ∀ text, deserialize (asBytes text) = text)
    (filled : config.keyPrefix ≠ some "") (plain : PushCache.RedisCache.PlainPrefix config) :
    Refines (Performed deserialize config.keyPrefix) PushCache.RedisCache.Textual
      (PushCache.RedisCache.view config) MayFail := by
  apply Refines.of_outcome
  · intro down call database result next textual performed
    cases performed with
    | put _ key value =>
        rw [put]
        cases down.command with
        | some thrown => exact textual
        | none => exact textual.set (formatKey config.keyPrefix key) value
    | remove _ key =>
        rw [remove]
        split
        · exact textual
        · exact textual
        · split
          · exact textual
          · exact textual.erase _
    | get | getKeys | containsKey => exact textual
  · intro down call database result next textual performed
    cases broken : down.command with
    | some thrown =>
        right
        have why : down.command.isSome = true := by
          rw [broken]
          rfl
        cases performed with
        | get _ key => exact ⟨thrown, by simp [get, received, broken, Except.map], rfl, Or.inl why⟩
        | put _ key value =>
            exact ⟨thrown, by simp [put, broken, Except.map], by simp [put, broken], Or.inl why⟩
        | remove _ key =>
            exact ⟨thrown, by simp [remove, get, received, broken, Except.map],
              by simp [remove, get, received, broken], Or.inl why⟩
        | getKeys => exact ⟨thrown, by simp [getKeys, broken, Except.map], rfl, Or.inl why⟩
        | containsKey _ key =>
            exact ⟨thrown, by simp [containsKey, received, broken, Except.map], rfl, Or.inl why⟩
    | none =>
        have got : ∀ key, get config.keyPrefix down key database =
            .ok (PushCache.RedisCache.view config database key) := by
          intro key
          simp only [get, received, broken, formatKey_eq filled, textual.get_eq key]
          rfl
        cases performed with
        | get _ key =>
            rw [got]
            exact Or.inl ⟨_, rfl, .get key⟩
        | put _ key value =>
            simp only [put, broken, formatKey_eq filled, PushCache.RedisCache.view_set]
            exact Or.inl ⟨_, rfl, .insert key value⟩
        | remove _ key =>
            simp only [remove, got]
            cases held : PushCache.RedisCache.view config database key with
            | none =>
                left
                have same : Function.update (PushCache.RedisCache.view config database) key none =
                    PushCache.RedisCache.view config database := by
                  rw [← held, Function.update_eq_self]
                have answers : Answers (PushCache.RedisCache.view config database) (.remove key)
                    (.found (PushCache.RedisCache.view config database key))
                    (Function.update (PushCache.RedisCache.view config database) key none) :=
                  .remove key
                rw [same, held] at answers
                exact ⟨_, rfl, answers⟩
            | some value =>
                cases deleted : down.delete with
                | some thrown =>
                    have why : down.delete.isSome = true := by
                      rw [deleted]
                      rfl
                    exact Or.inr ⟨thrown, rfl, rfl, Or.inr why⟩
                | none =>
                    left
                    simp only [formatKey_eq filled, PushCache.RedisCache.view_erase, ← held]
                    exact ⟨_, rfl, .remove key⟩
        | getKeys _ _ scans =>
            rw [scanPattern_eq filled] at scans
            rcases PushCache.RedisCache.exists_texts textual scans with ⟨texts, rfl⟩
            have names : (texts.map asBytes).map
                (fun key => nameOf config.keyPrefix (deserialize key)) =
                  texts.map (PushCache.RedisCache.nameOf config) := by
              rw [List.map_map]
              apply List.map_congr_left
              intro text _
              rw [Function.comp_apply, decodes, nameOf_eq filled]
            simp only [getKeys, broken, names]
            exact Or.inl ⟨_, rfl, .keys (PushCache.RedisCache.mem_names_iff plain textual scans)⟩
        | containsKey _ key =>
            have present : Redis.exists? (asBytes (PushCache.RedisCache.formatKey config key))
                database = (PushCache.RedisCache.view config database key).isSome :=
              textual.lookup_isSome key
            simp only [containsKey, received, broken, formatKey_eq filled, present]
            exact Or.inl ⟨_, rfl, .containsKey key⟩

end SamePrefix

end RedisCache

/-! ## SQL -/

/-- What the statements of a SQL store do on its table when the server carries them
out. -/
structure Statements (T : Type*) where
  /-- The values of the rows with a key. -/
  select : String → T → Except String (List (Option Bytes))
  merge : String → Bytes → T → Except String T
  delete : String → T → Except String T
  count : String → T → Except String Nat

namespace Jdbc

/-- The calls of the driver and of the transaction manager that may throw. -/
inductive DriverCall where
  | begin
  | query
  | update
  | commit

/-- Which of them throw, and what. -/
abbrev Down := DriverCall → Option String

section Methods

variable {T : Type*} (store : String) (statements : Statements T) (down : Down)

/-- `jdbcTemplate.query` for the values of a key. -/
def query (key : String) (table : T) : Except String (List (Option Bytes)) :=
  match down .query with
  | some thrown => .error thrown
  | none => statements.select key table

/-- `jdbcTemplate.update` with a statement. -/
def update (statement : T → Except String T) (table : T) : Except String T :=
  match down .update with
  | some thrown => .error thrown
  | none => statement table

/-- `get`. -/
def get (key : String) (table : T) : Except JavaException (Option Bytes) :=
  match query statements down key table with
  | .error _ => .error ⟨store ++ " get error"⟩
  | .ok [] => .ok none
  | .ok (value :: _) => .ok value

/-- `put`. -/
def put (key : String) (value : Bytes) (table : T) : Except JavaException Unit × T :=
  match update down (statements.merge key value) table with
  | .error _ => (.error ⟨store ++ " insert error"⟩, table)
  | .ok next => (.ok (), next)

/-- `remove`, in a transaction. -/
def remove (key : String) (table : T) : Except JavaException (Option Bytes) × T :=
  match down .begin with
  | some thrown => (.error ⟨thrown⟩, table)
  | none =>
      match query statements down key table with
      | .error _ => (.error ⟨store ++ " remove error"⟩, table)
      | .ok results =>
          match update down (statements.delete key) table with
          | .error _ => (.error ⟨store ++ " remove error"⟩, table)
          | .ok next =>
              match down .commit with
              | some thrown => (.error ⟨thrown⟩, table)
              | none => (.ok results.head?.join, next)

/-- `getKeys`, given the keys in the order of the rows. -/
def getKeys (rows : List String) : Except JavaException (List String) :=
  match down .query with
  | some _ => .error ⟨store ++ " getKeys error"⟩
  | none => .ok rows

/-- `containsKey`. -/
def containsKey (key : String) (table : T) : Except JavaException Bool :=
  match down .query with
  | some _ => .error ⟨store ++ " containsKey error"⟩
  | none =>
      match statements.count key table with
      | .error _ => .error ⟨store ++ " containsKey error"⟩
      | .ok count => .ok (0 < count)

end Methods

/-- What a store may do, whose table has the keys `keysOf`. -/
inductive Performed {T : Type*} (store : String) (statements : Statements T)
    (keysOf : T → String → Prop) : Performs Down T String Bytes JavaException
  | get (down : Down) (key : String) (table : T) :
      Performed store statements keysOf down (.get key) table
        ((get store statements down key table).map .found) table
  | put (down : Down) (key : String) (value : Bytes) (table : T) :
      Performed store statements keysOf down (.insert key value) table
        ((put store statements down key value table).1.map fun _ => .done)
        (put store statements down key value table).2
  | remove (down : Down) (key : String) (table : T) :
      Performed store statements keysOf down (.remove key) table
        ((remove store statements down key table).1.map .found)
        (remove store statements down key table).2
  | getKeys (down : Down) (table : T) {rows : List String} (once : rows.Nodup)
      (listed : ∀ key, key ∈ rows ↔ keysOf table key) :
      Performed store statements keysOf down .keys table
        ((getKeys store down rows).map .keys) table
  | containsKey (down : Down) (key : String) (table : T) :
      Performed store statements keysOf down (.containsKey key) table
        ((containsKey store statements down key table).map .present) table

/-- A call of the driver throws, or the server refuses a statement. -/
def MayFail (refuses : Call String Bytes → Prop) : Reason Down String Bytes := fun down call _ =>
  (∃ driverCall, (down driverCall).isSome = true) ∨ refuses call

/-- The statements read and change the map that is seen in the table. -/
structure Faithful {T : Type*} (statements : Statements T) (keysOf : T → String → Prop)
    (guard : Call String Bytes → Prop) (valid : T → Prop) (view : T → String → Option Bytes)
    (refuses : Call String Bytes → Prop) : Prop where
  keysOf_iff : ∀ table key, keysOf table key ↔ (view table key).isSome = true
  select : ∀ table key, valid table →
    statements.select key table = .ok ((view table key).map some).toList ∨
      ∃ error, statements.select key table = .error error ∧ refuses (.get key) ∧
        refuses (.remove key)
  merge : ∀ table key value, valid table → guard (.insert key value) →
    (∃ next, statements.merge key value table = .ok next ∧ valid next ∧
      view next = Function.update (view table) key (some value)) ∨
      ∃ error, statements.merge key value table = .error error ∧ refuses (.insert key value)
  delete : ∀ table key, valid table →
    (∃ next, statements.delete key table = .ok next ∧ valid next ∧
      view next = Function.update (view table) key none) ∨
      ∃ error, statements.delete key table = .error error ∧ refuses (.remove key)
  count : ∀ table key, valid table →
    (∃ count, statements.count key table = .ok count ∧
      decide (0 < count) = (view table key).isSome) ∨
      ∃ error, statements.count key table = .error error ∧ refuses (.containsKey key)

section Refines

variable {T : Type*} {store : String} {statements : Statements T}
  {keysOf : T → String → Prop} {guard : Call String Bytes → Prop} {valid : T → Prop}
  {view : T → String → Option Bytes} {refuses : Call String Bytes → Prop} {table : T} {key : String}
  {value : Bytes} {down : Down}

theorem MayFail.of_down {call : Call String Bytes} {map : String → Option Bytes}
    {driverCall : DriverCall} {thrown : String} (throws : down driverCall = some thrown) :
    MayFail refuses down call map :=
  Or.inl ⟨driverCall, by rw [throws]; rfl⟩

theorem query_outcome (faithful : Faithful statements keysOf guard valid view refuses)
    (isValid : valid table) (down : Down) (key : String) :
    query statements down key table = .ok ((view table key).map some).toList ∨
      ∃ error, query statements down key table = .error error ∧
        MayFail refuses down (.get key) (view table) ∧
        MayFail refuses down (.remove key) (view table) := by
  rw [query]
  cases throws : down .query with
  | some thrown => exact Or.inr ⟨thrown, rfl, .of_down throws, .of_down throws⟩
  | none =>
      rcases faithful.select table key isValid with ok | ⟨error, failed, getRefused, removeRefused⟩
      · exact Or.inl ok
      · exact Or.inr ⟨error, failed, Or.inr getRefused, Or.inr removeRefused⟩

theorem get_outcome (store : String)
    (faithful : Faithful statements keysOf guard valid view refuses)
    (isValid : valid table) (down : Down) (key : String) :
    get store statements down key table = .ok (view table key) ∨
      ∃ error, get store statements down key table = .error error ∧
        MayFail refuses down (.get key) (view table) := by
  rw [get]
  rcases query_outcome faithful isValid down key with ok | ⟨error, failed, why, _⟩
  · rw [ok]
    cases view table key <;> exact Or.inl rfl
  · rw [failed]
    exact Or.inr ⟨_, rfl, why⟩

theorem put_outcome (store : String)
    (faithful : Faithful statements keysOf guard valid view refuses)
    (isValid : valid table) (guarded : guard (.insert key value)) (down : Down) :
    (∃ next, put store statements down key value table = (.ok (), next) ∧ valid next ∧
      view next = Function.update (view table) key (some value)) ∨
      ∃ error, put store statements down key value table = (.error error, table) ∧
        MayFail refuses down (.insert key value) (view table) := by
  rw [put, update]
  cases throws : down .update with
  | some thrown => exact Or.inr ⟨_, rfl, .of_down throws⟩
  | none =>
      rcases faithful.merge table key value isValid guarded with
        ⟨next, ok, kept, held⟩ | ⟨error, failed, refused⟩
      · simp only [ok]
        exact Or.inl ⟨next, rfl, kept, held⟩
      · simp only [failed]
        exact Or.inr ⟨_, rfl, Or.inr refused⟩

theorem remove_outcome (store : String)
    (faithful : Faithful statements keysOf guard valid view refuses)
    (isValid : valid table) (down : Down) (key : String) :
    (∃ next, remove store statements down key table = (.ok (view table key), next) ∧
      valid next ∧ view next = Function.update (view table) key none) ∨
      ∃ error, remove store statements down key table = (.error error, table) ∧
        MayFail refuses down (.remove key) (view table) := by
  rw [remove]
  cases begins : down .begin with
  | some thrown => exact Or.inr ⟨_, rfl, .of_down begins⟩
  | none =>
      rcases query_outcome faithful isValid down key with queried | ⟨error, failed, _, why⟩
      case inr =>
        simp only [failed]
        exact Or.inr ⟨_, rfl, why⟩
      simp only [queried, update]
      cases updates : down .update with
      | some thrown => exact Or.inr ⟨_, rfl, .of_down updates⟩
      | none =>
          rcases faithful.delete table key isValid with
            ⟨next, ok, kept, held⟩ | ⟨error, failed, refused⟩
          · simp only [ok]
            cases commits : down .commit with
            | some thrown => exact Or.inr ⟨_, rfl, .of_down commits⟩
            | none =>
                refine Or.inl ⟨next, ?_, kept, held⟩
                cases view table key <;> rfl
          · simp only [failed]
            exact Or.inr ⟨_, rfl, Or.inr refused⟩

theorem containsKey_outcome (store : String)
    (faithful : Faithful statements keysOf guard valid view refuses)
    (isValid : valid table) (down : Down) (key : String) :
    containsKey store statements down key table = .ok (view table key).isSome ∨
      ∃ error, containsKey store statements down key table = .error error ∧
        MayFail refuses down (.containsKey key) (view table) := by
  rw [containsKey]
  cases throws : down .query with
  | some thrown => exact Or.inr ⟨_, rfl, .of_down throws⟩
  | none =>
      rcases faithful.count table key isValid with ⟨count, ok, held⟩ | ⟨error, failed, refused⟩
      · left
        rw [ok, ← held]
      · right
        rw [failed]
        exact ⟨_, rfl, Or.inr refused⟩

/-- A SQL store is a map, as long as its calls are of the kind that the table takes. -/
theorem refines (faithful : Faithful statements keysOf guard valid view refuses) :
    Refines (guarded guard (Performed store statements keysOf)) valid view
      (MayFail refuses) := by
  apply Refines.of_outcome
  · rintro down call table result next isValid ⟨writes, performed⟩
    cases performed with
    | put _ key value =>
        rcases put_outcome store faithful isValid writes down with
          ⟨after, ok, kept, _⟩ | ⟨error, failed, _⟩
        · rw [ok]
          exact kept
        · rw [failed]
          exact isValid
    | remove _ key =>
        rcases remove_outcome store faithful isValid down key with
          ⟨after, ok, kept, _⟩ | ⟨error, failed, _⟩
        · rw [ok]
          exact kept
        · rw [failed]
          exact isValid
    | get | getKeys | containsKey => exact isValid
  · rintro down call table result next isValid ⟨writes, performed⟩
    cases performed with
    | get _ key =>
        rcases get_outcome store faithful isValid down key with ok | ⟨error, failed, why⟩
        · rw [ok]
          exact Or.inl ⟨_, rfl, .get key⟩
        · rw [failed]
          exact Or.inr ⟨_, rfl, rfl, why⟩
    | put _ key value =>
        rcases put_outcome store faithful isValid writes down with
          ⟨after, ok, _, held⟩ | ⟨error, failed, why⟩
        · rw [ok, held]
          exact Or.inl ⟨_, rfl, .insert key value⟩
        · rw [failed]
          exact Or.inr ⟨_, rfl, rfl, why⟩
    | remove _ key =>
        rcases remove_outcome store faithful isValid down key with
          ⟨after, ok, _, held⟩ | ⟨error, failed, why⟩
        · rw [ok, held]
          exact Or.inl ⟨_, rfl, .remove key⟩
        · rw [failed]
          exact Or.inr ⟨_, rfl, rfl, why⟩
    | getKeys _ _ once listed =>
        rw [getKeys]
        cases throws : down .query with
        | some thrown => exact Or.inr ⟨_, rfl, rfl, .of_down throws⟩
        | none =>
            exact Or.inl ⟨_, rfl,
              .keys fun key => (listed key).trans (faithful.keysOf_iff table key)⟩
    | containsKey _ key =>
        rcases containsKey_outcome store faithful isValid down key with ok | ⟨error, failed, why⟩
        · rw [ok]
          exact Or.inl ⟨_, rfl, .containsKey key⟩
        · rw [failed]
          exact Or.inr ⟨_, rfl, rfl, why⟩

end Refines

end Jdbc

namespace OracleCache

/-- The statements of the Oracle store. -/
def statements : Statements PushCache.OracleCache.Table where
  select key table := .ok (table.rows.lookup key).toList
  merge key value table :=
    match fit : PushCache.OracleCache.refusal key with
    | some error => .error error
    | none => .ok (table.merge key value fit)
  delete key table := .ok (table.delete key)
  count key table := .ok (if key ∈ table.rows then 1 else 0)

/-- The table has a row with the key. -/
def HasKey (table : PushCache.OracleCache.Table) (key : String) : Prop := key ∈ table.rows

/-- The column refuses the key of a new row. -/
def Refuses : Call String Bytes → Prop
  | .insert key _ => PushCache.OracleCache.refusal key ≠ none
  | _ => False

/-- The call writes no empty value, which would be null. -/
def WritesBytes : Call String Bytes → Prop
  | .insert _ value => value ≠ []
  | _ => True

/-- No value is empty. -/
def NoEmpty (map : String → Option Bytes) : Prop := ∀ key, map key ≠ some []

theorem noEmpty_update {map : String → Option Bytes} (noEmpty : NoEmpty map) (key : String)
    {value : Option Bytes} (nonempty : value ≠ some []) :
    NoEmpty (Function.update map key value) := by
  intro other
  rw [Function.update_apply]
  split
  · exact nonempty
  · exact noEmpty other

theorem NoEmpty.answers {map after : String → Option Bytes} {call : Call String Bytes}
    {reply : Reply String Bytes} (noEmpty : NoEmpty map) (writes : WritesBytes call)
    (answers : Answers map call reply after) : NoEmpty after := by
  cases answers with
  | insert key value => exact noEmpty_update noEmpty key fun same => writes (Option.some.inj same)
  | remove key => exact noEmpty_update noEmpty key (Option.some_ne_none []).symm
  | get | keys | containsKey => exact noEmpty

/-- Without empty values a row has no null. -/
theorem lookup_toList {table : PushCache.OracleCache.Table}
    (noEmpty : NoEmpty (PushCache.OracleCache.view table)) (key : String) :
    (table.rows.lookup key).toList =
      ((PushCache.OracleCache.view table key).map some).toList := by
  have filled := noEmpty key
  rw [PushCache.OracleCache.view] at filled ⊢
  cases held : table.rows.lookup key with
  | none => rfl
  | some value =>
      cases value with
      | none =>
          rw [held] at filled
          exact absurd rfl filled
      | some bytes => rfl

theorem faithful : Jdbc.Faithful statements HasKey WritesBytes
    (fun table => True ∧ NoEmpty (PushCache.OracleCache.view table))
    PushCache.OracleCache.view Refuses where
  keysOf_iff _ _ := PushCache.OracleCache.mem_rows_iff
  select _ key isValid := Or.inl (congrArg Except.ok (lookup_toList isValid.2 key))
  merge table key value isValid writes := by
    simp only [statements]
    split
    · next error refused =>
        exact Or.inr ⟨error, rfl, by rw [Refuses, refused]; exact Option.some_ne_none error⟩
    · next fit =>
        have held : PushCache.OracleCache.view (table.merge key value fit) = _ :=
          PushCache.OracleCache.view_merge value fit
        refine Or.inl ⟨_, rfl, ⟨trivial, ?_⟩, held⟩
        rw [held]
        exact noEmpty_update isValid.2 key fun same => writes (Option.some.inj same)
  delete table key isValid := by
    have held : PushCache.OracleCache.view (table.delete key) = _ :=
      PushCache.OracleCache.view_delete
    refine Or.inl ⟨_, rfl, ⟨trivial, ?_⟩, held⟩
    rw [held]
    exact noEmpty_update isValid.2 key (Option.some_ne_none []).symm
  count table key _ := by
    refine Or.inl ⟨_, rfl, ?_⟩
    by_cases held : key ∈ table.rows
    · rw [if_pos held, PushCache.OracleCache.mem_rows_iff.mp held]
      rfl
    · have absent : (PushCache.OracleCache.view table key).isSome = false := by
        rw [← Bool.not_eq_true, ← PushCache.OracleCache.mem_rows_iff]
        exact held
      rw [if_neg held, absent]
      rfl

end OracleCache

namespace PostgresCache

/-- What the server answers to a statement with a key. -/
def withKey {α : Type*} (key : String) (answer : α) : Except String α :=
  match PushCache.PostgresCache.keyError none key with
  | some error => .error error
  | none => .ok answer

/-- The statements of the Postgres store. -/
def statements : Statements PushCache.PostgresCache.Table where
  select key table := withKey key ((table.lookup key).map some).toList
  merge key value table := withKey key (table.insert key value)
  delete key table := withKey key (table.erase key)
  count key table := withKey key (if key ∈ table then 1 else 0)

/-- The table has a row with the key. -/
def HasKey (table : PushCache.PostgresCache.Table) (key : String) : Prop := key ∈ table

/-- The server refuses the key of a statement. -/
def Refuses : Call String Bytes → Prop
  | .get key | .insert key _ | .remove key | .containsKey key => '\x00' ∈ key.toList
  | .keys => False

theorem withKey_outcome {α : Type*} (key : String) (answer : α) :
    withKey key answer = .ok answer ∨
      ∃ error, withKey key answer = .error error ∧ '\x00' ∈ key.toList := by
  rw [withKey]
  cases failed : PushCache.PostgresCache.keyError none key with
  | none => exact Or.inl rfl
  | some error =>
      rcases PushCache.PostgresCache.of_keyError failed with down | holds
      · cases down
      · exact Or.inr ⟨error, rfl, holds⟩

theorem faithful : Jdbc.Faithful statements HasKey (fun _ => True) (fun _ => True)
    PushCache.PostgresCache.view Refuses where
  keysOf_iff _ _ := Finmap.lookup_isSome.symm
  select table key _ := by
    rcases withKey_outcome key ((table.lookup key).map some).toList with ok | ⟨error, failed, holds⟩
    · exact Or.inl ok
    · exact Or.inr ⟨error, failed, holds, holds⟩
  merge table key value _ _ := by
    rcases withKey_outcome key (table.insert key value) with ok | ⟨error, failed, holds⟩
    · exact Or.inl ⟨_, ok, trivial, PushCache.PostgresCache.view_insert table key value⟩
    · exact Or.inr ⟨error, failed, holds⟩
  delete table key _ := by
    rcases withKey_outcome key (table.erase key) with ok | ⟨error, failed, holds⟩
    · exact Or.inl ⟨_, ok, trivial, PushCache.PostgresCache.view_erase table key⟩
    · exact Or.inr ⟨error, failed, holds⟩
  count table key _ := by
    rcases withKey_outcome key (if key ∈ table then 1 else 0) with ok | ⟨error, failed, holds⟩
    · refine Or.inl ⟨_, ok, ?_⟩
      rw [PushCache.PostgresCache.view, Bool.eq_iff_iff, Finmap.lookup_isSome, decide_eq_true_iff]
      by_cases held : key ∈ table
      · simp [held]
      · simp [held]
    · exact Or.inr ⟨error, failed, holds⟩

end PostgresCache

/-! ## Sharing a store -/

/-- With an empty prefix the Rust service keeps a colon before every key, and the Java
service does not find what it has written. -/
theorem RedisCache.not_isMap_of_emptyPrefix {describe : RedisError → String}
    {deserialize : Bytes → String} {config : RedisConfig} (empty : config.keyPrefix = some "") :
    ¬IsMap (either (PushCache.RedisCache.Performed describe config)
      (RedisCache.Performed deserialize config.keyPrefix)) PushCache.RedisCache.Textual
      (PushCache.RedisCache.view config)
      (eitherReason PushCache.RedisCache.MayFail RedisCache.MayFail) := by
  intro isMap
  rcases config with ⟨url, keyPrefix⟩
  cases empty
  have textual : PushCache.RedisCache.Textual ∅ := by
    intro key value held
    cases held
  have elsewhere : asBytes "x" ≠ asBytes ":x" := by decide
  have missed : (get (some "") ⟨none, none⟩ "x" (Redis.set (asBytes ":x") [1] ∅)).map
      (Reply.found (κ := String)) = .ok (.found none) := by
    have lookedUp : (Redis.set (asBytes ":x") [1] ∅).lookup (asBytes "x") = none := by
      rw [Redis.set, Finmap.lookup_insert_of_ne _ elsewhere, Finmap.lookup_empty]
    have formatted : formatKey (some "") "x" = "x" := rfl
    rw [get, formatted, Redis.get, lookedUp]
    rfl
  have written : PushCache.RedisCache.Performed describe ⟨url, some ""⟩ none (.insert "x" [1]) ∅
      (.ok .done) (Redis.set (asBytes ":x") [1] ∅) := .insert none "x" [1] ∅
  have read : Performed deserialize (some "") ⟨none, none⟩ (.get "x")
      (Redis.set (asBytes ":x") [1] ∅) (.ok (.found none)) (Redis.set (asBytes ":x") [1] ∅) :=
    missed ▸ .get ⟨none, none⟩ "x" (Redis.set (asBytes ":x") [1] ∅)
  have runs : Runs (either (PushCache.RedisCache.Performed describe ⟨url, some ""⟩)
      (Performed deserialize (some ""))) ∅
      ([⟨.inl none, .insert "x" [1], .ok .done⟩] ++
        ⟨.inr ⟨none, none⟩, .get "x", .ok (.found none)⟩ :: [])
      (Redis.set (asBytes ":x") [1] ∅) :=
    .call ⟨.ok .done, written, rfl⟩ (.call ⟨.ok (.found none), read, rfl⟩ (.stop _))
  cases isMap.reads textual runs

/-- Clients of both services see one map when they share a store and their calls come one
after the other: a removal on Redis or on an SQL server takes several commands in the
Java service, and nothing comes between these.  On a Redis database that holds texts and strings
only (`Textual`), with a prefix that has no special bytes (`PlainPrefix`), that is so
exactly when the prefix is not empty; on Oracle no empty value is written. -/
theorem services_share_stores (describe : RedisError → String) {deserialize : Bytes → String}
    (decodes : ∀ text, deserialize (asBytes text) = text) {config : RedisConfig}
    (plain : PushCache.RedisCache.PlainPrefix config) :
    (IsMap (either (PushCache.RedisCache.Performed describe config)
        (RedisCache.Performed deserialize config.keyPrefix)) PushCache.RedisCache.Textual
        (PushCache.RedisCache.view config)
        (eitherReason PushCache.RedisCache.MayFail RedisCache.MayFail) ↔
      config.keyPrefix ≠ some "") ∧
    IsMap (either (MongoCache.Performed MyError) (MongoCache.Performed JavaException))
      MongoCache.Collection.Sound MongoCache.view
      (eitherReason (MongoCache.MayFail MyError) (MongoCache.MayFail JavaException)) ∧
    IsMap (either (guarded OracleCache.WritesBytes PushCache.OracleCache.Performed)
        (guarded OracleCache.WritesBytes
          (Jdbc.Performed "Oracle" OracleCache.statements OracleCache.HasKey)))
      (fun table => True ∧ OracleCache.NoEmpty (PushCache.OracleCache.view table))
      PushCache.OracleCache.view
      (eitherReason PushCache.OracleCache.MayFail (Jdbc.MayFail OracleCache.Refuses)) ∧
    IsMap (either PushCache.PostgresCache.Performed
        (Jdbc.Performed "Postgres" PostgresCache.statements PostgresCache.HasKey))
      (fun _ => True) PushCache.PostgresCache.view
      (eitherReason PushCache.PostgresCache.MayFail (Jdbc.MayFail PostgresCache.Refuses)) := by
  refine ⟨⟨?_, ?_⟩, ?_, ?_, ?_⟩
  · intro isMap empty
    exact RedisCache.not_isMap_of_emptyPrefix empty isMap
  · intro filled
    exact ((PushCache.RedisCache.refines describe plain).share
      (RedisCache.refines decodes filled plain)).isMap
  · exact ((MongoCache.refines MyError).share (MongoCache.refines JavaException)).isMap
  · have rust := PushCache.OracleCache.refines.restrict
      fun _ _ _ _ noEmpty writes answers => OracleCache.NoEmpty.answers noEmpty writes answers
    exact (rust.share (Jdbc.refines OracleCache.faithful)).isMap
  · exact (PushCache.PostgresCache.refines.share
      (Jdbc.refines PostgresCache.faithful).unguarded).isMap

end PushCache.Java

namespace PushCache.Sample

open PushCache.Keyed

/-- The key serializer of the Java service, on texts. -/
def readText (key : Bytes) : String := (fromUtf8 key).getD ""

theorem readText_asBytes (text : String) : readText (asBytes text) = text := by
  rw [readText, fromUtf8_asBytes, Option.getD_some]

/-- With the prefix `a`, clients of both services see one map. -/
theorem services_share_stores_of_redisA :
    IsMap (either (RedisCache.Performed (fun _ => "error") redisA)
        (Java.RedisCache.Performed readText redisA.keyPrefix)) RedisCache.Textual
      (RedisCache.view redisA) (eitherReason RedisCache.MayFail Java.RedisCache.MayFail) :=
  (Java.services_share_stores (fun _ => "error") readText_asBytes redisA_plain).1.mpr
    (by decide)

end PushCache.Sample
