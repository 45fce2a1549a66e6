import PushCache.Cache.Core
import PushCache.Keyed.Core

/-!
# The SQL stores

An Oracle and a Postgres store keep their records in a table with the key as primary
key.  A change of an Oracle table is kept when it is committed, and is lost when the
connection goes back to the pool before.  Neither column takes every key, and Oracle
keeps no empty value apart from a missing one.
-/

namespace PushCache

open PushCache.Keyed

/-! ## Oracle -/

namespace OracleCache

/-- What the column `k VARCHAR2(255) PRIMARY KEY` refuses, with a length in bytes.  The
empty text is null. -/
def refusal (key : String) : Option String :=
  if key = "" then some "ORA-01400: cannot insert NULL"
  else if 255 < (asBytes key).length then some "ORA-12899: value too large for column"
  else none

/-- The table of a store.  A value is null or has bytes. -/
structure Table where
  rows : Finmap fun _ : String => Option Bytes
  fits : ∀ key ∈ rows, refusal key = none

/-- The calls of the driver that may fail. -/
inductive DriverCall where
  | getConnection
  | queryRow
  | execute
  | commit
  | build
  | query
  | fetchRow (index : Nat)
  | getKey (index : Nat)

/-- Which calls of the driver fail, and how. -/
abbrev Down := DriverCall → Option String

/-- The empty `RAW` is null. -/
def bindBytes (value : Bytes) : Option Bytes :=
  if value = [] then none else some value

/-- `MERGE INTO t`. -/
def Table.merge (table : Table) (key : String) (value : Bytes) (fit : refusal key = none) :
    Table where
  rows := table.rows.insert key (bindBytes value)
  fits := by
    intro other held
    rcases Finmap.mem_insert.mp held with rfl | before
    · exact fit
    · exact table.fits other before

/-- `DELETE FROM t WHERE k = :1`. -/
def Table.delete (table : Table) (key : String) : Table where
  rows := table.rows.erase key
  fits other held := table.fits other (Finmap.mem_erase.mp held).2

/-- An error of `query_row_as`. -/
inductive RowError where
  | noDataFound
  | other (text : String)

/-- `SELECT v FROM t WHERE k = :1`, read as bytes. -/
def queryRowAs (down : Down) (key : String) (table : Table) : Except RowError Bytes :=
  match down .queryRow with
  | some error => .error (.other error)
  | none =>
      match table.rows.lookup key with
      | none => .error .noDataFound
      | some none => .error (.other "NULL value found")
      | some (some bytes) => .ok bytes

section Methods

variable (down : Down)

/-- `get`. -/
def get (key : String) (table : Table) : Except MyError (Option Bytes) :=
  match down .getConnection with
  | some error => .error (.message s!"Oracle get connection error: {error}")
  | none =>
      match queryRowAs down key table with
      | .ok bytes => .ok (some bytes)
      | .error .noDataFound => .ok none
      | .error (.other error) => .error (.message s!"Oracle get error: {error}")

/-- `insert`. -/
def insert (key : String) (value : Bytes) (table : Table) : Except MyError Unit × Table :=
  match down .getConnection with
  | some error => (.error (.message s!"Oracle get connection error: {error}"), table)
  | none =>
      match down .execute with
      | some error => (.error (.message s!"Oracle insert error: {error}"), table)
      | none =>
          match fit : refusal key with
          | some error => (.error (.message s!"Oracle insert error: {error}"), table)
          | none =>
              match down .commit with
              | some error => (.error (.message s!"Oracle commit error: {error}"), table)
              | none => (.ok (), table.merge key value fit)

/-- `remove`. -/
def remove (key : String) (table : Table) : Except MyError (Option Bytes) × Table :=
  match down .getConnection with
  | some error => (.error (.message s!"Oracle get connection error: {error}"), table)
  | none =>
      match queryRowAs down key table with
      | .error (.other error) =>
          (.error (.message s!"Oracle fetch for remove error: {error}"), table)
      | fetched =>
          let oldValue := fetched.toOption
          match down .execute with
          | some error => (.error (.message s!"Oracle delete error: {error}"), table)
          | none =>
              match down .commit with
              | some error => (.error (.message s!"Oracle commit error: {error}"), table)
              | none => (.ok oldValue, table.delete key)

/-- The loop of `keys` over the rows. -/
def collectKeys : Nat → List String → List String → Except MyError (List String)
  | _, [], keys => .ok keys
  | index, row :: rows, keys =>
      match down (.fetchRow index) with
      | some error => .error (.message s!"Oracle fetch row error: {error}")
      | none =>
          match down (.getKey index) with
          | some error => .error (.message s!"Oracle get key error: {error}")
          | none => collectKeys (index + 1) rows (keys ++ [row])

/-- `keys`, given the keys in the order of the rows. -/
def keys (rows : List String) : Except MyError (List String) :=
  match down .getConnection with
  | some error => .error (.message s!"Oracle get connection error: {error}")
  | none =>
      match down .build with
      | some error => .error (.message s!"Oracle build statement error: {error}")
      | none =>
          match down .query with
          | some error => .error (.message s!"Oracle query keys error: {error}")
          | none => collectKeys down 0 rows []

/-- `contains_key`. -/
def containsKey (key : String) (table : Table) : Except MyError Bool :=
  match down .getConnection with
  | some error => .error (.message s!"Oracle get connection error: {error}")
  | none =>
      match down .queryRow with
      | some error => .error (.message s!"Oracle contains_key error: {error}")
      | none =>
          let count : Nat := if key ∈ table.rows then 1 else 0
          .ok (0 < count)

end Methods

/-- What the store may do. -/
inductive Performed : Performs Down Table String Bytes MyError
  | get (down : Down) (key : String) (table : Table) :
      Performed down (.get key) table ((get down key table).map .found) table
  | insert (down : Down) (key : String) (value : Bytes) (table : Table) :
      Performed down (.insert key value) table
        ((insert down key value table).1.map fun _ => .done) (insert down key value table).2
  | remove (down : Down) (key : String) (table : Table) :
      Performed down (.remove key) table ((remove down key table).1.map .found)
        (remove down key table).2
  | keys (down : Down) (table : Table) {rows : List String} (once : rows.Nodup)
      (listed : ∀ key, key ∈ rows ↔ key ∈ table.rows) :
      Performed down .keys table ((keys down rows).map .keys) table
  | containsKey (down : Down) (key : String) (table : Table) :
      Performed down (.containsKey key) table ((containsKey down key table).map .present) table

/-- What the table holds; null is the empty value. -/
def view (table : Table) (key : String) : Option Bytes :=
  (table.rows.lookup key).map fun value => value.getD []

/-- A call of the driver fails, the column refuses the key, or the value is null. -/
def MayFail : Reason Down String Bytes := fun down call map =>
  (∃ step, (down step).isSome = true) ∨
    match call with
    | .insert key _ => refusal key ≠ none
    | .get key => map key = some []
    | .remove key => map key = some []
    | _ => False

variable {down : Down} {key : String} {table : Table}

theorem view_merge (value : Bytes) (fit : refusal key = none) :
    view (table.merge key value fit) = Function.update (view table) key (some value) := by
  funext other
  rw [Function.update_apply, view, Table.merge]
  by_cases here : other = key
  · rw [here, Finmap.lookup_insert, if_pos rfl, Option.map_some, bindBytes]
    split
    · next empty => rw [empty]; rfl
    · rfl
  · rw [Finmap.lookup_insert_of_ne _ here, if_neg here]
    rfl

theorem view_delete :
    view (table.delete key) = Function.update (view table) key none := by
  funext other
  rw [Function.update_apply, view, Table.delete]
  by_cases here : other = key
  · rw [here, Finmap.lookup_erase, if_pos rfl]
    rfl
  · rw [Finmap.lookup_erase_ne here, if_neg here]
    rfl

/-- What a lookup of a row says about the table. -/
theorem queryRowAs_cases (down : Down) (key : String) (table : Table) :
    (∃ bytes, queryRowAs down key table = .ok bytes ∧ view table key = some bytes) ∨
    (queryRowAs down key table = .error .noDataFound ∧ view table key = none) ∨
    ∃ error, queryRowAs down key table = .error (.other error) ∧
      ((∃ step, (down step).isSome = true) ∨ view table key = some []) := by
  rw [queryRowAs, view]
  cases failed : down .queryRow with
  | some error => exact Or.inr (Or.inr ⟨error, rfl, Or.inl ⟨.queryRow, by rw [failed]; rfl⟩⟩)
  | none =>
      cases table.rows.lookup key with
      | none => exact Or.inr (Or.inl ⟨rfl, rfl⟩)
      | some value =>
          cases value with
          | none => exact Or.inr (Or.inr ⟨_, rfl, Or.inr rfl⟩)
          | some bytes => exact Or.inl ⟨bytes, rfl, rfl⟩

theorem MayFail.of_down {call : Call String Bytes} {map : String → Option Bytes}
    {step : DriverCall} {error : String} (failed : down step = some error) :
    MayFail down call map :=
  Or.inl ⟨step, by rw [failed]; rfl⟩

theorem get_outcome (down : Down) (key : String) (table : Table) :
    get down key table = .ok (view table key) ∨
      ∃ error, get down key table = .error error ∧ MayFail down (.get key) (view table) := by
  rw [get]
  cases connected : down .getConnection with
  | some error => exact Or.inr ⟨_, rfl, .of_down connected⟩
  | none =>
      rcases queryRowAs_cases down key table with
        ⟨bytes, fetched, held⟩ | ⟨fetched, held⟩ | ⟨error, fetched, why⟩
      · simp only [fetched, held, true_or]
      · simp only [fetched, held, true_or]
      · simp only [fetched]
        exact Or.inr ⟨_, rfl, why⟩

theorem insert_outcome (down : Down) (key : String) (value : Bytes) (table : Table) :
    (∃ next, insert down key value table = (.ok (), next) ∧
      view next = Function.update (view table) key (some value)) ∨
      ∃ error, insert down key value table = (.error error, table) ∧
        MayFail down (.insert key value) (view table) := by
  rw [insert]
  cases connected : down .getConnection with
  | some error => exact Or.inr ⟨_, rfl, .of_down connected⟩
  | none =>
      cases executed : down .execute with
      | some error => exact Or.inr ⟨_, rfl, .of_down executed⟩
      | none =>
          simp only
          split
          · next error refused =>
              have refuses : refusal key ≠ none := by
                rw [refused]
                exact Option.some_ne_none error
              exact Or.inr ⟨_, rfl, Or.inr refuses⟩
          · next fit =>
              cases committed : down .commit with
              | some error => exact Or.inr ⟨_, rfl, .of_down committed⟩
              | none => exact Or.inl ⟨_, rfl, view_merge value fit⟩

theorem remove_outcome (down : Down) (key : String) (table : Table) :
    (∃ next, remove down key table = (.ok (view table key), next) ∧
      view next = Function.update (view table) key none) ∨
      ∃ error, remove down key table = (.error error, table) ∧
        MayFail down (.remove key) (view table) := by
  rw [remove]
  cases connected : down .getConnection with
  | some error => exact Or.inr ⟨_, rfl, .of_down connected⟩
  | none =>
      rcases queryRowAs_cases down key table with
        ⟨bytes, fetched, held⟩ | ⟨fetched, held⟩ | ⟨error, fetched, why⟩
      case inr.inr =>
        simp only [fetched]
        exact Or.inr ⟨_, rfl, why⟩
      all_goals
        simp only [fetched, held]
        cases executed : down .execute with
        | some error => exact Or.inr ⟨_, rfl, .of_down executed⟩
        | none =>
            cases committed : down .commit with
            | some error => exact Or.inr ⟨_, rfl, .of_down committed⟩
            | none => exact Or.inl ⟨_, rfl, view_delete⟩

/-- The loop of `keys` lists all rows or fails. -/
theorem collectKeys_outcome (down : Down) (index : Nat) (rows keys : List String) :
    collectKeys down index rows keys = .ok (keys ++ rows) ∨
      ∃ error, collectKeys down index rows keys = .error error ∧
        ∃ step, (down step).isSome = true := by
  induction rows generalizing index keys with
  | nil =>
      rw [collectKeys, List.append_nil]
      exact Or.inl rfl
  | cons row rows ih =>
      rw [collectKeys]
      cases fetched : down (.fetchRow index) with
      | some error => exact Or.inr ⟨_, rfl, .fetchRow index, by rw [fetched]; rfl⟩
      | none =>
          cases read : down (.getKey index) with
          | some error => exact Or.inr ⟨_, rfl, .getKey index, by rw [read]; rfl⟩
          | none =>
              have rest := ih (index + 1) (keys ++ [row])
              rwa [List.append_assoc, List.singleton_append] at rest

theorem keys_outcome (down : Down) (rows : List String) :
    keys down rows = .ok rows ∨
      ∃ error, keys down rows = .error error ∧ ∃ step, (down step).isSome = true := by
  rw [keys]
  cases connected : down .getConnection with
  | some error => exact Or.inr ⟨_, rfl, .getConnection, by rw [connected]; rfl⟩
  | none =>
      cases built : down .build with
      | some error => exact Or.inr ⟨_, rfl, .build, by rw [built]; rfl⟩
      | none =>
          cases queried : down .query with
          | some error => exact Or.inr ⟨_, rfl, .query, by rw [queried]; rfl⟩
          | none => exact collectKeys_outcome down 0 rows []

theorem mem_rows_iff : key ∈ table.rows ↔ (view table key).isSome = true := by
  rw [view, Option.isSome_map, Finmap.lookup_isSome]

theorem containsKey_outcome (down : Down) (key : String) (table : Table) :
    containsKey down key table = .ok (view table key).isSome ∨
      ∃ error, containsKey down key table = .error error ∧
        ∃ step, (down step).isSome = true := by
  rw [containsKey]
  cases connected : down .getConnection with
  | some error => exact Or.inr ⟨_, rfl, .getConnection, by rw [connected]; rfl⟩
  | none =>
      cases queried : down .queryRow with
      | some error => exact Or.inr ⟨_, rfl, .queryRow, by rw [queried]; rfl⟩
      | none =>
          left
          by_cases held : key ∈ table.rows
          · simp only [held, if_true, mem_rows_iff.mp held]
            rfl
          · have absent : (view table key).isSome = false := by
              rw [← Bool.not_eq_true, ← mem_rows_iff]
              exact held
            simp only [held, if_false, absent]
            rfl

/-- The store is a map. -/
theorem refines : Refines Performed (fun _ => True) view MayFail := by
  apply Refines.of_outcome (fun _ _ _ _ _ _ _ => trivial)
  intro down call table result next _ performed
  cases performed with
  | get _ key =>
      rcases get_outcome down key table with ok | ⟨error, failed, why⟩
      · rw [ok]
        exact Or.inl ⟨_, rfl, .get key⟩
      · rw [failed]
        exact Or.inr ⟨_, rfl, rfl, why⟩
  | insert _ key value =>
      rcases insert_outcome down key value table with ⟨after, ok, held⟩ | ⟨error, failed, why⟩
      · rw [ok, held]
        exact Or.inl ⟨_, rfl, .insert key value⟩
      · rw [failed]
        exact Or.inr ⟨_, rfl, rfl, why⟩
  | remove _ key =>
      rcases remove_outcome down key table with ⟨after, ok, held⟩ | ⟨error, failed, why⟩
      · rw [ok, held]
        exact Or.inl ⟨_, rfl, .remove key⟩
      · rw [failed]
        exact Or.inr ⟨_, rfl, rfl, why⟩
  | keys _ _ once listed =>
      rcases keys_outcome down _ with ok | ⟨error, failed, why⟩
      · rw [ok]
        exact Or.inl ⟨_, rfl, .keys fun key => (listed key).trans mem_rows_iff⟩
      · rw [failed]
        exact Or.inr ⟨_, rfl, rfl, Or.inl why⟩
  | containsKey _ key =>
      rcases containsKey_outcome down key table with ok | ⟨error, failed, why⟩
      · rw [ok]
        exact Or.inl ⟨_, rfl, .containsKey key⟩
      · rw [failed]
        exact Or.inr ⟨_, rfl, rfl, Or.inl why⟩

end OracleCache

/-! ## Postgres -/

namespace PostgresCache

/-- The table of a store. -/
abbrev Table := Finmap fun _ : String => Bytes

/-- A statement with a key fails when the server does, and when the key holds a NUL,
which is no text to the server. -/
def keyError (down : Option String) (key : String) : Option String :=
  down.or
    (if '\x00' ∈ key.toList then some "invalid byte sequence for encoding \"UTF8\": 0x00" else none)

section Methods

variable (down : Option String)

/-- `get`. -/
def get (key : String) (table : Table) : Except MyError (Option Bytes) :=
  match keyError down key with
  | some error => .error (.message s!"Postgres get error: {error}")
  | none => .ok (table.lookup key)

/-- `insert`. -/
def insert (key : String) (value : Bytes) (table : Table) : Except MyError Unit × Table :=
  match keyError down key with
  | some error => (.error (.message s!"Postgres insert error: {error}"), table)
  | none => (.ok (), table.insert key value)

/-- `remove`: `DELETE .. RETURNING v`. -/
def remove (key : String) (table : Table) : Except MyError (Option Bytes) × Table :=
  match keyError down key with
  | some error => (.error (.message s!"Postgres remove error: {error}"), table)
  | none => (.ok (table.lookup key), table.erase key)

/-- `keys`, given the keys in the order of the rows. -/
def keys (rows : List String) : Except MyError (List String) :=
  match down with
  | some error => .error (.message s!"Postgres keys error: {error}")
  | none => .ok rows

/-- `contains_key`. -/
def containsKey (key : String) (table : Table) : Except MyError Bool :=
  match keyError down key with
  | some error => .error (.message s!"Postgres contains_key error: {error}")
  | none => .ok (table.lookup key).isSome

end Methods

/-- What the store may do. -/
inductive Performed : Performs (Option String) Table String Bytes MyError
  | get (down : Option String) (key : String) (table : Table) :
      Performed down (.get key) table ((get down key table).map .found) table
  | insert (down : Option String) (key : String) (value : Bytes) (table : Table) :
      Performed down (.insert key value) table
        ((insert down key value table).1.map fun _ => .done) (insert down key value table).2
  | remove (down : Option String) (key : String) (table : Table) :
      Performed down (.remove key) table ((remove down key table).1.map .found)
        (remove down key table).2
  | keys (down : Option String) (table : Table) {rows : List String} (once : rows.Nodup)
      (listed : ∀ key, key ∈ rows ↔ key ∈ table) :
      Performed down .keys table ((keys down rows).map .keys) table
  | containsKey (down : Option String) (key : String) (table : Table) :
      Performed down (.containsKey key) table ((containsKey down key table).map .present) table

/-- What the table holds. -/
def view (table : Table) (key : String) : Option Bytes := table.lookup key

/-- The server fails, or a key holds a NUL. -/
def MayFail : Reason (Option String) String Bytes := fun down call _ =>
  down.isSome = true ∨
    match call with
    | .get key | .insert key _ | .remove key | .containsKey key => '\x00' ∈ key.toList
    | .keys => False

variable {down : Option String} {key error : String}

theorem of_keyError (failed : keyError down key = some error) :
    down.isSome = true ∨ '\x00' ∈ key.toList := by
  cases down with
  | some text => exact Or.inl rfl
  | none =>
      rw [keyError, Option.none_or] at failed
      split at failed
      · next holds => exact Or.inr holds
      · cases failed

theorem view_insert (table : Table) (key : String) (value : Bytes) :
    view (table.insert key value) = Function.update (view table) key (some value) := by
  funext other
  rw [Function.update_apply, view]
  by_cases here : other = key
  · rw [here, Finmap.lookup_insert, if_pos rfl]
  · rw [Finmap.lookup_insert_of_ne _ here, if_neg here, view]

theorem view_erase (table : Table) (key : String) :
    view (table.erase key) = Function.update (view table) key none := by
  funext other
  rw [Function.update_apply, view]
  by_cases here : other = key
  · rw [here, Finmap.lookup_erase, if_pos rfl]
  · rw [Finmap.lookup_erase_ne here, if_neg here, view]

/-- The store is a map. -/
theorem refines : Refines Performed (fun _ => True) view MayFail := by
  apply Refines.of_outcome (fun _ _ _ _ _ _ _ => trivial)
  intro down call table result next _ performed
  cases performed with
  | get _ key =>
      rw [get]
      cases failed : keyError down key with
      | some error => exact Or.inr ⟨_, rfl, rfl, of_keyError failed⟩
      | none => exact Or.inl ⟨_, rfl, .get key⟩
  | insert _ key value =>
      rw [insert]
      cases failed : keyError down key with
      | some error => exact Or.inr ⟨_, rfl, rfl, of_keyError failed⟩
      | none =>
          refine Or.inl ⟨_, rfl, ?_⟩
          simp only [view_insert]
          exact .insert key value
  | remove _ key =>
      rw [remove]
      cases failed : keyError down key with
      | some error => exact Or.inr ⟨_, rfl, rfl, of_keyError failed⟩
      | none =>
          refine Or.inl ⟨_, rfl, ?_⟩
          simp only [view_erase]
          exact .remove key
  | keys _ _ once listed =>
      cases down with
      | some error => exact Or.inr ⟨_, rfl, rfl, Or.inl rfl⟩
      | none =>
          refine Or.inl ⟨_, rfl, .keys fun key => (listed key).trans ?_⟩
          exact Finmap.lookup_isSome.symm
  | containsKey _ key =>
      rw [containsKey]
      cases failed : keyError down key with
      | some error => exact Or.inr ⟨_, rfl, rfl, of_keyError failed⟩
      | none => exact Or.inl ⟨_, rfl, .containsKey key⟩

end PostgresCache

end PushCache
