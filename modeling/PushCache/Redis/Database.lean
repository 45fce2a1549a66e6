import Mathlib.Data.Finmap
import PushCache.Glob.Core

/-!
# The commands of a Redis database

A database maps keys to values; a value is a string, or of another type, which the
string commands refuse.  A scan with a pattern answers with the keys that match
it, in any order, each at least once.
-/

namespace PushCache.Redis

universe v

/-- A database with values of any kind. -/
abbrev Database (V : Type v) := Finmap fun _ : List UInt8 => V

/-- A string, or a value of another type. -/
inductive Value where
  | string (bytes : List UInt8)
  | other
  deriving DecidableEq

/-- The command is for values of another type. -/
inductive WrongType where
  | wrongType
  deriving DecidableEq

/-- The string of a value, if there is a value. -/
def Value.read : Option Value → Except WrongType (Option (List UInt8))
  | none => .ok none
  | some (.string bytes) => .ok (some bytes)
  | some .other => .error .wrongType

/-- `GET`. -/
def get (key : List UInt8) (database : Database Value) :
    Except WrongType (Option (List UInt8)) :=
  Value.read (database.lookup key)

/-- `SET`: a value of any type is replaced. -/
def set (key bytes : List UInt8) (database : Database Value) : Database Value :=
  database.insert key (.string bytes)

/-- `GETDEL`. -/
def getDel (key : List UInt8) (database : Database Value) :
    Except WrongType (Option (List UInt8)) × Database Value :=
  match get key database with
  | .ok value => (.ok value, database.erase key)
  | .error refused => (.error refused, database)

section Scans

variable {V : Type v}

/-- `EXISTS`. -/
def exists? (key : List UInt8) (database : Database V) : Bool :=
  (database.lookup key).isSome

/-- `DEL` of several keys. -/
def del (keys : List (List UInt8)) (database : Database V) : Database V :=
  keys.foldl (fun database key => database.erase key) database

/-- The key is in the database and matches the pattern. -/
def Matched (database : Database V) (pattern key : List UInt8) : Prop :=
  key ∈ database ∧ Glob.Matches pattern key

/-- `SCAN` with `MATCH`, from cursor zero back to zero, on a database that does not
change meanwhile: what it may answer. -/
def Scans (database : Database V) (pattern : List UInt8) (answer : List (List UInt8)) : Prop :=
  ∀ key, key ∈ answer ↔ Matched database pattern key

theorem scans_iff_toFinset {database : Database V} {pattern : List UInt8}
    {answer : List (List UInt8)} :
    Scans database pattern answer ↔
      answer.toFinset = database.keys.filter (Glob.Matches pattern) := by
  simp only [Scans, Finset.ext_iff, List.mem_toFinset, Finset.mem_filter, Finmap.mem_keys,
    Matched]

instance (database : Database V) (pattern : List UInt8) (answer : List (List UInt8)) :
    Decidable (Scans database pattern answer) :=
  decidable_of_iff _ scans_iff_toFinset.symm

theorem del_append (first second : List (List UInt8)) (database : Database V) :
    del (first ++ second) database = del second (del first database) :=
  List.foldl_append

theorem lookup_del (keys : List (List UInt8)) (database : Database V) (key : List UInt8) :
    (del keys database).lookup key = if key ∈ keys then none else database.lookup key := by
  induction keys generalizing database with
  | nil => simp [del]
  | cons first keys ih =>
      have unfolded : del (first :: keys) database = del keys (database.erase first) := rfl
      rw [unfolded, ih]
      by_cases later : key ∈ keys
      · simp [later]
      · by_cases here : key = first
        · subst here
          simp [later]
        · simp [later, here, Finmap.lookup_erase_ne]

/-! ## Databases that agree on some keys -/

/-- Two databases hold the same under the keys of a kind. -/
def AgreeOn (kind : List UInt8 → Prop) (first second : Database V) : Prop :=
  ∀ key, kind key → first.lookup key = second.lookup key

variable {kind : List UInt8 → Prop} {first second : Database V}

theorem AgreeOn.refl (kind : List UInt8 → Prop) (database : Database V) :
    AgreeOn kind database database :=
  fun _ _ => rfl

theorem AgreeOn.insert (agree : AgreeOn kind first second) (key : List UInt8) (value : V) :
    AgreeOn kind (first.insert key value) (second.insert key value) := by
  intro other isKind
  by_cases here : other = key
  · rw [here, Finmap.lookup_insert, Finmap.lookup_insert]
  · rw [Finmap.lookup_insert_of_ne _ here, Finmap.lookup_insert_of_ne _ here, agree other isKind]

theorem AgreeOn.erase (agree : AgreeOn kind first second) (key : List UInt8) :
    AgreeOn kind (first.erase key) (second.erase key) := by
  intro other isKind
  by_cases here : other = key
  · rw [here, Finmap.lookup_erase, Finmap.lookup_erase]
  · rw [Finmap.lookup_erase_ne here, Finmap.lookup_erase_ne here, agree other isKind]

/-- A write under a key of another kind is not noticed. -/
theorem AgreeOn.insert_left (agree : AgreeOn kind first second) {key : List UInt8}
    (otherKind : ¬kind key) (value : V) : AgreeOn kind (first.insert key value) second := by
  intro other isKind
  have elsewhere : other ≠ key := fun here => otherKind (here ▸ isKind)
  rw [Finmap.lookup_insert_of_ne _ elsewhere, agree other isKind]

theorem AgreeOn.erase_left (agree : AgreeOn kind first second) {key : List UInt8}
    (otherKind : ¬kind key) : AgreeOn kind (first.erase key) second := by
  intro other isKind
  have elsewhere : other ≠ key := fun here => otherKind (here ▸ isKind)
  rw [Finmap.lookup_erase_ne elsewhere, agree other isKind]

/-- Databases that agree on the keys a pattern matches have the same scans. -/
theorem AgreeOn.scans_iff {pattern : List UInt8} (agree : AgreeOn kind first second)
    (isKind : ∀ key, Glob.Matches pattern key → kind key) (answer : List (List UInt8)) :
    Scans first pattern answer ↔ Scans second pattern answer := by
  apply forall_congr'
  intro key
  have same : Matched first pattern key ↔ Matched second pattern key := by
    apply and_congr_left
    intro matched
    rw [← Finmap.lookup_isSome, ← Finmap.lookup_isSome, agree key (isKind key matched)]
  rw [same]

end Scans

/-- `GETDEL` answers with the string of the key and deletes it, or refuses. -/
theorem AgreeOn.getDel {kind : List UInt8 → Prop} {first second : Database Value}
    (agree : AgreeOn kind first second) {key : List UInt8} (isKind : kind key) :
    (Redis.getDel key first).1 = (Redis.getDel key second).1 ∧
      AgreeOn kind (Redis.getDel key first).2 (Redis.getDel key second).2 := by
  have same : get key first = get key second := by rw [get, get, agree key isKind]
  simp only [Redis.getDel, same]
  cases get key second with
  | ok value => exact ⟨rfl, agree.erase key⟩
  | error refused => exact ⟨rfl, agree⟩

theorem AgreeOn.getDel_left {kind : List UInt8 → Prop} {first second : Database Value}
    (agree : AgreeOn kind first second) {key : List UInt8} (otherKind : ¬kind key) :
    AgreeOn kind (Redis.getDel key first).2 second := by
  simp only [Redis.getDel]
  cases get key first with
  | ok value => exact agree.erase_left otherKind
  | error refused => exact agree

end PushCache.Redis
