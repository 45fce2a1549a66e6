import PushCache.Cache.Core
import PushCache.Redis.Database

/-!
# The Redis store

`RedisCache` puts its prefix and a colon before every key, and lists its keys with
a scan for the prefix, a colon and a star.  Nothing is escaped: a prefix may start
with that of another store, and special bytes of a prefix keep their meaning in
the pattern.
-/

namespace PushCache

/-- An error of the client library: of the connection, of the server, or a key that
is not text. -/
inductive RedisError where
  | connection (text : String)
  | wrongType
  | notText
  deriving DecidableEq

/-- `str::strip_prefix`. -/
def stripPrefix (start text : String) : Option String :=
  if start.toList <+: text.toList then some (String.ofList (text.toList.drop start.length))
  else none

theorem isPrefix_iff {start text : String} :
    start.toList <+: text.toList ↔ ∃ rest, start ++ rest = text := by
  constructor
  · rintro ⟨rest, split⟩
    refine ⟨String.ofList rest, ?_⟩
    rw [← String.toList_inj, String.toList_append, String.toList_ofList, split]
  · rintro ⟨rest, rfl⟩
    exact ⟨rest.toList, String.toList_append.symm⟩

/-- What `strip_prefix` leaves. -/
theorem stripPrefix_eq_some_iff {start text rest : String} :
    stripPrefix start text = some rest ↔ start ++ rest = text := by
  rw [stripPrefix]
  constructor
  · intro stripped
    split at stripped
    · next starts =>
        cases stripped
        rw [← String.toList_inj, String.toList_append, String.toList_ofList,
          ← String.length_toList]
        exact List.prefix_append_drop starts |>.symm
    · cases stripped
  · rintro rfl
    have starts : start.toList <+: (start ++ rest).toList := isPrefix_iff.mpr ⟨rest, rfl⟩
    rw [if_pos starts, String.toList_append, ← String.length_toList, List.drop_left,
      String.ofList_toList]

namespace RedisCache

/-- The answer to a command, if the connection is up. -/
def received {α : Type*} (down : Option String) (answer : Except Redis.WrongType α) :
    Except RedisError α :=
  match down with
  | some text => .error (.connection text)
  | none => answer.mapError fun _ => .wrongType

/-- `match_pattern`. -/
def matchPattern (config : RedisConfig) : String :=
  match config.keyPrefix with
  | some keyPrefix => s!"{keyPrefix}:*"
  | none => "*"

theorem pattern_eq (keyPrefix : String) :
    asBytes s!"{keyPrefix}:*" = asBytes s!"{keyPrefix}:" ++ [42] := by
  have star : asBytes ":*" = asBytes ":" ++ [42] := by decide
  calc asBytes (keyPrefix ++ ":*")
      = asBytes keyPrefix ++ (asBytes ":" ++ [42]) := by rw [asBytes_append, star]
    _ = asBytes (keyPrefix ++ ":") ++ [42] := by rw [asBytes_append, List.append_assoc]

/-- Without special bytes in the prefix, the pattern of a store matches the keys that
start with the prefix and a colon. -/
theorem matches_pattern_iff {keyPrefix : String} {key : Bytes}
    (plain : ∀ byte ∈ asBytes keyPrefix, Glob.Plain byte) :
    Glob.Matches (asBytes s!"{keyPrefix}:*") key ↔ asBytes s!"{keyPrefix}:" <+: key := by
  rw [pattern_eq, Glob.matches_plain_star_iff]
  have bytes : asBytes s!"{keyPrefix}:" = asBytes keyPrefix ++ [58] := asBytes_append _ _
  rw [bytes]
  intro byte member
  cases List.mem_append.mp member with
  | inl inPrefix => exact plain byte inPrefix
  | inr colon =>
      rw [List.mem_singleton.mp colon]
      decide

/-- The name `keys` gives a key of the database. -/
def nameOf (config : RedisConfig) (key : String) : String :=
  match config.keyPrefix with
  | some keyPrefix =>
      match stripPrefix s!"{keyPrefix}:" key with
      | some stripped => stripped
      -- "Should match scan pattern, but just in case"
      | none => key
  | none => key

section Methods

variable (describe : RedisError → String) (config : RedisConfig) (down : Option String)

/-- `get`. -/
def get (key : String) (database : Redis.Database Redis.Value) :
    Except MyError (Option Bytes) :=
  (received down (Redis.get (asBytes (formatKey config key)) database)).mapError fun error =>
    .message s!"Redis get error: {describe error}"

/-- `insert`. -/
def insert (key : String) (value : Bytes) (database : Redis.Database Redis.Value) :
    Except MyError Unit × Redis.Database Redis.Value :=
  match down with
  | some text => (.error (.message s!"Redis set error: {describe (.connection text)}"), database)
  | none => (.ok (), Redis.set (asBytes (formatKey config key)) value database)

/-- `remove`. -/
def remove (key : String) (database : Redis.Database Redis.Value) :
    Except MyError (Option Bytes) × Redis.Database Redis.Value :=
  match down with
  | some text =>
      (.error (.message s!"Redis get_del error: {describe (.connection text)}"), database)
  | none =>
      let (answer, database) := Redis.getDel (asBytes (formatKey config key)) database
      ((received none answer).mapError fun error =>
        .message s!"Redis get_del error: {describe error}", database)

/-- `contains_key`. -/
def containsKey (key : String) (database : Redis.Database Redis.Value) : Except MyError Bool :=
  (received down (.ok (Redis.exists? (asBytes (formatKey config key)) database))).mapError
    fun error => .message s!"Redis exists error: {describe error}"

/-- The loop of `keys` over the answer to the scan. -/
def collectKeys : List Bytes → List String → Except MyError (List String)
  | [], keys => .ok keys
  | item :: items, keys =>
      match fromUtf8 item with
      | some key => collectKeys items (keys ++ [nameOf config key])
      | none =>
          .error (.message s!"Redis scan error during iteration: {describe .notText}")

/-- `keys`, given the answer to the scan. -/
def keys (scanned : List Bytes) : Except MyError (List String) :=
  match down with
  | some text => .error (.message s!"Redis scan error: {describe (.connection text)}")
  | none => collectKeys describe config scanned []

end Methods

/-! ## Names and keys -/

/-- The text is no key of the store. -/
def Foreign (config : RedisConfig) (text : String) : Prop :=
  ∀ name, formatKey config name ≠ text

@[simp]
theorem nameOf_formatKey (config : RedisConfig) (name : String) :
    nameOf config (formatKey config name) = name := by
  rcases config with ⟨url, keyPrefix⟩
  cases keyPrefix with
  | none => rfl
  | some keyPrefix =>
      have stripped : stripPrefix s!"{keyPrefix}:" s!"{keyPrefix}:{name}" = some name :=
        stripPrefix_eq_some_iff.mpr rfl
      simp only [nameOf, formatKey, stripped]

/-- `keys` strips the keys of the store, and leaves the others as they are. -/
theorem formatKey_nameOf_or_foreign (config : RedisConfig) (text : String) :
    formatKey config (nameOf config text) = text ∨
      nameOf config text = text ∧ Foreign config text := by
  rcases config with ⟨url, keyPrefix⟩
  cases keyPrefix with
  | none => exact Or.inl rfl
  | some keyPrefix =>
      cases stripped : stripPrefix s!"{keyPrefix}:" text with
      | some name =>
          have named : nameOf ⟨url, some keyPrefix⟩ text = name := by simp only [nameOf, stripped]
          rw [named]
          exact Or.inl (stripPrefix_eq_some_iff.mp stripped)
      | none =>
          have named : nameOf ⟨url, some keyPrefix⟩ text = text := by simp only [nameOf, stripped]
          apply Or.inr
          constructor
          · exact named
          · intro name same
            rw [stripPrefix_eq_some_iff.mpr same] at stripped
            cases stripped

/-- The loop of `keys` gets through when every key is text. -/
theorem collectKeys_eq_ok_iff {describe : RedisError → String} {config : RedisConfig}
    {items : List Bytes} {keys result : List String} :
    collectKeys describe config items keys = .ok result ↔
      ∃ texts : List String, texts.map asBytes = items ∧
        keys ++ texts.map (nameOf config) = result := by
  induction items generalizing keys with
  | nil =>
      rw [collectKeys, Except.ok.injEq]
      constructor
      · intro same
        exact ⟨[], rfl, by simpa using same⟩
      · rintro ⟨texts, none, same⟩
        rw [List.map_eq_nil_iff.mp none] at same
        simpa using same
  | cons item items ih =>
      rw [collectKeys]
      cases decoded : fromUtf8 item with
      | some text =>
          have bytes := fromUtf8_eq_some_iff.mp decoded
          rw [ih]
          constructor
          · rintro ⟨texts, rfl, rfl⟩
            exact ⟨text :: texts, by simp [bytes], by simp⟩
          · rintro ⟨texts, split, rfl⟩
            rcases List.map_eq_cons_iff.mp split with ⟨first, rest, rfl, same, rfl⟩
            have sameText : first = text := asBytes_injective (same.trans bytes.symm)
            exact ⟨rest, rfl, by simp [sameText]⟩
      | none =>
          constructor
          · intro failed
            cases failed
          · rintro ⟨texts, split, _⟩
            rcases List.map_eq_cons_iff.mp split with ⟨first, rest, rfl, same, rfl⟩
            rw [← same, fromUtf8_asBytes] at decoded
            cases decoded

/-! ## The records of a cell -/

/-- Under the keys that are texts, a database holds the records of a cell. -/
def Holds (database : Redis.Database Redis.Value) (records : Records) : Prop :=
  ∀ key, database.lookup (asBytes key) = (records.lookup key).map .string

/-- The calls that fail while the connection is down. -/
def faults (describe : RedisError → String) (down : Option String) : Faults
  | .get _ _ =>
      down.map fun text => .message s!"Redis get error: {describe (.connection text)}"
  | .write (.insert _ _ _) =>
      down.map fun text => .message s!"Redis set error: {describe (.connection text)}"
  | .write (.remove _ _) =>
      down.map fun text => .message s!"Redis get_del error: {describe (.connection text)}"

section Records

variable {database : Redis.Database Redis.Value} {records : Records}

theorem Holds.insert (holds : Holds database records) (key : String) (value : Bytes) :
    Holds (database.insert (asBytes key) (.string value)) (records.insert key value) := by
  intro other
  by_cases here : other = key
  · rw [here, Finmap.lookup_insert, Finmap.lookup_insert]
    rfl
  · rw [Finmap.lookup_insert_of_ne _ (asBytes_injective.ne here),
      Finmap.lookup_insert_of_ne _ here, holds other]

theorem Holds.erase (holds : Holds database records) (key : String) :
    Holds (database.erase (asBytes key)) (records.erase key) := by
  intro other
  by_cases here : other = key
  · rw [here, Finmap.lookup_erase, Finmap.lookup_erase]
    rfl
  · rw [Finmap.lookup_erase_ne (asBytes_injective.ne here), Finmap.lookup_erase_ne here,
      holds other]

theorem Holds.get (holds : Holds database records) (key : String) :
    Redis.get (asBytes key) database = .ok (records.lookup key) := by
  rw [Redis.get, holds key]
  cases records.lookup key <;> rfl

variable (describe : RedisError → String) (down : Option String) {config : RedisConfig}
  {cache : Cache} {world : World}

theorem storedKey_of_redis (redis : cache.storeType = .redis config) (key : String) :
    cache.storedKey key = formatKey config key := by
  rw [Cache.storedKey, redis]

/-- `get` reads the record of the cell. -/
theorem get_eq_cache_get (redis : cache.storeType = .redis config)
    (holds : Holds database (world.contents cache.cell)) (key : String) :
    get describe config down key database = cache.get (faults describe down) key world := by
  rw [get, Cache.get, redis, holds.get, ← storedKey_of_redis redis]
  cases down <;> rfl

/-- `insert` leaves the record in the cell. -/
theorem insert_eq_cache_insert (redis : cache.storeType = .redis config)
    (holds : Holds database (world.contents cache.cell)) (key : String) (value : Bytes) :
    (insert describe config down key value database).1 =
        (cache.insert (faults describe down) key value world).1 ∧
      Holds (insert describe config down key value database).2
        ((cache.insert (faults describe down) key value world).2.contents cache.cell) := by
  rw [Cache.insert, redis, storedKey_of_redis redis]
  cases down with
  | some text => exact ⟨rfl, holds⟩
  | none =>
      have inCell : (world.put cache.cell (formatKey config key) value).contents cache.cell =
          (world.contents cache.cell).insert (formatKey config key) value :=
        Function.update_self ..
      have inserted := holds.insert (formatKey config key) value
      exact ⟨rfl, inCell.symm ▸ inserted⟩

/-- `remove` erases the record of the cell. -/
theorem remove_eq_cache_remove (redis : cache.storeType = .redis config)
    (holds : Holds database (world.contents cache.cell)) (key : String) :
    (remove describe config down key database).1 =
        (cache.remove (faults describe down) key world).1 ∧
      Holds (remove describe config down key database).2
        ((cache.remove (faults describe down) key world).2.contents cache.cell) := by
  rw [Cache.remove, redis, storedKey_of_redis redis]
  cases down with
  | some text => exact ⟨rfl, holds⟩
  | none =>
      have inCell : (world.erase cache.cell (formatKey config key)).contents cache.cell =
          (world.contents cache.cell).erase (formatKey config key) :=
        Function.update_self ..
      have answered := holds.get (formatKey config key)
      have erased := holds.erase (formatKey config key)
      simp only [remove, Redis.getDel, answered]
      exact ⟨rfl, inCell.symm ▸ erased⟩

end Records

end RedisCache

namespace Sample

/-- `redis://localhost`. -/
def redisUrl : Url := ⟨"redis://localhost", some "localhost", none⟩

theorem plain_a : ∀ byte ∈ asBytes "a", Glob.Plain byte := by
  have bytes : asBytes "a" = [97] := by decide
  rw [bytes, List.forall_mem_singleton]
  decide

end Sample

end PushCache
