import PushCache.Cache.Redis
import PushCache.Java.CacheFactory

/-!
# Clearing a Redis store

`clear` scans for the prefix, a colon and a star, reads every key it finds as text
and deletes the keys it makes from the texts again.  The database of the model
remembers which cache wrote a record.  A cache clears its own records and no others
exactly when its pattern finds those keys only, and no key is read as another.
-/

namespace PushCache.Java.RedisCache

/-- Who wrote a record. -/
inductive Writer where
  | cache (keyPrefix : Option String)
  | other
  deriving DecidableEq

/-- A value, and who wrote it. -/
structure Entry where
  value : Redis.Value
  writer : Writer
  deriving DecidableEq

/-- A database whose caches have written under the keys of their prefixes. -/
structure Contents where
  database : Redis.Database Entry
  formatted : ∀ key value keyPrefix,
    database.lookup key = some ⟨value, .cache keyPrefix⟩ →
      ∃ name, asBytes (formatKey keyPrefix name) = key

namespace Contents

/-- A database before the first write. -/
def empty : Contents where
  database := ∅
  formatted := by
    intro key value keyPrefix held
    cases held

/-- `put` of the cache with a prefix. -/
def put (keyPrefix : Option String) (name : String) (value : Bytes) (contents : Contents) :
    Contents where
  database := contents.database.insert (asBytes (formatKey keyPrefix name))
    ⟨.string value, .cache keyPrefix⟩
  formatted := by
    intro key held writer found
    by_cases here : key = asBytes (formatKey keyPrefix name)
    · rw [here, Finmap.lookup_insert] at found
      cases found
      exact ⟨name, here.symm⟩
    · rw [Finmap.lookup_insert_of_ne _ here] at found
      exact contents.formatted key held writer found

/-- A write of another client. -/
def write (key : Bytes) (value : Redis.Value) (contents : Contents) : Contents where
  database := contents.database.insert key ⟨value, .other⟩
  formatted := by
    intro written held writer found
    by_cases here : written = key
    · rw [here, Finmap.lookup_insert] at found
      cases found
    · rw [Finmap.lookup_insert_of_ne _ here] at found
      exact contents.formatted written held writer found

/-- A key is deleted, by whomever. -/
def erase (key : Bytes) (contents : Contents) : Contents where
  database := contents.database.erase key
  formatted := by
    intro other held writer found
    by_cases here : other = key
    · rw [here, Finmap.lookup_erase] at found
      cases found
    · rw [Finmap.lookup_erase_ne here] at found
      exact contents.formatted other held writer found

end Contents

/-- The pattern of `clear` and `getKeys`. -/
def scanPattern (keyPrefix : Option String) : String :=
  match keyPrefix with
  | some text => if text.isEmpty then "*" else text ++ ":*"
  | none => "*"

section Clear

variable (deserialize : Bytes → String)

/-- Delete the keys of a batch. -/
def deleteBatch (batch : List Bytes) (database : Redis.Database Entry) : Redis.Database Entry :=
  Redis.del (batch.map fun key => asBytes (deserialize key)) database

/-- `clear`, given the answer to the scan as it is buffered. -/
def clear (keyPrefix : Option String) (batches : List (List Bytes))
    (database : Redis.Database Entry) : Option (Redis.Database Entry) :=
  if Redis.Scans database (asBytes (scanPattern keyPrefix)) batches.flatten then
    some (batches.foldl (fun database batch => deleteBatch deserialize batch database) database)
  else none

theorem deleteBatches_eq (batches : List (List Bytes)) (database : Redis.Database Entry) :
    batches.foldl (fun database batch => deleteBatch deserialize batch database) database =
      Redis.del (batches.flatten.map fun key => asBytes (deserialize key)) database := by
  induction batches generalizing database with
  | nil => rfl
  | cons batch batches ih =>
      rw [List.foldl_cons, ih, List.flatten_cons, List.map_append, Redis.del_append, deleteBatch]

/-- A key that the scan finds is read and made again as this one. -/
def Cleared (keyPrefix : Option String) (database : Redis.Database Entry) (key : Bytes) : Prop :=
  ∃ found, Redis.Matched database (asBytes (scanPattern keyPrefix)) found ∧
    asBytes (deserialize found) = key

variable {deserialize} {keyPrefix : Option String} {batches : List (List Bytes)}
  {database after : Redis.Database Entry}

/-- What `clear` deletes, and that it keeps everything else. -/
theorem lookup_clear (cleared : clear deserialize keyPrefix batches database = some after)
    (key : Bytes) :
    (Cleared deserialize keyPrefix database key → after.lookup key = none) ∧
      (¬Cleared deserialize keyPrefix database key →
        after.lookup key = database.lookup key) := by
  rw [clear, Option.ite_none_right_eq_some, Option.some.injEq, deleteBatches_eq] at cleared
  rcases cleared with ⟨scans, rfl⟩
  have deleted : key ∈ (batches.flatten.map fun found => asBytes (deserialize found)) ↔
      Cleared deserialize keyPrefix database key := by
    simp only [List.mem_map, Cleared, scans _]
  rw [Redis.lookup_del, ← deleted]
  constructor
  · exact fun member => if_pos member
  · exact fun member => if_neg member

end Clear

/-! ## Its own records and no others -/

/-- A key that a cache with another prefix wrote, or that does not start with the prefix
and a colon. -/
def Elsewhere (keyPrefix : String) (key : Bytes) (entry : Entry) : Prop :=
  (∃ other, entry.writer = .cache other ∧ other ≠ some keyPrefix) ∨
    ¬asBytes s!"{keyPrefix}:" <+: key

/-- The records elsewhere are still there with their values, and none that was written
through the cache is. -/
structure ClearsOwn (keyPrefix : String) (before after : Redis.Database Entry) : Prop where
  kept : ∀ key entry, before.lookup key = some entry → Elsewhere keyPrefix key entry →
    after.lookup key = some entry
  gone : ∀ key entry, before.lookup key = some entry →
    entry.writer = .cache (some keyPrefix) → after.lookup key = none

/-- A matched key that is no text is read as the text of this one. -/
def Garbled (deserialize : Bytes → String) (keyPrefix : String)
    (database : Redis.Database Entry) (key : Bytes) : Prop :=
  ∃ found, Redis.Matched database (asBytes s!"{keyPrefix}:*") found ∧
    (∀ text, asBytes text ≠ found) ∧ asBytes (deserialize found) = key

/-- The pattern matches the keys the cache wrote, but no text elsewhere, and no other key
it matches is read as the text of one elsewhere.  A key the pattern does not match may
still be cleared because another is read as its text. -/
structure Separated (deserialize : Bytes → String) (keyPrefix : String)
    (database : Redis.Database Entry) : Prop where
  own : ∀ key entry, database.lookup key = some entry →
    entry.writer = .cache (some keyPrefix) →
      Glob.Matches (asBytes s!"{keyPrefix}:*") key ∨ Garbled deserialize keyPrefix database key
  unmatched : ∀ text entry, database.lookup (asBytes text) = some entry →
    Elsewhere keyPrefix (asBytes text) entry →
      ¬Glob.Matches (asBytes s!"{keyPrefix}:*") (asBytes text)
  distinct : ∀ key entry, database.lookup key = some entry → Elsewhere keyPrefix key entry →
    ¬Garbled deserialize keyPrefix database key

theorem scanPattern_of_nonempty {keyPrefix : String} (nonempty : keyPrefix ≠ "") :
    scanPattern (some keyPrefix) = s!"{keyPrefix}:*" := by
  have filled : keyPrefix.isEmpty = false := by simpa using nonempty
  simp only [scanPattern, filled]
  rfl

theorem formatKey_of_nonempty {keyPrefix : String} (nonempty : keyPrefix ≠ "") (name : String) :
    formatKey (some keyPrefix) name = s!"{keyPrefix}:{name}" := by
  have filled : keyPrefix.isEmpty = false := by simpa using nonempty
  simp only [formatKey, filled]
  rfl

section Separated

variable {deserialize : Bytes → String} {keyPrefix : String}

/-- A matched text is deleted; a key that is no text is deleted as what it is read as. -/
theorem cleared_iff (decodes : ∀ text, deserialize (asBytes text) = text)
    (nonempty : keyPrefix ≠ "") {database : Redis.Database Entry} {key : Bytes} :
    Cleared deserialize (some keyPrefix) database key ↔
      (∃ text, asBytes text = key ∧ Redis.Matched database (asBytes s!"{keyPrefix}:*") key) ∨
        Garbled deserialize keyPrefix database key := by
  rw [Cleared, scanPattern_of_nonempty nonempty]
  constructor
  · rintro ⟨found, matched, rfl⟩
    by_cases text : ∃ text, asBytes text = found
    · rcases text with ⟨text, rfl⟩
      rw [decodes]
      exact Or.inl ⟨text, rfl, matched⟩
    · exact Or.inr ⟨found, matched, fun other same => text ⟨other, same⟩, rfl⟩
  · rintro (⟨text, rfl, matched⟩ | ⟨found, matched, _, read⟩)
    · exact ⟨_, matched, by rw [decodes]⟩
    · exact ⟨found, matched, read⟩

/-- `clear` deletes the records written through the cache and keeps those elsewhere,
exactly when the keys are separated. -/
theorem clear_own_iff (decodes : ∀ text, deserialize (asBytes text) = text)
    (nonempty : keyPrefix ≠ "") (contents : Contents) {batches : List (List Bytes)}
    {after : Redis.Database Entry}
    (cleared : clear deserialize (some keyPrefix) batches contents.database = some after) :
    ClearsOwn keyPrefix contents.database after ↔
      Separated deserialize keyPrefix contents.database := by
  have present : ∀ {key entry}, contents.database.lookup key = some entry →
      key ∈ contents.database := Finmap.mem_of_lookup_eq_some
  constructor
  · intro owns
    have spared : ∀ key entry, contents.database.lookup key = some entry →
        Elsewhere keyPrefix key entry →
          ¬Cleared deserialize (some keyPrefix) contents.database key := by
      intro key entry held elsewhere deleted
      have absent := (lookup_clear cleared key).1 deleted
      rw [owns.kept key entry held elsewhere] at absent
      cases absent
    constructor
    · intro key entry held written
      by_cases deleted : Cleared deserialize (some keyPrefix) contents.database key
      · cases (cleared_iff decodes nonempty).mp deleted with
        | inl found =>
            rcases found with ⟨text, same, matched⟩
            exact Or.inl matched.2
        | inr garbled => exact Or.inr garbled
      · have left := (lookup_clear cleared key).2 deleted
        rw [owns.gone key entry held written, held] at left
        cases left
    · intro text entry held elsewhere matched
      apply spared _ entry held elsewhere
      exact (cleared_iff decodes nonempty).mpr (Or.inl ⟨text, rfl, present held, matched⟩)
    · intro key entry held elsewhere garbled
      exact spared key entry held elsewhere ((cleared_iff decodes nonempty).mpr (Or.inr garbled))
  · intro separated
    constructor
    · intro key entry held elsewhere
      rw [← held]
      apply (lookup_clear cleared key).2
      intro deleted
      cases (cleared_iff decodes nonempty).mp deleted with
      | inl found =>
          rcases found with ⟨text, rfl, matched⟩
          exact separated.unmatched text entry held elsewhere matched.2
      | inr garbled => exact separated.distinct key entry held elsewhere garbled
    · intro key entry held written
      apply (lookup_clear cleared key).1
      rw [cleared_iff decodes nonempty]
      rcases entry with ⟨value, writer⟩
      cases written
      rcases contents.formatted key value _ held with ⟨name, text⟩
      cases separated.own key _ held rfl with
      | inl matched => exact Or.inl ⟨_, text, present held, matched⟩
      | inr garbled => exact Or.inr garbled

/-- Without special bytes in the prefix, and if all keys that start with it are texts, it is
enough that no cache with another prefix wrote one of them. -/
theorem separated_iff_of_plain (plain : ∀ byte ∈ asBytes keyPrefix, Glob.Plain byte)
    (nonempty : keyPrefix ≠ "") (contents : Contents)
    (texts : ∀ key, key ∈ contents.database → asBytes s!"{keyPrefix}:" <+: key →
      ∃ text, asBytes text = key) :
    Separated deserialize keyPrefix contents.database ↔
      ∀ key value other, contents.database.lookup key = some ⟨value, .cache other⟩ →
        asBytes s!"{keyPrefix}:" <+: key → other = some keyPrefix := by
  have clean : ∀ key, ¬Garbled deserialize keyPrefix contents.database key := by
    rintro key ⟨found, ⟨present, matched⟩, unreadable, _⟩
    have starts := (PushCache.RedisCache.matches_pattern_iff plain).mp matched
    rcases texts found present starts with ⟨text, same⟩
    exact unreadable text same
  constructor
  · intro separated key value other held starts
    rcases texts key (Finmap.mem_of_lookup_eq_some held) starts with ⟨text, rfl⟩
    by_contra differs
    apply separated.unmatched text _ held (Or.inl ⟨other, rfl, differs⟩)
    exact (PushCache.RedisCache.matches_pattern_iff plain).mpr starts
  · intro alone
    constructor
    · intro key entry held written
      rcases entry with ⟨value, writer⟩
      cases written
      rcases contents.formatted key value _ held with ⟨name, rfl⟩
      apply Or.inl
      rw [PushCache.RedisCache.matches_pattern_iff plain, asBytes_isPrefix_iff, isPrefix_iff,
        formatKey_of_nonempty nonempty]
      exact ⟨name, rfl⟩
    · intro text entry held elsewhere matched
      have starts := (PushCache.RedisCache.matches_pattern_iff plain).mp matched
      cases elsewhere with
      | inl written =>
          rcases entry with ⟨value, writer⟩
          rcases written with ⟨other, rfl, differs⟩
          exact differs (alone _ value other held starts)
      | inr differs => exact differs starts
    · intro key entry _ _
      exact clean key

end Separated

end PushCache.Java.RedisCache

namespace PushCache.Sample

open PushCache.Java.RedisCache

/-- A deserializer that reads what is no text as the replacement character. -/
def deserialize (bytes : Bytes) : String := (fromUtf8 bytes).getD "\uFFFD"

/-- A record of a cache with prefix `[ab]`, and one of a cache with prefix `a`. -/
def twoCaches : Contents :=
  (Contents.empty.put (some "[ab]") "x" [1]).put (some "a") "y" [2]

/-- The prefix `[ab]` is read as a class: `clear` leaves its own record and deletes that
of the other cache. -/
theorem clear_deletes_foreign :
    ∃ after, clear deserialize (some "[ab]") [[asBytes "a:y"]] twoCaches.database = some after ∧
      ¬ClearsOwn "[ab]" twoCaches.database after := by
  refine ⟨_, if_pos (by decide), fun owns => ?_⟩
  have kept := owns.kept (asBytes "a:y") ⟨.string [2], .cache (some "a")⟩ (by decide)
    (Or.inr (by decide))
  exact absurd kept (by decide)

/-- A record of a cache with prefix `a`. -/
def oneCache : Contents := Contents.empty.put (some "a") "x" [1]

theorem deserialize_asBytes (text : String) : deserialize (asBytes text) = text := by
  rw [deserialize, fromUtf8_asBytes, Option.getD_some]

theorem clear_own_of_oneCache :
    ∃ after, clear deserialize (some "a") [[asBytes "a:x"]] oneCache.database = some after ∧
      ClearsOwn "a" oneCache.database after := by
  have cleared : clear deserialize (some "a") [[asBytes "a:x"]] oneCache.database = some ∅ := by
    decide
  have only : ∀ key, key ∈ oneCache.database → key = asBytes "a:x" := by
    intro key present
    cases Finmap.mem_insert.mp present with
    | inl here => exact here
    | inr nowhere => exact absurd nowhere Finmap.notMem_empty
  have separated : Separated deserialize "a" oneCache.database := by
    rw [separated_iff_of_plain plain_a (by decide)]
    · intro key value other held _
      rw [only key (Finmap.mem_of_lookup_eq_some held)] at held
      have written := (Finmap.lookup_insert ∅).symm.trans held
      cases written
      rfl
    · intro key present _
      exact ⟨"a:x", (only key present).symm⟩
  exact ⟨∅, cleared, (clear_own_iff deserialize_asBytes (by decide) oneCache cleared).mpr separated⟩

end PushCache.Sample
