import Mathlib.Data.Set.List
import PushCache.Cache.Redis
import PushCache.Webserver.Listing

/-!
# Listing a Redis store

The names `keys` lists are read back from the keys a scan answers with, while a
request for a record reads the key made from the name.  The listing is exact when
the scan repeats nothing, all keys it finds are texts with string values, and the
pattern finds the keys of the store and no others.
-/

namespace PushCache

/-- The response is the sorted array of the keys of a kind, each once. -/
def ListsExactly (kind : String → Prop) (response : Except MyError Response) : Prop :=
  ∃ sorted : List String, response = .ok ⟨200, [], .array (sorted.map .string)⟩ ∧
    sorted.Pairwise (· < ·) ∧ ∀ key, key ∈ sorted ↔ kind key

/-- Without filter, offset and limit the answer of `keys()` is sorted only. -/
theorem listsExactly_iff {kind : String → Prop} {keys : Vec String} :
    ListsExactly kind (listRecords (.ok keys) ⟨none, none, none⟩) ↔
      keys.toList.Nodup ∧ ∀ key, key ∈ keys.toList ↔ kind key := by
  have perm : (listing none keys.toList).Perm keys.toList := by
    simpa [Selected] using listing_perm none keys.toList
  rw [ListsExactly, listRecords_eq]
  constructor
  · rintro ⟨sorted, answered, increasing, exact⟩
    have same : listing none keys.toList = sorted := by
      simp only [Except.ok.injEq, Response.mk.injEq, Json.array.injEq, true_and] at answered
      exact List.map_injective_iff.mpr (fun _ _ => Json.string.inj) answered
    rw [← same] at increasing exact
    constructor
    · exact perm.nodup_iff.mp (increasing.imp fun below => ne_of_lt below)
    · intro key
      rw [← perm.mem_iff, exact]
  · rintro ⟨once, exact⟩
    refine ⟨listing none keys.toList, rfl, ?_, ?_⟩
    · have ordered := listing_pairwise none keys.toList
      exact ordered.imp₂ (fun _ _ below differ => lt_of_le_of_ne below differ)
        (perm.nodup_iff.mpr once)
    · intro key
      rw [perm.mem_iff, exact]

namespace RedisCache

variable (describe : RedisError → String) (config : RedisConfig)

theorem length_keys {scanned : List Bytes} {names : List String}
    (answered : keys describe config none scanned = .ok names) :
    names.length = scanned.length := by
  rcases collectKeys_eq_ok_iff.mp answered with ⟨texts, rfl, rfl⟩
  simp

/-- The vector `keys` collects. -/
def keysVec (scanned : Vec Bytes) : Except MyError (Vec String) :=
  match answered : keys describe config none scanned.toList with
  | .ok names => .ok ⟨names, length_keys describe config answered ▸ scanned.bounded⟩
  | .error error => .error error

theorem keysVec_eq_ok_iff {scanned : Vec Bytes} {names : Vec String} :
    keysVec describe config scanned = .ok names ↔
      keys describe config none scanned.toList = .ok names.toList := by
  rw [keysVec]
  constructor
  · intro collected
    split at collected
    · next names answered =>
        cases collected
        exact answered
    · cases collected
  · intro answered
    split
    · next others answeredToo =>
        rw [answered] at answeredToo
        cases answeredToo
        rfl
    · next error failed =>
        rw [answered] at failed
        cases failed

/-- The key of the name holds a string. -/
def Found (database : Redis.Database Redis.Value) (name : String) : Prop :=
  ∃ value, database.lookup (asBytes (formatKey config name)) = some (.string value)

/-- `get` finds the record of a name. -/
theorem get_eq_some_iff {database : Redis.Database Redis.Value} {name : String} :
    (∃ value, get describe config none name database = .ok (some value)) ↔
      Found config database name := by
  rw [get, Redis.get, Found]
  cases database.lookup (asBytes (formatKey config name)) with
  | none => simp [received, Redis.Value.read, Except.mapError]
  | some value => cases value <;> simp [received, Redis.Value.read, Except.mapError]

/-- A scan finds the text. -/
def Hit (database : Redis.Database Redis.Value) (text : String) : Prop :=
  Redis.Matched database (asBytes (matchPattern config)) (asBytes text)

/-- The scan repeats no key, the keys it finds are texts, and those of the store hold
strings.  A text it finds that is no key of the store is the name of a record whose key
it misses, and every record whose key it misses has such a name. -/
structure Listable (database : Redis.Database Redis.Value) (scanned : List Bytes) : Prop where
  once : scanned.Nodup
  text : ∀ key, Redis.Matched database (asBytes (matchPattern config)) key →
    ∃ text, asBytes text = key
  readable : ∀ name, Hit config database (formatKey config name) → Found config database name
  foreign : ∀ text, Foreign config text → Hit config database text →
    Found config database text ∧ ¬Hit config database (formatKey config text)
  missed : ∀ name, Found config database name → ¬Hit config database (formatKey config name) →
    Foreign config name ∧ Hit config database name

section Names

variable {describe config} {database : Redis.Database Redis.Value} {texts : List String}

/-- In a listable database a text the scan finds is the key of its name if the scan finds
that key, and the name itself otherwise. -/
theorem Listable.text_of_hit {scanned : List Bytes} (listable : Listable config database scanned)
    {text : String} (hit : Hit config database text) :
    (Hit config database (formatKey config (nameOf config text)) →
        formatKey config (nameOf config text) = text) ∧
      (¬Hit config database (formatKey config (nameOf config text)) →
        nameOf config text = text) := by
  cases formatKey_nameOf_or_foreign config text with
  | inl own =>
      rw [own]
      exact ⟨fun _ => rfl, fun missed => absurd hit missed⟩
  | inr foreign =>
      rw [foreign.1]
      exact ⟨fun own => absurd own (listable.foreign text foreign.2 hit).2, fun _ => rfl⟩

/-- The names of the texts a scan finds are those of the records, each once, exactly when
the database is listable. -/
theorem names_exact_iff
    (scans : ∀ text, text ∈ texts ↔ Hit config database text)
    (decoded : ∀ key, Redis.Matched database (asBytes (matchPattern config)) key →
      ∃ text, asBytes text = key) :
    ((texts.map (nameOf config)).Nodup ∧
        ∀ name, name ∈ texts.map (nameOf config) ↔ Found config database name) ↔
      Listable config database (texts.map asBytes) := by
  constructor
  · rintro ⟨once, exact⟩
    have named : ∀ text, Hit config database text → Found config database (nameOf config text) :=
      fun text hit => (exact _).mp (List.mem_map_of_mem ((scans text).mpr hit))
    have distinct := List.inj_on_of_nodup_map once
    constructor
    · exact once.of_map.map asBytes_injective
    · exact decoded
    · intro name hit
      have found := named _ hit
      rwa [nameOf_formatKey] at found
    · intro text foreign hit
      have unstripped : nameOf config text = text := by
        cases formatKey_nameOf_or_foreign config text with
        | inl own => exact absurd own (foreign _)
        | inr other => exact other.1
      constructor
      · have found := named _ hit
        rwa [unstripped] at found
      · intro hitToo
        have same := distinct ((scans _).mpr hitToo) ((scans _).mpr hit)
          (by rw [nameOf_formatKey, unstripped])
        exact foreign text same
    · intro name found missed
      rcases List.mem_map.mp ((exact name).mpr found) with ⟨text, member, rfl⟩
      have hit := (scans text).mp member
      cases formatKey_nameOf_or_foreign config text with
      | inl own =>
          rw [own] at missed
          exact absurd hit missed
      | inr other =>
          rw [other.1]
          exact ⟨other.2, hit⟩
  · intro listable
    constructor
    · apply List.Nodup.map_on _ (listable.once.of_map asBytes)
      intro text member other memberToo same
      have hit := (scans text).mp member
      have hitToo := (scans other).mp memberToo
      by_cases own : Hit config database (formatKey config (nameOf config text))
      · rw [← (listable.text_of_hit hit).1 own, same]
        rw [same] at own
        exact (listable.text_of_hit hitToo).1 own
      · rw [← (listable.text_of_hit hit).2 own, same]
        rw [same] at own
        exact (listable.text_of_hit hitToo).2 own
    · intro name
      constructor
      · intro member
        rcases List.mem_map.mp member with ⟨text, inTexts, rfl⟩
        have hit := (scans text).mp inTexts
        cases formatKey_nameOf_or_foreign config text with
        | inl own =>
            rw [← own] at hit
            exact listable.readable _ hit
        | inr foreign =>
            rw [foreign.1]
            exact (listable.foreign text foreign.2 hit).1
      · intro found
        by_cases hit : Hit config database (formatKey config name)
        · exact List.mem_map.mpr ⟨_, (scans _).mpr hit, nameOf_formatKey config name⟩
        · rcases listable.missed name found hit with ⟨foreign, hitName⟩
          cases formatKey_nameOf_or_foreign config name with
          | inl own => exact absurd own (foreign _)
          | inr other => exact List.mem_map.mpr ⟨name, (scans name).mpr hitName, other.1⟩

end Names

/-- Without filter, offset and limit, `list_records` answers with the sorted names of the
records `get` finds, each once, exactly when the database is listable. -/
theorem keys_listsExactly_iff {database : Redis.Database Redis.Value} {scanned : Vec Bytes}
    (scans : Redis.Scans database (asBytes (matchPattern config)) scanned.toList) :
    ListsExactly (fun name => ∃ value, get describe config none name database = .ok (some value))
        (listRecords (keysVec describe config scanned) ⟨none, none, none⟩) ↔
      Listable config database scanned.toList := by
  simp only [get_eq_some_iff]
  cases collected : keysVec describe config scanned with
  | ok names =>
      have answered := (keysVec_eq_ok_iff describe config).mp collected
      rcases collectKeys_eq_ok_iff.mp answered with ⟨texts, items, rest⟩
      rw [← items] at scans
      have hits : ∀ text, text ∈ texts ↔ Hit config database text := by
        intro text
        rw [Hit, ← scans, List.mem_map_of_injective asBytes_injective]
      have decoded : ∀ key, Redis.Matched database (asBytes (matchPattern config)) key →
          ∃ text, asBytes text = key := by
        intro key matched
        rcases List.mem_map.mp ((scans key).mpr matched) with ⟨text, _, same⟩
        exact ⟨text, same⟩
      rw [listsExactly_iff, ← rest, ← items]
      exact names_exact_iff hits decoded
  | error error =>
      constructor
      · rintro ⟨sorted, failed, _⟩
        cases failed
      · intro listable
        have texts : scanned.toList ∈ Set.range (List.map asBytes) := by
          rw [Set.range_list_map]
          exact fun key member => listable.text key ((scans key).mp member)
        rcases texts with ⟨texts, items⟩
        have answered : keys describe config none scanned.toList =
            .ok (texts.map (nameOf config)) :=
          collectKeys_eq_ok_iff.mpr ⟨texts, items, rfl⟩
        have bounded := length_keys describe config answered ▸ scanned.bounded
        have collectedToo : keysVec describe config scanned = .ok ⟨_, bounded⟩ :=
          (keysVec_eq_ok_iff describe config).mpr answered
        rw [collected] at collectedToo
        cases collectedToo

/-- Without special bytes in the prefix the scan finds the keys of the store only, so it
remains that it repeats none and that they are texts with strings. -/
theorem listable_iff_of_plain {url : Url} {keyPrefix : String}
    {database : Redis.Database Redis.Value} {scanned : List Bytes}
    (plain : ∀ byte ∈ asBytes keyPrefix, Glob.Plain byte) :
    Listable ⟨url, some keyPrefix⟩ database scanned ↔
      scanned.Nodup ∧ ∀ key, key ∈ database → asBytes s!"{keyPrefix}:" <+: key →
        ∃ name, asBytes s!"{keyPrefix}:{name}" = key ∧
          Found ⟨url, some keyPrefix⟩ database name := by
  have matched_iff : ∀ key,
      Redis.Matched database (asBytes (matchPattern ⟨url, some keyPrefix⟩)) key ↔
        key ∈ database ∧ asBytes s!"{keyPrefix}:" <+: key :=
    fun key => and_congr_right fun _ => matches_pattern_iff plain
  have own : ∀ name, asBytes s!"{keyPrefix}:" <+: asBytes s!"{keyPrefix}:{name}" :=
    fun name => asBytes_isPrefix_iff.mpr (isPrefix_iff.mpr ⟨name, rfl⟩)
  constructor
  · intro listable
    constructor
    · exact listable.once
    · intro key present starts
      have matched := (matched_iff key).mpr ⟨present, starts⟩
      rcases listable.text key matched with ⟨text, rfl⟩
      rcases isPrefix_iff.mp (asBytes_isPrefix_iff.mp starts) with ⟨name, rfl⟩
      exact ⟨name, rfl, listable.readable name matched⟩
  · rintro ⟨once, named⟩
    constructor
    · exact once
    · intro key matched
      rcases (matched_iff key).mp matched with ⟨present, starts⟩
      rcases named key present starts with ⟨name, same, _⟩
      exact ⟨_, same⟩
    · intro name hit
      rcases (matched_iff _).mp hit with ⟨present, starts⟩
      rcases named _ present starts with ⟨other, same, found⟩
      have sameName : other = name :=
        formatKey_injective ⟨url, some keyPrefix⟩ (asBytes_injective same)
      exact sameName ▸ found
    · intro text foreign hit
      rcases (matched_iff _).mp hit with ⟨present, starts⟩
      rcases named _ present starts with ⟨name, same, _⟩
      exact absurd (asBytes_injective same) (foreign name)
    · rintro name ⟨value, held⟩ missed
      have present : asBytes s!"{keyPrefix}:{name}" ∈ database :=
        Finmap.mem_of_lookup_eq_some held
      exact absurd ((matched_iff _).mpr ⟨present, own name⟩) missed

end RedisCache

namespace Sample

/-- A database with one record of a store with prefix `a`. -/
def redisDatabase : Redis.Database Redis.Value :=
  Redis.set (asBytes "a:x") [1] ∅

/-- A scan may answer with the one key twice. -/
def repeated : Vec Bytes := ⟨[asBytes "a:x", asBytes "a:x"], by decide⟩

/-- `x` is listed twice. -/
theorem listRecords_repeats :
    Redis.Scans redisDatabase (asBytes "a:*") repeated.toList ∧
      ¬ListsExactly
        (fun name => ∃ value,
          RedisCache.get (fun _ => "error") ⟨redisUrl, some "a"⟩ none name redisDatabase =
            .ok (some value))
        (listRecords (RedisCache.keysVec (fun _ => "error") ⟨redisUrl, some "a"⟩ repeated)
          ⟨none, none, none⟩) := by
  constructor
  · decide
  · have collected : RedisCache.keysVec (fun _ => "error") ⟨redisUrl, some "a"⟩ repeated =
        .ok ⟨["x", "x"], by decide⟩ :=
      (RedisCache.keysVec_eq_ok_iff _ _).mpr
        (RedisCache.collectKeys_eq_ok_iff.mpr ⟨["a:x", "a:x"], rfl, by decide⟩)
    rw [collected, listsExactly_iff]
    rintro ⟨once, _⟩
    exact absurd once (by decide)

/-- A scan that answers with the key once. -/
theorem keys_listsExactly_of_scanned :
    ListsExactly
      (fun name => ∃ value,
        RedisCache.get (fun _ => "error") ⟨redisUrl, some "a"⟩ none name redisDatabase =
          .ok (some value))
      (listRecords
        (RedisCache.keysVec (fun _ => "error") ⟨redisUrl, some "a"⟩ ⟨[asBytes "a:x"], by decide⟩)
        ⟨none, none, none⟩) := by
  apply (RedisCache.keys_listsExactly_iff _ ⟨redisUrl, some "a"⟩ (by decide)).mpr
  rw [RedisCache.listable_iff_of_plain plain_a]
  constructor
  · exact List.nodup_singleton _
  · intro key present starts
    have only : key = asBytes "a:x" := by
      simpa [redisDatabase, Redis.set, Finmap.notMem_empty] using present
    exact ⟨"x", only.symm, [1], Finmap.lookup_insert ∅⟩

end Sample

end PushCache
