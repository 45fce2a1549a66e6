import PushCache.Cache.Documents
import PushCache.Cache.Redis
import PushCache.Cache.Sql

/-!
# Five backends, one map

Every implementation of the `Cache` trait, whose calls come one after the other, is a map
from keys to values: an in-memory store always, the others apart from calls that fail
and leave everything as it was.
-/

namespace PushCache

open PushCache.Concurrency PushCache.Keyed

/-! ## In memory -/

namespace InMemoryCache

/-- What the store may do. -/
inductive Performed (name : String) : Performs Faults World String Bytes MyError
  | get (faults : Faults) (key : String) (world : World) :
      Performed name faults (.get key) world
        ((Cache.get faults ⟨name, .inMemory⟩ key world).map .found) world
  | insert (faults : Faults) (key : String) (value : Bytes) (world : World) :
      Performed name faults (.insert key value) world
        ((Cache.insert faults ⟨name, .inMemory⟩ key value world).1.map fun _ => .done)
        (Cache.insert faults ⟨name, .inMemory⟩ key value world).2
  | remove (faults : Faults) (key : String) (world : World) :
      Performed name faults (.remove key) world
        ((Cache.remove faults ⟨name, .inMemory⟩ key world).1.map .found)
        (Cache.remove faults ⟨name, .inMemory⟩ key world).2
  | keys (faults : Faults) (world : World) {keys : List String} (once : keys.Nodup)
      (listed : ∀ key, key ∈ keys ↔ key ∈ world.contents (.inMemory name)) :
      Performed name faults .keys world (.ok (.keys keys)) world
  | containsKey (faults : Faults) (key : String) (world : World) :
      Performed name faults (.containsKey key) world
        (.ok (.present ((world.contents (.inMemory name)).lookup key).isSome)) world

/-- What the map of the store holds. -/
def view (name : String) (world : World) (key : String) : Option Bytes :=
  world.view (.inMemory name, key)

/-- Nothing fails. -/
def MayFail : Reason Faults String Bytes := fun _ _ _ => False

theorem view_put (name key : String) (value : Bytes) (world : World) :
    view name (world.put (.inMemory name) key value) =
      Function.update (view name world) key (some value) := by
  funext other
  rw [view, World.view_put, Function.update_apply]
  simp only [Prod.mk.injEq, true_and]
  rfl

theorem view_erase (name key : String) (world : World) :
    view name (world.erase (.inMemory name) key) =
      Function.update (view name world) key none := by
  funext other
  rw [view, World.view_erase, Function.update_apply]
  simp only [Prod.mk.injEq, true_and]
  rfl

theorem view_resize (name : String) (world : World) (change : Int) :
    view name (world.resize change) = view name world :=
  rfl

theorem insert_outcome (name key : String) (value : Bytes) (world : World) :
    (insert name key value world).1 = .ok () ∧
      view name (insert name key value world).2 =
        Function.update (view name world) key (some value) := by
  simp only [insert]
  split
  · exact ⟨rfl, by rw [view_resize, view_put]⟩
  · exact ⟨rfl, view_put name key value world⟩

theorem remove_outcome (name key : String) (world : World) :
    (remove name key world).1 = .ok (view name world key) ∧
      view name (remove name key world).2 = Function.update (view name world) key none := by
  simp only [remove]
  cases held : (world.contents (.inMemory name)).lookup key with
  | some value => exact ⟨by rw [view, World.view, held], by rw [view_resize, view_erase]⟩
  | none =>
      have absent : view name world key = none := held
      have same : Function.update (view name world) key none = view name world := by
        rw [← absent, Function.update_eq_self]
      exact ⟨by rw [absent], same.symm⟩

/-- The store is a map. -/
theorem refines (name : String) :
    Refines (Performed name) (fun _ => True) (view name) MayFail := by
  apply Refines.of_outcome (fun _ _ _ _ _ _ _ => trivial)
  intro faults call world result next _ performed
  left
  cases performed with
  | get _ key => exact ⟨_, rfl, .get key⟩
  | insert _ key value =>
      rcases insert_outcome name key value world with ⟨ok, held⟩
      simp only [Cache.insert, ok, held]
      exact ⟨_, rfl, .insert key value⟩
  | remove _ key =>
      rcases remove_outcome name key world with ⟨ok, held⟩
      simp only [Cache.remove, ok, held]
      exact ⟨_, rfl, .remove key⟩
  | keys _ _ once listed =>
      refine ⟨_, rfl, .keys fun key => (listed key).trans ?_⟩
      exact Finmap.lookup_isSome.symm
  | containsKey _ key => exact ⟨_, rfl, .containsKey key⟩

end InMemoryCache

/-! ## Redis -/

namespace RedisCache

section Redis

variable (describe : RedisError → String) (config : RedisConfig)

/-- What the store may do. -/
inductive Performed :
    Performs (Option String) (Redis.Database Redis.Value) String Bytes MyError
  | get (down : Option String) (key : String) (database : Redis.Database Redis.Value) :
      Performed down (.get key) database
        ((get describe config down key database).map .found) database
  | insert (down : Option String) (key : String) (value : Bytes)
      (database : Redis.Database Redis.Value) :
      Performed down (.insert key value) database
        ((insert describe config down key value database).1.map fun _ => .done)
        (insert describe config down key value database).2
  | remove (down : Option String) (key : String) (database : Redis.Database Redis.Value) :
      Performed down (.remove key) database
        ((remove describe config down key database).1.map .found)
        (remove describe config down key database).2
  | keys (down : Option String) (database : Redis.Database Redis.Value) {scanned : List Bytes}
      (scans : Redis.Scans database (asBytes (matchPattern config)) scanned) :
      Performed down .keys database ((keys describe config down scanned).map .keys) database
  | containsKey (down : Option String) (key : String)
      (database : Redis.Database Redis.Value) :
      Performed down (.containsKey key) database
        ((containsKey describe config down key database).map .present) database

/-- Every key of the database is text, and every value a string. -/
def Textual (database : Redis.Database Redis.Value) : Prop :=
  ∀ key value, database.lookup key = some value →
    (∃ text, asBytes text = key) ∧ ∃ bytes, value = .string bytes

/-- What the store holds. -/
def view (database : Redis.Database Redis.Value) (key : String) : Option Bytes :=
  match database.lookup (asBytes (formatKey config key)) with
  | some (.string bytes) => some bytes
  | _ => none

/-- The connection is down. -/
def MayFail : Reason (Option String) String Bytes := fun down _ _ => down.isSome = true

/-- The prefix has no special bytes. -/
def PlainPrefix : Prop :=
  ∀ keyPrefix, config.keyPrefix = some keyPrefix → ∀ byte ∈ asBytes keyPrefix, Glob.Plain byte

end Redis

variable {describe : RedisError → String} {config : RedisConfig}
  {database : Redis.Database Redis.Value}

theorem Textual.get_eq (textual : Textual database) (key : String) :
    Redis.get (asBytes (formatKey config key)) database = .ok (view config database key) := by
  rw [Redis.get, view]
  cases held : database.lookup (asBytes (formatKey config key)) with
  | none => rfl
  | some value =>
      rcases (textual _ value held).2 with ⟨bytes, rfl⟩
      rfl

theorem Textual.lookup_isSome (textual : Textual database) (key : String) :
    (database.lookup (asBytes (formatKey config key))).isSome =
      (view config database key).isSome := by
  rw [view]
  cases held : database.lookup (asBytes (formatKey config key)) with
  | none => rfl
  | some value =>
      rcases (textual _ value held).2 with ⟨bytes, rfl⟩
      rfl

theorem Textual.set (textual : Textual database) (text : String) (value : Bytes) :
    Textual (Redis.set (asBytes text) value database) := by
  intro key held found
  by_cases here : key = asBytes text
  · rw [here, Redis.set, Finmap.lookup_insert] at found
    cases found
    exact ⟨⟨text, here.symm⟩, value, rfl⟩
  · rw [Redis.set, Finmap.lookup_insert_of_ne _ here] at found
    exact textual key held found

theorem Textual.erase (textual : Textual database) (erased : Bytes) :
    Textual (database.erase erased) := by
  intro key held found
  by_cases here : key = erased
  · rw [here, Finmap.lookup_erase] at found
    cases found
  · rw [Finmap.lookup_erase_ne here] at found
    exact textual key held found

theorem view_set (key : String) (value : Bytes) :
    view config (Redis.set (asBytes (formatKey config key)) value database) =
      Function.update (view config database) key (some value) := by
  funext other
  rw [Function.update_apply, view, Redis.set]
  by_cases here : other = key
  · rw [here, Finmap.lookup_insert, if_pos rfl]
  · have elsewhere : asBytes (formatKey config other) ≠ asBytes (formatKey config key) :=
      fun same => here (formatKey_injective config (asBytes_injective same))
    rw [Finmap.lookup_insert_of_ne _ elsewhere, if_neg here, view]

theorem view_erase (key : String) :
    view config (database.erase (asBytes (formatKey config key))) =
      Function.update (view config database) key none := by
  funext other
  rw [Function.update_apply, view]
  by_cases here : other = key
  · rw [here, Finmap.lookup_erase, if_pos rfl]
  · have elsewhere : asBytes (formatKey config other) ≠ asBytes (formatKey config key) :=
      fun same => here (formatKey_injective config (asBytes_injective same))
    rw [Finmap.lookup_erase_ne elsewhere, if_neg here, view]

/-- Without special bytes in the prefix a scan finds the keys of the store. -/
theorem matched_iff_of_plain (plain : PlainPrefix config) (text : String) :
    Redis.Matched database (asBytes (matchPattern config)) (asBytes text) ↔
      asBytes text ∈ database ∧ ∃ name, formatKey config name = text := by
  apply and_congr_right
  intro _
  rcases config with ⟨url, keyPrefix⟩
  cases keyPrefix with
  | none =>
      have star : asBytes "*" = ([] : Bytes) ++ [42] := by decide
      rw [matchPattern, star, Glob.matches_plain_star_iff (by simp)]
      exact iff_of_true (List.nil_prefix) ⟨text, rfl⟩
  | some keyPrefix =>
      rw [matchPattern, matches_pattern_iff (plain keyPrefix rfl), asBytes_isPrefix_iff,
        isPrefix_iff]
      rfl

/-- The names of the keys a scan finds are those of the records. -/
theorem mem_names_iff (plain : PlainPrefix config) (textual : Textual database)
    {texts : List String}
    (scans : Redis.Scans database (asBytes (matchPattern config)) (texts.map asBytes))
    (name : String) :
    name ∈ texts.map (nameOf config) ↔ (view config database name).isSome = true := by
  have hits : ∀ text, text ∈ texts ↔
      asBytes text ∈ database ∧ ∃ name, formatKey config name = text := by
    intro text
    rw [← matched_iff_of_plain plain, ← scans, List.mem_map_of_injective asBytes_injective]
  rw [← textual.lookup_isSome, Finmap.lookup_isSome, List.mem_map]
  constructor
  · rintro ⟨text, mem, rfl⟩
    rcases (hits text).mp mem with ⟨held, other, rfl⟩
    rwa [nameOf_formatKey]
  · intro held
    exact ⟨formatKey config name, (hits _).mpr ⟨held, name, rfl⟩, nameOf_formatKey config name⟩

/-- A scan of a database of texts finds texts. -/
theorem exists_texts (textual : Textual database) {scanned : List Bytes}
    (scans : Redis.Scans database (asBytes (matchPattern config)) scanned) :
    ∃ texts : List String, texts.map asBytes = scanned := by
  have ranged : scanned ∈ Set.range (List.map asBytes) := by
    rw [Set.range_list_map]
    intro key member
    have held := ((scans key).mp member).1
    rw [← Finmap.lookup_isSome, Option.isSome_iff_exists] at held
    rcases held with ⟨value, held⟩
    exact (textual key value held).1
  exact ranged

/-- The store is a map on a database of texts, as long as its prefix has no special
bytes. -/
theorem refines (describe : RedisError → String) {config : RedisConfig}
    (plain : PlainPrefix config) :
    Refines (Performed describe config) Textual (view config) MayFail := by
  apply Refines.of_outcome
  · intro down call database result next textual performed
    cases performed with
    | get _ key => exact textual
    | insert _ key value =>
        cases down with
        | some text => exact textual
        | none => exact textual.set (formatKey config key) value
    | remove _ key =>
        cases down with
        | some text => exact textual
        | none =>
            simp only [remove, Redis.getDel, textual.get_eq key]
            exact textual.erase _
    | keys _ _ scans => exact textual
    | containsKey _ key => exact textual
  · intro down call database result next textual performed
    cases down with
    | some text =>
        right
        cases performed <;> exact ⟨_, rfl, rfl, rfl⟩
    | none =>
        left
        cases performed with
        | get _ key =>
            rw [get, textual.get_eq key]
            exact ⟨_, rfl, .get key⟩
        | insert _ key value =>
            refine ⟨_, rfl, ?_⟩
            simp only [insert, view_set]
            exact .insert key value
        | remove _ key =>
            simp only [remove, Redis.getDel, textual.get_eq key, view_erase]
            exact ⟨_, rfl, .remove key⟩
        | keys _ _ scans =>
            rcases exists_texts textual scans with ⟨texts, rfl⟩
            have answered : keys describe config none (texts.map asBytes) =
                .ok (texts.map (nameOf config)) :=
              collectKeys_eq_ok_iff.mpr ⟨texts, rfl, rfl⟩
            rw [answered]
            exact ⟨_, rfl, .keys (mem_names_iff plain textual scans)⟩
        | containsKey _ key =>
            have present : Redis.exists? (asBytes (formatKey config key)) database =
                (view config database key).isSome := textual.lookup_isSome key
            rw [containsKey, present]
            exact ⟨_, rfl, .containsKey key⟩

end RedisCache

/-! ## Mongo -/

namespace MongoCache

/-- A collection as calls one after the other leave it: no key has two documents, and no
id is given out twice. -/
structure Collection.Sound (collection : Collection) : Prop where
  onePerKey : collection.OnePerKey
  distinct : (collection.documents.map Document.id).Nodup
  issued : ∀ document ∈ collection.documents, document.id < collection.issued

/-- What the collection holds. -/
def view (collection : Collection) (key : String) : Option Bytes :=
  (collection.matching key).head?.map Document.value

/-- What the store may do, given what the server does with the commands of a call. -/
inductive Performed (E : Type*) : Performs (List (Choice E)) Collection String Bytes E
  | get {index : Nat} {key : String} {collection : Collection} {found : Option Bytes}
      (picked : get collection key index = some found) :
      Performed E [.picks index] (.get key) collection (.ok (.found found)) collection
  | insert {choices : List (Choice E)} {key : String} {value : Bytes} {attempts : Nat}
      {conflict : E} {collection next : Collection} {result : Except E Unit}
      (executes : Program.Executes answer (insertCall conflict key value (attempts + 1))
        collection choices (.inserted result) next) :
      Performed E choices (.insert key value) collection (result.map fun _ => .done) next
  | remove {choices : List (Choice E)} {key : String} {collection next : Collection}
      {result : Except E (Option Bytes)}
      (executes : Program.Executes answer (removeCall key) collection choices
        (.removed result) next) :
      Performed E choices (.remove key) collection (result.map .found) next
  | keys (index : Nat) (collection : Collection) :
      Performed E [.picks index] .keys collection (.ok (.keys (keys collection))) collection
  | containsKey (index : Nat) (key : String) (collection : Collection) :
      Performed E [.picks index] (.containsKey key) collection
        (.ok (.present (containsKey collection key))) collection
  | failed {error : E} {call : Call String Bytes} (collection : Collection)
      (reads : ∀ key value, call ≠ .insert key value ∧ call ≠ .remove key) :
      Performed E [.fails error] call collection (.error error) collection

/-- The server fails a command. -/
def MayFail (E : Type*) : Reason (List (Choice E)) String Bytes := fun choices _ _ =>
  ∃ error, .fails error ∈ choices

variable {collection : Collection} {key : String} {value : Bytes}

/-- The document of a key decides what the collection holds under it. -/
theorem Collection.OnePerKey.view_eq_some_iff (unique : collection.OnePerKey) :
    view collection key = some value ↔
      ∃ document ∈ collection.documents, document.key = key ∧ document.value = value := by
  rw [view, Option.map_eq_some_iff]
  constructor
  · rintro ⟨document, head, rfl⟩
    rcases List.mem_filter.mp (List.mem_of_head? head) with ⟨mem, own⟩
    exact ⟨document, mem, of_decide_eq_true own, rfl⟩
  · rintro ⟨document, mem, own, rfl⟩
    have matched : document ∈ collection.matching key :=
      List.mem_filter.mpr ⟨mem, decide_eq_true own⟩
    cases first : (collection.matching key).head? with
    | none =>
        rw [List.head?_eq_none_iff.mp first] at matched
        cases matched
    | some other =>
        rcases List.mem_filter.mp (List.mem_of_head? first) with ⟨otherMem, otherOwn⟩
        have same : other = document := List.inj_on_of_nodup_map unique otherMem mem
          ((of_decide_eq_true otherOwn).trans own.symm)
        exact ⟨other, rfl, by rw [same]⟩

theorem mem_keys_iff : key ∈ keys collection ↔ (view collection key).isSome = true := by
  rw [view, Option.isSome_map, List.isSome_head?, ← not_iff_not, ← matching_eq_nil_iff]
  simp

theorem get_eq_view (unique : collection.OnePerKey) {index : Nat} {found : Option Bytes}
    (picked : get collection key index = some found) : found = view collection key := by
  rcases Option.map_eq_some_iff.mp picked with ⟨document, chosen, rfl⟩
  rcases pick_eq_some chosen with ⟨rfl, unmatched⟩ | ⟨document, matched, rfl⟩
  · rw [view, unmatched]
    rfl
  · rcases List.mem_filter.mp matched with ⟨mem, own⟩
    rw [Option.map_some]
    exact (unique.view_eq_some_iff.mpr ⟨document, mem, of_decide_eq_true own, rfl⟩).symm

/-! ### The three changes of a collection -/

theorem Collection.Sound.insertOne (sound : collection.Sound) (value : Bytes)
    (absent : key ∉ keys collection) : (collection.insertOne key value).Sound where
  onePerKey := (onePerKey_insertOne_iff sound.onePerKey key value).mpr absent
  distinct := by
    have ids : (collection.insertOne key value).documents.map Document.id =
        (collection.documents.map Document.id).concat collection.issued := by
      simp [Collection.insertOne]
    rw [ids, List.nodup_concat]
    refine ⟨fun mem => ?_, sound.distinct⟩
    rcases List.mem_map.mp mem with ⟨document, held, same⟩
    exact absurd same (Nat.ne_of_lt (sound.issued document held))
  issued := by
    intro document mem
    rcases List.mem_append.mp mem with before | new
    · exact Nat.lt_succ_of_lt (sound.issued document before)
    · rw [List.mem_singleton.mp new]
      exact Nat.lt_succ_self _

theorem view_insertOne (value : Bytes) (absent : key ∉ keys collection) :
    view (collection.insertOne key value) =
      Function.update (view collection) key (some value) := by
  funext other
  rw [Function.update_apply, view, Collection.matching, Collection.insertOne,
    List.filter_append]
  by_cases here : other = key
  · have unmatched := matching_eq_nil_iff.mpr absent
    rw [Collection.matching] at unmatched
    rw [here, unmatched]
    simp
  · simp [here, Ne.symm here, view, Collection.matching]

/-- The documents after an update. -/
theorem mem_updateOne {id : Nat} {document : Document} :
    document ∈ (collection.updateOne id value).documents ↔
      ∃ before ∈ collection.documents,
        (if before.id = id then { before with value } else before) = document :=
  List.mem_map

theorem Collection.Sound.updateOne (sound : collection.Sound) (id : Nat) (value : Bytes) :
    (collection.updateOne id value).Sound where
  onePerKey := by
    rw [Collection.OnePerKey, keys_updateOne]
    exact sound.onePerKey
  distinct := by
    have ids : (collection.updateOne id value).documents.map Document.id =
        collection.documents.map Document.id := by
      rw [Collection.updateOne, List.map_map]
      apply List.map_congr_left
      intro document _
      simp only [Function.comp_apply]
      split <;> rfl
    rw [ids]
    exact sound.distinct
  issued := by
    intro document mem
    rcases mem_updateOne.mp mem with ⟨before, held, rfl⟩
    have issued := sound.issued before held
    split <;> exact issued

theorem view_updateOne (sound : collection.Sound) {document : Document}
    (mem : document ∈ collection.documents) (value : Bytes) :
    view (collection.updateOne document.id value) =
      Function.update (view collection) document.key (some value) := by
  funext other
  apply Option.ext
  intro held
  rw [Function.update_apply, (sound.updateOne document.id value).onePerKey.view_eq_some_iff]
  by_cases here : other = document.key
  · rw [if_pos here, Option.some.injEq]
    constructor
    · rintro ⟨after, afterMem, own, rfl⟩
      rcases mem_updateOne.mp afterMem with ⟨before, beforeMem, rfl⟩
      by_cases same : before.id = document.id
      · rw [if_pos same]
      · rw [if_neg same] at own
        have equal := List.inj_on_of_nodup_map sound.onePerKey beforeMem mem
          (own.trans here)
        exact absurd (congrArg Document.id equal) same
    · rintro rfl
      exact ⟨{ document with value }, mem_updateOne.mpr ⟨document, mem, if_pos rfl⟩, here.symm,
        rfl⟩
  · rw [if_neg here, sound.onePerKey.view_eq_some_iff]
    constructor
    · rintro ⟨after, afterMem, own, rfl⟩
      rcases mem_updateOne.mp afterMem with ⟨before, beforeMem, rfl⟩
      by_cases same : before.id = document.id
      · have equal := List.inj_on_of_nodup_map sound.distinct beforeMem mem same
        rw [if_pos same] at own
        have ownKey : before.key = other := own
        exact absurd (ownKey.symm.trans (congrArg Document.key equal)) here
      · rw [if_neg same] at own ⊢
        exact ⟨before, beforeMem, own, rfl⟩
    · rintro ⟨before, beforeMem, own, rfl⟩
      have other : before.id ≠ document.id := by
        intro same
        have equal := List.inj_on_of_nodup_map sound.distinct beforeMem mem same
        exact here (own.symm.trans (congrArg Document.key equal))
      exact ⟨before, mem_updateOne.mpr ⟨before, beforeMem, if_neg other⟩, own, rfl⟩

theorem Collection.Sound.deleteOne (sound : collection.Sound) (id : Nat) :
    (collection.deleteOne id).Sound where
  onePerKey := sound.onePerKey.deleteOne id
  distinct := (List.filter_sublist.map Document.id).nodup sound.distinct
  issued document mem := sound.issued document (List.mem_filter.mp mem).1

theorem view_deleteOne (sound : collection.Sound) {document : Document}
    (mem : document ∈ collection.documents) :
    view (collection.deleteOne document.id) =
      Function.update (view collection) document.key none := by
  funext other
  apply Option.ext
  intro held
  rw [Function.update_apply, (sound.deleteOne document.id).onePerKey.view_eq_some_iff]
  by_cases here : other = document.key
  · rw [if_pos here]
    apply iff_of_false _ (by simp)
    rintro ⟨after, afterMem, own, _⟩
    rcases List.mem_filter.mp afterMem with ⟨beforeMem, different⟩
    have equal := List.inj_on_of_nodup_map sound.onePerKey beforeMem mem (own.trans here)
    exact of_decide_eq_true different (congrArg Document.id equal)
  · rw [if_neg here, sound.onePerKey.view_eq_some_iff]
    constructor
    · rintro ⟨after, afterMem, own, rfl⟩
      exact ⟨after, (List.mem_filter.mp afterMem).1, own, rfl⟩
    · rintro ⟨before, beforeMem, own, rfl⟩
      refine ⟨before, List.mem_filter.mpr ⟨beforeMem, decide_eq_true fun same => ?_⟩, own, rfl⟩
      have equal := List.inj_on_of_nodup_map sound.distinct beforeMem mem same
      exact here (own.symm.trans (congrArg Document.key equal))

/-! ### Whole calls -/

variable {E : Type*} {next : Collection} {choices : List (Choice E)} {attempts : Nat} {conflict : E}

/-- Undisturbed, an upsert finds the document that it updates, or none. -/
theorem insert_outcome (sound : collection.Sound) {returned : Returned E}
    (executes : Program.Executes answer (insertCall conflict key value (attempts + 1))
      collection choices returned next) :
    (returned = .inserted (.ok ()) ∧ next.Sound ∧
      view next = Function.update (view collection) key (some value)) ∨
    ∃ error, returned = .inserted (.error error) ∧ next = collection ∧
      ∃ failure, .fails failure ∈ choices := by
  rw [insertCall] at executes
  cases executes with
  | @command _ _ _ middle _ choice choices reply _ answered rest =>
      cases choice with
      | fails error =>
          cases answered
          cases rest
          exact Or.inr ⟨error, rfl, rfl, error, List.mem_cons_self⟩
      | picks index =>
          rcases Option.map_eq_some_iff.mp answered with ⟨found, picked, outcome⟩
          cases outcome
          rcases pick_eq_some picked with ⟨rfl, unmatched⟩ | ⟨document, matched, rfl⟩
          · have absent := matching_eq_nil_iff.mp unmatched
            cases rest with
            | @command _ _ _ _ _ choice choices _ _ answered rest =>
                cases choice with
                | fails error =>
                    cases answered
                    cases rest
                    exact Or.inr ⟨error, rfl, rfl, error, by simp⟩
                | picks index =>
                    cases answered
                    cases rest
                    exact Or.inl ⟨rfl, sound.insertOne value absent,
                      view_insertOne value absent⟩
          · rcases List.mem_filter.mp matched with ⟨mem, own⟩
            have ownKey : document.key = key := of_decide_eq_true own
            cases rest with
            | @command _ _ _ _ _ choice choices _ _ answered rest =>
                cases choice with
                | fails error =>
                    cases answered
                    cases rest
                    exact Or.inr ⟨error, rfl, rfl, error, by simp⟩
                | picks index =>
                    have there : (collection.documents.find? fun other =>
                        other.id = document.id).isSome = true :=
                      List.find?_isSome.mpr ⟨document, mem, decide_eq_true rfl⟩
                    rcases Option.isSome_iff_exists.mp there with ⟨updated, isUpdated⟩
                    simp only [answer, isUpdated] at answered
                    cases answered
                    cases rest
                    refine Or.inl ⟨rfl, sound.updateOne document.id value, ?_⟩
                    rw [view_updateOne sound mem, ownKey]

theorem remove_outcome (sound : collection.Sound) {returned : Returned E}
    (executes : Program.Executes answer (removeCall key) collection choices returned next) :
    (returned = .removed (.ok (view collection key)) ∧ next.Sound ∧
      view next = Function.update (view collection) key none) ∨
    ∃ error, returned = .removed (.error error) ∧ next = collection ∧
      ∃ failure, .fails failure ∈ choices := by
  rw [removeCall] at executes
  cases executes with
  | @command _ _ _ middle _ choice choices reply _ answered rest =>
      cases choice with
      | fails error =>
          cases answered
          cases rest
          exact Or.inr ⟨error, rfl, rfl, error, List.mem_cons_self⟩
      | picks index =>
          rcases Option.map_eq_some_iff.mp answered with ⟨found, picked, outcome⟩
          cases outcome
          cases rest
          left
          rcases pick_eq_some picked with ⟨rfl, unmatched⟩ | ⟨document, matched, rfl⟩
          · have absent : view collection key = none := by
              rw [view, unmatched]
              rfl
            have same : Function.update (view collection) key none = view collection := by
              rw [← absent, Function.update_eq_self]
            exact ⟨by rw [absent]; rfl, sound, same.symm⟩
          · rcases List.mem_filter.mp matched with ⟨mem, own⟩
            have ownKey : document.key = key := of_decide_eq_true own
            have held := sound.onePerKey.view_eq_some_iff.mpr ⟨document, mem, ownKey, rfl⟩
            refine ⟨by rw [held]; rfl, sound.deleteOne document.id, ?_⟩
            rw [← ownKey]
            exact view_deleteOne sound mem

/-- The store is a map. -/
theorem refines (E : Type*) : Refines (Performed E) Collection.Sound view (MayFail E) := by
  apply Refines.of_outcome
  · intro choices call collection result next sound performed
    cases performed with
    | insert executes =>
        rcases insert_outcome sound executes with ⟨_, kept, _⟩ | ⟨_, _, rfl, _⟩
        · exact kept
        · exact sound
    | remove executes =>
        rcases remove_outcome sound executes with ⟨_, kept, _⟩ | ⟨_, _, rfl, _⟩
        · exact kept
        · exact sound
    | get | keys | containsKey | failed => exact sound
  · intro choices call collection result next sound performed
    cases performed with
    | @get _ key _ _ picked =>
        rw [get_eq_view sound.onePerKey picked]
        exact Or.inl ⟨_, rfl, .get key⟩
    | @insert _ key value _ _ _ _ _ executes =>
        rcases insert_outcome sound executes with
          ⟨returned, _, held⟩ | ⟨error, returned, rfl, why⟩
        · cases returned
          rw [held]
          exact Or.inl ⟨_, rfl, .insert key value⟩
        · cases returned
          exact Or.inr ⟨error, rfl, rfl, why⟩
    | @remove _ key _ _ _ executes =>
        rcases remove_outcome sound executes with
          ⟨returned, _, held⟩ | ⟨error, returned, rfl, why⟩
        · cases returned
          rw [held]
          exact Or.inl ⟨_, rfl, .remove key⟩
        · cases returned
          exact Or.inr ⟨error, rfl, rfl, why⟩
    | keys index => exact Or.inl ⟨_, rfl, .keys fun key => mem_keys_iff⟩
    | containsKey index key =>
        have present : containsKey collection key = (view collection key).isSome := by
          rw [containsKey, view, Option.isSome_map]
          cases collection.matching key <;> simp
        rw [present]
        exact Or.inl ⟨_, rfl, .containsKey key⟩
    | failed => exact Or.inr ⟨_, rfl, rfl, _, List.mem_cons_self⟩

end MongoCache

/-! ## The five stores -/

/-- A store of any kind is a map: a call that succeeds answers what the map answers, a
call that fails changes nothing and has one of the reasons of its kind, and after any run
the store holds what was last written under each key.  The calls come one after the
other: a listing on Redis and a removal on Oracle take several commands, an insert on
Mongo several steps of the server, and nothing comes between these.  The Redis database
holds texts and strings only (`Textual`), and the prefix has no special bytes
(`PlainPrefix`). -/
theorem stores_are_maps (describe : RedisError → String) {config : RedisConfig}
    (plain : RedisCache.PlainPrefix config) :
    (∀ name, IsMap (InMemoryCache.Performed name) (fun _ => True) (InMemoryCache.view name)
      InMemoryCache.MayFail) ∧
    IsMap (RedisCache.Performed describe config) RedisCache.Textual (RedisCache.view config)
      RedisCache.MayFail ∧
    IsMap (MongoCache.Performed MyError) MongoCache.Collection.Sound MongoCache.view
      (MongoCache.MayFail MyError) ∧
    IsMap OracleCache.Performed (fun _ => True) OracleCache.view OracleCache.MayFail ∧
    IsMap PostgresCache.Performed (fun _ => True) PostgresCache.view PostgresCache.MayFail :=
  ⟨fun name => (InMemoryCache.refines name).isMap, (RedisCache.refines describe plain).isMap,
    (MongoCache.refines MyError).isMap, OracleCache.refines.isMap, PostgresCache.refines.isMap⟩

end PushCache

namespace PushCache.Sample

open PushCache.Keyed

/-- The store with the prefix `a`. -/
def redisA : RedisConfig := ⟨redisUrl, some "a"⟩

theorem redisA_plain : RedisCache.PlainPrefix redisA := by
  intro keyPrefix same
  cases same
  exact plain_a

/-- A record is written while the connection is up, and read back; a removal fails. -/
def writtenOnce : List (Made (Option String) String Bytes MyError) :=
  [⟨none, .insert "x" [1], .ok .done⟩, ⟨none, .get "x", .ok (.found (some [1]))⟩,
    ⟨some "down", .remove "x", .error (.message "Redis get_del error: error")⟩]

theorem writtenOnce_runs :
    Runs (RedisCache.Performed (fun _ => "error") redisA) ∅ writtenOnce
      (Redis.set (asBytes "a:x") [1] ∅) :=
  .call (.insert none "x" [1] ∅) (.call (.get none "x" _) (.call (.remove (some "down") "x" _)
    (.stop _)))

theorem stores_are_maps_of_writtenOnce :
    RedisCache.view redisA (Redis.set (asBytes "a:x") [1] ∅) "x" = some [1] := by
  have empty : RedisCache.Textual ∅ := by
    intro key value held
    cases held
  have redis := (stores_are_maps (fun _ => "error") redisA_plain).2.1
  exact redis.holds empty writtenOnce_runs "x"

end PushCache.Sample
