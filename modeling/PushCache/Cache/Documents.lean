import Mathlib.Data.List.Nodup
import PushCache.Concurrency.Pool
import PushCache.Startup

/-!
# The documents of a Mongo store

A Mongo store keeps each record as a document and finds it by its `key` field,
on which there is no unique index.  An upsert is a lookup followed by an update
of the document it found or by an insertion; a removal finds and deletes one
document in one command.  Where a key has several documents, the server picks
the one it works on.
-/

namespace PushCache

open PushCache.Concurrency
open PushCache.Transition

namespace MongoCache

structure Document where
  id : Nat
  key : String
  value : Bytes
  deriving DecidableEq

/-- The documents of a collection, and the number of ids given out. -/
structure Collection where
  documents : List Document
  issued : Nat
  deriving DecidableEq

/-- The documents the filter `{ "key": key }` matches. -/
def Collection.matching (collection : Collection) (key : String) : List Document :=
  collection.documents.filter fun document => document.key = key

inductive Command where
  | find (key : String)
  | insertOne (key : String) (value : Bytes)
  | updateOne (id : Nat) (value : Bytes)
  | findOneAndDelete (key : String)
  deriving DecidableEq

/-- What the server does with a command: fail it, or go on with one of the
matching documents. -/
inductive Choice (E : Type*) where
  | fails (error : E)
  | picks (index : Nat)

/-- No document where none matches, or the one at the index. -/
def pick (documents : List Document) (index : Nat) : Option (Option Document) :=
  match documents with
  | [] => some none
  | _ => documents[index]?.map some

variable {E : Type*}

/-- Every command answers with the document it found. -/
abbrev Reply (E : Type*) := Except E (Option Document)

/-- Add a document with a new id. -/
def Collection.insertOne (collection : Collection) (key : String) (value : Bytes) :
    Collection :=
  ⟨collection.documents ++ [⟨collection.issued, key, value⟩], collection.issued + 1⟩

/-- Set the value of the document with an id. -/
def Collection.updateOne (collection : Collection) (id : Nat) (value : Bytes) : Collection :=
  { collection with
    documents := collection.documents.map fun document =>
      if document.id = id then { document with value } else document }

/-- Delete the document with an id. -/
def Collection.deleteOne (collection : Collection) (id : Nat) : Collection :=
  { collection with
    documents := collection.documents.filter fun document => document.id ≠ id }

/-- A command is carried out, or fails and changes nothing. -/
def answer : Answers (Choice E) Command (Reply E) Collection
  | .fails error, _, collection => some (.error error, collection)
  | .picks index, .find key, collection =>
      (pick (collection.matching key) index).map fun found => (.ok found, collection)
  | .picks _, .insertOne key value, collection =>
      some (.ok none, collection.insertOne key value)
  | .picks _, .updateOne id value, collection =>
      some (.ok (collection.documents.find? fun document => document.id = id),
        collection.updateOne id value)
  | .picks index, .findOneAndDelete key, collection =>
      (pick (collection.matching key) index).map fun found =>
        (.ok found, (found.map fun document => collection.deleteOne document.id).getD collection)

/-- What a call returns. -/
inductive Returned (E : Type*) where
  | inserted (result : Except E Unit)
  | removed (result : Except E (Option Bytes))

/-- The calls on a collection. -/
abbrev Client (E : Type*) := Program Command (Reply E) (Returned E)

/-- `MongoCache::insert`: `update_one` with `upsert`.  When the document it found
is gone before the update, the server looks again, until it gives up with a
conflict. -/
def insertCall (conflict : E) (key : String) (value : Bytes) : Nat → Client E
  | 0 => .done (.inserted (.error conflict))
  | attempts + 1 =>
      .command (.find key) fun
        | .error error => .done (.inserted (.error error))
        | .ok none =>
            .command (.insertOne key value) fun reply =>
              .done (.inserted (reply.map fun _ => ()))
        | .ok (some document) =>
            .command (.updateOne document.id value) fun
              | .error error => .done (.inserted (.error error))
              | .ok (some _) => .done (.inserted (.ok ()))
              | .ok none => insertCall conflict key value attempts

/-- `MongoCache::remove`: `find_one_and_delete`. -/
def removeCall (key : String) : Client E :=
  .command (.findOneAndDelete key) fun reply =>
    .done (.removed (reply.map (Option.map Document.value)))

/-- What a client may call; an insertion with the number of times the server
will look and the error it gives up with. -/
inductive Operation (E : Type*) where
  | insert (key : String) (value : Bytes) (attempts : Nat) (conflict : E)
  | remove (key : String)

/-- The program of an operation.  The clients of both services send these
commands. -/
def program : Operation E → Client E
  | .insert key value attempts conflict => insertCall conflict key value attempts
  | .remove key => removeCall key

/-- A collection with the calls made on it. -/
abbrev Clients (E : Type*) := Pool Collection Command (Reply E) (Returned E) (Operation E)

/-- The transition system. -/
def step : Step (Clients E) (Move (Choice E) (Operation E)) :=
  Pool.step answer program

/-- `MongoCache::get`: `find_one` answers with one of the matching documents. -/
def get (collection : Collection) (key : String) (index : Nat) : Option (Option Bytes) :=
  (pick (collection.matching key) index).map (Option.map Document.value)

/-- `MongoCache::contains_key`: `count_documents` is positive. -/
def containsKey (collection : Collection) (key : String) : Bool :=
  0 < (collection.matching key).length

/-- `MongoCache::keys`. -/
def keys (collection : Collection) : List String :=
  collection.documents.map Document.key

/-! ## One document for each key -/

/-- No key has two documents. -/
def Collection.OnePerKey (collection : Collection) : Prop :=
  (keys collection).Nodup

theorem matching_eq_nil_iff {collection : Collection} {key : String} :
    collection.matching key = [] ↔ key ∉ keys collection := by
  simp only [Collection.matching, List.filter_eq_nil_iff, decide_eq_true_eq, keys, List.mem_map,
    not_exists, not_and]

theorem onePerKey_insertOne_iff {collection : Collection} (unique : collection.OnePerKey)
    (key : String) (value : Bytes) :
    (collection.insertOne key value).OnePerKey ↔ key ∉ keys collection := by
  have keysEq : keys (collection.insertOne key value) = (keys collection).concat key := by
    simp [keys, Collection.insertOne]
  rw [Collection.OnePerKey, keysEq, List.nodup_concat]
  exact and_iff_left unique

theorem keys_updateOne (collection : Collection) (id : Nat) (value : Bytes) :
    keys (collection.updateOne id value) = keys collection := by
  simp only [keys, Collection.updateOne, List.map_map]
  apply List.map_congr_left
  intro document _
  simp only [Function.comp_apply]
  split <;> rfl

theorem Collection.OnePerKey.deleteOne {collection : Collection}
    (unique : collection.OnePerKey) (id : Nat) : (collection.deleteOne id).OnePerKey :=
  (List.filter_sublist.map Document.key).nodup unique

/-- With one document for each key, deleting it leaves none. -/
theorem Collection.OnePerKey.key_not_mem_deleteOne {collection : Collection}
    (unique : collection.OnePerKey) {document : Document}
    (member : document ∈ collection.documents) :
    document.key ∉ keys (collection.deleteOne document.id) := by
  intro again
  rcases List.mem_map.mp again with ⟨other, kept, sameKey⟩
  rcases List.mem_filter.mp kept with ⟨otherMem, different⟩
  obtain rfl : other = document :=
    List.inj_on_of_nodup_map unique otherMem member sameKey
  simp at different

/-- The server picks a matching document, unless there is none. -/
theorem pick_eq_some {documents : List Document} {index : Nat} {found : Option Document}
    (picked : pick documents index = some found) :
    (found = none ∧ documents = []) ∨ ∃ document ∈ documents, found = some document := by
  cases documents with
  | nil =>
      cases picked
      exact Or.inl ⟨rfl, rfl⟩
  | cons first rest =>
      rcases Option.map_eq_some_iff.mp picked with ⟨document, here, rfl⟩
      exact Or.inr ⟨document, List.mem_of_getElem? here, rfl⟩

/-- What is left of a key after a removal found a document, or none. -/
theorem key_not_mem_of_findOneAndDelete {index : Nat} {key : String} {reply : Reply E}
    {collection after : Collection} (unique : collection.OnePerKey)
    (answered : answer (.picks index) (.findOneAndDelete key) collection =
      some (reply, after)) : after.OnePerKey ∧ key ∉ keys after := by
  rcases Option.map_eq_some_iff.mp answered with ⟨found, picked, outcome⟩
  rcases pick_eq_some picked with ⟨rfl, unmatched⟩ | ⟨document, matched, rfl⟩
  · cases outcome
    exact ⟨unique, matching_eq_nil_iff.mp unmatched⟩
  · cases outcome
    rcases List.mem_filter.mp matched with ⟨member, sameKey⟩
    have ownKey : document.key = key := of_decide_eq_true sameKey
    exact ⟨unique.deleteOne document.id, ownKey ▸ unique.key_not_mem_deleteOne member⟩

/-- Only an insertion can give a key a second document, and does so exactly when
the key has one. -/
theorem onePerKey_answer_iff {choice : Choice E} {command : Command} {reply : Reply E}
    {collection after : Collection} (unique : collection.OnePerKey)
    (answered : answer choice command collection = some (reply, after)) :
    after.OnePerKey ↔ ∀ key value, command = .insertOne key value →
      (∀ error, choice ≠ .fails error) → key ∉ keys collection := by
  cases choice with
  | fails error =>
      cases answered
      exact iff_of_true unique fun _ _ _ succeeds => absurd rfl (succeeds error)
  | picks index =>
      cases command with
      | find key =>
          rcases Option.map_eq_some_iff.mp answered with ⟨found, _, outcome⟩
          cases outcome
          exact iff_of_true unique (by simp)
      | insertOne key value =>
          cases answered
          rw [onePerKey_insertOne_iff unique]
          constructor
          · rintro absent _ _ same _
            cases same
            exact absent
          · exact fun absent => absent key value rfl (by simp)
      | updateOne id value =>
          cases answered
          refine iff_of_true ?_ (by simp)
          rwa [Collection.OnePerKey, keys_updateOne]
      | findOneAndDelete key =>
          exact iff_of_true (key_not_mem_of_findOneAndDelete unique answered).1 (by simp)

/-- An insertion takes place only while its key has no document. -/
def Unmatched (clients : Clients E) : Move (Choice E) (Operation E) → Prop
  | .start _ => True
  | .advance index choice =>
      ∀ call key value, clients.calls[index]? = some call →
        call.program.next? = some (.insertOne key value) →
          (∀ error, choice ≠ .fails error) → key ∉ keys clients.shared

/-- A removal of the key is about to find and delete a document. -/
def Removing (clients : Clients E) (index : Nat) (key : String) : Prop :=
  ∃ call, clients.calls[index]? = some call ∧
    call.program.next? = some (.findOneAndDelete key)

section Runs

variable {clients next : Clients E} {move : Move (Choice E) (Operation E)}

theorem onePerKey_step_iff (unique : clients.shared.OnePerKey)
    (stepped : step clients move = some next) :
    next.shared.OnePerKey ↔ Unmatched clients move := by
  cases move with
  | start operation =>
      cases stepped
      exact iff_of_true unique trivial
  | advance index choice =>
      rcases Pool.advance_eq_some stepped with ⟨details, found⟩
      have sent : details.call.program.next? = some details.command := by
        rw [details.program]
        rfl
      rw [onePerKey_answer_iff unique details.answered]
      constructor
      · rintro absent call key value here inserts
        obtain rfl := Option.some.inj (found.symm.trans here)
        exact absent key value (Option.some.inj (sent.symm.trans inserts))
      · rintro absent key value inserts
        exact absent details.call key value found (inserts ▸ sent)

/-- After a removal of a key has deleted its document, a lookup of the key finds
nothing. -/
theorem get_of_removed (unique : clients.shared.OnePerKey) {index picked : Nat} {key : String}
    (removing : Removing clients index key)
    (stepped : step clients (.advance index (.picks picked)) = some next) :
    (∀ choice, get next.shared key choice = some none) ∧ containsKey next.shared key = false := by
  rcases removing with ⟨call, here, removes⟩
  rcases Pool.advance_eq_some stepped with ⟨details, found⟩
  obtain rfl := Option.some.inj (found.symm.trans here)
  rw [details.program] at removes
  have answered := details.answered
  rw [Option.some.inj removes] at answered
  have gone := matching_eq_nil_iff.mpr (key_not_mem_of_findOneAndDelete unique answered).2
  simp [get, containsKey, gone, pick]

/-- From a collection with one document for each key, every state of a run has
one document for each key exactly when no upsert of the run inserts a document
for a key that has one. -/
theorem onePerKey_iff_guarded {collection : Collection} (unique : collection.OnePerKey)
    {moves : List (Move (Choice E) (Operation E))} {final : Clients E}
    (ran : run step (Pool.initial collection) moves = some final) :
    (Guarded step Unmatched (Pool.initial collection) moves ↔
      ∀ earlier later reached, moves = earlier ++ later →
        run step (Pool.initial collection) earlier = some reached →
          reached.shared.OnePerKey) ∧
      (Guarded step Unmatched (Pool.initial collection) moves →
        (keys final.shared).Nodup ∧
          ∀ index picked key next, Removing final index key →
            step final (.advance index (.picks picked)) = some next →
              (∀ choice, get next.shared key choice = some none) ∧
                containsKey next.shared key = false) := by
  have exactGuard : ∀ ⦃source : Clients E⦄ ⦃move target⦄, source.shared.OnePerKey →
      step source move = some target →
        (target.shared.OnePerKey ↔ Unmatched source move) :=
    fun _ _ _ holds stepped => onePerKey_step_iff holds stepped
  have everywhere := guarded_iff_forall_reached exactGuard unique ran
  constructor
  · exact everywhere
  · intro guarded
    have atEnd := everywhere.mp guarded moves [] final (List.append_nil _).symm ran
    exact ⟨atEnd, fun _ _ _ _ removing stepped => get_of_removed atEnd removing stepped⟩

end Runs

/-! ## Undisturbed calls

On a collection with unique ids and one document for each key, an undisturbed
call is the call of the sequential interface. -/

/-- The record of a key, where it has one document. -/
def Collection.lookup (collection : Collection) (key : String) : Option Bytes :=
  (collection.matching key).head?.map Document.value

/-- Ids are unique. -/
def Collection.Identified (collection : Collection) : Prop :=
  (collection.documents.map Document.id).Nodup

theorem lookup_insertOne {collection : Collection} {key : String}
    (unmatched : collection.matching key = []) (value : Bytes) (other : String) :
    (collection.insertOne key value).lookup other =
      if other = key then some value else collection.lookup other := by
  have matchingEq : (collection.insertOne key value).matching other =
      collection.matching other ++
        if other = key then [⟨collection.issued, key, value⟩] else [] := by
    by_cases same : other = key <;>
      simp [Collection.matching, Collection.insertOne, List.filter_append, same, Ne.symm]
  by_cases same : other = key
  · subst same
    simp [Collection.lookup, matchingEq, unmatched]
  · simp [Collection.lookup, matchingEq, same]

/-- A document that is the first match of a key is the match of that key only. -/
theorem Collection.Identified.head?_id_ne {collection : Collection}
    (identified : collection.Identified) {document first : Document} {other : String}
    (member : document ∈ collection.documents) (different : other ≠ document.key)
    (head : first ∈ collection.matching other) : first.id ≠ document.id := by
  rcases List.mem_filter.mp head with ⟨firstMem, firstKey⟩
  intro sameId
  obtain rfl := List.inj_on_of_nodup_map identified firstMem member sameId
  exact different (of_decide_eq_true firstKey).symm

theorem matching_updateOne (collection : Collection) (id : Nat) (value : Bytes)
    (key : String) :
    (collection.updateOne id value).matching key =
      (collection.matching key).map fun document =>
        if document.id = id then { document with value } else document := by
  simp only [Collection.matching, Collection.updateOne, List.filter_map]
  congr 1
  apply List.filter_congr
  intro document _
  simp only [Function.comp_apply]
  split <;> rfl

theorem lookup_updateOne {collection : Collection} (identified : collection.Identified)
    {document : Document} {rest : List Document} {key : String}
    (matched : collection.matching key = document :: rest) (value : Bytes) (other : String) :
    (collection.updateOne document.id value).lookup other =
      if other = key then some value else collection.lookup other := by
  rw [Collection.lookup, matching_updateOne, List.head?_map]
  by_cases same : other = key
  · subst same
    simp [matched]
  · have own : document ∈ collection.matching key := matched ▸ List.mem_cons_self
    rcases List.mem_filter.mp own with ⟨member, ownKey⟩
    have different : other ≠ document.key := by
      rwa [of_decide_eq_true ownKey]
    rw [if_neg same, Collection.lookup]
    cases head : (collection.matching other).head? with
    | none => rfl
    | some first =>
        have apart := identified.head?_id_ne member different (List.mem_of_head? head)
        simp [apart]

theorem lookup_deleteOne {collection : Collection} (identified : collection.Identified)
    (unique : collection.OnePerKey) {document : Document} {rest : List Document} {key : String}
    (matched : collection.matching key = document :: rest) (other : String) :
    (collection.deleteOne document.id).lookup other =
      if other = key then none else collection.lookup other := by
  have own : document ∈ collection.matching key := matched ▸ List.mem_cons_self
  rcases List.mem_filter.mp own with ⟨member, ownKey⟩
  have keyEq : document.key = key := of_decide_eq_true ownKey
  by_cases same : other = key
  · subst same
    have gone := matching_eq_nil_iff.mpr (unique.key_not_mem_deleteOne member)
    rw [keyEq] at gone
    simp [Collection.lookup, gone]
  · have kept : (collection.deleteOne document.id).matching other =
        collection.matching other := by
      rw [Collection.matching, Collection.deleteOne, List.filter_comm]
      apply List.filter_eq_self.mpr
      intro first head
      exact decide_eq_true (identified.head?_id_ne member (keyEq ▸ same) head)
    simp [Collection.lookup, kept, same]

/-- Alone, an upsert leaves its value under its key and changes no other. -/
theorem insertCall_alone {collection : Collection} (identified : collection.Identified)
    (conflict : E) (key : String) (value : Bytes) (attempts : Nat) :
    ∃ after, (insertCall conflict key value (attempts + 1)).alone answer (.picks 0) collection =
        some (.inserted (.ok ()), after) ∧
      ∀ other, after.lookup other =
        if other = key then some value else collection.lookup other := by
  cases matched : collection.matching key with
  | nil =>
      refine ⟨_, ?_, lookup_insertOne matched value⟩
      simp [insertCall, Program.alone, answer, matched, pick, Except.map]
  | cons document rest =>
      have own : document ∈ collection.matching key := matched ▸ List.mem_cons_self
      have present : ∃ found, (collection.documents.find? fun other =>
          other.id = document.id) = some found := by
        refine Option.isSome_iff_exists.mp (List.find?_isSome.mpr ⟨document, ?_, ?_⟩)
        · exact (List.mem_filter.mp own).1
        · exact decide_eq_true rfl
      rcases present with ⟨found, present⟩
      refine ⟨_, ?_, lookup_updateOne identified matched value⟩
      simp [insertCall, Program.alone, answer, matched, pick, present]

/-- Alone, a removal returns the record of its key and leaves none. -/
theorem removeCall_alone {collection : Collection} (identified : collection.Identified)
    (unique : collection.OnePerKey) (key : String) :
    ∃ after, (removeCall key : Client E).alone answer (.picks 0) collection =
        some (.removed (.ok (collection.lookup key)), after) ∧
      ∀ other, after.lookup other = if other = key then none else collection.lookup other := by
  cases matched : collection.matching key with
  | nil =>
      refine ⟨collection, ?_, ?_⟩
      · simp [removeCall, Program.alone, answer, matched, pick, Collection.lookup, Except.map]
      · intro other
        by_cases same : other = key
        · subst same
          simp [Collection.lookup, matched]
        · rw [if_neg same]
  | cons document rest =>
      refine ⟨_, ?_, lookup_deleteOne identified unique matched⟩
      simp [removeCall, Program.alone, answer, matched, pick, Collection.lookup, Except.map]

end MongoCache

section Interface

open MongoCache

variable {env : Env} {cache : Cache} {config : MongoConfig} {world : World}
  {collection : Collection}

/-- How the server treats the commands of a call whose fault is given. -/
def MongoCache.choiceOf (fault : Option MyError) : Choice MyError :=
  match fault with
  | some error => .fails error
  | none => .picks 0

/-- A Mongo store keeps each key in a place of its own. -/
theorem Cache.location_eq_iff_of_mongo (mongo : cache.storeType = .mongo config)
    {other key : String} : cache.location other = cache.location key ↔ other = key := by
  simp [Cache.location, Cache.storedKey, mongo]

/-- `Cache::insert` of a Mongo store is the undisturbed upsert on its documents. -/
theorem Cache.insert_eq_insertCall (mongo : cache.storeType = .mongo config)
    (identified : collection.Identified)
    (held : ∀ key, world.view (cache.location key) = collection.lookup key)
    (conflict : MyError) (key : String) (value : Bytes) (attempts : Nat) :
    ∃ after, (insertCall conflict key value (attempts + 1)).alone answer
          (choiceOf ((StoreWrite.insert cache key value).fault env)) collection =
        some (.inserted (cache.insert env.faults key value world).1, after) ∧
      ∀ other, (cache.insert env.faults key value world).2.view (cache.location other) =
        after.lookup other := by
  have performed := perform_eq env (.insert cache key value) world
  rw [perform] at performed
  rw [performed]
  cases (StoreWrite.insert cache key value).fault env with
  | some error => exact ⟨collection, rfl, held⟩
  | none =>
      rcases insertCall_alone identified conflict key value attempts with ⟨after, ran, lookup⟩
      refine ⟨after, ran, fun other => ?_⟩
      rw [World.view_resize, StoreWrite.view_effect, StoreWrite.patch_apply, lookup, held]
      simp only [StoreWrite.location, StoreWrite.content, Cache.location_eq_iff_of_mongo mongo]

/-- `Cache::remove` of a Mongo store is the undisturbed removal of a document. -/
theorem Cache.remove_eq_removeCall (mongo : cache.storeType = .mongo config)
    (identified : collection.Identified) (unique : collection.OnePerKey)
    (held : ∀ key, world.view (cache.location key) = collection.lookup key) (key : String) :
    ∃ after, (removeCall key).alone answer
          (choiceOf ((StoreWrite.remove cache key).fault env)) collection =
        some (.removed (cache.remove env.faults key world).1, after) ∧
      ∀ other, (cache.remove env.faults key world).2.view (cache.location other) =
        after.lookup other := by
  rw [Cache.remove_eq]
  cases (StoreWrite.remove cache key).fault env with
  | some error => exact ⟨collection, rfl, held⟩
  | none =>
      rcases removeCall_alone (E := MyError) identified unique key with ⟨after, ran, lookup⟩
      refine ⟨after, by rw [held]; exact ran, fun other => ?_⟩
      rw [World.view_resize, StoreWrite.view_effect, StoreWrite.patch_apply, lookup, held]
      simp only [StoreWrite.location, StoreWrite.content, Cache.location_eq_iff_of_mongo mongo]

end Interface

namespace Sample

/-- Two clients that both look for the key `k` before either inserts it. -/
def upserts : List (Move (MongoCache.Choice MyError) (MongoCache.Operation MyError)) :=
  [.start (.insert "k" (payload 1) 1 (.message "conflict")),
    .start (.insert "k" (payload 2) 1 (.message "conflict")),
    .advance 0 (.picks 0), .advance 1 (.picks 0), .advance 0 (.picks 0), .advance 1 (.picks 0)]

/-- The two upserts leave two documents; a removal after them deletes one, and a
lookup still finds the other. -/
theorem upserts_leave_duplicate :
    ∃ final, run MongoCache.step (Pool.initial ⟨[], 0⟩) upserts = some final ∧ final.Idle ∧
      ¬final.shared.OnePerKey ∧
      ∃ after, run MongoCache.step final [.start (.remove "k"), .advance 2 (.picks 0)] =
          some after ∧
        after.Idle ∧ MongoCache.get after.shared "k" 0 = some (some (payload 2)) := by
  refine ⟨_, rfl, ?_, ?_, _, rfl, ?_, rfl⟩
  · exact List.forall_mem_cons.mpr ⟨⟨_, rfl⟩, List.forall_mem_cons.mpr
      ⟨⟨_, rfl⟩, List.forall_mem_nil _⟩⟩
  · change ¬(["k", "k"] : List String).Nodup
    decide
  · exact List.forall_mem_cons.mpr ⟨⟨_, rfl⟩, List.forall_mem_cons.mpr
      ⟨⟨_, rfl⟩, List.forall_mem_cons.mpr ⟨⟨_, rfl⟩, List.forall_mem_nil _⟩⟩⟩

/-- An upsert, another of the same key after it, and a removal. -/
def upsertsInTurn : List (Move (MongoCache.Choice MyError) (MongoCache.Operation MyError)) :=
  [.start (.insert "k" (payload 1) 1 (.message "conflict")), .advance 0 (.picks 0),
    .advance 0 (.picks 0), .start (.insert "k" (payload 2) 1 (.message "conflict")),
    .advance 1 (.picks 0), .advance 1 (.picks 0)]

theorem onePerKey_iff_guarded_of_upsertsInTurn :
    ∃ final, run MongoCache.step (Pool.initial ⟨[], 0⟩) upsertsInTurn = some final ∧
      (Guarded MongoCache.step MongoCache.Unmatched (Pool.initial ⟨[], 0⟩) upsertsInTurn ↔
        ∀ earlier later reached, upsertsInTurn = earlier ++ later →
          run MongoCache.step (Pool.initial ⟨[], 0⟩) earlier = some reached →
            reached.shared.OnePerKey) := by
  have ran : ∃ final, run MongoCache.step (Pool.initial ⟨[], 0⟩) upsertsInTurn =
      some final := ⟨_, rfl⟩
  have empty : (⟨[], 0⟩ : MongoCache.Collection).OnePerKey := List.nodup_nil
  rcases ran with ⟨final, ran⟩
  exact ⟨final, ran, (MongoCache.onePerKey_iff_guarded empty ran).1⟩

end Sample

end PushCache
