import PushCache.Cache.Redis
import PushCache.Transition.Noninterference

/-!
# Two Redis stores on one database

The results of one store do not depend on the calls on another store of the same
database exactly when no key of the other starts like a key of the first or
matches its pattern.  Distinct prefixes are not enough: one may extend the other by
a colon, or be matched by a special byte.
-/

namespace PushCache.RedisCache

/-- A call of a method. -/
inductive Request where
  | get (key : String)
  | insert (key : String) (value : Bytes)
  | remove (key : String)
  | containsKey (key : String)
  | keys

/-- What a method returns. -/
inductive Reply where
  | got (result : Except MyError (Option Bytes))
  | inserted (result : Except MyError Unit)
  | removed (result : Except MyError (Option Bytes))
  | contained (result : Except MyError Bool)
  | listed (result : Except MyError (List String))

/-- What the outside world decides during a call: whether the connection is down,
and the order and repetitions of a scan. -/
structure Outside where
  down : Option String
  scanned : List Bytes

/-- A call on one of the two stores. -/
structure SharedCall where
  onFirst : Bool
  request : Request
  outside : Outside

/-- Carry out a method call; a scan answers as it may. -/
def call (describe : RedisError → String) (config : RedisConfig) (request : Request)
    (outside : Outside) (database : Redis.Database Redis.Value) :
    Option (Reply × Redis.Database Redis.Value) :=
  match request with
  | .get key => some (.got (get describe config outside.down key database), database)
  | .insert key value =>
      let (result, database) := insert describe config outside.down key value database
      some (.inserted result, database)
  | .remove key =>
      let (result, database) := remove describe config outside.down key database
      some (.removed result, database)
  | .containsKey key =>
      some (.contained (containsKey describe config outside.down key database), database)
  | .keys =>
      if Redis.Scans database (asBytes (matchPattern config)) outside.scanned then
        some (.listed (keys describe config outside.down outside.scanned), database)
      else none

theorem call_keys_eq_some_iff {describe : RedisError → String} {config : RedisConfig}
    {outside : Outside} {database : Redis.Database Redis.Value}
    {outcome : Reply × Redis.Database Redis.Value} :
    call describe config .keys outside database = some outcome ↔
      Redis.Scans database (asBytes (matchPattern config)) outside.scanned ∧
        (.listed (keys describe config outside.down outside.scanned), database) = outcome := by
  rw [call, Option.ite_none_right_eq_some, Option.some.injEq]

/-- Two stores on one database, with a prefix each. -/
def respond (describe : RedisError → String) (url : Url) (first second : String) :
    Transition.Responder (Redis.Database Redis.Value) SharedCall Reply
  | database, made =>
      call describe ⟨url, some (if made.onFirst then first else second)⟩ made.request
        made.outside database

/-- Neither prefix with its colon starts with the other, and no key with the second
matches the pattern of the first. -/
structure Disjoint (first second : String) : Prop where
  notWithin : ¬s!"{first}:".toList <+: s!"{second}:".toList
  notAround : ¬s!"{second}:".toList <+: s!"{first}:".toList
  unmatched : ∀ key : String, ¬Glob.Matches (asBytes s!"{first}:*") (asBytes s!"{second}:{key}")

section Isolation

variable {describe : RedisError → String} {url : Url} {first second : String}

/-- A key of the database that is not one of the second store's. -/
def NotOf (second : String) (key : Bytes) : Prop :=
  ∀ name : String, key ≠ asBytes s!"{second}:{name}"

theorem not_notOf (second name : String) : ¬NotOf second (asBytes s!"{second}:{name}") :=
  fun foreign => foreign name rfl

/-- A common key of two stores starts with both prefixes. -/
theorem notOf_of_disjoint (disjoint : Disjoint first second) (name : String) :
    NotOf second (asBytes s!"{first}:{name}") := by
  intro other same
  have starts : s!"{first}:".toList <+: s!"{first}:{name}".toList :=
    isPrefix_iff.mpr ⟨name, rfl⟩
  have startsToo : s!"{second}:".toList <+: s!"{first}:{name}".toList := by
    rw [asBytes_injective same]
    exact isPrefix_iff.mpr ⟨other, rfl⟩
  cases List.prefix_or_prefix_of_prefix starts startsToo with
  | inl within => exact disjoint.notWithin within
  | inr around => exact disjoint.notAround around

theorem notOf_of_matches (disjoint : Disjoint first second) {key : Bytes}
    (matched : Glob.Matches (asBytes s!"{first}:*") key) : NotOf second key := by
  rintro name rfl
  exact disjoint.unmatched name matched

/-- The calls on the second store leave everything else as it is. -/
theorem call_second_agrees {request : Request} {outside : Outside}
    {database other next : Redis.Database Redis.Value} {reply : Reply}
    (agree : Redis.AgreeOn (NotOf second) database other)
    (called : call describe ⟨url, some second⟩ request outside database = some (reply, next)) :
    Redis.AgreeOn (NotOf second) next other := by
  rcases outside with ⟨down, scanned⟩
  cases request with
  | get key =>
      cases called
      exact agree
  | insert key value =>
      cases down with
      | some text =>
          cases called
          exact agree
      | none =>
          cases called
          exact agree.insert_left (not_notOf second key) _
  | remove key =>
      cases down with
      | some text =>
          cases called
          exact agree
      | none =>
          cases called
          exact agree.getDel_left (not_notOf second key)
  | containsKey key =>
      cases called
      exact agree
  | keys =>
      rcases call_keys_eq_some_iff.mp called with ⟨_, outcome⟩
      cases outcome
      exact agree

/-- The calls on the first store have the same result in databases that differ in
keys of the second only. -/
theorem call_first_agrees (disjoint : Disjoint first second) {request : Request}
    {outside : Outside} {database other next : Redis.Database Redis.Value} {reply : Reply}
    (agree : Redis.AgreeOn (NotOf second) database other)
    (called : call describe ⟨url, some first⟩ request outside database = some (reply, next)) :
    ∃ after, call describe ⟨url, some first⟩ request outside other = some (reply, after) ∧
      Redis.AgreeOn (NotOf second) next after := by
  rcases outside with ⟨down, scanned⟩
  cases request with
  | get key =>
      cases called
      have same := agree _ (notOf_of_disjoint disjoint key)
      refine ⟨other, ?_, agree⟩
      simp only [call, get, Redis.get, formatKey, same]
  | insert key value =>
      cases down with
      | some text =>
          cases called
          exact ⟨other, rfl, agree⟩
      | none =>
          cases called
          exact ⟨_, rfl, agree.insert _ _⟩
  | remove key =>
      cases down with
      | some text =>
          cases called
          exact ⟨other, rfl, agree⟩
      | none =>
          cases called
          rcases agree.getDel (notOf_of_disjoint disjoint key) with ⟨same, still⟩
          refine ⟨_, ?_, still⟩
          rw [call, remove]
          exact congrArg (fun answer => some (Reply.removed
            ((received none answer).mapError _), _)) same.symm
  | containsKey key =>
      cases called
      have same := agree _ (notOf_of_disjoint disjoint key)
      refine ⟨other, ?_, agree⟩
      simp only [call, containsKey, Redis.exists?, formatKey, same]
  | keys =>
      have scans := agree.scans_iff (fun key => notOf_of_matches disjoint) scanned
      rcases call_keys_eq_some_iff.mp called with ⟨may, outcome⟩
      cases outcome
      exact ⟨other, call_keys_eq_some_iff.mpr ⟨scans.mp may, rfl⟩, agree⟩

/-- A common key of the two stores: what is inserted in the second is found in the
first. -/
theorem interferes_of_shared (describe : RedisError → String) (url : Url) (name other : String)
    (shared : s!"{first}:{name}" = s!"{second}:{other}") :
    ¬Transition.Noninterfering (respond describe url first second) SharedCall.onFirst := by
  intro isolated
  have stored : get describe ⟨url, some first⟩ none name
      (Redis.set (asBytes s!"{second}:{other}") [] ∅) = .ok (some []) := by
    have key : formatKey ⟨url, some first⟩ name = s!"{second}:{other}" := shared
    rw [get, key, Redis.get, Redis.set, Finmap.lookup_insert]
    rfl
  rcases isolated.answered_alone ⟨false, .insert other [], ⟨none, []⟩⟩
      ⟨true, .get name, ⟨none, []⟩⟩ rfl rfl rfl
      (congrArg (fun result => some (Reply.got result, _)) stored) with ⟨_, found⟩
  cases found

/-- A key of the second store that matches the pattern of the first: it is listed. -/
theorem interferes_of_matches (describe : RedisError → String) (url : Url) (name : String)
    (matched : Glob.Matches (asBytes s!"{first}:*") (asBytes s!"{second}:{name}")) :
    ¬Transition.Noninterfering (respond describe url first second) SharedCall.onFirst := by
  intro isolated
  have scans : Redis.Scans (Redis.set (asBytes s!"{second}:{name}") [] ∅)
      (asBytes (matchPattern ⟨url, some first⟩)) [asBytes s!"{second}:{name}"] := by
    intro key
    simp only [Redis.Matched, Redis.set, Finmap.mem_insert, List.mem_singleton,
      Finmap.notMem_empty, or_false]
    constructor
    · rintro rfl
      exact ⟨rfl, matched⟩
    · exact And.left
  have empty : ¬Redis.Scans (∅ : Redis.Database Redis.Value)
      (asBytes (matchPattern ⟨url, some first⟩)) [asBytes s!"{second}:{name}"] :=
    fun scansEmpty =>
      Finmap.notMem_empty ((scansEmpty _).mp (List.mem_singleton_self _)).1
  rcases isolated.answered_alone ⟨false, .insert name [], ⟨none, []⟩⟩
      ⟨true, .keys, ⟨none, [asBytes s!"{second}:{name}"]⟩⟩ rfl rfl rfl
      (call_keys_eq_some_iff.mpr ⟨scans, rfl⟩) with ⟨_, listed⟩
  rw [respond] at listed
  exact empty (call_keys_eq_some_iff.mp listed).1

/-- The calls on the first of two stores of one database are answered as if those on
the second had not been made, exactly when the prefixes are disjoint. -/
theorem respond_isolated_iff (describe : RedisError → String) (url : Url)
    (first second : String) :
    Transition.Noninterfering (respond describe url first second) SharedCall.onFirst ↔
      Disjoint first second := by
  constructor
  · intro isolated
    constructor
    · intro within
      rcases isPrefix_iff.mp within with ⟨rest, split⟩
      have shared := split.trans String.append_empty.symm
      exact interferes_of_shared describe url rest "" shared isolated
    · intro around
      rcases isPrefix_iff.mp around with ⟨rest, split⟩
      have shared := String.append_empty.trans split.symm
      exact interferes_of_shared describe url "" rest shared isolated
    · intro key matched
      exact interferes_of_matches describe url key matched isolated
  · intro disjoint
    have unwinding : Transition.Unwinding (respond describe url first second)
        SharedCall.onFirst (Redis.AgreeOn (NotOf second)) := by
      constructor
      · exact Redis.AgreeOn.refl (NotOf second)
      · intro database other made outcome agree hidden responded
        rw [respond, hidden] at responded
        exact call_second_agrees agree responded
      · intro database other made outcome agree seen responded
        rw [respond, seen] at responded ⊢
        exact call_first_agrees disjoint agree responded
    exact unwinding.noninterfering

end Isolation

/-- Without special bytes in the first prefix, it is enough that neither prefix with its
colon starts with the other. -/
theorem disjoint_iff_of_plain {first second : String}
    (plain : ∀ byte ∈ asBytes first, Glob.Plain byte) :
    Disjoint first second ↔ ¬s!"{first}:".toList <+: s!"{second}:".toList ∧
      ¬s!"{second}:".toList <+: s!"{first}:".toList := by
  constructor
  · intro disjoint
    exact ⟨disjoint.notWithin, disjoint.notAround⟩
  · rintro ⟨notWithin, notAround⟩
    constructor
    · exact notWithin
    · exact notAround
    · intro key matched
      have starts := asBytes_isPrefix_iff.mp ((matches_pattern_iff plain).mp matched)
      have startsToo : s!"{second}:".toList <+: s!"{second}:{key}".toList :=
        isPrefix_iff.mpr ⟨key, rfl⟩
      cases List.prefix_or_prefix_of_prefix starts startsToo with
      | inl within => exact notWithin within
      | inr around => exact notAround around

end PushCache.RedisCache

namespace PushCache.Sample

/-- With the prefixes `a` and `a:b`, the key `x` of the second store is the key `b:x` of
the first.  With the prefixes `a*` and `ab`, the first store lists the keys of the
second. -/
theorem respond_shares_key :
    "a" ≠ "a:b" ∧
      ¬Transition.Noninterfering (RedisCache.respond (fun _ => "error") redisUrl "a" "a:b")
        RedisCache.SharedCall.onFirst ∧
    "a*" ≠ "ab" ∧
      ¬Transition.Noninterfering (RedisCache.respond (fun _ => "error") redisUrl "a*" "ab")
        RedisCache.SharedCall.onFirst := by
  exact ⟨by decide, RedisCache.interferes_of_shared _ redisUrl "b:x" "x" (by decide),
    by decide, RedisCache.interferes_of_matches _ redisUrl "x" (by decide)⟩

end PushCache.Sample
