import PushCache.Consumer.Plan

/-!
# Feeds

A feed is a sequence of messages, each with what the outside world answers while
it is handled: the registry may change its mind and stores may fail from one
message to the next.  What a completed run leaves behind is a function of the
feed alone.  An id's schema is the first one the registry gave for it, and the
records are the last-write-wins outcome of the messages' patches.
-/

namespace PushCache

open PushCache.Log
open PushCache.Transition

variable {crates : Crates} {state : MyState}

/-! ## Schemas -/

/-- The answers of the registry while one message is handled. -/
def registry (crates : Crates) (state : MyState) (env : Env) : UInt32 → Option Schema :=
  fun id =>
    (fetchSchemaById crates env.http state.config.kafka.schemaRegistryUrl.asStr id).toOption

/-- The known schemas after a message: a known schema stays, and the schema of
the message's id is asked for if it is not known. -/
def learn (crates : Crates) (state : MyState) (item : Env × Message)
    (schemas : UInt32 → Option Schema) : UInt32 → Option Schema :=
  fun id =>
    if messageId crates item.2 = some id then
      (schemas id).or (registry crates state item.1 id)
    else
      schemas id

theorem cacheSchema_schemaOf {env : Env} (id other : UInt32) (world : World) :
    (cacheSchema crates state env id world).schemaOf other =
      if other = id then (world.schemaOf id).or (registry crates state env id)
      else world.schemaOf other := by
  simp only [cacheSchema, registry]
  by_cases cached : id ∈ world.schemaCache
  · rcases Finmap.mem_iff.mp cached with ⟨schema, found⟩
    rw [if_pos cached, World.schemaOf, World.schemaOf, found]
    by_cases same : other = id
    · rw [if_pos same, same, found, Option.some_or]
    · rw [if_neg same]
  · have missing := Finmap.lookup_eq_none.mpr cached
    rw [if_neg cached, World.schemaOf, World.schemaOf, missing]
    by_cases same : other = id
    · subst other
      cases fetchSchemaById crates env.http
          state.config.kafka.schemaRegistryUrl.asStr id with
      | error error => simp [missing, Except.toOption]
      | ok schema => simp [Except.toOption]
    · cases fetchSchemaById crates env.http
          state.config.kafka.schemaRegistryUrl.asStr id with
      | error error => simp [same, World.schemaOf]
      | ok schema => simp [same, World.schemaOf, Finmap.lookup_insert_of_ne]

theorem resolveMessage_schemaOf (env : Env) (message : Message) (world : World) :
    (resolveMessage crates state env message world).schemaOf =
      learn crates state (env, message) world.schemaOf := by
  ext1 id
  simp only [resolveMessage, learn]
  cases messageId crates message with
  | none => simp
  | some own =>
      simp only [cacheSchema_schemaOf, Option.some.injEq]
      by_cases same : id = own
      · rw [if_pos same, if_pos same.symm, same]
      · rw [if_neg same, if_neg (Ne.symm same)]

theorem resolveMessage_view (env : Env) (message : Message) (world : World) :
    (resolveMessage crates state env message world).view = world.view := by
  simp only [resolveMessage, cacheSchema]
  repeat' split
  all_goals rfl

/-! ## One message -/

/-- What a message leaves in the stores, given the known schemas. -/
def storePatch (crates : Crates) (state : MyState) (schemas : UInt32 → Option Schema)
    (message : Message) : Patch (Cell × String) (Option Bytes) :=
  writesPatch ((command crates state schemas message).writes state)

/-- Whether or not a message's writes succeed, the rest of the world changes by
the schema step and the counters. -/
theorem handleMessage_rest (crates : Crates) (state : MyState) (env : Env)
    (message : Message) (world : World) :
    (handleMessage crates state env message world).2.rest =
      ((command crates state (learn crates state (env, message) world.schemaOf)
        message).note (resolveMessage crates state env message world)).rest := by
  rw [handleMessage_eq, performAll_rest, resolveMessage_schemaOf]

/-- Handling a message resolves its schema, whether or not its writes
succeed. -/
theorem handleMessage_schemaOf (crates : Crates) (state : MyState) (env : Env)
    (message : Message) (world : World) :
    (handleMessage crates state env message world).2.schemaOf =
      learn crates state (env, message) world.schemaOf := by
  have cached := congrArg Prod.fst (handleMessage_rest crates state env message world)
  simp only [World.rest, Command.schemaCache_note] at cached
  rw [← resolveMessage_schemaOf]
  ext1 id
  rw [World.schemaOf, cached, World.schemaOf]

/-- A message whose writes succeed leaves its patch. -/
theorem handleMessage_view_of_ok {env : Env} {message : Message} {world next : World}
    (ok : handleMessage crates state env message world = (.ok (), next)) :
    next.view = (storePatch crates state (learn crates state (env, message) world.schemaOf)
      message).apply world.view := by
  rw [handleMessage_eq, resolveMessage_schemaOf] at ok
  rw [performAll_view_of_ok ok, Command.view_note, resolveMessage_view, storePatch]

/-! ## Whole feeds -/

/-- The stream that delivers a feed. -/
def feedStream (feed : List (Env × Message)) : Stream :=
  feed.map .ok

theorem streamProcessor_feed_cons_of_ok {env : Env} {message : Message} {world next : World}
    (handled : handleMessage crates state env message world = (.ok (), next))
    (feed : List (Env × Message)) :
    streamProcessor crates state (feedStream ((env, message) :: feed)) world =
      streamProcessor crates state (feedStream feed) next :=
  tryForEach_cons_of_ok handled

theorem streamProcessor_feed_cons_of_error {env : Env} {message : Message}
    {world next : World} {error : MyError}
    (failed : handleMessage crates state env message world = (.error error, next))
    (feed : List (Env × Message)) :
    streamProcessor crates state (feedStream ((env, message) :: feed)) world =
      (.error error, next) :=
  tryForEach_cons_of_error failed

/-- The known schemas after a feed. -/
def learnAll (crates : Crates) (state : MyState) (schemas : UInt32 → Option Schema)
    (feed : List (Env × Message)) : UInt32 → Option Schema :=
  feed.foldl (fun schemas item => learn crates state item schemas) schemas

/-- The patches of a feed's messages, each under the schemas known by then. -/
def feedPatches (crates : Crates) (state : MyState) :
    (UInt32 → Option Schema) → List (Env × Message) →
      List (Patch (Cell × String) (Option Bytes))
  | _, [] => []
  | schemas, item :: feed =>
      storePatch crates state (learn crates state item schemas) item.2 ::
        feedPatches crates state (learn crates state item schemas) feed

/-- The records a feed leaves, given the known schemas and the records at its
start. -/
def feedRecords (crates : Crates) (state : MyState) (schemas : UInt32 → Option Schema)
    (feed : List (Env × Message)) (records : Cell × String → Option Bytes) :
    Cell × String → Option Bytes :=
  (Patch.latest (feedPatches crates state schemas feed)).apply records

/-- The outcome of a completed run is that of its feed. -/
theorem streamProcessor_feed_of_ok {feed : List (Env × Message)} {world final : World}
    (ok : streamProcessor crates state (feedStream feed) world = (.ok (), final)) :
    final.view = feedRecords crates state world.schemaOf feed world.view ∧
      final.schemaOf = learnAll crates state world.schemaOf feed := by
  induction feed generalizing world with
  | nil =>
      cases ok
      exact ⟨rfl, rfl⟩
  | cons item feed ih =>
      rcases item with ⟨env, message⟩
      rcases handled : handleMessage crates state env message world with ⟨_ | _, next⟩
      · rw [streamProcessor_feed_cons_of_error handled] at ok
        cases ok
      · rw [streamProcessor_feed_cons_of_ok handled] at ok
        rcases ih ok with ⟨view, schemas⟩
        have learned := handleMessage_schemaOf crates state env message world
        rw [handled] at learned
        constructor
        · rw [view, learned, handleMessage_view_of_ok handled, feedRecords, feedRecords,
            feedPatches, Patch.apply_latest_cons]
        · rw [schemas, learned, learnAll, learnAll, List.foldl_cons]

end PushCache
