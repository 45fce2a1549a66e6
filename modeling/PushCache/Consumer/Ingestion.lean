import PushCache.Consumer.Feed

/-!
# Ingestion with a fixed registry

When the registry gives every schema id one fixed answer, the command of a
message depends on the message alone: a cached schema is the one a fetch would
return.  When all stores are in memory, no write fails.  Under both assumptions
the whole traversal of a log is the last-write-wins application of the messages'
patches, to the records and to the schema cache alike.
-/

namespace PushCache

open PushCache.Log
open PushCache.Transition

variable {crates : Crates} {state : MyState} {env : Env}

/-! ## The stores of a command -/

/-- All stores of the service are in memory. -/
def MyState.InMemory (state : MyState) : Prop :=
  ∀ cache ∈ state.caches, cache.storeType = .inMemory

theorem MyState.mem_caches_of_lookup {name : String} {cache : Cache}
    (found : state.stores.lookup name = some cache) : cache ∈ state.caches :=
  List.mem_map.mpr ⟨⟨name, cache⟩, AList.mem_lookup_iff.mp found, rfl⟩

/-- An inserting command inserts the message's payload under its key, into the
store its schema is routed to. -/
theorem command_eq_insert_iff {schemas : UInt32 → Option Schema} {message : Message}
    {cache : Cache} {key : String} {value : Bytes} :
    command crates state schemas message = .insert cache key value ↔
      message.payload = some value ∧ message.key.bind fromUtf8 = some key ∧
        ∃ id data schema name,
          crates.getBytesResult (some value) = .valid id data ∧
            schemas id = some schema ∧
            state.schemaToStore.lookup (fullName schema) = some name ∧
            state.stores.lookup name = some cache := by
  constructor
  · intro decided
    simp only [command] at decided
    split at decided
    · next payload payloadEq =>
        split at decided
        · next id data parsed =>
            split at decided
            · next schema schemaEq =>
                split at decided
                · next name routed =>
                    split at decided
                    · next store text found keyEq =>
                        cases decided
                        exact ⟨payloadEq, keyEq, id, data, schema, name, parsed, schemaEq,
                          routed, found⟩
                    · cases decided
                · cases decided
            · cases decided
        · cases decided
    · split at decided <;> cases decided
  · rintro ⟨payloadEq, keyEq, id, data, schema, name, parsed, schemaEq, routed, found⟩
    simp only [command, payloadEq, keyEq, parsed, schemaEq, routed, found]

/-- A tombstone command is a null payload under a UTF-8 key. -/
theorem command_eq_tombstone_iff {schemas : UInt32 → Option Schema} {message : Message}
    {key : String} :
    command crates state schemas message = .tombstone key ↔
      message.payload = none ∧ message.key.bind fromUtf8 = some key := by
  simp only [command]
  cases message.payload with
  | none =>
      cases message.key.bind fromUtf8 <;> simp
  | some payload =>
      simp only [reduceCtorEq, false_and, iff_false]
      repeat' split
      all_goals simp

/-- The handler only writes to stores of the service. -/
theorem cache_mem_of_mem_writes {schemas : UInt32 → Option Schema} {message : Message}
    {write : StoreWrite}
    (member : write ∈ (command crates state schemas message).writes state) :
    write.cache ∈ state.caches := by
  cases decided : command crates state schemas message with
  | insert cache key value =>
      rcases command_eq_insert_iff.mp decided with ⟨_, _, _, _, _, _, _, _, _, found⟩
      rw [decided, Command.writes, List.mem_singleton] at member
      subst member
      exact MyState.mem_caches_of_lookup found
  | tombstone key =>
      rw [decided, Command.writes, List.mem_map] at member
      rcases member with ⟨cache, cacheMem, rfl⟩
      exact cacheMem
  | unrouted => simp [decided, Command.writes] at member
  | skip => simp [decided, Command.writes] at member

/-! ## The patch of a message -/

/-- Removing a key from several stores empties exactly their locations of it. -/
theorem writesPatch_removes (caches : List Cache) (key : String)
    (location : Cell × String) :
    writesPatch (caches.map fun cache => .remove cache key) location =
      if ∃ cache ∈ caches, cache.location key = location then some none else none := by
  induction caches with
  | nil => simp [writesPatch]
  | cons cache caches ih =>
      rw [writesPatch] at ih ⊢
      rw [List.map_cons, List.map_cons, Patch.latest_cons, ih]
      simp only [StoreWrite.patch, StoreWrite.location, StoreWrite.content,
        List.mem_cons, exists_eq_or_imp]
      by_cases later : ∃ cache ∈ caches, cache.location key = location
      · simp [later]
      · by_cases here : cache.location key = location
        · simp [later, here]
        · simp [later, here, Ne.symm here]

/-- A message leaves a record exactly where its command inserts it. -/
theorem storePatch_eq_some_some_iff {schemas : UInt32 → Option Schema}
    {message : Message} {location : Cell × String} {value : Bytes} :
    storePatch crates state schemas message location = some (some value) ↔
      ∃ cache key, command crates state schemas message = .insert cache key value ∧
        cache.location key = location := by
  simp only [storePatch]
  cases command crates state schemas message with
  | insert cache own payload =>
      rw [Command.writes, writesPatch_singleton, StoreWrite.patch_eq_some_iff]
      constructor
      · rintro ⟨here, content⟩
        cases content
        exact ⟨cache, own, rfl, here⟩
      · rintro ⟨_, _, decided, here⟩
        cases decided
        exact ⟨here, rfl⟩
  | tombstone own =>
      simp only [Command.writes, writesPatch_removes]
      split <;> simp
  | unrouted => simp [Command.writes, writesPatch]
  | skip => simp [Command.writes, writesPatch]

/-- A message empties a location exactly when it is a tombstone for a key some
store of the service keeps there. -/
theorem storePatch_eq_some_none_iff {schemas : UInt32 → Option Schema}
    {message : Message} {location : Cell × String} :
    storePatch crates state schemas message location = some none ↔
      ∃ key, command crates state schemas message = .tombstone key ∧
        ∃ cache ∈ state.caches, cache.location key = location := by
  simp only [storePatch]
  cases command crates state schemas message with
  | insert cache own payload =>
      rw [Command.writes, writesPatch_singleton, StoreWrite.patch_eq_some_iff]
      simp [StoreWrite.content]
  | tombstone own =>
      simp only [Command.writes, writesPatch_removes, Command.tombstone.injEq]
      constructor
      · intro touched
        split at touched
        · next found => exact ⟨own, rfl, found⟩
        · cases touched
      · rintro ⟨_, rfl, found⟩
        rw [if_pos found]
  | unrouted => simp [Command.writes, writesPatch]
  | skip => simp [Command.writes, writesPatch]

/-! ## In-memory stores never fail -/

/-- A traversal of writes to in-memory stores does not fail. -/
theorem performAll_of_inMemory {writes : List StoreWrite}
    (inMemory : ∀ write ∈ writes, write.cache.storeType = .inMemory) (world : World) :
    ∃ next, tryForEach (perform env) writes world = (.ok (), next) :=
  ⟨_, tryForEach_eq_foldl
    (fun world write => (write.effect world).resize (write.growth world))
    (fun write member world => by
      rw [perform_eq, StoreWrite.fault, if_pos (inMemory write member)]) world⟩

theorem handleMessage_of_inMemory (crates : Crates) (env : Env)
    (inMemory : state.InMemory) (message : Message) (world : World) :
    ∃ next, handleMessage crates state env message world = (.ok (), next) := by
  rw [handleMessage_eq]
  exact performAll_of_inMemory
    (fun write member => inMemory write.cache (cache_mem_of_mem_writes member)) _

/-- The world after every message of a log has been handled. -/
def ingest (crates : Crates) (state : MyState) (env : Env) (world : World)
    (log : List Message) : World :=
  log.foldl (fun world message => (handleMessage crates state env message world).2) world

theorem ingest_cons (world : World) (message : Message) (log : List Message) :
    ingest crates state env world (message :: log) =
      ingest crates state env (handleMessage crates state env message world).2 log :=
  rfl

theorem ingest_append (world : World) (first second : List Message) :
    ingest crates state env world (first ++ second) =
      ingest crates state env (ingest crates state env world first) second :=
  List.foldl_append

/-- With in-memory stores the stream processor gets through every log. -/
theorem streamProcessor_deliveries (inMemory : state.InMemory) (world : World)
    (log : List Message) :
    streamProcessor crates state (deliveries env log) world =
      (.ok (), ingest crates state env world log) := by
  rw [streamProcessor, deliveries, tryForEach_map]
  refine tryForEach_eq_foldl _ (fun message _ world => ?_) world
  rcases handleMessage_of_inMemory crates env inMemory message world with ⟨next, ok⟩
  simp only [processItem, ok]

/-! ## Cached schemas are the registry's -/

/-- Every cached schema is the one `schemas` gives for its id. -/
def World.Agrees (world : World) (schemas : UInt32 → Option Schema) : Prop :=
  ∀ id schema, world.schemaOf id = some schema → schemas id = some schema

/-- What a message leaves in the schema cache. -/
def schemaPatch (crates : Crates) (schemas : UInt32 → Option Schema) (message : Message) :
    Patch UInt32 (Option Schema) :=
  fun id => if messageId crates message = some id then (schemas id).map some else none

theorem World.Agrees.or_eq {world : World} {schemas : UInt32 → Option Schema}
    (agrees : world.Agrees schemas) (id : UInt32) :
    (world.schemaOf id).or (schemas id) = schemas id := by
  cases cached : world.schemaOf id with
  | none => rfl
  | some schema => rw [agrees id schema cached, Option.some_or]

/-- With a fixed registry, what a message teaches is the registry's answer. -/
theorem learn_of_agrees {world : World} (agrees : world.Agrees (registry crates state env))
    (message : Message) :
    learn crates state (env, message) world.schemaOf =
      (schemaPatch crates (registry crates state env) message).apply world.schemaOf := by
  ext1 id
  simp only [learn, Patch.apply, schemaPatch, agrees.or_eq]
  by_cases own : messageId crates message = some id
  · rw [if_pos own, if_pos own]
    cases resolved : registry crates state env id with
    | some schema => rfl
    | none =>
        have missing := agrees.or_eq id
        rw [resolved, Option.or_none] at missing
        exact missing.symm
  · rw [if_neg own, if_neg own]
    rfl

/-- With a fixed registry, a message's decision depends on the message alone. -/
theorem command_learn {world : World} (agrees : world.Agrees (registry crates state env))
    (message : Message) :
    command crates state (learn crates state (env, message) world.schemaOf) message =
      command crates state (registry crates state env) message := by
  apply command_congr
  intro id own
  rw [learn, if_pos own, agrees.or_eq]

/-- Patching a cache with the registry's answers keeps the agreement. -/
theorem World.Agrees.of_patched {schemas : UInt32 → Option Schema}
    {message : Message} {world next : World} (agrees : world.Agrees schemas)
    (patched : next.schemaOf = (schemaPatch crates schemas message).apply world.schemaOf) :
    next.Agrees schemas := by
  intro id schema found
  rw [patched] at found
  simp only [Patch.apply, schemaPatch] at found
  split at found
  · cases answer : schemas id with
    | none =>
        rw [answer] at found
        have cached := agrees id schema found
        rwa [answer] at cached
    | some other =>
        rw [answer] at found
        exact found
  · exact agrees id schema found

/-! ## One message and whole logs -/

/-- One handled message, in-memory stores and a fixed registry: its patches on
the records and on the schema cache, and the counters of its command. -/
theorem handleMessage_fixed (inMemory : state.InMemory) {world : World}
    (agrees : world.Agrees (registry crates state env)) (message : Message) :
    let next := (handleMessage crates state env message world).2
    next.view =
        (storePatch crates state (registry crates state env) message).apply world.view ∧
      next.schemaOf =
        (schemaPatch crates (registry crates state env) message).apply world.schemaOf ∧
      next.rest.2 =
        ((command crates state (registry crates state env) message).note world).rest.2 := by
  intro next
  rcases handleMessage_of_inMemory crates env inMemory message world with ⟨after, ok⟩
  have nextEq : next = after := by simp only [next, ok]
  refine ⟨?_, ?_, ?_⟩
  · rw [nextEq, handleMessage_view_of_ok ok, storePatch, storePatch,
      command_learn agrees]
  · rw [handleMessage_schemaOf, learn_of_agrees agrees]
  · rw [handleMessage_rest, command_learn agrees]
    simp only [resolveMessage, cacheSchema]
    repeat' split
    all_goals cases command crates state (registry crates state env) message <;> rfl

/-- A handled message keeps the schema cache in agreement with the registry. -/
theorem handleMessage_agrees (inMemory : state.InMemory) {world : World}
    (agrees : world.Agrees (registry crates state env)) (message : Message) :
    (handleMessage crates state env message world).2.Agrees
      (registry crates state env) :=
  agrees.of_patched (handleMessage_fixed inMemory agrees message).2.1

/-- The records after a log are those of the last-write-wins log of its
messages' patches. -/
theorem ingest_view (inMemory : state.InMemory) {world : World}
    (agrees : world.Agrees (registry crates state env)) (log : List Message) :
    (ingest crates state env world log).view =
      (Patch.latest (log.map (storePatch crates state (registry crates state env)))).apply
        world.view := by
  induction log generalizing world with
  | nil => rfl
  | cons message log ih =>
      rw [ingest_cons, ih (handleMessage_agrees inMemory agrees message),
        (handleMessage_fixed inMemory agrees message).1, List.map_cons,
        Patch.apply_latest_cons]

/-- The schema cache after a log. -/
theorem ingest_schemaOf (inMemory : state.InMemory) {world : World}
    (agrees : world.Agrees (registry crates state env)) (log : List Message) :
    (ingest crates state env world log).schemaOf =
      (Patch.latest (log.map (schemaPatch crates (registry crates state env)))).apply
        world.schemaOf := by
  induction log generalizing world with
  | nil => rfl
  | cons message log ih =>
      rw [ingest_cons, ih (handleMessage_agrees inMemory agrees message),
        (handleMessage_fixed inMemory agrees message).2.1, List.map_cons,
        Patch.apply_latest_cons]

/-- Counters, readiness flag and lag gauge after a log: each message moves the
counters of its command. -/
theorem ingest_rest (inMemory : state.InMemory) {world : World}
    (agrees : world.Agrees (registry crates state env)) (log : List Message) :
    (ingest crates state env world log).rest.2 =
      (log.foldl (fun world message =>
        (command crates state (registry crates state env) message).note world)
        world).rest.2 := by
  have noted : ∀ (first second : World) (command : Command),
      first.rest.2 = second.rest.2 →
        (command.note first).rest.2 = (command.note second).rest.2 := by
    intro first second command same
    simp only [World.rest, Prod.mk.injEq, Metrics.mk.injEq] at same
    cases command <;> simp [World.rest, Command.note, World.countTombstone,
      World.countUnrouted, same]
  have folded : ∀ (log : List Message) (first second : World),
      first.rest.2 = second.rest.2 →
        (log.foldl (fun world message =>
          (command crates state (registry crates state env) message).note world)
          first).rest.2 =
        (log.foldl (fun world message =>
          (command crates state (registry crates state env) message).note world)
          second).rest.2 := by
    intro log
    induction log with
    | nil => exact fun _ _ same => same
    | cons message log ih => exact fun first second same => ih _ _ (noted _ _ _ same)
  induction log generalizing world with
  | nil => rfl
  | cons message log ih =>
      rw [ingest_cons, ih (handleMessage_agrees inMemory agrees message)]
      exact folded log _ _ (handleMessage_fixed inMemory agrees message).2.2

end PushCache
