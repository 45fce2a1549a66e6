import PushCache.Startup

/-!
# Routing by schema, as documented and as implemented

The documentation lets every store receive a record that lists its schema, and
lets a store without a `schemas` list receive every record.  The routing map
keeps one store for each listed schema, the last one, and none for a store
without a list.  The two agree on a message exactly when every store it is meant
for is the one the map names, or shares its place, or already holds the payload.
-/

namespace PushCache

/-- The handle a definition opens. -/
def StoreDefinition.cache (definition : StoreDefinition) : Cache :=
  ⟨definition.name, definition.storeType⟩

/-- "If omitted or empty, it stores all schemas." -/
def StoreDefinition.Accepts (definition : StoreDefinition) (schema : String) : Prop :=
  definition.schemas.getD [] = [] ∨ definition.Lists schema

instance (definition : StoreDefinition) (schema : String) :
    Decidable (definition.Accepts schema) :=
  inferInstanceAs (Decidable (_ ∨ _))

/-- The records the documentation asks for after a message: the payload in every
store that accepts its schema, and no other change. -/
def documentedView (definitions : List StoreDefinition) (schema key : String)
    (payload : Bytes) (records : Cell × String → Option Bytes) :
    Cell × String → Option Bytes :=
  fun location =>
    if ∃ definition ∈ definitions,
        definition.Accepts schema ∧ definition.cache.location key = location then
      some payload
    else
      records location

theorem StoreDefinition.accepts_of_lastListing {definitions : List StoreDefinition}
    {schema : String} {definition : StoreDefinition}
    (last : lastListing definitions schema = some definition) : definition.Accepts schema := by
  have listed := (List.mem_filter.mp (List.mem_of_getLast? last)).2
  exact Or.inr (of_decide_eq_true listed)

section Started

variable {crates : Crates} {order : RandomState} {boot : Boot} {config : MyConfig}
  {persisted : Cell → Records} {state : MyState} {initial : World}

/-- With distinct names, every definition's handle is the one it opened. -/
theorem MyState.new_lookup_of_definition
    (started : MyState.new crates order boot config persisted = .ok (state, initial))
    (distinct : (config.cache.stores.map StoreDefinition.name).Nodup)
    {definition : StoreDefinition} (member : definition ∈ config.cache.stores) :
    state.stores.lookup definition.name = some definition.cache := by
  rcases MyState.new_stores_mem started member with ⟨cache, found⟩
  rcases MyState.new_stores_lookup started found with ⟨other, otherMem, sameName, rfl⟩
  obtain rfl := List.inj_on_of_nodup_map distinct otherMem member sameName
  exact found

/-- A record is inserted into the last store that lists its schema. -/
theorem command_of_record
    (started : MyState.new crates order boot config persisted = .ok (state, initial))
    (distinct : (config.cache.stores.map StoreDefinition.name).Nodup)
    {schemas : UInt32 → Option Schema} {message : Message} {payload data : Bytes} {id : UInt32}
    {key name text : String} (payloadEq : message.payload = some payload)
    (parsed : crates.getBytesResult (some payload) = .valid id data)
    (keyEq : message.key.bind fromUtf8 = some key)
    (resolved : schemas id = some (.record name text)) :
    command crates state schemas message =
      match lastListing config.cache.stores name with
      | some last => .insert last.cache key payload
      | none => .unrouted := by
  have routes : state.schemaToStore = schemaRoutes config.cache.stores := by
    rcases MyState.new_eq_ok started with ⟨_, _, _, _, rfl, _⟩
    rfl
  simp only [command, payloadEq, parsed, resolved, fullName, routes, schemaRoutes_lookup]
  cases last : lastListing config.cache.stores name with
  | none => rfl
  | some definition =>
      simp only [Option.map_some, keyEq,
        MyState.new_lookup_of_definition started distinct (mem_of_lastListing last)]

/-- Where a handled record is afterwards. -/
theorem handleMessage_view_of_record
    (started : MyState.new crates order boot config persisted = .ok (state, initial))
    (distinct : (config.cache.stores.map StoreDefinition.name).Nodup)
    {env : Env} {world : World} {message : Message} {payload data : Bytes} {id : UInt32}
    {key name text : String} (payloadEq : message.payload = some payload)
    (parsed : crates.getBytesResult (some payload) = .valid id data)
    (keyEq : message.key.bind fromUtf8 = some key)
    (resolved : (resolveMessage crates state env message world).schemaOf id =
      some (.record name text)) (location : Cell × String) :
    (handleMessage crates state env message world).2.view location =
      if ∃ last, lastListing config.cache.stores name = some last ∧
          (StoreWrite.insert last.cache key payload).fault env = none ∧
          last.cache.location key = location then
        some payload
      else
        world.view location := by
  rw [handleMessage_eq, command_of_record started distinct payloadEq parsed keyEq resolved]
  have before : ∀ decided : Command,
      (decided.note (resolveMessage crates state env message world)).view = world.view := by
    intro decided
    rw [Command.view_note, resolveMessage_view]
  cases last : lastListing config.cache.stores name with
  | none =>
      rw [if_neg (by simp)]
      exact congrFun (before .unrouted) location
  | some definition =>
      simp only [Command.writes, Transition.tryForEach_singleton, perform_eq,
        Option.some.injEq, exists_eq_left']
      cases (StoreWrite.insert definition.cache key payload).fault env with
      | some error =>
          rw [if_neg (by simp)]
          exact congrFun (before _) location
      | none =>
          simp only [World.view_resize, StoreWrite.view_effect, StoreWrite.patch_apply, before]
          by_cases here : location = (StoreWrite.insert definition.cache key payload).location
          · rw [if_pos here, if_pos ⟨trivial, here.symm⟩]
            rfl
          · rw [if_neg here, if_neg fun written => here written.2.symm]

/-- A record is handled as documented exactly when every store that accepts its
schema shares its place with the last store that lists the schema, whose
insertion succeeds, or already holds the payload. -/
theorem routing_documented_iff
    (started : MyState.new crates order boot config persisted = .ok (state, initial))
    (distinct : (config.cache.stores.map StoreDefinition.name).Nodup)
    {env : Env} {world : World} {message : Message} {payload data : Bytes} {id : UInt32}
    {key name text : String} (payloadEq : message.payload = some payload)
    (parsed : crates.getBytesResult (some payload) = .valid id data)
    (keyEq : message.key.bind fromUtf8 = some key)
    (resolved : (resolveMessage crates state env message world).schemaOf id =
      some (.record name text)) :
    (handleMessage crates state env message world).2.view =
        documentedView config.cache.stores name key payload world.view ↔
      ∀ definition ∈ config.cache.stores, definition.Accepts name →
        (∃ last, lastListing config.cache.stores name = some last ∧
          (StoreWrite.insert last.cache key payload).fault env = none ∧
          last.cache.location key = definition.cache.location key) ∨
        world.view (definition.cache.location key) = some payload := by
  have handled := handleMessage_view_of_record started distinct payloadEq parsed keyEq resolved
  have meant : ∀ definition ∈ config.cache.stores, definition.Accepts name →
      documentedView config.cache.stores name key payload world.view
        (definition.cache.location key) = some payload :=
    fun definition member accepts => if_pos ⟨definition, member, accepts, rfl⟩
  constructor
  · intro documented definition member accepts
    have here := congrFun documented (definition.cache.location key)
    rw [meant definition member accepts, handled] at here
    split at here
    · next written => exact Or.inl written
    · exact Or.inr here
  · intro received
    funext location
    by_cases accepted : ∃ definition ∈ config.cache.stores,
        definition.Accepts name ∧ definition.cache.location key = location
    · rcases accepted with ⟨definition, member, accepts, rfl⟩
      rw [handled, meant definition member accepts]
      rcases received definition member accepts with written | already
      · rw [if_pos written]
      · rw [already, ite_self]
    · rw [handled, if_neg, documentedView, if_neg accepted]
      rintro ⟨last, listing, _, here⟩
      exact accepted ⟨last, mem_of_lastListing listing,
        StoreDefinition.accepts_of_lastListing listing, here⟩

end Started

namespace Sample

/-- The deployment of the documentation's example: a store with an empty list. -/
def unfiltered : MyConfig :=
  { config .inMemory with cache := ⟨[⟨"mem", .inMemory, some []⟩], []⟩ }

/-- The store that should receive everything receives nothing. -/
theorem unfiltered_store_stays_empty :
    ∃ state world, MyState.new crates order boot unfiltered (fun _ => ∅) = .ok (state, world) ∧
      (handleMessage crates state env (record 1) world).2.view (.inMemory "mem", "k") = none ∧
      documentedView unfiltered.cache.stores "customer" "k" (payload 1) world.view
        (.inMemory "mem", "k") = some (payload 1) :=
  ⟨_, _, rfl, rfl, rfl⟩

/-- A store that lists the record's schema receives it. -/
theorem routing_documented_of_listed :
    (handleMessage crates (state .inMemory) env (record 1) (world fun _ => ∅)).2.view =
      documentedView (config .inMemory).cache.stores "customer" "k" (payload 1)
        (world fun _ => ∅).view := by
  have distinct : ((config .inMemory).cache.stores.map StoreDefinition.name).Nodup :=
    List.nodup_singleton _
  have keyEq : (record 1).key.bind fromUtf8 = some "k" := rfl
  have payloadEq : (record 1).payload = some (payload 1) := rfl
  have parsed : crates.getBytesResult (some (payload 1)) = .valid 7 [1] := rfl
  have resolved : (resolveMessage crates (state .inMemory) env (record 1)
      (world fun _ => ∅)).schemaOf 7 = some (.record "customer" "customer") := rfl
  refine (routing_documented_iff (started .inMemory fun _ => ∅) distinct payloadEq parsed keyEq
    resolved).mpr fun definition member _ => ?_
  obtain rfl := List.mem_singleton.mp member
  exact Or.inl ⟨customers .inMemory, rfl, rfl, rfl⟩

end Sample

end PushCache
