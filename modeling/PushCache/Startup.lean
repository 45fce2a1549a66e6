import PushCache.Consumer.Ingestion

/-!
# What start-up establishes

A service that started has one store handle for every configured store name, a
routing map that sends each schema name to the last definition listing it, and
a schema cache that holds every preloaded id and agrees with the registry.
-/

namespace PushCache

/-- The last store definition, in configuration order, that lists a schema. -/
def lastListing (definitions : List StoreDefinition) (schema : String) :
    Option StoreDefinition :=
  (definitions.filter fun definition => definition.Lists schema).getLast?

theorem lastListing_cons (definition : StoreDefinition)
    (definitions : List StoreDefinition) (schema : String) :
    lastListing (definition :: definitions) schema =
      (lastListing definitions schema).or
        (if definition.Lists schema then some definition else none) := by
  by_cases listed : definition.Lists schema
  · simp only [lastListing, List.filter_cons, listed, decide_true, if_true,
      List.getLast?_cons, Option.or_some]
  · simp [lastListing, listed]

theorem mem_of_lastListing {definitions : List StoreDefinition} {schema : String}
    {definition : StoreDefinition}
    (last : lastListing definitions schema = some definition) :
    definition ∈ definitions :=
  (List.mem_filter.mp (List.mem_of_getLast? last)).1

/-! ## The routing map -/

theorem routeSchemas_lookup (definition : StoreDefinition)
    (routes : Finmap fun _ : String => String) (schema : String) :
    (routeSchemas definition routes).lookup schema =
      if definition.Lists schema then some definition.name else routes.lookup schema := by
  cases schemasEq : definition.schemas with
  | none =>
      have unlisted : ¬definition.Lists schema := by
        simp [StoreDefinition.Lists, schemasEq]
      rw [if_neg unlisted, routeSchemas, schemasEq]
  | some schemas =>
      have listed : definition.Lists schema ↔ schema ∈ schemas := by
        rw [StoreDefinition.Lists, schemasEq, Option.getD_some]
      simp only [routeSchemas, schemasEq, listed]
      clear schemasEq listed
      induction schemas generalizing routes with
      | nil => simp
      | cons first schemas ih =>
          rw [List.foldl_cons, ih]
          by_cases later : schema ∈ schemas
          · simp [later]
          · by_cases here : schema = first
            · subst first
              simp [later]
            · simp [later, here, Finmap.lookup_insert_of_ne]

/-- A schema is routed to the last definition that lists it. -/
theorem schemaRoutes_lookup (definitions : List StoreDefinition) (schema : String) :
    (schemaRoutes definitions).lookup schema =
      (lastListing definitions schema).map StoreDefinition.name := by
  have folded : ∀ routes : Finmap fun _ : String => String,
      (definitions.foldl (fun routes definition => routeSchemas definition routes)
          routes).lookup schema =
        ((lastListing definitions schema).map StoreDefinition.name).or
          (routes.lookup schema) := by
    induction definitions with
    | nil => exact fun routes => rfl
    | cons definition definitions ih =>
        intro routes
        rw [List.foldl_cons, ih, routeSchemas_lookup, lastListing_cons]
        cases lastListing definitions schema with
        | some last => rfl
        | none =>
            by_cases listed : definition.Lists schema <;> simp [listed]
  rw [schemaRoutes, folded, Finmap.lookup_empty, Option.or_none]

/-! ## The store map -/

theorem openCache_eq_ok {boot : Boot} {definition : StoreDefinition} {cache : Cache}
    (opened : openCache boot definition = .ok cache) :
    cache = ⟨definition.name, definition.storeType⟩ := by
  simp only [openCache] at opened
  split at opened
  · next inMemory =>
      cases opened
      rw [inMemory]
  · split at opened <;> cases opened
    rfl

/-- Every entry of the store map comes from a definition of its name. -/
theorem openStores_lookup {boot : Boot} {definitions : List StoreDefinition}
    {stores opened : Stores} (ok : openStores boot definitions stores = .ok opened)
    {name : String} {cache : Cache} (found : opened.lookup name = some cache) :
    stores.lookup name = some cache ∨
      ∃ definition ∈ definitions,
        definition.name = name ∧ cache = ⟨definition.name, definition.storeType⟩ := by
  induction definitions generalizing stores with
  | nil =>
      cases ok
      exact Or.inl found
  | cons definition definitions ih =>
      simp only [openStores] at ok
      split at ok
      · cases ok
      · next first firstOpened =>
          rcases ih ok with foundInserted | ⟨later, member, sameName, cacheEq⟩
          · by_cases here : name = definition.name
            · subst here
              rw [AList.lookup_insert] at foundInserted
              cases foundInserted
              exact Or.inr ⟨definition, List.mem_cons_self, rfl,
                openCache_eq_ok firstOpened⟩
            · rw [AList.lookup_insert_ne here] at foundInserted
              exact Or.inl foundInserted
          · exact Or.inr ⟨later, List.mem_cons_of_mem definition member, sameName, cacheEq⟩

/-- The store map has an entry for every definition. -/
theorem openStores_mem {boot : Boot} {definitions : List StoreDefinition}
    {stores opened : Stores} (ok : openStores boot definitions stores = .ok opened) :
    (∀ name ∈ stores, name ∈ opened) ∧
      ∀ definition ∈ definitions, definition.name ∈ opened := by
  induction definitions generalizing stores with
  | nil =>
      cases ok
      exact ⟨fun _ member => member, by simp⟩
  | cons definition definitions ih =>
      simp only [openStores] at ok
      split at ok
      · cases ok
      · rcases ih ok with ⟨kept, added⟩
        constructor
        · intro name member
          exact kept name ((AList.mem_insert _).mpr (Or.inr member))
        · intro other member
          rcases List.mem_cons.mp member with rfl | member
          · exact kept _ ((AList.mem_insert _).mpr (Or.inl rfl))
          · exact added other member

/-! ## The preloaded schema cache -/

/-- Preloading adds registry answers only, keeps what is there and ends with
every listed id. -/
theorem preload_eq_ok {crates : Crates} {http : Http} {registryUrl : String}
    {ids : List UInt32} {before after : SchemaCache}
    (ok : preload crates http registryUrl ids before = .ok after)
    (agree : ∀ id schema, before.lookup id = some schema →
      fetchSchemaById crates http registryUrl id = .ok schema) :
    (∀ id schema, after.lookup id = some schema →
      fetchSchemaById crates http registryUrl id = .ok schema) ∧
      (∀ id ∈ before, id ∈ after) ∧ ∀ id ∈ ids, id ∈ after := by
  induction ids generalizing before with
  | nil =>
      cases ok
      exact ⟨agree, fun _ member => member, by simp⟩
  | cons own ids ih =>
      simp only [preload] at ok
      split at ok
      · next schema fetched =>
          have inserted : ∀ id other,
              (before.insert own schema).lookup id = some other →
                fetchSchemaById crates http registryUrl id = .ok other := by
            intro id other found
            by_cases here : id = own
            · subst here
              rw [Finmap.lookup_insert] at found
              cases found
              exact fetched
            · rw [Finmap.lookup_insert_of_ne before here] at found
              exact agree id other found
          rcases ih ok inserted with ⟨agreeAfter, kept, added⟩
          refine ⟨agreeAfter,
            fun id member => kept id (Finmap.mem_insert.mpr (Or.inr member)), ?_⟩
          intro id member
          rcases List.mem_cons.mp member with rfl | member
          · exact kept id (Finmap.mem_insert.mpr (Or.inl rfl))
          · exact added id member
      · cases ok

/-- Preloading adds the listed ids and no others. -/
theorem preload_mem_iff {crates : Crates} {http : Http} {registryUrl : String}
    {ids : List UInt32} {before after : SchemaCache}
    (ok : preload crates http registryUrl ids before = .ok after) (id : UInt32) :
    id ∈ after ↔ id ∈ before ∨ id ∈ ids := by
  induction ids generalizing before with
  | nil =>
      cases ok
      simp
  | cons own ids ih =>
      simp only [preload] at ok
      split at ok
      · rw [ih ok, Finmap.mem_insert, List.mem_cons]
        tauto
      · cases ok

/-! ## The started service -/

section Started

variable {crates : Crates} {order : RandomState} {boot : Boot} {config : MyConfig}
  {persisted : Cell → Records} {state : MyState} {world : World}

/-- Everything a successful start says about the state and the world. -/
theorem MyState.new_eq_ok
    (started : MyState.new crates order boot config persisted = .ok (state, world)) :
    ∃ stores schemaCache,
      openStores boot config.cache.stores ∅ = .ok stores ∧
        preload crates boot.http config.kafka.schemaRegistryUrl.asStr
          (config.kafka.preloadSchemas.getD []) ∅ = .ok schemaCache ∧
        state = { config, stores := order.arrange stores, routes := config.cache.routes,
                  schemaToStore := schemaRoutes config.cache.stores } ∧
        world = { contents := freshContents persisted, schemaCache,
                  metrics := .zero, startupLagCleared := false } := by
  simp only [MyState.new] at started
  split at started
  · cases started
  · split at started
    · cases started
    · next stores opened =>
        split at started
        · cases started
        · next schemaCache preloaded =>
            cases started
            exact ⟨stores, schemaCache, opened, preloaded, rfl, rfl⟩

theorem RandomState.lookup_arrange (order : RandomState) (stores : Stores)
    (name : String) : (order.arrange stores).lookup name = stores.lookup name :=
  AList.perm_lookup (order.arrange_perm stores)

/-- A store handle carries the name it is found under, and the backend of a
definition of that name. -/
theorem MyState.new_stores_lookup
    (started : MyState.new crates order boot config persisted = .ok (state, world))
    {name : String} {cache : Cache} (found : state.stores.lookup name = some cache) :
    ∃ definition ∈ config.cache.stores,
      definition.name = name ∧ cache = ⟨definition.name, definition.storeType⟩ := by
  rcases MyState.new_eq_ok started with ⟨stores, _, opened, _, rfl, _⟩
  rw [order.lookup_arrange] at found
  rcases openStores_lookup opened found with impossible | fromDefinition
  · simp at impossible
  · exact fromDefinition

/-- Every configured store name has a handle. -/
theorem MyState.new_stores_mem
    (started : MyState.new crates order boot config persisted = .ok (state, world))
    {definition : StoreDefinition} (member : definition ∈ config.cache.stores) :
    ∃ cache, state.stores.lookup definition.name = some cache := by
  rcases MyState.new_eq_ok started with ⟨stores, _, opened, _, rfl, _⟩
  rw [order.lookup_arrange]
  exact Option.isSome_iff_exists.mp
    (AList.lookup_isSome.mpr ((openStores_mem opened).2 definition member))

/-- A routed schema name always leads to a store: the configured store of every
route exists. -/
theorem MyState.new_route_found
    (started : MyState.new crates order boot config persisted = .ok (state, world))
    {schema name : String} (routed : state.schemaToStore.lookup schema = some name) :
    ∃ cache, state.stores.lookup name = some cache := by
  have routes : state.schemaToStore = schemaRoutes config.cache.stores := by
    rcases MyState.new_eq_ok started with ⟨_, _, _, _, rfl, _⟩
    rfl
  rw [routes, schemaRoutes_lookup] at routed
  rcases Option.map_eq_some_iff.mp routed with ⟨definition, last, rfl⟩
  exact MyState.new_stores_mem started (mem_of_lastListing last)

/-- A configuration whose stores are all in memory gives in-memory handles. -/
theorem MyState.new_inMemory
    (started : MyState.new crates order boot config persisted = .ok (state, world))
    (allInMemory : ∀ definition ∈ config.cache.stores,
      definition.storeType = .inMemory) : state.InMemory := by
  intro cache member
  rcases List.mem_map.mp member with ⟨⟨name, other⟩, entry, rfl⟩
  obtain ⟨definition, configured, _, cacheEq⟩ :=
    MyState.new_stores_lookup started (AList.mem_lookup_iff.mpr entry)
  rw [cacheEq]
  exact allInMemory definition configured

/-- A new process knows the preloaded schemas and no others. -/
theorem MyState.new_mem_schemaCache_iff
    (started : MyState.new crates order boot config persisted = .ok (state, world))
    (id : UInt32) :
    id ∈ world.schemaCache ↔ id ∈ config.kafka.preloadSchemas.getD [] := by
  rcases MyState.new_eq_ok started with ⟨_, _, _, preloaded, _, rfl⟩
  rw [preload_mem_iff preloaded]
  exact or_iff_right Finmap.notMem_empty

/-- A new process finds the records of remote stores only. -/
theorem MyState.new_view_eq_some_iff
    (started : MyState.new crates order boot config persisted = .ok (state, world))
    {location : Cell × String} {value : Bytes} :
    world.view location = some value ↔
      (∃ backend, location.1 = .remote backend) ∧
        (persisted location.1).lookup location.2 = some value := by
  rcases MyState.new_eq_ok started with ⟨_, _, _, _, _, rfl⟩
  rcases location with ⟨cell, key⟩
  cases cell with
  | inMemory name => simp [World.view, freshContents]
  | remote backend => simp [World.view, freshContents]

/-- Nothing is stored where nothing was persisted. -/
theorem MyState.new_view_of_empty
    (started : MyState.new crates order boot config (fun _ => ∅) = .ok (state, world))
    (location : Cell × String) : world.view location = none := by
  cases stored : world.view location with
  | none => rfl
  | some value =>
      have persisted := ((MyState.new_view_eq_some_iff started).mp stored).2
      simp at persisted

/-- The schema cache of a started service agrees with a registry that keeps
giving the same answers. -/
theorem MyState.new_agrees
    (started : MyState.new crates order boot config persisted = .ok (state, world))
    {env : Env} (fixed : env.http = boot.http) :
    world.Agrees (registry crates state env) := by
  rcases MyState.new_eq_ok started with ⟨_, schemaCache, _, preloaded, rfl, rfl⟩
  intro id schema found
  rcases preload_eq_ok preloaded (by simp) with ⟨agree, _, _⟩
  rw [registry, fixed, agree id schema found]
  rfl

end Started

/-! ## A small deployment

One store `customers` for the schema `customer`, on a backend of choice, and a
registry that answers every id with that schema. -/

namespace Sample

def url : Url := ⟨"http://localhost:8081/", some "localhost", some 8081⟩

def kafka : MyKafkaConfig where
  brokers := url
  groupId := .explicit "push-cache"
  topic := "customers"
  schemaRegistryUrl := url
  cacheMaxAgeSecs := 60
  offsetReset := .earliest
  forceResetEarliest := true
  preloadSchemas := none

def customers (storeType : StoreType) : StoreDefinition :=
  ⟨"customers", storeType, some ["customer"]⟩

def route : RouteDefinition := ⟨"customers", none⟩

def config (storeType : StoreType) : MyConfig where
  kafka := kafka
  cache := ⟨[customers storeType], [route]⟩
  startupChecksEnabled := false

def redis : StoreType := .redis ⟨url, none⟩

def crates : Crates where
  AvroValue := Unit
  getBytesResult := confluentParser
  schemaResponse := fun body => .ok body
  parseStr := fun text => .ok (.record "customer" text)
  fromAvroDatum := fun _ _ => .ok ()
  fromValue := fun _ => .ok .null

def http : Http := fun _ => .ok ⟨⟨200, "200 OK"⟩, "customer"⟩

def order : RandomState := ⟨id, fun stores => List.Perm.refl stores.entries⟩

def boot : Boot := ⟨http, none, none, fun _ => none⟩

/-- The registry answers and no store call fails. -/
def env : Env := ⟨http, fun _ => none⟩

def cache (storeType : StoreType) : Cache := ⟨"customers", storeType⟩

def state (storeType : StoreType) : MyState where
  config := config storeType
  stores := (∅ : Stores).insert "customers" (cache storeType)
  routes := [route]
  schemaToStore := schemaRoutes [customers storeType]

/-- The world of the started service, over stores that may hold records. -/
def world (persisted : Cell → Records) : World where
  contents := freshContents persisted
  schemaCache := ∅
  metrics := .zero
  startupLagCleared := false

theorem started (storeType : StoreType) (persisted : Cell → Records) :
    MyState.new crates order boot (config storeType) persisted =
      .ok (state storeType, world persisted) := by
  cases storeType <;> rfl

/-- The key `k`. -/
def key : Bytes := [107]

/-- A payload of schema 7 with a one-byte body. -/
def payload (body : UInt8) : Bytes := [0, 0, 0, 0, 7, body]

/-- A record for the key. -/
def record (body : UInt8) : Message := ⟨some key, some (payload body)⟩

/-- A tombstone for the key. -/
def tombstone : Message := ⟨some key, none⟩

end Sample

end PushCache
