import PushCache.Java.Flow
import PushCache.Transition.Core

/-!
# The two services on one log

Both services handle the same messages one after the other, each with its own
stores and schema cache.  Their stores stay equal exactly as long as the two
readings agree on every message: the two services decode malformed keys
differently, and give schemas that are not records different names.
-/

namespace PushCache

open PushCache.Log
open PushCache.Transition

/-- A Rust and a Java service with the outside worlds they see. -/
structure Services where
  crates : Crates
  state : MyState
  env : Env
  libraries : Java.Libraries
  service : Java.KafkaConsumerService
  javaEnv : Java.Env

namespace Services

/-- Both services handle a message; a failed handler would end its loop. -/
def step (services : Services) : Step (World × Java.World) Message :=
  fun worlds message =>
    match handleMessage services.crates services.state services.env message worlds.1,
        Java.processRecord services.libraries services.service services.javaEnv
          (.ofMessage services.libraries message) worlds.2 with
    | (.ok _, rust), (.ok _, java) => some (rust, java)
    | _, _ => none

/-- Both services run on one configuration of in-memory stores, with one
registry. -/
structure Paired (services : Services) (config : MyConfig)
    (schemas : UInt32 → Option Schema) : Prop where
  inMemory : ∀ definition ∈ config.cache.stores, definition.storeType = .inMemory
  framing : ConfluentFraming services.crates.getBytesResult
  registry_eq : registry services.crates services.state services.env = schemas
  opened : ∃ connect, Java.CacheFactory.new connect
    (config.cache.stores.map Java.inMemoryDefinition) = .ok services.service.cacheFactory
  serves : Java.Serves services.libraries services.javaEnv.restClient
    services.service.registryUrl schemas

/-- Both services are fresh: they have opened their stores and preloaded their
schemas. -/
structure Fresh (services : Services) (config : MyConfig) (worlds : World × Java.World) :
    Prop where
  rust : ∃ order boot persisted, services.env.http = boot.http ∧
    MyState.new services.crates order boot config persisted = .ok (services.state, worlds.1)
  java : ∃ persisted ids, Java.preloadSchemas services.libraries services.javaEnv.restClient
    services.service.registryUrl ids (Java.World.fresh persisted) = (.ok (), worlds.2)

/-- Every store has the same contents in both services. -/
def SameContents (config : MyConfig) (worlds : World × Java.World) : Prop :=
  ∀ definition ∈ config.cache.stores,
    worlds.1.contents (.inMemory definition.name) = worlds.2.contents (.inMemory definition.name)

/-- The services read a message alike, as far as it matters for the records
there are. -/
def Agree (services : Services) (config : MyConfig) (schemas : UInt32 → Option Schema)
    (worlds : World × Java.World) (message : Message) : Prop :=
  consumerReading.AgreesOn (Java.recordReading services.libraries) config.cache.stores schemas
    worlds.1.records message

variable {services : Services} {config : MyConfig} {schemas : UInt32 → Option Schema}
  {worlds : World × Java.World}

/-- Both schema caches hold the registry's answers, and there are no records
outside the stores. -/
structure Invariant (config : MyConfig) (schemas : UInt32 → Option Schema)
    (worlds : World × Java.World) : Prop where
  rustAgrees : worlds.1.Agrees schemas
  javaAgrees : worlds.2.Agrees schemas
  outside : ∀ place : Place, place.1 ∉ config.cache.stores.map StoreDefinition.name →
    worlds.1.records place = none ∧ worlds.2.records place = none

/-- Without records elsewhere, equal stores are equal records. -/
theorem Invariant.sameContents_iff (invariant : Invariant config schemas worlds) :
    SameContents config worlds ↔ worlds.1.records = worlds.2.records := by
  constructor
  · intro same
    funext place
    by_cases configured : place.1 ∈ config.cache.stores.map StoreDefinition.name
    · rcases List.mem_map.mp configured with ⟨definition, member, nameEq⟩
      have contents := same definition member
      rw [nameEq] at contents
      simp only [World.records, World.view, Java.World.records, Java.World.view, contents]
    · rcases invariant.outside place configured with ⟨rustNone, javaNone⟩
      rw [rustNone, javaNone]
  · intro same definition _
    exact Finmap.ext_lookup fun key => congrFun same (definition.name, key)

/-- Patches leave places outside the stores alone. -/
theorem patch_eq_none_of_outside (reading : Reading) (message : Message) {place : Place}
    (outside : place.1 ∉ config.cache.stores.map StoreDefinition.name) :
    reading.patch config.cache.stores schemas message place = none := by
  cases touched : reading.patch config.cache.stores schemas message place with
  | none => rfl
  | some content =>
      rcases content with _ | value
      · exact absurd (Reading.patch_eq_some_none_iff.mp touched).2.2 outside
      · rcases Reading.target_eq_some_iff.mp (Reading.patch_eq_some_some_iff.mp touched).2 with
          ⟨_, _, _, definition, _, _, last, nameEq, _⟩
        exact absurd (nameEq ▸ List.mem_map_of_mem (mem_of_lastListing last)) outside

/-- One message: both services complete it, each by the flow. -/
theorem Paired.step_spec (paired : services.Paired config schemas)
    {order : RandomState} {boot : Boot} {persisted : Cell → Records} {initial : World}
    (started : MyState.new services.crates order boot config persisted =
      .ok (services.state, initial))
    (invariant : Invariant config schemas worlds) (message : Message) :
    ∃ next, services.step worlds message = some next ∧ Invariant config schemas next ∧
      next.1.records = (consumerReading.patch config.cache.stores schemas message).apply
        worlds.1.records ∧
      next.2.records = ((Java.recordReading services.libraries).patch config.cache.stores schemas
        message).apply worlds.2.records := by
  have inMemory := MyState.new_inMemory started paired.inMemory
  have agrees : worlds.1.Agrees (registry services.crates services.state services.env) :=
    paired.registry_eq ▸ invariant.rustAgrees
  rcases paired.opened with ⟨connect, opened⟩
  rcases handleMessage_of_inMemory services.crates services.env inMemory message worlds.1 with
    ⟨rust, handled⟩
  rcases Java.processRecord_follows (Java.CacheFactory.new_openedFrom opened) paired.serves
    invariant.javaAgrees message with ⟨java, processed, javaRecords, javaAgrees⟩
  have rustRecords := handleMessage_records started inMemory paired.framing agrees message
  have rustAgrees := handleMessage_agrees inMemory agrees message
  rw [handled, paired.registry_eq] at rustRecords rustAgrees
  refine ⟨(rust, java), by simp only [step, handled, processed], ⟨rustAgrees, javaAgrees, ?_⟩,
    rustRecords, javaRecords⟩
  intro place outside
  rw [rustRecords, javaRecords, Patch.apply_of_none (patch_eq_none_of_outside _ message outside),
    Patch.apply_of_none (patch_eq_none_of_outside _ message outside)]
  exact invariant.outside place outside

/-- Fresh services have empty stores. -/
theorem Fresh.initially (fresh : services.Fresh config worlds)
    (paired : services.Paired config schemas) :
    Invariant config schemas worlds ∧ worlds.1.records = worlds.2.records := by
  rcases fresh.rust with ⟨order, boot, persisted, httpEq, started⟩
  rcases fresh.java with ⟨javaPersisted, ids, preloaded⟩
  have rustEmpty : worlds.1.records = fun _ => none := by
    funext place
    rcases MyState.new_eq_ok started with ⟨_, _, _, _, _, worldEq⟩
    rw [worldEq]
    exact Finmap.lookup_empty place.2
  have unknown : (Java.World.fresh javaPersisted).Agrees schemas := by
    intro id schema found
    cases found
  rcases Java.preloadSchemas_spec paired.serves unknown ids with ⟨viewEq, javaAgrees⟩
  rw [preloaded] at viewEq javaAgrees
  have javaEmpty : worlds.2.records = fun _ => none := by
    funext place
    rw [Java.World.records, viewEq]
    exact Finmap.lookup_empty place.2
  have rustAgrees := MyState.new_agrees started httpEq
  rw [paired.registry_eq] at rustAgrees
  refine ⟨⟨rustAgrees, javaAgrees, fun place _ => ⟨?_, ?_⟩⟩, rustEmpty.trans javaEmpty.symm⟩
  · rw [rustEmpty]
  · rw [javaEmpty]

/-- Neither service ever stops on in-memory stores. -/
theorem Paired.run_total (paired : services.Paired config schemas)
    {order : RandomState} {boot : Boot} {persisted : Cell → Records} {initial : World}
    (started : MyState.new services.crates order boot config persisted =
      .ok (services.state, initial))
    (invariant : Invariant config schemas worlds) (log : List Message) :
    ∃ final, run services.step worlds log = some final := by
  induction log generalizing worlds with
  | nil => exact ⟨worlds, rfl⟩
  | cons message log ih =>
      rcases paired.step_spec started invariant message with ⟨next, stepped, kept, _⟩
      rw [run_cons, stepped]
      exact ih kept

/-- On every log both services get through, and their stores have the same
contents after every message exactly when they read each message alike as far as
it matters for the records there are. -/
theorem sameContents_iff_agree (paired : services.Paired config schemas)
    (fresh : services.Fresh config worlds) (log : List Message) :
    (∃ final, run services.step worlds log = some final) ∧
      (Guarded services.step (services.Agree config schemas) worlds log ↔
        ∀ earlier later reached, log = earlier ++ later →
          run services.step worlds earlier = some reached → SameContents config reached) := by
  rcases fresh.rust with ⟨order, boot, persisted, _, started⟩
  rcases fresh.initially paired with ⟨initially, equal⟩
  rcases paired.run_total started initially log with ⟨final, ran⟩
  have exactGuard : ∀ ⦃source message target⦄,
      (Invariant config schemas source ∧ source.1.records = source.2.records) →
        services.step source message = some target →
          ((Invariant config schemas target ∧ target.1.records = target.2.records) ↔
            services.Agree config schemas source message) := by
    rintro source message target ⟨invariant, same⟩ stepped
    rcases paired.step_spec started invariant message with
      ⟨next, nextStep, kept, rustRecords, javaRecords⟩
    obtain rfl : target = next := Option.some.inj (stepped.symm.trans nextStep)
    rw [and_iff_right kept, rustRecords, javaRecords, ← same]
    exact Reading.patch_apply_eq_iff
  constructor
  · exact ⟨final, ran⟩
  rw [guarded_iff_forall_reached exactGuard ⟨initially, equal⟩ ran]
  constructor
  · intro everywhere earlier later reached split reachedBy
    rcases everywhere earlier later reached split reachedBy with ⟨invariant, same⟩
    exact invariant.sameContents_iff.mpr same
  · intro everywhere earlier later reached split reachedBy
    have invariant : Invariant config schemas reached := by
      have preserved : Preserved services.step (Invariant config schemas) := by
        intro source message target holds stepped
        rcases paired.step_spec started holds message with ⟨next, nextStep, kept, _⟩
        obtain rfl : target = next := Option.some.inj (stepped.symm.trans nextStep)
        exact kept
      exact preserved.of_run initially reachedBy
    exact ⟨invariant, invariant.sameContents_iff.mp (everywhere earlier later reached split
      reachedBy)⟩

/-- The services read every message alike whose key is well-formed text, if it
has one, and whose schema is a record, if it has one. -/
theorem agree_of_record
    (decodes : ∀ bytes text, fromUtf8 bytes = some text →
      services.libraries.deserializeString bytes = text)
    {message : Message} (wellFormed : ∀ bytes, message.key = some bytes →
      ∃ text, fromUtf8 bytes = some text)
    (onlyRecords : ∀ id schema, schemas id = some schema →
      ∃ name text, schema = .record name text) :
    services.Agree config schemas worlds message := by
  have keyEq : consumerReading.key message =
      (Java.recordReading services.libraries).key message := by
    simp only [Reading.key, consumerReading, Java.recordReading]
    cases keyed : message.key with
    | none => rfl
    | some bytes =>
        rcases wellFormed bytes keyed with ⟨text, decoded⟩
        simp only [Option.bind_some, decoded, decodes bytes text decoded]
  simp only [Agree, Reading.AgreesOn]
  cases message.payload with
  | none => exact fun _ _ => Or.inl keyEq
  | some payload =>
      left
      apply Reading.target_congr keyEq
      intro id schema resolved
      rcases onlyRecords id schema resolved with ⟨name, text, rfl⟩
      rfl

end Services

namespace Sample

/-- Both services, with a registry that answers every id with one schema. -/
def services (schema : Schema) : Services where
  crates := { crates with parseStr := fun _ => .ok schema }
  state := state .inMemory
  env := env
  libraries := libraries schema
  service := javaService .inMemory
  javaEnv := ⟨fun _ => .ok (some "schema"), fun _ => none⟩

theorem services_paired (schema : Schema) :
    (services schema).Paired (config .inMemory) fun _ => some schema where
  inMemory := fun _ member => List.mem_singleton.mp member ▸ rfl
  framing := confluentParser_framing
  registry_eq := rfl
  opened := ⟨fun _ => none, rfl⟩
  serves := fun _ => rfl

theorem services_fresh (schema : Schema) :
    (services schema).Fresh (config .inMemory)
      (world fun _ => ∅, Java.World.fresh fun _ => ∅) where
  rust := ⟨order, boot, fun _ => ∅, rfl, rfl⟩
  java := ⟨fun _ => ∅, [], rfl⟩

/-- A record under a well-formed key, and its tombstone. -/
theorem sameContents_iff_agree_of_record :
    ∃ final, run (services (.record "customer" "schema")).step
        (world fun _ => ∅, Java.World.fresh fun _ => ∅) [record 1, tombstone] = some final ∧
      Services.SameContents (config .inMemory) final := by
  rcases Services.sameContents_iff_agree (services_paired (.record "customer" "schema"))
    (services_fresh _) [record 1, tombstone] with ⟨⟨final, ran⟩, agreed⟩
  refine ⟨final, ran, agreed.mp ?_ _ [] final (List.append_nil _).symm ran⟩
  refine guarded_of_forall (fun message member worlds => Services.agree_of_record ?_ ?_ ?_) _
  · intro bytes text decoded
    simp only [services, libraries, decoded, Option.getD_some]
  · intro bytes keyed
    rcases List.mem_cons.mp member with rfl | last
    · exact ⟨"k", by cases keyed; rfl⟩
    · obtain rfl := List.mem_singleton.mp last
      exact ⟨"k", by cases keyed; rfl⟩
  · intro _ schema resolved
    exact ⟨"customer", "schema", (Option.some.inj resolved).symm⟩

/-- The Java service stores a value of an enumeration, the Rust service does
not. -/
theorem enum_separates_services :
    ¬∀ (services : Services) (config : MyConfig) (schemas : UInt32 → Option Schema)
        (worlds final : World × Java.World) (log : List Message),
      services.Paired config schemas → services.Fresh config worlds →
        run services.step worlds log = some final → Services.SameContents config final := by
  intro always
  have same := always (services (.enum "customer" "schema")) (config .inMemory) _ _ _ [record 1]
    (services_paired _) (services_fresh _) rfl (customers .inMemory) List.mem_cons_self
  have lookups := congrArg (Finmap.lookup "k") same
  have differ : (none : Option Bytes) ≠ some (payload 1) := by simp
  exact differ lookups

end Sample

end PushCache
