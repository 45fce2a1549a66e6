import PushCache.Consumer.Gauge
import PushCache.Log.Interleaving
import PushCache.Log.Redelivery

/-!
# Redelivery and interleaving

With in-memory stores and a fixed registry the final state depends on little of
the delivery order.  Rewinding a partition any number of times changes neither
the stores nor the schema cache, and partitions that share no key may be
interleaved in any way.
-/

namespace PushCache

open PushCache.Log
open PushCache.Transition

/-- Equal records in every store and equal schema caches. -/
def World.SameRecords (first second : World) : Prop :=
  first.contents = second.contents ∧ first.schemaCache = second.schemaCache

theorem World.schemaCache_eq_of_schemaOf_eq {first second : World}
    (same : first.schemaOf = second.schemaOf) :
    first.schemaCache = second.schemaCache :=
  Finmap.ext_lookup fun id => congrFun same id

/-! ## Redelivery -/

section Redelivery

variable {crates : Crates} {state : MyState} {env : Env}

/-- A reader that goes back in its log any number of times and then reads it to
the end leaves the records of reading it once. -/
theorem ingest_redelivered (inMemory : state.InMemory) {world : World}
    (agrees : world.Agrees (registry crates state env)) {log delivered : List Message}
    (redelivered : Delivered log log.length delivered) :
    (ingest crates state env world delivered).SameRecords
      (ingest crates state env world log) := by
  constructor
  · apply World.contents_eq_of_view_eq
    rw [ingest_view inMemory agrees, ingest_view inMemory agrees,
      redelivered.latest_map_eq]
  · apply World.schemaCache_eq_of_schemaOf_eq
    rw [ingest_schemaOf inMemory agrees, ingest_schemaOf inMemory agrees,
      redelivered.latest_map_eq]

/-- One rewind: a prefix of the log, then the log from an earlier position. -/
theorem delivered_take_append_drop {log : List Message} {i j : Nat} (ordered : i ≤ j)
    (bounded : j ≤ log.length) :
    Delivered log log.length (log.take j ++ log.drop i) := by
  have rewound : Delivered log i (log.take j) := (delivered_take bounded).rewind ordered
  have continued :=
    rewound.append_segment (Nat.le_trans ordered bounded) (Nat.le_refl log.length)
  rwa [List.take_length] at continued

end Redelivery

section Started

variable {crates : Crates} {order : RandomState} {boot : Boot} {config : MyConfig}
  {persisted : Cell → Records} {state : MyState} {world : World} {env : Env}

/-- Redelivery from an earlier offset, once or any number of times, leaves the
stores and the schema cache of processing the log once. -/
theorem streamProcessor_redelivered
    (allInMemory : ∀ definition ∈ config.cache.stores,
      definition.storeType = .inMemory)
    (started : MyState.new crates order boot config persisted = .ok (state, world))
    (fixed : env.http = boot.http) (log : List Message) :
    ∃ once, streamProcessor crates state (deliveries env log) world = (.ok (), once) ∧
      (∀ i j, i ≤ j → j ≤ log.length → ∃ middle again,
        streamProcessor crates state (deliveries env (log.take j)) world =
            (.ok (), middle) ∧
          streamProcessor crates state (deliveries env (log.drop i)) middle =
            (.ok (), again) ∧
          again.SameRecords once) ∧
      ∀ delivered, Delivered log log.length delivered → ∃ again,
        streamProcessor crates state (deliveries env delivered) world = (.ok (), again) ∧
          again.SameRecords once := by
  have inMemory := MyState.new_inMemory started allInMemory
  have agrees := MyState.new_agrees started fixed
  refine ⟨_, streamProcessor_deliveries inMemory world log, ?_, ?_⟩
  · intro i j ordered bounded
    refine ⟨_, _, streamProcessor_deliveries inMemory world _,
      streamProcessor_deliveries inMemory _ _, ?_⟩
    rw [← ingest_append]
    exact ingest_redelivered inMemory agrees (delivered_take_append_drop ordered bounded)
  · intro delivered redelivered
    exact ⟨_, streamProcessor_deliveries inMemory world delivered,
      ingest_redelivered inMemory agrees redelivered⟩

/-- A deleted key comes back during the replay and is gone at its end. -/
theorem streamProcessor_redelivered_sample :
    ∃ once, streamProcessor Sample.crates (Sample.state .inMemory)
        (deliveries Sample.env [Sample.record 1, Sample.tombstone])
        (Sample.world fun _ => ∅) = (.ok (), once) ∧
      ∃ middle again,
        streamProcessor Sample.crates (Sample.state .inMemory)
            (deliveries Sample.env [Sample.record 1, Sample.tombstone])
            (Sample.world fun _ => ∅) = (.ok (), middle) ∧
          streamProcessor Sample.crates (Sample.state .inMemory)
            (deliveries Sample.env [Sample.record 1, Sample.tombstone]) middle =
              (.ok (), again) ∧
          again.SameRecords once := by
  obtain ⟨once, ok, replayed, _⟩ :=
    streamProcessor_redelivered (by simp [Sample.config, Sample.customers])
      (Sample.started .inMemory fun _ => ∅)
      (show Sample.env.http = Sample.boot.http from rfl)
      [Sample.record 1, Sample.tombstone]
  exact ⟨once, ok, replayed 0 2 (by decide) (by decide)⟩

end Started

/-! ## Interleaving -/

section Interleaving

variable {crates : Crates} {state : MyState} {env : Env}

/-- In an in-memory service a message touches locations of its own key only. -/
theorem key_of_storePatch (inMemory : state.InMemory) {schemas : UInt32 → Option Schema}
    {message : Message} {location : Cell × String}
    (touched : storePatch crates state schemas message location ≠ none) :
    message.key.bind fromUtf8 = some location.2 := by
  rcases Option.ne_none_iff_exists'.mp touched with ⟨content, touched⟩
  cases content with
  | some value =>
      rcases storePatch_eq_some_some_iff.mp touched with ⟨cache, key, decided, rfl⟩
      rcases command_eq_insert_iff.mp decided with ⟨_, keyEq, _, _, _, _, _, _, _, found⟩
      rw [Cache.location_of_inMemory (inMemory cache (MyState.mem_caches_of_lookup found))]
      exact keyEq
  | none =>
      rcases storePatch_eq_some_none_iff.mp touched with ⟨key, decided, cache, member, rfl⟩
      rw [Cache.location_of_inMemory (inMemory cache member)]
      exact (command_eq_tombstone_iff.mp decided).2

/-- Two messages that touch one location carry the same key bytes. -/
theorem sameKey_of_storePatch (inMemory : state.InMemory)
    {schemas : UInt32 → Option Schema} {first second : Message} {location : Cell × String}
    (firstTouched : storePatch crates state schemas first location ≠ none)
    (secondTouched : storePatch crates state schemas second location ≠ none) :
    ∃ key, first.key = some key ∧ second.key = some key := by
  obtain ⟨firstKey, firstEq, firstDecoded⟩ :=
    Option.bind_eq_some_iff.mp (key_of_storePatch inMemory firstTouched)
  obtain ⟨secondKey, secondEq, secondDecoded⟩ :=
    Option.bind_eq_some_iff.mp (key_of_storePatch inMemory secondTouched)
  obtain rfl := fromUtf8_injective firstDecoded secondDecoded
  exact ⟨firstKey, firstEq, secondEq⟩

theorem Command.note_comm (first second : Command) (world : World) :
    second.note (first.note world) = first.note (second.note world) := by
  cases first <;> cases second <;> rfl

/-- The worlds after two orders of the same messages differ in their records
and their gauge at most. -/
theorem ingest_rest_of_perm (inMemory : state.InMemory) {world : World}
    (agrees : world.Agrees (registry crates state env)) {first second : List Message}
    (permutation : first.Perm second) :
    (ingest crates state env world first).rest =
      (ingest crates state env world second).rest := by
  have cached : (ingest crates state env world first).schemaCache =
      (ingest crates state env world second).schemaCache := by
    apply World.schemaCache_eq_of_schemaOf_eq
    rw [ingest_schemaOf inMemory agrees, ingest_schemaOf inMemory agrees]
    congr 1
    ext1 id
    apply Patch.latest_eq_of_perm_of_agree (permutation.map _)
    -- Every message that touches the entry of an id leaves the registry's answer there.
    have answer : ∀ patch ∈ first.map (schemaPatch crates (registry crates state env)),
        ∀ content, patch id = some content →
          some content = (registry crates state env id).map some := by
      intro patch member content touched
      rcases List.mem_map.mp member with ⟨message, _, rfl⟩
      simp only [schemaPatch] at touched
      split at touched
      · exact touched.symm
      · cases touched
    intro patch member other otherMem content otherContent touched otherTouched
    exact Option.some.inj ((answer patch member content touched).trans
      (answer other otherMem otherContent otherTouched).symm)
  have counted : (ingest crates state env world first).rest.2 =
      (ingest crates state env world second).rest.2 := by
    rw [ingest_rest inMemory agrees, ingest_rest inMemory agrees]
    have commutes : RightCommutative fun (world : World) (message : Message) =>
        (command crates state (registry crates state env) message).note world :=
      ⟨fun world _ _ => Command.note_comm _ _ world⟩
    rw [permutation.foldl_eq]
  exact Prod.ext cached counted

end Interleaving

/-- Worlds with the same records, an exact gauge and the same rest are equal. -/
theorem World.eq_of_gaugeExact {state : MyState} {first second : World}
    (contents : first.contents = second.contents) (rest : first.rest = second.rest)
    (firstGauged : state.GaugeExact first) (secondGauged : state.GaugeExact second) :
    first = second := by
  have sizes : first.metrics.cacheSize = second.metrics.cacheSize := by
    rw [firstGauged, secondGauged, MyState.population, MyState.population, contents]
  rcases first with ⟨firstContents, firstSchemas, ⟨_, _, _, _, _, _, _, _⟩, firstFlag⟩
  rcases second with ⟨secondContents, secondSchemas, ⟨_, _, _, _, _, _, _, _⟩, secondFlag⟩
  simp only [World.rest, Prod.mk.injEq, Metrics.mk.injEq] at rest contents sizes ⊢
  simp_all

section Started

variable {crates : Crates} {order : RandomState} {boot : Boot} {config : MyConfig}
  {persisted : Cell → Records} {state : MyState} {world : World} {env : Env}

/-- Partitions that share no key may be interleaved in any way: records, schema
cache, gauge and counters come out the same. -/
theorem streamProcessor_interleaved {ι : Type} [DecidableEq ι]
    (allInMemory : ∀ definition ∈ config.cache.stores,
      definition.storeType = .inMemory)
    (started : MyState.new crates order boot config persisted = .ok (state, world))
    (fixed : env.http = boot.http) {logs : ι → List Message}
    (separated : ∀ partition other, ∀ message ∈ logs partition, ∀ foreign ∈ logs other,
      ∀ key, message.key = some key → foreign.key = some key → partition = other)
    {first second : List (ι × Message)} (firstMerge : IsInterleaving logs first)
    (secondMerge : IsInterleaving logs second) :
    ∃ final,
      streamProcessor crates state (deliveries env (first.map Prod.snd)) world =
          (.ok (), final) ∧
        streamProcessor crates state (deliveries env (second.map Prod.snd)) world =
          (.ok (), final) := by
  have inMemory := MyState.new_inMemory started allInMemory
  have agrees := MyState.new_agrees started fixed
  have gauged := MyState.new_gaugeExact started inMemory
  have contents : (ingest crates state env world (first.map Prod.snd)).contents =
      (ingest crates state env world (second.map Prod.snd)).contents := by
    apply World.contents_eq_of_view_eq
    rw [ingest_view inMemory agrees, ingest_view inMemory agrees, List.map_map,
      List.map_map]
    congr 1
    ext1 location
    apply firstMerge.latest_eq secondMerge
    intro partition other message member foreign foreignMem touched foreignTouched
    obtain ⟨key, keyEq, foreignEq⟩ :=
      sameKey_of_storePatch inMemory touched foreignTouched
    exact separated partition other message member foreign foreignMem key keyEq foreignEq
  have rest := ingest_rest_of_perm inMemory agrees
    ((firstMerge.perm secondMerge).map Prod.snd)
  have same := World.eq_of_gaugeExact contents rest
    (ingest_gaugeExact inMemory gauged _) (ingest_gaugeExact inMemory gauged _)
  refine ⟨_, streamProcessor_deliveries inMemory world _, ?_⟩
  rw [same]
  exact streamProcessor_deliveries inMemory world _

/-- Two partitions, one with a record and its tombstone, one with a record of
another key, merged in two ways. -/
theorem streamProcessor_interleaved_sample :
    ∃ final,
      streamProcessor Sample.crates (Sample.state .inMemory)
          (deliveries Sample.env
            [Sample.record 1, Sample.tombstone, ⟨some [108], some (Sample.payload 2)⟩])
          (Sample.world fun _ => ∅) = (.ok (), final) ∧
        streamProcessor Sample.crates (Sample.state .inMemory)
          (deliveries Sample.env
            [Sample.record 1, ⟨some [108], some (Sample.payload 2)⟩, Sample.tombstone])
          (Sample.world fun _ => ∅) = (.ok (), final) := by
  let logs : Bool → List Message
    | false => [Sample.record 1, Sample.tombstone]
    | true => [⟨some [108], some (Sample.payload 2)⟩]
  have firstMerge : IsInterleaving logs
      [(false, Sample.record 1), (false, Sample.tombstone),
        (true, ⟨some [108], some (Sample.payload 2)⟩)] := by
    intro source
    cases source <;> rfl
  have secondMerge : IsInterleaving logs
      [(false, Sample.record 1), (true, ⟨some [108], some (Sample.payload 2)⟩),
        (false, Sample.tombstone)] := by
    intro source
    cases source <;> rfl
  exact streamProcessor_interleaved (by simp [Sample.config, Sample.customers])
    (Sample.started .inMemory fun _ => ∅)
    (show Sample.env.http = Sample.boot.http from rfl)
    (by intro partition other; cases partition <;> cases other <;>
          simp [logs, Sample.record, Sample.tombstone, Sample.key])
    firstMerge secondMerge

end Started

end PushCache
