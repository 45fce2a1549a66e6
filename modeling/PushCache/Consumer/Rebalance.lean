import PushCache.Consumer.Feed
import PushCache.Log.Interleaving
import PushCache.Startup

/-!
# Forced reset on rebalance

With `force_reset_earliest` the consumer reads every newly assigned partition
from its beginning.  The stores are left as they are, so the outcome is that of
a rebuild at every key the log still mentions, and the old content at every
other.
-/

namespace PushCache

open PushCache.Log
open PushCache.Transition

/-! ## The rebalance callback -/

structure TopicPartition where
  topic : String
  partition : Int32
  deriving DecidableEq

/-- `rdkafka::Offset`, as far as assignments use it: the beginning of a
partition, or none given, which means the committed offset of the group. -/
inductive Offset where
  | beginning
  | invalid
  deriving DecidableEq

/-- `TopicPartitionList`. -/
abbrev TopicPartitionList := List (TopicPartition × Offset)

/-- `Rebalance`. -/
inductive Rebalance where
  | assign (partitions : TopicPartitionList)
  | revoke (partitions : TopicPartitionList)
  | error (text : String)

/-- The calls of the callback on the client. -/
inductive ClientCall where
  | assign (partitions : TopicPartitionList)
  | unassign

/-- `ConsumerStatsContext::post_rebalance`: its call on the client.  The stores
and the schema cache are not among the things it reads or writes. -/
def postRebalance (config : MyKafkaConfig) : Rebalance → Option ClientCall
  | .assign partitions =>
      if config.forceResetEarliest then
        some (.assign (partitions.map fun element => (element.1, .beginning)))
      else
        some (.assign partitions)
  | .revoke _ => some .unassign
  | .error _ => none

/-- The position in a partition's retained log at which the client starts. -/
def Offset.position (committed : Nat) : Offset → Nat
  | .beginning => 0
  | .invalid => committed

/-- What the client hands over of a partition after a call. -/
def ClientCall.segment (call : ClientCall) (committed : TopicPartition → Nat)
    (retained : TopicPartition → List Message) (partition : TopicPartition) :
    List Message :=
  match call with
  | .assign partitions =>
      match partitions.lookup partition with
      | some offset => (retained partition).drop (offset.position (committed partition))
      | none => []
  | .unassign => []

/-- After a forced reset every assigned partition is handed over whole. -/
theorem postRebalance_segment {config : MyKafkaConfig}
    (forced : config.forceResetEarliest = true) {partitions : TopicPartitionList}
    {call : ClientCall} (called : postRebalance config (.assign partitions) = some call)
    (committed : TopicPartition → Nat) (retained : TopicPartition → List Message)
    {partition : TopicPartition} (assigned : ∃ offset, (partition, offset) ∈ partitions) :
    call.segment committed retained partition = retained partition := by
  simp only [postRebalance, forced, if_true, Option.some.injEq] at called
  subst call
  have found : (partitions.map fun element => (element.1, Offset.beginning)).lookup
      partition = some .beginning := by
    rcases assigned with ⟨offset, member⟩
    induction partitions with
    | nil => cases member
    | cons element partitions ih =>
        rw [List.map_cons, List.lookup_cons]
        by_cases here : partition = element.1
        · simp [here]
        · have later : (partition, offset) ∈ partitions := by
            rcases List.mem_cons.mp member with rfl | later
            · exact absurd rfl here
            · exact later
          rw [beq_false_of_ne here]
          exact ih later
  simp only [ClientCall.segment, found, Offset.position, List.drop_zero]

/-! ## Processing over old records -/

section Records

variable {crates : Crates} {state : MyState}

/-- The same service with nothing in its stores. -/
def World.emptied (world : World) : World :=
  { world with contents := fun _ => ∅ }

/-- Whether a write succeeds does not depend on the records. -/
theorem perform_outcome (env : Env) (write : StoreWrite) (first second : World) :
    (perform env write first).1 = (perform env write second).1 := by
  rw [perform_eq, perform_eq]
  cases write.fault env <;> rfl

/-- Whether a message is handled without an error depends on the known schemas
only. -/
theorem handleMessage_outcome (env : Env) (message : Message) {first second : World}
    (sameSchemas : first.schemaOf = second.schemaOf) :
    (handleMessage crates state env message first).1 =
      (handleMessage crates state env message second).1 := by
  rw [handleMessage_eq, handleMessage_eq, resolveMessage_schemaOf, resolveMessage_schemaOf,
    sameSchemas]
  exact (tryForEach_related (fun _ _ => True)
    (fun write first second _ => ⟨perform_outcome env write first second, trivial⟩)
    _ trivial).1

/-- A feed that is processed to its end over some records is so over any. -/
theorem streamProcessor_feed_ok_congr {feed : List (Env × Message)}
    {first second final : World} (sameSchemas : first.schemaOf = second.schemaOf)
    (ok : streamProcessor crates state (feedStream feed) first = (.ok (), final)) :
    ∃ other, streamProcessor crates state (feedStream feed) second = (.ok (), other) := by
  have simulates : ∀ (item : Env × Message) (first second : World),
      first.schemaOf = second.schemaOf →
        (processItem crates state (.ok item) first).1 =
            (processItem crates state (.ok item) second).1 ∧
          (processItem crates state (.ok item) first).2.schemaOf =
            (processItem crates state (.ok item) second).2.schemaOf := by
    intro item first second same
    constructor
    · exact handleMessage_outcome item.1 item.2 same
    · simp only [processItem, handleMessage_schemaOf, same]
  rw [streamProcessor, feedStream, tryForEach_map] at ok
  obtain ⟨outcome, _⟩ := tryForEach_related (fun first second : World =>
    first.schemaOf = second.schemaOf) simulates feed sameSchemas
  rw [ok] at outcome
  refine ⟨(streamProcessor crates state (feedStream feed) second).2, Prod.ext ?_ rfl⟩
  rw [streamProcessor, feedStream, tryForEach_map]
  exact outcome.symm

/-- Over any old records, a processed log leaves the outcome of a rebuild at the
locations its messages touch, and the old records elsewhere. -/
theorem streamProcessor_over_records {feed : List (Env × Message)} {world final : World}
    (completed : streamProcessor crates state (feedStream feed) world = (.ok (), final)) :
    ∃ rebuilt,
      streamProcessor crates state (feedStream feed) world.emptied = (.ok (), rebuilt) ∧
        ∀ location,
          (Patch.latest (feedPatches crates state world.schemaOf feed) location ≠ none →
            final.view location = rebuilt.view location) ∧
          (Patch.latest (feedPatches crates state world.schemaOf feed) location = none →
            final.view location = world.view location ∧
              rebuilt.view location = none) := by
  have sameSchemas : world.schemaOf = world.emptied.schemaOf := rfl
  rcases streamProcessor_feed_ok_congr sameSchemas completed with ⟨rebuilt, ok⟩
  refine ⟨rebuilt, ok, fun location => ?_⟩
  rw [(streamProcessor_feed_of_ok completed).1, (streamProcessor_feed_of_ok ok).1,
    ← sameSchemas, feedRecords, feedRecords]
  constructor
  · intro touched
    rcases Option.ne_none_iff_exists'.mp touched with ⟨content, decided⟩
    rw [Patch.apply_of_some decided, Patch.apply_of_some decided]
  · intro untouched
    rw [Patch.apply_of_none untouched, Patch.apply_of_none untouched]
    exact ⟨rfl, rfl⟩

/-- After a forced reset and a complete run over the retained logs, every
location a handled message touches holds what a rebuild from empty stores gives,
every other location still holds what it held, and the stores are those of a
rebuild exactly when the old records are all at touched locations. -/
theorem forcedReset_outcome (forced : state.config.kafka.forceResetEarliest = true)
    {partitions : TopicPartitionList} {call : ClientCall}
    (called : postRebalance state.config.kafka (.assign partitions) = some call)
    (committed : TopicPartition → Nat) (retained : TopicPartition → List Message)
    {merged : List (TopicPartition × Env × Message)}
    (delivered : IsInterleaving (call.segment committed retained)
      (merged.map fun item => (item.1, item.2.2)))
    {world final : World}
    (completed : streamProcessor crates state (feedStream (merged.map Prod.snd)) world =
      (.ok (), final)) :
    let touched := Patch.latest (feedPatches crates state world.schemaOf
      (merged.map Prod.snd))
    (∀ partition, (∃ offset, (partition, offset) ∈ partitions) →
      ((merged.filter fun item => item.1 = partition).map fun item => item.2.2) =
        retained partition) ∧
    ∃ rebuilt,
      streamProcessor crates state (feedStream (merged.map Prod.snd)) world.emptied =
          (.ok (), rebuilt) ∧
        (∀ location, touched location ≠ none →
          final.view location = rebuilt.view location) ∧
        (∀ location, touched location = none →
          final.view location = world.view location ∧ rebuilt.view location = none) ∧
        (final.contents = rebuilt.contents ↔
          ∀ location, world.view location ≠ none → touched location ≠ none) := by
  intro touched
  constructor
  · intro partition assigned
    rw [← postRebalance_segment forced called committed retained assigned,
      ← delivered partition, List.filter_map, List.map_map]
    rfl
  · rcases streamProcessor_over_records completed with ⟨rebuilt, ok, outcome⟩
    refine ⟨rebuilt, ok, fun location => (outcome location).1,
      fun location => (outcome location).2, ?_⟩
    constructor
    · intro same location held untouched
      rcases (outcome location).2 untouched with ⟨kept, absent⟩
      apply held
      rw [← kept, World.view, same]
      exact absent
    · intro covered
      apply World.contents_eq_of_view_eq
      ext1 location
      by_cases untouched : touched location = none
      · rcases (outcome location).2 untouched with ⟨kept, absent⟩
        rw [kept, absent]
        by_contra held
        exact covered location held untouched
      · exact (outcome location).1 untouched

end Records

/-! ## A deleted key in Redis -/

namespace Sample

/-- A record in Redis whose tombstone is no longer in the topic. -/
def leftover : Cell → Records :=
  fun _ => (∅ : Records).insert "gone" (payload 9)

def partition : TopicPartition := ⟨"customers", 0⟩

/-- The retained log has one record, of another key. -/
def retained (other : TopicPartition) : List Message :=
  if other = partition then [record 1] else []

end Sample

/-- The sample configuration forces the reset, and the old record stays. -/
theorem forcedReset_keeps_leftover :
    postRebalance (Sample.state Sample.redis).config.kafka
          (.assign [(Sample.partition, .invalid)]) =
        some (.assign [(Sample.partition, .beginning)]) ∧
      (streamProcessor Sample.crates (Sample.state Sample.redis)
          (feedStream [(Sample.env, Sample.record 1)])
          (Sample.world Sample.leftover)).2.contents ≠
        (streamProcessor Sample.crates (Sample.state Sample.redis)
          (feedStream [(Sample.env, Sample.record 1)])
          (Sample.world Sample.leftover).emptied).2.contents := by
  constructor
  · rfl
  · intro same
    have found := congrArg (fun contents =>
      Finmap.lookup "gone" (contents (Sample.cache Sample.redis).cell)) same
    revert found
    decide

/-- The key of the retained record comes out as after a rebuild. -/
theorem forcedReset_outcome_sample :
    ∃ final rebuilt,
      streamProcessor Sample.crates (Sample.state Sample.redis)
          (feedStream [(Sample.env, Sample.record 1)]) (Sample.world Sample.leftover) =
            (.ok (), final) ∧
        streamProcessor Sample.crates (Sample.state Sample.redis)
          (feedStream [(Sample.env, Sample.record 1)])
          (Sample.world Sample.leftover).emptied = (.ok (), rebuilt) ∧
        final.view ((Sample.cache Sample.redis).location "k") =
          rebuilt.view ((Sample.cache Sample.redis).location "k") := by
  have delivered : IsInterleaving
      (ClientCall.segment (.assign [(Sample.partition, .beginning)]) (fun _ => 0)
        Sample.retained)
      ([(Sample.partition, Sample.env, Sample.record 1)].map fun item =>
        (item.1, item.2.2)) := by
    intro other
    by_cases here : other = Sample.partition
    · subst other
      rfl
    · simp [ClientCall.segment, List.lookup_cons, beq_false_of_ne here, Ne.symm here]
  have called : postRebalance (Sample.state Sample.redis).config.kafka
      (.assign [(Sample.partition, .invalid)]) =
        some (.assign [(Sample.partition, .beginning)]) := rfl
  have completed : streamProcessor Sample.crates (Sample.state Sample.redis)
      (feedStream ([(Sample.partition, Sample.env, Sample.record 1)].map Prod.snd))
      (Sample.world Sample.leftover) =
        (.ok (), _) := rfl
  obtain ⟨_, rebuilt, ok, same, _⟩ :=
    forcedReset_outcome rfl called (fun _ => 0) Sample.retained delivered completed
  exact ⟨_, rebuilt, completed, ok, same _ (by decide)⟩

end PushCache
