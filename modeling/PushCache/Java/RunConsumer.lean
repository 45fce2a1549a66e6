import Mathlib.Data.List.Nodup
import Mathlib.Logic.Function.Basic
import PushCache.Java.Tombstone
import PushCache.Log.Coverage
import PushCache.Transition.Core

/-!
# The consumer loop of the Java service

`runConsumer` polls the Kafka client, applies `processRecord` to the records of
each batch and checks the lag from time to time.  The transition system below
follows one process of a consumer group through polls, rebalances, exceptions,
stops and restarts, together with the broker: the topic, which grows, and the
offsets the group has committed.

Under `enable.auto.commit` the client commits the positions of its partitions
while it polls, and when try-with-resources closes it.  A poll is a sequence of
actions: commits and rebalances first, then the records it fetches one by one,
then the hand-over of the batch.
-/

namespace PushCache.Java

open PushCache.Log
open PushCache.Transition

/-! ## The broker -/

/-- A partition from its first offset on.  Offsets may be empty, where a record
has been compacted away. -/
structure Partition where
  beginning : Nat
  entries : List (Option Message)

namespace Partition

/-- The offset after the last entry. -/
def endOffset (partition : Partition) : Nat :=
  partition.beginning + partition.entries.length

/-- The record at an offset. -/
def record (partition : Partition) (offset : Nat) : Option Message :=
  if partition.beginning ≤ offset then
    (partition.entries[offset - partition.beginning]?).join
  else
    none

/-- A producer appends an entry. -/
def append (partition : Partition) (entry : Option Message) : Partition :=
  { partition with entries := partition.entries ++ [entry] }

/-- There is a record at an offset. -/
def Holds (partition : Partition) (offset : Nat) : Prop :=
  partition.record offset ≠ none

theorem not_holds_of_lt_beginning {partition : Partition} {offset : Nat}
    (before : offset < partition.beginning) : ¬partition.Holds offset := by
  intro holds
  exact holds (if_neg (Nat.not_le.mpr before))

theorem endOffset_append (partition : Partition) (entry : Option Message) :
    (partition.append entry).endOffset = partition.endOffset + 1 := by
  simp only [endOffset, append, List.length_append, List.length_singleton, Nat.add_assoc]

/-- Appending leaves the entries there are. -/
theorem record_append {partition : Partition} (entry : Option Message) {offset : Nat}
    (within : offset < partition.endOffset) :
    (partition.append entry).record offset = partition.record offset := by
  by_cases above : partition.beginning ≤ offset
  · have index : offset - partition.beginning < partition.entries.length := by
      simp only [endOffset] at within
      omega
    have appended : (partition.append entry).record offset =
        ((partition.entries ++ [entry])[offset - partition.beginning]?).join := if_pos above
    have own : partition.record offset =
        (partition.entries[offset - partition.beginning]?).join := if_pos above
    rw [appended, own, List.getElem?_append_left index]
  · exact (if_neg above).trans (if_neg above).symm

theorem holds_of_append {partition : Partition} {entry : Option Message} {offset : Nat}
    (within : offset < partition.endOffset) (holds : (partition.append entry).Holds offset) :
    partition.Holds offset := by
  rwa [Holds, record_append entry within] at holds

end Partition

/-- A producer appends an entry to a partition of the topic. -/
def appendTo {π : Type} [DecidableEq π] (topic : π → Partition) (partition : π)
    (entry : Option Message) : π → Partition :=
  Function.update topic partition ((topic partition).append entry)

section AppendTo

variable {π : Type} [DecidableEq π] (topic : π → Partition) (partition : π)
  (entry : Option Message) (other : π)

theorem endOffset_le_appendTo :
    (topic other).endOffset ≤ (appendTo topic partition entry other).endOffset := by
  by_cases here : other = partition
  · subst here
    rw [appendTo, Function.update_self, Partition.endOffset_append]
    exact Nat.le_succ _
  · rw [appendTo, Function.update_of_ne here]

theorem beginning_appendTo :
    (appendTo topic partition entry other).beginning = (topic other).beginning := by
  by_cases here : other = partition
  · subst here
    rw [appendTo, Function.update_self, Partition.append]
  · rw [appendTo, Function.update_of_ne here]

/-- No record appears below an offset that was within its partition. -/
theorem holds_of_appendTo {last : Nat} (within : last ≤ (topic other).endOffset) (offset : Nat)
    (below : offset < last) (holds : (appendTo topic partition entry other).Holds offset) :
    (topic other).Holds offset := by
  by_cases here : other = partition
  · subst here
    rw [appendTo, Function.update_self] at holds
    exact Partition.holds_of_append (Nat.lt_of_lt_of_le below within) holds
  · rwa [appendTo, Function.update_of_ne here] at holds

end AppendTo

/-- A committed offset the broker can serve. -/
def InRange (partition : Partition) (committed : Option Nat) : Prop :=
  ∃ offset, committed = some offset ∧ partition.beginning ≤ offset ∧
    offset ≤ partition.endOffset

/-- Where `auto.offset.reset` starts a partition. -/
def resetOffset (reset : KafkaOffsetReset) (partition : Partition) : Nat :=
  match reset with
  | .earliest => partition.beginning
  | .latest => partition.endOffset

/-- Where the client starts a partition by itself. -/
def fetchOffset (reset : KafkaOffsetReset) (partition : Partition) (committed : Option Nat) :
    Nat :=
  match committed with
  | some offset =>
      if partition.beginning ≤ offset ∧ offset ≤ partition.endOffset then offset
      else resetOffset reset partition
  | none => resetOffset reset partition

/-- Where a partition starts after `onPartitionsAssigned`. -/
def startOffset (service : KafkaConsumerService) (partition : Partition)
    (committed : Option Nat) : Nat :=
  if service.forceResetEarliest then partition.beginning
  else fetchOffset service.offsetReset partition committed

theorem fetchOffset_of_inRange {reset : KafkaOffsetReset} {partition : Partition}
    {offset : Nat} (lower : partition.beginning ≤ offset) (upper : offset ≤ partition.endOffset) :
    fetchOffset reset partition (some offset) = offset :=
  if_pos ⟨lower, upper⟩

theorem fetchOffset_of_not_inRange {reset : KafkaOffsetReset} {partition : Partition}
    {committed : Option Nat} (outOfRange : ¬InRange partition committed) :
    fetchOffset reset partition committed = resetOffset reset partition := by
  cases committed with
  | none => rfl
  | some offset => exact if_neg fun within => outOfRange ⟨offset, rfl, within⟩

theorem startOffset_le (service : KafkaConsumerService) (partition : Partition)
    (committed : Option Nat) : startOffset service partition committed ≤ partition.endOffset := by
  have beginning : partition.beginning ≤ partition.endOffset := Nat.le_add_right _ _
  have reset : resetOffset service.offsetReset partition ≤ partition.endOffset := by
    cases service.offsetReset with
    | earliest => exact beginning
    | latest => exact Nat.le_refl _
  simp only [startOffset, fetchOffset]
  split
  · exact beginning
  · split
    · split
      · next inRange => exact inRange.2
      · exact reset
    · exact reset

/-! ## The process -/

/-- A fetched record and where it stands. -/
structure Fetched (π : Type) where
  partition : π
  offset : Nat
  message : Message

/-- The partition and offset of a fetched record. -/
def Fetched.place {π : Type} (fetched : Fetched π) : π × Nat :=
  (fetched.partition, fetched.offset)

/-- Where `runConsumer` stands: at the test of its loop, in a poll, in a batch, or
past the loop. -/
inductive Phase (π : Type) where
  | looping
  | polling (fetched : List (Fetched π))
  | handling (records : List (Fetched π))
  | ended

/-- The fetched records that have not been handled. -/
def Phase.pending {π : Type} : Phase π → List (Fetched π)
  | .looping => []
  | .polling fetched => fetched
  | .handling records => records
  | .ended => []

/-- The broker and one process.  Of the last three fields nothing in the program
knows: from which offset on everything below the position of a partition has
been fetched by this process, the places of the records handed to
`processRecord` in this process, and those from which it has returned in any. -/
structure ConsumerState (π : Type) where
  topic : π → Partition
  committed : π → Option Nat
  world : World
  running : Bool
  phase : Phase π
  assignment : List π
  position : π → Nat
  origin : π → Option Nat
  handed : List (π × Nat)
  returned : List (π × Nat)

namespace ConsumerState

variable {π : Type} [DecidableEq π]

/-- The client commits its positions. -/
def commitPositions (state : ConsumerState π) : ConsumerState π :=
  { state with
    committed := fun partition =>
      if partition ∈ state.assignment then some (state.position partition)
      else state.committed partition }

/-- `consumer.close()`, at the end of try-with-resources. -/
def close (state : ConsumerState π) : ConsumerState π :=
  { state.commitPositions with
    phase := .ended
    assignment := [] }

/-- How far a partition is behind: `Math.max(0, end - position)`. -/
def lag (state : ConsumerState π) (partition : π) : Nat :=
  (state.topic partition).endOffset - state.position partition

/-- `totalLag` of `checkLag`, over the partitions with an end offset. -/
def totalLag (state : ConsumerState π) (endOffsets : List π) : Int64 :=
  state.assignment.foldl (fun total partition =>
    if partition ∈ endOffsets then total + Int64.ofNat (state.lag partition) else total) 0

/-- `setConsumerLag`. -/
def setConsumerLag (state : ConsumerState π) (total : Int64) : ConsumerState π :=
  { state with
    world := { state.world with
      metrics := { state.world.metrics with consumerLag := total } } }

/-- `setCleared(true)`. -/
def setCleared (state : ConsumerState π) : ConsumerState π :=
  { state with world := { state.world with cleared := true } }

/-- `checkLag`, given the partitions `endOffsets` answers for, unless it
throws. -/
def checkLag (state : ConsumerState π) (endOffsets : Option (List π)) : ConsumerState π :=
  if state.assignment.isEmpty then
    state
  else
    match endOffsets with
    -- "Failed to check consumer lag"
    | none => state
    | some answered =>
        let total := state.totalLag answered
        let state := state.setConsumerLag total
        if total = 0 ∧ state.world.cleared = false then state.setCleared else state

/-- A check leaves everything but the lag gauge and the flag. -/
theorem checkLag_eq (state : ConsumerState π) (endOffsets : Option (List π)) :
    ∃ world, state.checkLag endOffsets = { state with world } := by
  simp only [checkLag]
  repeat' split
  all_goals exact ⟨_, rfl⟩

/-- The client starts a partition. -/
def start (service : KafkaConsumerService) (state : ConsumerState π) (partition : π) : Nat :=
  startOffset service (state.topic partition) (state.committed partition)

/-- The origin of a partition that is started again: a start that passes over
nothing does not move it. -/
def restartedOrigin (service : KafkaConsumerService) (state : ConsumerState π)
    (partition : π) : Nat :=
  match state.origin partition with
  | some origin =>
      if origin ≤ state.start service partition ∧
          state.start service partition ≤ state.position partition then origin
      else state.start service partition
  | none => state.start service partition

/-- A rebalance: the listener seeks the new partitions to their beginning if it
is told to. -/
def rebalance (service : KafkaConsumerService) (state : ConsumerState π)
    (revoked assigned : List π) : ConsumerState π :=
  { state with
    assignment := state.assignment.filter (· ∉ revoked) ++ assigned
    position := fun partition =>
      if partition ∈ assigned then state.start service partition else state.position partition
    origin := fun partition =>
      if partition ∈ assigned then some (state.restartedOrigin service partition)
      else state.origin partition }

/-- The client fetches the next entry of a partition. -/
def advance (state : ConsumerState π) (partition : π) (fetched : List (Fetched π)) :
    ConsumerState π :=
  { state with
    position := Function.update state.position partition (state.position partition + 1)
    phase := .polling
      (match (state.topic partition).record (state.position partition) with
      | some message => fetched ++ [⟨partition, state.position partition, message⟩]
      | none => fetched) }

/-- The record at an offset has been fetched and not handled. -/
def Pending (state : ConsumerState π) (partition : π) (offset : Nat) : Prop :=
  (partition, offset) ∈ state.phase.pending.map Fetched.place

theorem Pending.advance {state : ConsumerState π} {fetched : List (Fetched π)}
    (polling : state.phase = .polling fetched) (partition : π) {other : π} {offset : Nat}
    (pending : state.Pending other offset) :
    (state.advance partition fetched).Pending other offset := by
  rw [Pending, polling] at pending
  simp only [Pending, ConsumerState.advance, Phase.pending]
  split
  · rw [List.map_append]
    exact List.mem_append_left _ pending
  · exact pending

/-- The record at the position is fetched. -/
theorem pending_advance (state : ConsumerState π) (fetched : List (Fetched π)) {partition : π}
    (holds : (state.topic partition).Holds (state.position partition)) :
    (state.advance partition fetched).Pending partition (state.position partition) := by
  simp only [Pending, advance, Phase.pending]
  split
  · rw [List.map_append]
    exact List.mem_append_right _ List.mem_cons_self
  · next empty => exact absurd empty holds

/-- An entry that has been fetched is done or pending. -/
theorem covered_advance {state : ConsumerState π} {fetched : List (Fetched π)}
    (polling : state.phase = .polling fetched) (partition : π) {other : π} {done : Nat → Prop}
    {first : Nat}
    (covered : Covered (state.topic other).Holds
      (fun offset => done offset ∨ state.Pending other offset) first (state.position other)) :
    Covered (state.topic other).Holds
      (fun offset => done offset ∨ (state.advance partition fetched).Pending other offset) first
      ((state.advance partition fetched).position other) := by
  have grown := covered.grow fun offset => Or.imp_right (Pending.advance polling partition)
  by_cases here : other = partition
  · subst here
    have extended := grown.succ fun holds => Or.inr (state.pending_advance fetched holds)
    simpa only [advance, Function.update_self] using extended
  · simpa only [advance, Function.update_of_ne here] using grown

theorem position_advance_le {state : ConsumerState π} (fetched : List (Fetched π))
    {partition other : π} (behind : state.position partition < (state.topic partition).endOffset)
    (within : state.position other ≤ (state.topic other).endOffset) :
    (state.advance partition fetched).position other ≤ (state.topic other).endOffset := by
  by_cases here : other = partition
  · subst here
    simp only [advance, Function.update_self]
    exact behind
  · simp only [advance, Function.update_of_ne here]
    exact within

/-- `processRecord` on the next record of the batch.  An exception leaves the
loop through `close` and the `catch` after it. -/
def process (libraries : Libraries) (service : KafkaConsumerService)
    (state : ConsumerState π) (env : Env) (record : Fetched π) (records : List (Fetched π)) :
    ConsumerState π :=
  match processRecord libraries service env (.ofMessage libraries record.message) state.world with
  | (.ok _, world) =>
      { state with
        world
        phase := .handling records
        handed := record.place :: state.handed
        returned := record.place :: state.returned }
  | (.error _, world) =>
      { state.close with
        world
        running := false
        handed := record.place :: state.handed }

/-- Another member of the group takes a partition from where it starts up to an
offset, and commits that. -/
def elsewhere (service : KafkaConsumerService) (state : ConsumerState π) (partition : π)
    (offset : Nat) : ConsumerState π :=
  { state with
    committed := Function.update state.committed partition (some offset)
    returned :=
      ((List.range offset).filter (state.start service partition ≤ ·)).map (partition, ·) ++
        state.returned }

/-- A new process, on the remote stores of the last one. -/
def restart (state : ConsumerState π) : ConsumerState π :=
  { state with
    world := .fresh state.world.contents
    running := true
    phase := .looping
    assignment := []
    origin := fun _ => none
    handed := [] }

end ConsumerState

/-! ## The transition system -/

/-- Everything that can happen. -/
inductive Action (π : Type) where
  | append (partition : π) (entry : Option Message)
  | elsewhere (partition : π) (offset : Nat)
  | loop
  | autoCommit
  | rebalance (revoked assigned : List π)
  | advance (partition : π)
  | deliver
  | pollThrows
  | process (env : Env)
  | skipLagCheck
  | checkLag (endOffsets : Option (List π))
  | stop
  | crash
  | restart

open ConsumerState in
/-- The transition system. -/
def runConsumer {π : Type} [DecidableEq π] (libraries : Libraries)
    (service : KafkaConsumerService) : Step (ConsumerState π) (Action π)
  | state, .append partition entry =>
      some { state with topic := appendTo state.topic partition entry }
  | state, .elsewhere partition offset =>
      if partition ∉ state.assignment ∧ state.start service partition ≤ offset ∧
          offset ≤ (state.topic partition).endOffset then
        some (state.elsewhere service partition offset)
      else
        none
  | state, .loop =>
      match state.phase with
      | .looping => if state.running then some { state with phase := .polling [] }
          else some state.close
      | _ => none
  | state, .autoCommit =>
      match state.phase with
      | .polling [] => some state.commitPositions
      | _ => none
  | state, .rebalance revoked assigned =>
      match state.phase with
      | .polling [] =>
          if (state.assignment.filter (· ∉ revoked) ++ assigned).Nodup then
            some (state.rebalance service revoked assigned)
          else
            none
      | _ => none
  | state, .advance partition =>
      match state.phase with
      | .polling fetched =>
          if partition ∈ state.assignment ∧
              state.position partition < (state.topic partition).endOffset then
            some (state.advance partition fetched)
          else
            none
      | _ => none
  | state, .deliver =>
      match state.phase with
      | .polling fetched => some { state with phase := .handling fetched }
      | _ => none
  | state, .pollThrows =>
      match state.phase with
      | .polling [] => some { state.close with running := false }
      | _ => none
  | state, .process env =>
      match state.phase with
      | .handling (record :: records) =>
          some (state.process libraries service env record records)
      | _ => none
  | state, .skipLagCheck =>
      match state.phase with
      | .handling [] => some { state with phase := .looping }
      | _ => none
  | state, .checkLag endOffsets =>
      match state.phase with
      | .handling [] => some { state.checkLag endOffsets with phase := .looping }
      | _ => none
  | state, .stop => some { state with running := false }
  | state, .crash =>
      match state.phase with
      | .ended => none
      | _ => some { state with running := false, phase := .ended, assignment := [] }
  | state, .restart =>
      match state.phase with
      | .ended => some state.restart
      | _ => none

/-! ## What a step can do -/

open ConsumerState in
/-- Every step, with the conditions under which it is taken. -/
inductive Moved {π : Type} [DecidableEq π] (libraries : Libraries)
    (service : KafkaConsumerService) (state : ConsumerState π) :
    Action π → ConsumerState π → Prop where
  | append (partition : π) (entry : Option Message) :
      Moved libraries service state (.append partition entry)
        { state with topic := appendTo state.topic partition entry }
  | elsewhere {partition : π} {offset : Nat} (free : partition ∉ state.assignment)
      (started : state.start service partition ≤ offset)
      (bounded : offset ≤ (state.topic partition).endOffset) :
      Moved libraries service state (.elsewhere partition offset)
        (state.elsewhere service partition offset)
  | poll (looping : state.phase = .looping) (running : state.running = true) :
      Moved libraries service state .loop { state with phase := .polling [] }
  | close (looping : state.phase = .looping) (stopped : state.running = false) :
      Moved libraries service state .loop state.close
  | autoCommit (polling : state.phase = .polling []) :
      Moved libraries service state .autoCommit state.commitPositions
  | rebalance {revoked assigned : List π} (polling : state.phase = .polling []) :
      Moved libraries service state (.rebalance revoked assigned)
        (state.rebalance service revoked assigned)
  | advance {partition : π} {fetched : List (Fetched π)} (polling : state.phase = .polling fetched)
      (assigned : partition ∈ state.assignment)
      (behind : state.position partition < (state.topic partition).endOffset) :
      Moved libraries service state (.advance partition) (state.advance partition fetched)
  | deliver {fetched : List (Fetched π)} (polling : state.phase = .polling fetched) :
      Moved libraries service state .deliver { state with phase := .handling fetched }
  | pollThrows (polling : state.phase = .polling []) :
      Moved libraries service state .pollThrows { state.close with running := false }
  | process (env : Env) {record : Fetched π} {records : List (Fetched π)}
      (handling : state.phase = .handling (record :: records)) :
      Moved libraries service state (.process env)
        (state.process libraries service env record records)
  | skipLagCheck (handled : state.phase = .handling []) :
      Moved libraries service state .skipLagCheck { state with phase := .looping }
  | checkLag (endOffsets : Option (List π)) (handled : state.phase = .handling []) :
      Moved libraries service state (.checkLag endOffsets)
        { state.checkLag endOffsets with phase := .looping }
  | stop : Moved libraries service state .stop { state with running := false }
  | crash : Moved libraries service state .crash
      { state with running := false, phase := .ended, assignment := [] }
  | restart : Moved libraries service state .restart state.restart

theorem moved_of_step {π : Type} [DecidableEq π] {libraries : Libraries}
    {service : KafkaConsumerService} {state next : ConsumerState π} {action : Action π}
    (stepped : runConsumer libraries service state action = some next) :
    Moved libraries service state action next := by
  cases action with
  | append partition entry =>
      cases stepped
      exact .append partition entry
  | elsewhere partition offset =>
      simp only [runConsumer] at stepped
      split at stepped <;> cases stepped
      next allowed => exact .elsewhere allowed.1 allowed.2.1 allowed.2.2
  | loop =>
      simp only [runConsumer] at stepped
      split at stepped
      · next looping =>
          split at stepped <;> cases stepped
          · next running => exact .poll looping running
          · next stopped => exact .close looping (Bool.eq_false_iff.mpr stopped)
      · cases stepped
  | autoCommit =>
      simp only [runConsumer] at stepped
      split at stepped <;> cases stepped
      next polling => exact .autoCommit polling
  | rebalance revoked assigned =>
      simp only [runConsumer] at stepped
      split at stepped
      · next polling =>
          split at stepped <;> cases stepped
          exact .rebalance polling
      · cases stepped
  | advance partition =>
      simp only [runConsumer] at stepped
      split at stepped
      · next fetched polling =>
          split at stepped <;> cases stepped
          next allowed => exact .advance polling allowed.1 allowed.2
      · cases stepped
  | deliver =>
      simp only [runConsumer] at stepped
      split at stepped <;> cases stepped
      next polling => exact .deliver polling
  | pollThrows =>
      simp only [runConsumer] at stepped
      split at stepped <;> cases stepped
      next polling => exact .pollThrows polling
  | process env =>
      simp only [runConsumer] at stepped
      split at stepped <;> cases stepped
      next handling => exact .process env handling
  | skipLagCheck =>
      simp only [runConsumer] at stepped
      split at stepped <;> cases stepped
      next handled => exact .skipLagCheck handled
  | checkLag endOffsets =>
      simp only [runConsumer] at stepped
      split at stepped <;> cases stepped
      next handled => exact .checkLag endOffsets handled
  | stop =>
      cases stepped
      exact .stop
  | crash =>
      simp only [runConsumer] at stepped
      split at stepped <;> cases stepped
      exact .crash
  | restart =>
      simp only [runConsumer] at stepped
      split at stepped <;> cases stepped
      exact .restart

end PushCache.Java
