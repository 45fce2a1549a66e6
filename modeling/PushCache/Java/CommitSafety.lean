import PushCache.Java.RunConsumer

/-!
# What a committed offset promises

As long as `processRecord` returns, the client commits positions below which
everything has been handled: it commits between batches only.  An exception of
`processRecord` leaves the loop in the middle of a batch, and try-with-resources
closes the client, which then commits the position after the whole batch.  The
only exception that leaves `processRecord` is that of a failing removal.
-/

namespace PushCache.Java

open PushCache.Log
open PushCache.Transition

variable {π : Type} [DecidableEq π] {libraries : Libraries} {service : KafkaConsumerService}

/-! ## Records that do not end the loop -/

/-- A record other than a tombstone with a key that some store fails to
remove. -/
def Survives (service : KafkaConsumerService) (env : Env) (record : ConsumerRecord) : Prop :=
  record.value = none → ∀ key, record.key = some key →
    ∀ cache ∈ service.cacheFactory.getAllStores, removeFault env.faults key cache = none

/-- `processRecord` returns exactly from these. -/
theorem processRecord_ok_iff (env : Env) (record : ConsumerRecord) (world : World) :
    (∃ next, processRecord libraries service env record world = (.ok (), next)) ↔
      Survives service env record := by
  rcases record with ⟨key, value⟩
  cases value with
  | some value =>
      constructor
      · intro _ tombstone
        cases tombstone
      · intro _
        simp only [processRecord]
        repeat' split
        all_goals exact ⟨_, rfl⟩
  | none =>
      cases key with
      | none =>
          constructor
          · intro _ _ key keyed
            cases keyed
          · intro _
            exact ⟨world, rfl⟩
      | some key =>
          have removed : (∃ next, tryForEach (removeFrom env.faults key)
              service.cacheFactory.getAllStores world = (.ok (), next)) ↔
                ∀ cache ∈ service.cacheFactory.getAllStores,
                  removeThrows env.faults key cache = false :=
            (removeFrom_empties env.faults key).tryForEach_ok_iff
          constructor
          · rintro ⟨next, ok⟩ _ other keyed cache member
            cases keyed
            simp only [processRecord] at ok
            split at ok <;> cases ok
            next after completed =>
              exact removeThrows_eq_false_iff.mp (removed.mp ⟨after, completed⟩ cache member)
          · intro survives
            rcases removed.mpr fun cache member =>
              removeThrows_eq_false_iff.mpr (survives rfl key rfl cache member) with
              ⟨next, completed⟩
            exact ⟨next.incrementTombstonesProcessed, by simp only [processRecord, completed]⟩

/-! ## Committed offsets -/

/-- Every committed offset lies within its partition, and `processRecord` has
returned from every record below it. -/
structure ConsumerState.CommitSafe (state : ConsumerState π) : Prop where
  within : ∀ partition committed, state.committed partition = some committed →
    committed ≤ (state.topic partition).endOffset
  returned : ∀ partition committed, state.committed partition = some committed →
    Covered (state.topic partition).Holds (fun offset => (partition, offset) ∈ state.returned)
      0 committed

/-- The record at an offset has been returned from or is pending. -/
def ConsumerState.Settled (state : ConsumerState π) (partition : π) (offset : Nat) : Prop :=
  (partition, offset) ∈ state.returned ∨ state.Pending partition offset

/-- Below the position of an assigned partition every record is settled. -/
structure Safe (state : ConsumerState π) : Prop where
  commitSafe : state.CommitSafe
  position_le : ∀ partition ∈ state.assignment,
    state.position partition ≤ (state.topic partition).endOffset
  settled : ∀ partition ∈ state.assignment,
    Covered (state.topic partition).Holds (state.Settled partition) 0 (state.position partition)

/-- The client does not start the partition past records nobody has handled, as
it would with `latest` where the group has no offset to start from. -/
def NothingSkipped (service : KafkaConsumerService) (state : ConsumerState π) (partition : π) :
    Prop :=
  service.forceResetEarliest = false → service.offsetReset = .latest →
    ¬InRange (state.topic partition) (state.committed partition) →
    ∀ offset, (state.topic partition).Holds offset → (partition, offset) ∈ state.returned

/-- No record ends the loop, and no start of a partition skips records. -/
def Healthy (libraries : Libraries) (service : KafkaConsumerService) (state : ConsumerState π) :
    Action π → Prop
  | .process env => ∀ record records, state.phase = .handling (record :: records) →
      Survives service env (.ofMessage libraries record.message)
  | .rebalance _ assigned => ∀ partition ∈ assigned, NothingSkipped service state partition
  | .elsewhere partition _ => NothingSkipped service state partition
  | _ => True

variable {state next : ConsumerState π}

omit [DecidableEq π] in
/-- Below the start of a partition every record has been returned from. -/
theorem ConsumerState.CommitSafe.start (safe : state.CommitSafe) {partition : π}
    (nothingSkipped : NothingSkipped service state partition) :
    Covered (state.topic partition).Holds (fun offset => (partition, offset) ∈ state.returned)
      0 (state.start service partition) := by
  have beginning : Covered (state.topic partition).Holds
      (fun offset => (partition, offset) ∈ state.returned) 0 (state.topic partition).beginning :=
    fun offset _ below holds => absurd holds (Partition.not_holds_of_lt_beginning below)
  rw [ConsumerState.start, startOffset]
  by_cases force : service.forceResetEarliest = true
  · rw [if_pos force]
    exact beginning
  · rw [if_neg force]
    by_cases inRange : InRange (state.topic partition) (state.committed partition)
    · rcases inRange with ⟨offset, committed, lower, upper⟩
      rw [committed, fetchOffset_of_inRange lower upper]
      exact safe.returned partition offset committed
    · rw [fetchOffset_of_not_inRange inRange]
      cases reset : service.offsetReset with
      | earliest => exact beginning
      | latest =>
          have all := nothingSkipped (Bool.eq_false_iff.mpr force) reset inRange
          exact fun offset _ _ holds => all offset holds

/-! ## Steps -/

omit [DecidableEq π] in
/-- A step that leaves the client alone keeps the invariant, if nothing settled
is lost. -/
theorem Safe.of_same (safe : Safe state) (topic : next.topic = state.topic)
    (committed : next.committed = state.committed) (position : next.position = state.position)
    (assignment : ∀ partition ∈ next.assignment, partition ∈ state.assignment)
    (returned : ∀ place ∈ state.returned, place ∈ next.returned)
    (settled : ∀ partition ∈ next.assignment, ∀ offset, state.Settled partition offset →
      next.Settled partition offset) : Safe next := by
  refine ⟨⟨?_, fun partition => ?_⟩, fun partition member => ?_, fun partition member => ?_⟩
  · rw [topic, committed]
    exact safe.commitSafe.within
  · rw [topic, committed]
    intro offset committedEq
    exact (safe.commitSafe.returned partition offset committedEq).grow fun _ => returned _
  · rw [topic, position]
    exact safe.position_le partition (assignment partition member)
  · rw [topic, position]
    exact (safe.settled partition (assignment partition member)).grow
      (settled partition member)

omit [DecidableEq π] in
/-- The process loses its partitions, and with them whatever is pending. -/
theorem Safe.unassigned (safe : Safe state) {phase : Phase π} :
    Safe { state with phase, assignment := [] } := by
  refine safe.of_same rfl rfl rfl ?_ (fun _ => id) ?_
  · exact fun _ member => absurd member List.not_mem_nil
  · exact fun _ member => absurd member List.not_mem_nil

theorem Safe.append (safe : Safe state) (partition : π) (entry : Option Message) :
    Safe { state with topic := appendTo state.topic partition entry } := by
  have grown := endOffset_le_appendTo state.topic partition entry
  have older := holds_of_appendTo state.topic partition entry
  constructor
  · constructor
    · intro other committed committedEq
      exact Nat.le_trans (safe.commitSafe.within other committed committedEq) (grown other)
    · intro other committed committedEq
      have within := safe.commitSafe.within other committed committedEq
      exact (safe.commitSafe.returned other committed committedEq).mono (older other within)
        fun _ returned => returned
  · intro other member
    exact Nat.le_trans (safe.position_le other member) (grown other)
  · intro other member
    have within := safe.position_le other member
    exact (safe.settled other member).mono (older other within) fun _ settled => settled

/-- Between batches the client commits positions below which everything has been
returned from. -/
theorem Safe.commitPositions (safe : Safe state) (nothing : state.phase.pending = []) :
    Safe state.commitPositions := by
  have read : ∀ partition ∈ state.assignment, Covered (state.topic partition).Holds
      (fun offset => (partition, offset) ∈ state.returned) 0 (state.position partition) := by
    intro partition member
    refine (safe.settled partition member).grow fun offset settled => ?_
    rcases settled with returned | pending
    · exact returned
    · rw [ConsumerState.Pending, nothing] at pending
      cases pending
  refine ⟨⟨?_, ?_⟩, safe.position_le, safe.settled⟩
  · intro partition committed committedEq
    simp only [ConsumerState.commitPositions] at committedEq
    split at committedEq
    · next member =>
        cases committedEq
        exact safe.position_le partition member
    · exact safe.commitSafe.within partition committed committedEq
  · intro partition committed committedEq
    simp only [ConsumerState.commitPositions] at committedEq
    split at committedEq
    · next member =>
        cases committedEq
        exact read partition member
    · exact safe.commitSafe.returned partition committed committedEq

theorem Safe.close (safe : Safe state) (nothing : state.phase.pending = []) :
    Safe state.close :=
  (safe.commitPositions nothing).unassigned

/-- Another member commits what it has handled. -/
theorem Safe.elsewhere (safe : Safe state) {partition : π} {offset : Nat}
    (free : partition ∉ state.assignment)
    (bounded : offset ≤ (state.topic partition).endOffset)
    (nothingSkipped : NothingSkipped service state partition) :
    Safe (state.elsewhere service partition offset) := by
  have kept : ∀ place ∈ state.returned,
      place ∈ (state.elsewhere service partition offset).returned :=
    fun place member => List.mem_append_right _ member
  have others := safe.commitSafe.returned
  refine ⟨⟨fun other committed committedEq => ?_, fun other committed committedEq => ?_⟩,
    safe.position_le, fun other member => ?_⟩
  · simp only [ConsumerState.elsewhere] at committedEq
    by_cases here : other = partition
    · subst here
      rw [Function.update_self] at committedEq
      cases committedEq
      exact bounded
    · rw [Function.update_of_ne here] at committedEq
      exact safe.commitSafe.within other committed committedEq
  · simp only [ConsumerState.elsewhere] at committedEq
    by_cases here : other = partition
    · subst here
      rw [Function.update_self] at committedEq
      cases committedEq
      refine ((safe.commitSafe.start nothingSkipped).grow
        fun _ => kept _).append fun place above below _ => ?_
      refine List.mem_append_left _ (List.mem_map_of_mem (List.mem_filter.mpr ⟨?_, ?_⟩))
      · exact List.mem_range.mpr below
      · exact decide_eq_true above
    · rw [Function.update_of_ne here] at committedEq
      exact (others other committed committedEq).grow fun _ => kept _
  · exact (safe.settled other member).grow fun _ => Or.imp_left (kept _)

theorem Safe.rebalance (safe : Safe state) {revoked assigned : List π}
    (nothingSkipped : ∀ partition ∈ assigned, NothingSkipped service state partition) :
    Safe (state.rebalance service revoked assigned) := by
  refine ⟨⟨safe.commitSafe.within, safe.commitSafe.returned⟩, fun partition member => ?_,
    fun partition member => ?_⟩
  · simp only [ConsumerState.rebalance] at member ⊢
    by_cases own : partition ∈ assigned
    · rw [if_pos own]
      exact startOffset_le service _ _
    · rw [if_neg own]
      rcases List.mem_append.mp member with kept | new
      · exact safe.position_le partition (List.mem_of_mem_filter kept)
      · exact absurd new own
  · simp only [ConsumerState.rebalance] at member ⊢
    by_cases own : partition ∈ assigned
    · rw [if_pos own]
      exact (safe.commitSafe.start (nothingSkipped partition own)).grow
        fun _ => Or.inl
    · rw [if_neg own]
      rcases List.mem_append.mp member with kept | new
      · exact safe.settled partition (List.mem_of_mem_filter kept)
      · exact absurd new own

theorem Safe.advance (safe : Safe state) {partition : π} {fetched : List (Fetched π)}
    (polling : state.phase = .polling fetched)
    (behind : state.position partition < (state.topic partition).endOffset) :
    Safe (state.advance partition fetched) := by
  constructor
  · exact ⟨safe.commitSafe.within, safe.commitSafe.returned⟩
  · intro other member
    exact ConsumerState.position_advance_le fetched behind (safe.position_le other member)
  · intro other member
    exact ConsumerState.covered_advance polling partition (safe.settled other member)

/-- A record that survives moves from the pending to the returned ones. -/
theorem Safe.process (safe : Safe state) {env : Env} {record : Fetched π}
    {records : List (Fetched π)} (handling : state.phase = .handling (record :: records))
    (survives : Survives service env (.ofMessage libraries record.message)) :
    Safe (state.process libraries service env record records) := by
  have returns : ∃ world, processRecord libraries service env
      (.ofMessage libraries record.message) state.world = (.ok (), world) :=
    (processRecord_ok_iff env _ state.world).mpr survives
  rcases returns with ⟨world, ok⟩
  simp only [ConsumerState.process, ok]
  refine safe.of_same rfl rfl rfl (fun _ => id) (fun _ => List.mem_cons_of_mem _) ?_
  intro partition _ offset settled
  rcases settled with returned | pending
  · exact Or.inl (List.mem_cons_of_mem _ returned)
  · rw [ConsumerState.Pending, handling] at pending
    rcases List.mem_cons.mp pending with here | later
    · exact Or.inl (here ▸ List.mem_cons_self)
    · exact Or.inr later

theorem safe_preserved :
    PreservedWhen (runConsumer libraries service) (Healthy libraries service)
      (Safe : ConsumerState π → Prop) := by
  intro state action next safe healthy stepped
  have same : ∀ {phase : Phase π}, phase.pending = state.phase.pending →
      Safe { state with phase } := by
    intro phase pending
    refine safe.of_same rfl rfl rfl (fun _ => id) (fun _ => id) fun partition _ offset settled => ?_
    rwa [ConsumerState.Settled, ConsumerState.Pending, ← pending] at settled
  cases moved_of_step stepped with
  | append partition entry => exact safe.append partition entry
  | elsewhere free started bounded => exact safe.elsewhere free bounded healthy
  | poll looping running => exact same (by rw [looping]; rfl)
  | close looping stopped => exact safe.close (by rw [looping]; rfl)
  | autoCommit polling => exact safe.commitPositions (by rw [polling]; rfl)
  | rebalance polling => exact safe.rebalance healthy
  | advance polling assigned behind => exact safe.advance polling behind
  | deliver polling => exact same (by rw [polling]; rfl)
  | pollThrows polling =>
      have closed := safe.close (by rw [polling]; rfl)
      exact closed.of_same rfl rfl rfl (fun _ => id) (fun _ => id) fun _ _ _ => id
  | process env handling => exact safe.process handling (healthy _ _ handling)
  | skipLagCheck handled => exact same (by rw [handled]; rfl)
  | checkLag endOffsets handled =>
      rcases state.checkLag_eq endOffsets with ⟨world, checked⟩
      have before : Safe { state with phase := .looping } := same (by rw [handled]; rfl)
      rw [checked]
      exact before.of_same rfl rfl rfl (fun _ => id) (fun _ => id) fun _ _ _ => id
  | stop => exact safe.of_same rfl rfl rfl (fun _ => id) (fun _ => id) fun _ _ _ => id
  | crash => exact safe.unassigned.of_same rfl rfl rfl (fun _ => id) (fun _ => id) fun _ _ _ => id
  | restart =>
      exact safe.unassigned.of_same rfl rfl rfl (fun _ => id) (fun _ => id) fun _ _ _ => id

/-- In every run of healthy steps, from a process without partitions in a group
with safe offsets, every record below a committed offset has been returned from,
and so has every record below the place where a partition would start again. -/
theorem commitSafe_of_healthy {start reached : ConsumerState π} {actions : List (Action π)}
    (unassigned : start.assignment = []) (safe : start.CommitSafe)
    (healthy : Guarded (runConsumer libraries service) (Healthy libraries service) start actions)
    (ran : run (runConsumer libraries service) start actions = some reached) :
    reached.CommitSafe ∧
      ∀ partition, NothingSkipped service reached partition →
        Covered (reached.topic partition).Holds
          (fun offset => (partition, offset) ∈ reached.returned) 0
          (reached.start service partition) := by
  have initially : Safe start := by
    constructor
    · exact safe
    · intro partition member
      rw [unassigned] at member
      cases member
    · intro partition member
      rw [unassigned] at member
      cases member
  have finally_safe := (safe_preserved.of_run initially healthy ran).commitSafe
  exact ⟨finally_safe, fun partition nothingSkipped => finally_safe.start nothingSkipped⟩

end PushCache.Java

namespace PushCache.Sample

open PushCache.Transition

/-- A new group, on a topic of a tombstone and a record. -/
def joined : Java.ConsumerState Unit where
  topic := fun _ => ⟨0, [some tombstone, some (record 1)]⟩
  committed := fun _ => none
  world := .fresh fun _ => ∅
  running := true
  phase := .looping
  assignment := []
  position := fun _ => 0
  origin := fun _ => none
  handed := []
  returned := []

theorem joined_commitSafe : joined.CommitSafe := ⟨nofun, nofun⟩

/-- Both records in one batch. -/
def pollBoth : List (Java.Action Unit) :=
  [.loop, .rebalance [] [()], .advance (), .advance (), .deliver]

def storesUp : Java.Env := ⟨fun _ => .ok (some "schema"), fun _ => none⟩

def storesDown : Java.Env := ⟨fun _ => .ok (some "schema"), fun _ => some ⟨"down"⟩⟩

/-- Both records are handled before the next poll commits. -/
def handleBoth : List (Java.Action Unit) :=
  pollBoth ++ [.process storesUp, .process storesUp, .skipLagCheck, .loop, .autoCommit]

def committed : Java.ConsumerState Unit :=
  (run (Java.runConsumer (libraries (.record "customer" "schema")) (javaService .redis)) joined
    handleBoth).getD joined

theorem commitSafe_of_healthy_of_handleBoth :
    committed.committed () = some 2 ∧ ((), 1) ∈ committed.returned := by
  have ran : run (Java.runConsumer (libraries (.record "customer" "schema"))
      (javaService .redis)) joined handleBoth = some committed := rfl
  have survives : ∀ record, Java.Survives (javaService .redis) storesUp record := by
    intro record _ key _ cache _
    exact ite_self none
  have nothingSkipped : ∀ (state : Java.ConsumerState Unit) (partition : Unit),
      Java.NothingSkipped (javaService .redis) state partition := by
    intro state partition _ latest
    cases latest
  have allowed : ∀ action ∈ handleBoth, ∀ state : Java.ConsumerState Unit,
      Java.Healthy (libraries (.record "customer" "schema")) (javaService .redis) state
        action := by
    intro action member state
    cases action with
    | process env =>
        obtain rfl : env = storesUp := by simpa [handleBoth, pollBoth] using member
        exact fun _ _ _ => survives _
    | rebalance revoked assigned => exact fun partition _ => nothingSkipped state partition
    | elsewhere partition offset => exact nothingSkipped state partition
    | _ => trivial
  have committedEq : committed.committed () = some 2 := rfl
  have safe := (Java.commitSafe_of_healthy rfl joined_commitSafe
    (guarded_of_forall allowed joined) ran).1
  exact ⟨committedEq, safe.returned () 2 committedEq 1 (Nat.zero_le 1) (by decide) nofun⟩

/-- The tombstone's removal fails: the close commits past both records. -/
theorem close_commits_unhandled :
    ¬∀ (libraries : Java.Libraries) (service : Java.KafkaConsumerService)
        (start reached : Java.ConsumerState Unit) (actions : List (Java.Action Unit)),
      start.assignment = [] → start.CommitSafe →
      run (Java.runConsumer libraries service) start actions = some reached →
      reached.CommitSafe := by
  intro always
  have safe := always (libraries (.record "customer" "schema")) (javaService .redis) joined _
    (pollBoth ++ [.process storesDown]) rfl joined_commitSafe rfl
  have returned := safe.returned () 2 rfl 1 (Nat.zero_le 1) (by decide) nofun
  cases returned

end PushCache.Sample
