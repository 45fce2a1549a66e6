import Mathlib.Algebra.Ring.Nat
import PushCache.Java.RunConsumer

/-!
# What the readiness flag means

`checkLag` sets the flag when the positions of all partitions have reached their
ends.  A position says what the client has fetched since the process started the
partition; with `forceResetEarliest` that is the whole partition, and without it
whatever lies above the offset the group had committed.
-/

namespace PushCache.Java

open PushCache.Log
open PushCache.Transition

variable {π : Type} [DecidableEq π] {libraries : Libraries} {service : KafkaConsumerService}

/-! ## What has been handed over -/

/-- The record at an offset has been handed over or is about to be. -/
def ConsumerState.Taken (state : ConsumerState π) (partition : π) (offset : Nat) : Prop :=
  (partition, offset) ∈ state.handed ∨ state.Pending partition offset

/-- From its origin on, every record below a partition's position is taken. -/
structure Loaded (service : KafkaConsumerService) (state : ConsumerState π) : Prop where
  position_le : ∀ partition origin, state.origin partition = some origin →
    state.position partition ≤ (state.topic partition).endOffset
  covered : ∀ partition origin, state.origin partition = some origin →
    Covered (state.topic partition).Holds (state.Taken partition) origin
      (state.position partition)
  assigned : ∀ partition ∈ state.assignment, ∃ origin, state.origin partition = some origin
  forced : service.forceResetEarliest = true → ∀ partition origin,
    state.origin partition = some origin → origin = (state.topic partition).beginning

/-- The invariant: a process that has ended is past caring. -/
def LoadedWhileRunning (service : KafkaConsumerService) (state : ConsumerState π) : Prop :=
  state.phase ≠ .ended → Loaded service state

variable {state next : ConsumerState π}

omit [DecidableEq π] in
/-- A step that leaves the client alone keeps the invariant, if nothing taken is
lost. -/
theorem Loaded.of_same (loaded : Loaded service state) (topic : next.topic = state.topic)
    (assignment : next.assignment = state.assignment) (position : next.position = state.position)
    (origin : next.origin = state.origin)
    (taken : ∀ partition offset, state.Taken partition offset → next.Taken partition offset) :
    Loaded service next := by
  constructor
  · rw [topic, position, origin]
    exact loaded.position_le
  · intro partition own originEq
    rw [origin] at originEq
    rw [topic, position]
    exact (loaded.covered partition own originEq).grow (taken partition)
  · rw [assignment, origin]
    exact loaded.assigned
  · rw [topic, origin]
    exact loaded.forced

theorem Loaded.append (loaded : Loaded service state) (partition : π) (entry : Option Message) :
    Loaded service { state with topic := appendTo state.topic partition entry } := by
  constructor
  · intro other origin originEq
    exact Nat.le_trans (loaded.position_le other origin originEq)
      (endOffset_le_appendTo state.topic partition entry other)
  · intro other origin originEq
    have within := loaded.position_le other origin originEq
    exact (loaded.covered other origin originEq).mono
      (holds_of_appendTo state.topic partition entry other within) fun _ taken => taken
  · exact loaded.assigned
  · intro force other origin originEq
    rw [beginning_appendTo]
    exact loaded.forced force other origin originEq

omit [DecidableEq π] in
/-- A partition that is started again keeps its origin, or gets its start for
one. -/
theorem ConsumerState.restartedOrigin_cases (service : KafkaConsumerService)
    (state : ConsumerState π) (partition : π) :
    state.origin partition = some (state.restartedOrigin service partition) ∨
      state.restartedOrigin service partition = state.start service partition := by
  simp only [restartedOrigin]
  split
  · next origin originEq =>
      split
      · exact Or.inl originEq
      · exact Or.inr rfl
  · exact Or.inr rfl

theorem Loaded.rebalance (loaded : Loaded service state) (revoked assigned : List π) :
    Loaded service (state.rebalance service revoked assigned) := by
  have restarted : ∀ partition,
      Covered (state.topic partition).Holds (state.Taken partition)
        (state.restartedOrigin service partition) (state.start service partition) := by
    intro partition
    simp only [ConsumerState.restartedOrigin]
    split
    · next origin originEq =>
        split
        · next within =>
            exact (loaded.covered partition origin originEq).restrict (Nat.le_refl origin) within.2
        · exact .of_le (Nat.le_refl _)
    · exact .of_le (Nat.le_refl _)
  constructor
  · intro partition origin originEq
    simp only [ConsumerState.rebalance] at originEq ⊢
    split at originEq
    · next own =>
        rw [if_pos own]
        exact startOffset_le service _ _
    · next other =>
        rw [if_neg other]
        exact loaded.position_le partition origin originEq
  · intro partition origin originEq
    simp only [ConsumerState.rebalance] at originEq ⊢
    split at originEq
    · next own =>
        cases originEq
        rw [if_pos own]
        exact restarted partition
    · next other =>
        rw [if_neg other]
        exact loaded.covered partition origin originEq
  · intro partition member
    simp only [ConsumerState.rebalance] at member ⊢
    by_cases own : partition ∈ assigned
    · exact ⟨_, if_pos own⟩
    · rw [if_neg own]
      rcases List.mem_append.mp member with kept | new
      · exact loaded.assigned partition (List.mem_of_mem_filter kept)
      · exact absurd new own
  · intro force partition origin originEq
    have beginning : state.start service partition = (state.topic partition).beginning := by
      rw [ConsumerState.start, startOffset, if_pos force]
    simp only [ConsumerState.rebalance] at originEq ⊢
    split at originEq
    · rw [Option.some.injEq] at originEq
      rcases state.restartedOrigin_cases service partition with kept | moved
      · exact loaded.forced force partition origin (kept.trans (congrArg some originEq))
      · exact originEq.symm.trans (moved.trans beginning)
    · exact loaded.forced force partition origin originEq

theorem Loaded.advance (loaded : Loaded service state) {partition : π}
    {fetched : List (Fetched π)} (polling : state.phase = .polling fetched)
    (behind : state.position partition < (state.topic partition).endOffset) :
    Loaded service (state.advance partition fetched) := by
  constructor
  · intro other origin originEq
    exact ConsumerState.position_advance_le fetched behind
      (loaded.position_le other origin originEq)
  · intro other origin originEq
    exact ConsumerState.covered_advance polling partition (loaded.covered other origin originEq)
  · exact loaded.assigned
  · exact loaded.forced

/-- A record that has been handled was handed over. -/
theorem Loaded.process (loaded : Loaded service state) {env : Env} {record : Fetched π}
    {records : List (Fetched π)} (handling : state.phase = .handling (record :: records)) :
    LoadedWhileRunning service (state.process libraries service env record records) := by
  simp only [ConsumerState.process]
  split
  · intro _
    refine loaded.of_same rfl rfl rfl rfl fun partition offset taken => ?_
    rcases taken with handed | pending
    · exact Or.inl (List.mem_cons_of_mem _ handed)
    · rw [ConsumerState.Pending, handling] at pending
      rcases List.mem_cons.mp pending with here | later
      · exact Or.inl (here ▸ List.mem_cons_self)
      · exact Or.inr later
  · intro running
    exact absurd rfl running

omit [DecidableEq π] in
/-- A phase with the same records pending. -/
theorem Loaded.withPhase (loaded : Loaded service state) {phase : Phase π}
    (pending : phase.pending = state.phase.pending) : Loaded service { state with phase } := by
  refine loaded.of_same rfl rfl rfl rfl fun partition offset taken => ?_
  rwa [ConsumerState.Taken, ConsumerState.Pending, ← pending] at taken

theorem loaded_preserved :
    Preserved (runConsumer libraries service)
      (LoadedWhileRunning service : ConsumerState π → Prop) := by
  intro state action next loaded stepped
  cases moved_of_step stepped with
  | append partition entry => exact fun running => (loaded running).append partition entry
  | elsewhere free started bounded =>
      exact fun running => (loaded running).of_same rfl rfl rfl rfl fun _ _ => id
  | poll looping running =>
      have before := loaded (by rw [looping]; nofun)
      exact fun _ => before.withPhase (by rw [looping]; rfl)
  | close looping stopped => exact fun running => absurd rfl running
  | autoCommit polling =>
      exact fun running => (loaded running).of_same rfl rfl rfl rfl fun _ _ => id
  | rebalance polling => exact fun running => (loaded running).rebalance _ _
  | advance polling assigned behind =>
      have before := loaded (by rw [polling]; nofun)
      exact fun _ => before.advance polling behind
  | deliver polling =>
      have before := loaded (by rw [polling]; nofun)
      exact fun _ => before.withPhase (by rw [polling]; rfl)
  | pollThrows polling => exact fun running => absurd rfl running
  | process env handling =>
      have before := loaded (by rw [handling]; nofun)
      exact before.process handling
  | skipLagCheck handled =>
      have before := loaded (by rw [handled]; nofun)
      exact fun _ => before.withPhase (by rw [handled]; rfl)
  | checkLag endOffsets handled =>
      have before := loaded (by rw [handled]; nofun)
      rcases state.checkLag_eq endOffsets with ⟨world, checked⟩
      rw [checked]
      exact fun _ => (before.withPhase (by rw [handled]; rfl)).of_same rfl rfl rfl rfl
        fun _ _ => id
  | stop => exact fun running => (loaded running).of_same rfl rfl rfl rfl fun _ _ => id
  | crash => exact fun running => absurd rfl running
  | restart => exact fun _ => ⟨nofun, nofun, nofun, nofun⟩

/-! ## The total lag -/

/-- The sum of the lags, without wrapping around. -/
def ConsumerState.behind (state : ConsumerState π) (answered : List π) : Nat :=
  ((state.assignment.filter (· ∈ answered)).map state.lag).sum

theorem ConsumerState.totalLag_eq (state : ConsumerState π) (answered : List π) :
    state.totalLag answered = Int64.ofNat (state.behind answered) := by
  have folded : ∀ (partitions : List π) (total : Nat),
      partitions.foldl (fun total partition =>
          if partition ∈ answered then total + Int64.ofNat (state.lag partition) else total)
          (Int64.ofNat total) =
        Int64.ofNat (total + ((partitions.filter (· ∈ answered)).map state.lag).sum) := by
    intro partitions
    induction partitions with
    | nil => exact fun _ => rfl
    | cons partition partitions ih =>
        intro total
        rw [List.foldl_cons]
        by_cases known : partition ∈ answered
        · rw [if_pos known, ← Int64.ofNat_add, ih, List.filter_cons_of_pos (by simpa using known),
            List.map_cons, List.sum_cons, Nat.add_assoc]
        · rw [if_neg known, ih, List.filter_cons_of_neg (by simpa using known)]
  have total := folded state.assignment 0
  rwa [Nat.zero_add] at total

/-- A total of zero below the range of the sum means that nobody is behind. -/
theorem ConsumerState.lag_eq_zero {answered : List π} (zero : state.totalLag answered = 0)
    (bounded : state.behind answered < 2 ^ 64) {partition : π}
    (assigned : partition ∈ state.assignment) (known : partition ∈ answered) :
    state.lag partition = 0 := by
  rw [state.totalLag_eq, ← Int64.ofInt_eq_ofNat, Int64.ofInt_eq_iff_bmod_eq_toInt,
    Int64.toInt_zero] at zero
  have divides : (2 ^ 64 : Int) ∣ (state.behind answered : Int) := Int.dvd_iff_bmod_eq_zero.mpr zero
  have nothing : state.behind answered = 0 :=
    Nat.eq_zero_of_dvd_of_lt (by exact_mod_cast divides) bounded
  exact List.sum_eq_zero_iff_forall_eq_nat.mp nothing _ (List.mem_map_of_mem
    (List.mem_filter.mpr ⟨assigned, by simpa using known⟩))

/-! ## The flag -/

/-- Only a lag check sets the flag, in a process with nothing pending. -/
theorem cleared_by_checkLag {action : Action π}
    (stepped : runConsumer libraries service state action = some next)
    (before : state.world.cleared = false) (after : next.world.cleared = true) :
    ∃ answered, action = .checkLag (some answered) ∧ state.phase = .handling [] ∧
      state.totalLag answered = 0 := by
  have unchanged : next.world.cleared = state.world.cleared → False := by
    intro same
    rw [after, before] at same
    cases same
  cases moved_of_step stepped with
  | process env handling =>
      refine (unchanged ?_).elim
      next record records =>
        have kept := processRecord_cleared libraries service env
          (.ofMessage libraries record.message) state.world
        simp only [ConsumerState.process]
        split <;> next handled => rwa [handled] at kept
  | checkLag endOffsets handled =>
      simp only [ConsumerState.checkLag] at after
      split at after
      · cases before.symm.trans after
      · split at after
        · cases before.symm.trans after
        · next answered =>
            split at after
            · next zero => exact ⟨answered, rfl, handled, zero.1⟩
            · cases before.symm.trans after
  | restart => cases after
  | _ => exact (unchanged rfl).elim

/-- A process that has just started. -/
structure ConsumerState.Fresh (state : ConsumerState π) : Prop where
  contents : ∃ persisted, state.world.contents = freshContents persisted
  running : state.running = true
  phase : state.phase = .looping
  assignment : state.assignment = []
  origin : ∀ partition, state.origin partition = none
  handed : state.handed = []

omit [DecidableEq π] in
theorem ConsumerState.Fresh.loaded {start : ConsumerState π} (fresh : start.Fresh) :
    LoadedWhileRunning service start := by
  have nothing : ∀ partition origin, start.origin partition = some origin → False := by
    intro partition origin originEq
    rw [fresh.origin] at originEq
    cases originEq
  refine fun _ => ⟨?_, ?_, ?_, ?_⟩
  · exact fun partition origin originEq => (nothing partition origin originEq).elim
  · exact fun partition origin originEq => (nothing partition origin originEq).elim
  · intro partition member
    rw [fresh.assignment] at member
    cases member
  · exact fun _ partition origin originEq => (nothing partition origin originEq).elim

/-- A rebalance of the run starts the partition at an offset. -/
def StartedAt (libraries : Libraries) (service : KafkaConsumerService)
    (start : ConsumerState π) (actions : List (Action π)) (partition : π) (offset : Nat) : Prop :=
  ∃ earlier revoked assigned later source,
    actions = earlier ++ .rebalance revoked assigned :: later ∧
      run (runConsumer libraries service) start earlier = some source ∧
      partition ∈ assigned ∧ source.start service partition = offset

/-- Origins are offsets at which partitions were started. -/
theorem startedAt_of_origin {start reached : ConsumerState π} {actions : List (Action π)}
    (fresh : start.Fresh)
    (ran : run (runConsumer libraries service) start actions = some reached) {partition : π}
    {origin : Nat} (originEq : reached.origin partition = some origin) :
    StartedAt libraries service start actions partition origin := by
  have unset : ¬start.origin partition = some origin := by
    rw [fresh.origin]
    nofun
  have traced : ∀ ⦃source action target⦄,
      runConsumer libraries service source action = some target →
        target.origin partition = some origin →
          source.origin partition = some origin ∨
            ∃ revoked assigned, action = .rebalance revoked assigned ∧ partition ∈ assigned ∧
              source.start service partition = origin := by
    intro source action target stepped holds
    cases moved_of_step stepped with
    | rebalance polling =>
        next revoked assigned =>
          simp only [ConsumerState.rebalance] at holds
          split at holds
          · next own =>
              rw [Option.some.injEq] at holds
              rcases source.restartedOrigin_cases service partition with kept | moved
              · exact Or.inl (kept.trans (congrArg some holds))
              · exact Or.inr ⟨revoked, assigned, rfl, own, moved.symm.trans holds⟩
          · exact Or.inl holds
    | process env handling =>
        simp only [ConsumerState.process] at holds
        split at holds <;> exact Or.inl holds
    | checkLag endOffsets handled =>
        rcases source.checkLag_eq endOffsets with ⟨world, checked⟩
        rw [checked] at holds
        exact Or.inl holds
    | restart => cases holds
    | _ => exact Or.inl holds
  rcases exists_cause_of_run traced unset ran originEq with
    ⟨earlier, _, later, source, split, reachedBy, revoked, assigned, rfl, own, startEq⟩
  exact ⟨earlier, revoked, assigned, later, source, split, reachedBy, own, startEq⟩

/-- When the flag is set, and the lags do not add up to `2 ^ 64` or more, every
record of an assigned partition has been handed over in this process from an
offset on at which the client started the partition.  That is the beginning of
the partition if a reset to it is forced. -/
theorem handed_of_cleared {start reached next : ConsumerState π} {actions : List (Action π)}
    {action : Action π} (fresh : start.Fresh)
    (ran : run (runConsumer libraries service) start actions = some reached)
    (stepped : runConsumer libraries service reached action = some next)
    (before : reached.world.cleared = false) (after : next.world.cleared = true) :
    ∃ answered, action = .checkLag (some answered) ∧
      (reached.behind answered < 2 ^ 64 →
        ∀ partition ∈ reached.assignment, partition ∈ answered →
          ∃ origin, reached.origin partition = some origin ∧
            StartedAt libraries service start actions partition origin ∧
            (service.forceResetEarliest = true →
              origin = (reached.topic partition).beginning) ∧
            ∀ offset, origin ≤ offset → offset < (reached.topic partition).endOffset →
              (reached.topic partition).Holds offset → (partition, offset) ∈ reached.handed) := by
  rcases cleared_by_checkLag stepped before after with ⟨answered, rfl, handled, zero⟩
  have loaded := loaded_preserved.of_run fresh.loaded ran (by rw [handled]; nofun)
  refine ⟨answered, rfl, fun bounded partition assigned known => ?_⟩
  rcases loaded.assigned partition assigned with ⟨origin, originEq⟩
  refine ⟨origin, originEq, startedAt_of_origin fresh ran originEq,
    fun force => loaded.forced force partition origin originEq,
    fun offset above below holds => ?_⟩
  have caughtUp := ConsumerState.lag_eq_zero zero bounded assigned known
  have read : offset < reached.position partition := by
    simp only [ConsumerState.lag] at caughtUp
    omega
  rcases loaded.covered partition origin originEq offset above read holds with handed | pending
  · exact handed
  · rw [ConsumerState.Pending, handled] at pending
    cases pending

end PushCache.Java

namespace PushCache.Sample

open PushCache.Transition

/-- A process of a group with a committed offset, on a topic of one record. -/
def resumed (committed : Option Nat) : Java.ConsumerState Unit where
  topic := fun _ => ⟨0, [some (record 1)]⟩
  committed := fun _ => committed
  world := .fresh fun _ => ∅
  running := true
  phase := .looping
  assignment := []
  position := fun _ => 0
  origin := fun _ => none
  handed := []
  returned := []

theorem resumed_fresh (committed : Option Nat) : (resumed committed).Fresh where
  contents := ⟨fun _ => ∅, rfl⟩
  running := rfl
  phase := rfl
  assignment := rfl
  origin := fun _ => rfl
  handed := rfl

/-- A consumer that seeks to the beginning. -/
def rebuilding : Java.KafkaConsumerService :=
  { javaService .inMemory with forceResetEarliest := true }

/-- It reads the topic to its end. -/
def rebuild : List (Java.Action Unit) :=
  [.loop, .rebalance [] [()], .advance (), .deliver, .process ⟨fun _ => .ok none, fun _ => none⟩]

def rebuilt : Java.ConsumerState Unit :=
  (run (Java.runConsumer (libraries (.record "customer" "schema")) rebuilding)
    (resumed (some 1)) rebuild).getD (resumed none)

theorem handed_of_cleared_of_rebuilt :
    (rebuilt.checkLag (some [()])).world.cleared = true ∧ ((), 0) ∈ rebuilt.handed := by
  have ran : run (Java.runConsumer (libraries (.record "customer" "schema")) rebuilding)
      (resumed (some 1)) rebuild = some rebuilt := rfl
  have stepped : Java.runConsumer (libraries (.record "customer" "schema")) rebuilding rebuilt
      (.checkLag (some [()])) =
        some { rebuilt.checkLag (some [()]) with phase := .looping } := rfl
  have cleared : (rebuilt.checkLag (some [()])).world.cleared = true := rfl
  constructor
  · exact cleared
  rcases Java.handed_of_cleared (resumed_fresh (some 1)) ran stepped rfl cleared with
    ⟨answered, action, loaded⟩
  cases action
  rcases loaded (by decide) () List.mem_cons_self List.mem_cons_self with
    ⟨origin, _, _, forced, handed⟩
  obtain rfl : origin = 0 := forced rfl
  exact handed 0 (Nat.le_refl 0) Nat.zero_lt_one nofun

/-- The group has committed the end of the topic: the flag is set with nothing
handed over. -/
theorem cleared_without_loading :
    ¬∀ (libraries : Java.Libraries) (service : Java.KafkaConsumerService)
        (start reached next : Java.ConsumerState Unit) (actions : List (Java.Action Unit))
        (action : Java.Action Unit), start.Fresh →
      run (Java.runConsumer libraries service) start actions = some reached →
      Java.runConsumer libraries service reached action = some next →
      reached.world.cleared = false → next.world.cleared = true →
      ∀ partition ∈ reached.assignment, ∀ offset,
        (reached.topic partition).beginning ≤ offset →
        offset < (reached.topic partition).endOffset →
        (reached.topic partition).Holds offset → (partition, offset) ∈ reached.handed := by
  intro always
  have handed := always (libraries (.record "customer" "schema")) (javaService .inMemory)
    (resumed (some 1)) _ _ [.loop, .rebalance [] [()], .deliver] (.checkLag (some [()]))
    (resumed_fresh (some 1)) rfl rfl rfl rfl () List.mem_cons_self 0 (Nat.le_refl 0)
    Nat.zero_lt_one nofun
  cases handed

end PushCache.Sample
