import Mathlib.Algebra.BigOperators.Group.List.Basic
import Mathlib.Algebra.Order.BigOperators.Group.List
import Mathlib.Algebra.Ring.Int.Defs
import PushCache.Startup

/-!
# The readiness gate

`ConsumerStatsContext::stats` runs once a second on a snapshot of the client's
statistics.  It adds up the positive lags and opens the gate when the total is
zero.  The client reports a lag it does not know as -1, and a snapshot may be
empty, so a zero total does not mean that any lag is known.
-/

namespace PushCache

/-! ## The callback -/

/-- The part of a partition's statistics that the gate depends on; the committed
offset is only logged. -/
structure PartitionStats where
  consumerLag : Int64

structure TopicStats where
  partitions : List (Int32 × PartitionStats)

/-- A snapshot of the client: its topics and their partitions in the iteration
order of the two hash maps. -/
structure Statistics where
  topics : List (String × TopicStats)

/-- The two nested loops over a snapshot.  Additions wrap around, as they do in
a release build. -/
def lagTotal (statistics : Statistics) : Int64 :=
  statistics.topics.foldl (fun total topic =>
    topic.2.partitions.foldl (fun total partition =>
      if partition.2.consumerLag > 0 then total + partition.2.consumerLag else total)
      total) 0

/-- `ConsumerStatsContext`: its share of the service, whether it has seen a
lag, and whether it has enabled the `lag-cleared` probe. -/
structure ConsumerStatsContext where
  world : World
  wasLagging : Bool
  lagProbe : Bool

namespace ConsumerStatsContext

/-- The context of a new consumer. -/
def new (world : World) : ConsumerStatsContext :=
  ⟨world, false, false⟩

/-- `self.state.consumer_lag.set(..)`. -/
def setConsumerLag (context : ConsumerStatsContext) (total : Int64) :
    ConsumerStatsContext :=
  { context with
    world := { context.world with
      metrics := { context.world.metrics with consumerLag := total } } }

/-- Set the flag and enable the probe. -/
def clearStartupLag (context : ConsumerStatsContext) : ConsumerStatsContext :=
  { context with
    world := { context.world with startupLagCleared := true }
    lagProbe := true }

/-- `ConsumerStatsContext::stats`. -/
def stats (context : ConsumerStatsContext) (statistics : Statistics) :
    ConsumerStatsContext :=
  let total := lagTotal statistics
  let context := context.setConsumerLag total
  if total > 0 then
    if context.wasLagging then context else { context with wasLagging := true }
  else if total = 0 then
    let context :=
      if context.wasLagging then { context with wasLagging := false } else context
    if context.world.startupLagCleared then context else context.clearStartupLag
  else
    context

/-- The gate is closed: the flag is not set. -/
def Closed (context : ConsumerStatsContext) : Prop :=
  context.world.startupLagCleared = false

/-- A sequence of callbacks. -/
def callbacks (context : ConsumerStatsContext) (snapshots : List Statistics) :
    ConsumerStatsContext :=
  snapshots.foldl stats context

/-- A zero total sets the flag, and enables the probe with it; nothing else
touches either. -/
theorem stats_gate (context : ConsumerStatsContext) (statistics : Statistics) :
    (context.stats statistics).world.startupLagCleared =
        (context.world.startupLagCleared || lagTotal statistics = 0) ∧
      (context.stats statistics).lagProbe =
        (context.lagProbe ||
          (!context.world.startupLagCleared && lagTotal statistics = 0)) := by
  simp only [stats]
  by_cases lagging : lagTotal statistics > 0
  · have nonzero : lagTotal statistics ≠ 0 := by
      intro zero
      rw [zero] at lagging
      exact absurd lagging (by decide)
    rw [if_pos lagging, decide_eq_false nonzero]
    by_cases wasLagging : context.wasLagging <;>
      simp [setConsumerLag, wasLagging]
  · rw [if_neg lagging]
    by_cases zero : lagTotal statistics = 0
    · rw [if_pos zero, decide_eq_true zero]
      by_cases wasLagging : context.wasLagging <;>
        by_cases cleared : context.world.startupLagCleared <;>
          simp [setConsumerLag, clearStartupLag, wasLagging, cleared]
    · rw [if_neg zero, decide_eq_false zero]
      simp [setConsumerLag]

end ConsumerStatsContext

/-! ## What a snapshot knows -/

namespace Statistics

/-- The lags of all partitions of a snapshot. -/
def lags (statistics : Statistics) : List Int64 :=
  statistics.topics.flatMap fun topic =>
    topic.2.partitions.map fun partition => partition.2.consumerLag

/-- Some lag is known, and every known lag is zero. -/
def CaughtUp (statistics : Statistics) : Prop :=
  (∃ lag ∈ statistics.lags, 0 ≤ lag) ∧ ∀ lag ∈ statistics.lags, 0 ≤ lag → lag = 0

/-- The sum of the positive lags, without wrapping around. -/
def behind (statistics : Statistics) : Int :=
  (statistics.lags.map fun lag => max lag.toInt 0).sum

/-- No lag is known; or there are positive lags, and their sum is a multiple of
`2 ^ 64`. -/
def Blind (statistics : Statistics) : Prop :=
  (∀ lag ∈ statistics.lags, lag < 0) ∨
    (∃ lag ∈ statistics.lags, 0 < lag) ∧ (2 : Int) ^ 64 ∣ statistics.behind

/-- The total of the callback is the sum of the positive lags modulo
`2 ^ 64`. -/
theorem lagTotal_eq (statistics : Statistics) :
    lagTotal statistics = Int64.ofInt statistics.behind := by
  have added : ∀ (lag : Int64) (total : Int),
      (if lag > 0 then Int64.ofInt total + lag else Int64.ofInt total) =
        Int64.ofInt (total + max lag.toInt 0) := by
    intro lag total
    by_cases lagging : lag > 0
    · have positive := Int64.lt_iff_toInt_lt.mp lagging
      rw [Int64.toInt_zero] at positive
      rw [if_pos lagging, max_eq_left positive.le, Int64.ofInt_add, Int64.ofInt_toInt]
    · have nonpositive : lag.toInt ≤ 0 := by
        rw [gt_iff_lt, Int64.lt_iff_toInt_lt, Int64.toInt_zero] at lagging
        exact not_lt.mp lagging
      rw [if_neg lagging, max_eq_right nonpositive, add_zero]
  have inner : ∀ (partitions : List (Int32 × PartitionStats)) (total : Int),
      partitions.foldl (fun total partition =>
          if partition.2.consumerLag > 0 then total + partition.2.consumerLag else total)
          (Int64.ofInt total) =
        Int64.ofInt (total + ((partitions.map fun partition =>
          partition.2.consumerLag).map fun lag => max lag.toInt 0).sum) := by
    intro partitions
    induction partitions with
    | nil => simp
    | cons partition partitions ih =>
        intro total
        rw [List.foldl_cons, added, ih, List.map_cons, List.map_cons, List.sum_cons,
          add_assoc]
  have outer : ∀ (topics : List (String × TopicStats)) (total : Int),
      topics.foldl (fun total topic =>
          topic.2.partitions.foldl (fun total partition =>
            if partition.2.consumerLag > 0 then total + partition.2.consumerLag else total)
            total) (Int64.ofInt total) =
        Int64.ofInt (total + (((topics.flatMap fun topic =>
          topic.2.partitions.map fun partition => partition.2.consumerLag).map
            fun lag => max lag.toInt 0).sum)) := by
    intro topics
    induction topics with
    | nil => simp
    | cons topic topics ih =>
        intro total
        rw [List.foldl_cons, inner, ih, List.flatMap_cons, List.map_append, List.sum_append,
          add_assoc]
  have total := outer statistics.topics 0
  rwa [zero_add] at total

/-- The total is zero exactly for multiples of `2 ^ 64`. -/
theorem lagTotal_eq_zero_iff_dvd (statistics : Statistics) :
    lagTotal statistics = 0 ↔ (2 : Int) ^ 64 ∣ statistics.behind := by
  rw [lagTotal_eq, Int64.ofInt_eq_iff_bmod_eq_toInt, Int64.toInt_zero]
  exact Int.dvd_iff_bmod_eq_zero.symm

theorem behind_eq_zero {statistics : Statistics}
    (noneBehind : ∀ lag ∈ statistics.lags, ¬0 < lag) : statistics.behind = 0 := by
  apply List.sum_eq_zero
  intro part member
  rcases List.mem_map.mp member with ⟨lag, lagMem, rfl⟩
  have nonpositive := noneBehind lag lagMem
  rw [Int64.lt_iff_toInt_lt, Int64.toInt_zero] at nonpositive
  exact max_eq_right (not_lt.mp nonpositive)

/-- A zero total comes from a caught-up snapshot or from a blind one. -/
theorem lagTotal_eq_zero_iff (statistics : Statistics) :
    lagTotal statistics = 0 ↔ statistics.CaughtUp ∨ statistics.Blind := by
  rw [lagTotal_eq_zero_iff_dvd]
  constructor
  · intro divides
    by_cases anyBehind : ∃ lag ∈ statistics.lags, 0 < lag
    · exact Or.inr (Or.inr ⟨anyBehind, divides⟩)
    · by_cases anyKnown : ∃ lag ∈ statistics.lags, 0 ≤ lag
      · refine Or.inl ⟨anyKnown, fun lag member known => ?_⟩
        by_contra nonzero
        exact anyBehind ⟨lag, member, Int64.lt_of_le_of_ne known (Ne.symm nonzero)⟩
      · refine Or.inr (Or.inl fun lag member => ?_)
        rw [← Int64.not_le]
        exact fun known => anyKnown ⟨lag, member, known⟩
  · rintro (⟨_, allZero⟩ | unknown | ⟨_, divides⟩)
    · rw [behind_eq_zero fun lag member positive =>
        (Int64.ne_of_lt positive) (allZero lag member (Int64.le_of_lt positive)).symm]
      exact Int.dvd_zero _
    · rw [behind_eq_zero fun lag member positive =>
        Int64.lt_asymm positive (unknown lag member)]
      exact Int.dvd_zero _
    · exact divides

/-- No snapshot is both. -/
theorem Blind.not_caughtUp {statistics : Statistics} (blind : statistics.Blind) :
    ¬statistics.CaughtUp := by
  rintro ⟨⟨lag, member, known⟩, allZero⟩
  rcases blind with unknown | ⟨⟨other, otherMem, positive⟩, _⟩
  · exact Int64.not_le.mpr (unknown lag member) known
  · exact Int64.ne_of_lt positive (allZero other otherMem (Int64.le_of_lt positive)).symm

end Statistics

/-! ## Runs of callbacks -/

namespace ConsumerStatsContext

/-- In a run of callbacks the flag is set and the probe enabled only by a
caught-up snapshot, and both stay as they are then. -/
def HonestRun (start : ConsumerStatsContext) (snapshots : List Statistics) : Prop :=
  (∀ earlier statistics later, snapshots = earlier ++ statistics :: later →
    let before := start.callbacks earlier
    let after := before.stats statistics
    before.Closed ∧ ¬after.Closed ∨ before.lagProbe = false ∧ after.lagProbe = true →
      statistics.CaughtUp) ∧
  ∀ earlier later, snapshots = earlier ++ later →
    (¬(start.callbacks earlier).Closed → ¬(start.callbacks snapshots).Closed) ∧
      ((start.callbacks earlier).lagProbe = true →
        (start.callbacks snapshots).lagProbe = true)

/-- The gate never closes again. -/
theorem callbacks_open (context : ConsumerStatsContext) (snapshots : List Statistics) :
    (¬context.Closed → ¬(context.callbacks snapshots).Closed) ∧
      (context.lagProbe = true → (context.callbacks snapshots).lagProbe = true) := by
  induction snapshots generalizing context with
  | nil => exact ⟨id, id⟩
  | cons statistics snapshots ih =>
      rcases context.stats_gate statistics with ⟨flag, probe⟩
      rcases ih (context.stats statistics) with ⟨flagKept, probeKept⟩
      constructor
      · intro isOpen
        apply flagKept
        rw [Closed, flag]
        rw [Closed, Bool.not_eq_false] at isOpen
        simp [isOpen]
      · intro enabled
        apply probeKept
        rw [probe, enabled, Bool.true_or]

/-- One callback moves the gate exactly when it was closed and the total is
zero. -/
theorem moves_iff (before : ConsumerStatsContext) (statistics : Statistics) :
    (before.Closed ∧ ¬(before.stats statistics).Closed ∨
        before.lagProbe = false ∧ (before.stats statistics).lagProbe = true) ↔
      before.Closed ∧ lagTotal statistics = 0 := by
  rcases before.stats_gate statistics with ⟨flag, probe⟩
  rw [Closed, Closed, flag, probe]
  by_cases closed : before.world.startupLagCleared <;>
    by_cases zero : lagTotal statistics = 0 <;> simp [closed, zero]

/-- A run is honest exactly when no blind snapshot arrives while the gate is
closed. -/
theorem honestRun_iff (world : World) (snapshots : List Statistics) :
    (new world).HonestRun snapshots ↔
      ∀ earlier statistics later, snapshots = earlier ++ statistics :: later →
        ((new world).callbacks earlier).Closed → ¬statistics.Blind := by
  constructor
  · rintro ⟨honest, _⟩ earlier statistics later split closed blind
    have zero := statistics.lagTotal_eq_zero_iff.mpr (Or.inr blind)
    exact blind.not_caughtUp
      (honest earlier statistics later split ((moves_iff _ _).mpr ⟨closed, zero⟩))
  · intro sighted
    constructor
    · intro earlier statistics later split before after moves
      rcases (moves_iff _ _).mp moves with ⟨closed, zero⟩
      rcases statistics.lagTotal_eq_zero_iff.mp zero with caughtUp | blind
      · exact caughtUp
      · exact absurd blind (sighted earlier statistics later split closed)
    · rintro earlier later rfl
      have continued : (new world).callbacks (earlier ++ later) =
          ((new world).callbacks earlier).callbacks later := List.foldl_append
      rw [continued]
      exact callbacks_open _ later

/-- The first snapshot of a new consumer may have no topics yet; it opens the
gate. -/
theorem not_honestRun_empty_snapshot :
    ¬(new (Sample.world fun _ => ∅)).HonestRun [⟨[]⟩] := by
  rintro ⟨honest, _⟩
  rcases honest [] ⟨[]⟩ [] rfl ((moves_iff _ _).mpr ⟨rfl, rfl⟩) with ⟨⟨_, member, _⟩, _⟩
  exact List.not_mem_nil member

end ConsumerStatsContext

end PushCache
