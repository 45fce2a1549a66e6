import Mathlib.Algebra.Ring.Nat
import PushCache.Java.RunConsumer
import PushCache.Transition.Core
import PushCache.Transition.Variant

/-!
# The threads of the Kafka consumer

`start` of `KafkaConsumerService` sets the flag `running` and starts a thread;
`stop`, and the `catch` of `runConsumer`, clear it.  Any thread of the program
may call the two methods at any time.  There is one flag for all consumer
threads: one that has been stopped goes on when the flag is set again before it
looks, and one that fails stops the others.
-/

namespace PushCache.Java

open PushCache.Transition

/-! ## One thread -/

/-- Where a consumer thread stands: its start, the client it makes, the test of
its loop, the body, the end of try-with-resources and the `catch`. -/
inductive ThreadPhase where
  | created
  | opening
  | testing
  | working
  | closing
  | catching
  | ended
  deriving DecidableEq

/-- How a thread goes on.  What is thrown is an `Exception` or another
`Throwable`. -/
inductive Turn where
  | proceeds
  | throwsException
  | throwsError

namespace ThreadPhase

/-- One turn of `runConsumer`: where the thread stands after it, and the flag. -/
def turn (running : Bool) : ThreadPhase → Turn → Option (ThreadPhase × Bool)
  | .created, .proceeds => some (.opening, running)
  -- `Thread.start` throws, and the thread never runs
  | .created, .throwsError => some (.ended, running)
  | .created, .throwsException => none
  | .opening, .proceeds => some (.testing, running)
  | .testing, .proceeds => some (if running then .working else .closing, running)
  | .testing, _ => none
  | .working, .proceeds => some (.testing, running)
  | .closing, .proceeds => some (.ended, running)
  -- "Error in Kafka consumer loop"
  | .catching, .proceeds => some (.ended, false)
  | .catching, _ => some (.ended, running)
  | .ended, _ => none
  | _, .throwsException => some (.catching, running)
  | _, .throwsError => some (.ended, running)

/-- What the thread throws is not handled by the `catch`. -/
def escapes : ThreadPhase → Turn → Bool
  | .catching, .throwsException => true
  | _, .throwsError => true
  | _, _ => false

/-- The thread has not come to its end. -/
def live : ThreadPhase → Bool
  | .ended => false
  | _ => true

/-- The thread goes on consuming for as long as it finds the flag up. -/
def consumes : ThreadPhase → Bool
  | .created | .opening | .testing | .working => true
  | .closing | .catching | .ended => false

/-- The thread consumes, or is in the `catch` that clears the flag. -/
def holdsFlag : ThreadPhase → Bool
  | .catching => true
  | phase => phase.consumes

/-- How many turns the thread can take while the flag is down. -/
def left : ThreadPhase → Nat
  | .created => 5
  | .opening | .working => 4
  | .testing => 3
  | .closing => 2
  | .catching => 1
  | .ended => 0

variable {phase next : ThreadPhase} {running after : Bool} {how : Turn}

theorem holdsFlag_iff : phase.holdsFlag = true ↔ phase.consumes = true ∨ phase = .catching := by
  cases phase <;> simp [holdsFlag, consumes]

theorem live_of_holdsFlag (holds : phase.holdsFlag = true) : phase.live = true := by
  cases phase with
  | ended => cases holds
  | _ => rfl

theorem live_of_turn (turned : phase.turn running how = some (next, after)) :
    phase.live = true := by
  cases phase with
  | ended => cases how <;> cases turned
  | _ => rfl

/-- A thread never sets the flag. -/
theorem running_of_turn (turned : phase.turn running how = some (next, after))
    (up : after = true) : running = true := by
  subst up
  cases phase <;> cases how <;> cases turned <;> rfl

/-- While the flag is up, a consumer goes on, enters its `catch` or clears the flag there,
unless what it throws escapes. -/
theorem holdsFlag_turn_iff (holds : phase.holdsFlag = true)
    (turned : phase.turn true how = some (next, after)) :
    (after = true → next.holdsFlag = true) ↔ phase.escapes how = false := by
  cases phase <;> cases how <;> cases turned <;> simp_all [holdsFlag, consumes, escapes]

/-- With the flag down, a turn leaves fewer to take. -/
theorem left_of_turn (turned : phase.turn false how = some (next, after)) :
    next.left < phase.left := by
  cases phase <;> cases how <;> cases turned <;> decide

/-- Only a thread at its end has no turn left. -/
theorem exists_turn (running : Bool) (live : phase.live = true) :
    ∃ next after, phase.turn running .proceeds = some (next, after) := by
  cases phase with
  | ended => cases live
  | _ => exact ⟨_, _, rfl⟩

theorem left_le (phase : ThreadPhase) : phase.left ≤ if phase.live then 5 else 0 := by
  cases phase <;> decide

end ThreadPhase

/-! ## The service -/

/-- The flag and the consumer threads, in the order in which they were started. -/
structure ConsumerThreads where
  running : Bool
  threads : List ThreadPhase

/-- `"none".equalsIgnoreCase(webType)`: the service is not a web application. -/
def skipsConsumer (webType : Option String) : Bool :=
  webType.any (·.toLower = "none")

namespace ConsumerThreads

/-- A call of a method, or a turn of a thread. -/
inductive Action where
  | start (webType : Option String)
  | stop
  | turn (index : Nat) (how : Turn)

/-- A service nobody has started. -/
def initial : ConsumerThreads :=
  ⟨false, []⟩

/-- `start`, given `spring.main.web-application-type`. -/
def start (state : ConsumerThreads) (webType : Option String) : ConsumerThreads :=
  if skipsConsumer webType then
    state
  else if state.running then
    state
  else
    { running := true, threads := state.threads ++ [.created] }

/-- The transition system. -/
def step : Step ConsumerThreads Action
  | state, .start webType => some (state.start webType)
  | state, .stop => some { state with running := false }
  | state, .turn index how =>
      state.threads[index]?.bind fun phase =>
        (phase.turn state.running how).map fun turned =>
          { running := turned.2, threads := state.threads.set index turned.1 }

/-- Every step, with the conditions under which it is taken. -/
inductive Moved (state : ConsumerThreads) : Action → ConsumerThreads → Prop where
  | skipped {webType : Option String} (skips : skipsConsumer webType = true) :
      Moved state (.start webType) state
  | already {webType : Option String} (running : state.running = true) :
      Moved state (.start webType) state
  | started {webType : Option String} (serves : skipsConsumer webType = false)
      (stopped : state.running = false) :
      Moved state (.start webType) ⟨true, state.threads ++ [.created]⟩
  | stop : Moved state .stop ⟨false, state.threads⟩
  | turn {before others : List ThreadPhase} {phase next : ThreadPhase} {after : Bool} {how : Turn}
      (split : state.threads = before ++ phase :: others)
      (turned : phase.turn state.running how = some (next, after)) :
      Moved state (.turn before.length how) ⟨after, before ++ next :: others⟩

variable {state next : ConsumerThreads} {action : Action}

theorem moved_of_step (stepped : step state action = some next) : Moved state action next := by
  cases action with
  | start webType =>
      cases stepped
      simp only [start]
      split
      · next skips => exact .skipped skips
      · next serves =>
          split
          · next running => exact .already running
          · next stopped =>
              exact .started (Bool.eq_false_iff.mpr serves) (Bool.eq_false_iff.mpr stopped)
  | stop =>
      cases stepped
      exact .stop
  | turn index how =>
      simp only [step, Option.bind_eq_some_iff, Option.map_eq_some_iff] at stepped
      rcases stepped with ⟨phase, there, ⟨after, running⟩, turned, rfl⟩
      rcases List.getElem?_eq_some_iff.mp there with ⟨within, rfl⟩
      have splits : ∃ before others, state.threads = before ++ state.threads[index] :: others ∧
          before.length = index ∧ state.threads.set index after = before ++ after :: others :=
        List.exists_of_set within
      rcases splits with ⟨before, others, split, rfl, set⟩
      rw [set]
      exact .turn split turned

/-! ## One consumer -/

/-- There is one live thread at most, and while the flag is up one that consumes, or is in
the `catch` that clears the flag. -/
structure Sound (state : ConsumerThreads) : Prop where
  single : state.threads.countP ThreadPhase.live ≤ 1
  served : state.running = true →
    ∃ phase ∈ state.threads, phase.consumes = true ∨ phase = .catching

/-- A consumer is only started when all others have ended, and nothing is thrown past the
`catch` while the flag is up. -/
def Orderly (state : ConsumerThreads) : Action → Prop
  | .start webType =>
      skipsConsumer webType = false → state.running = false →
        state.threads.countP ThreadPhase.live = 0
  | .stop => True
  | .turn index how =>
      state.running = true → ∀ phase ∈ state.threads[index]?, phase.escapes how = false

theorem sound_initial : initial.Sound where
  single := Nat.zero_le _
  served := nofun

theorem countP_live_split (before others : List ThreadPhase) (phase : ThreadPhase) :
    (before ++ phase :: others).countP ThreadPhase.live =
      before.countP ThreadPhase.live + others.countP ThreadPhase.live +
        if phase.live then 1 else 0 := by
  rw [List.countP_append, List.countP_cons, Nat.add_assoc]

/-- A turn adds no live thread. -/
theorem countP_live_turn_le (before others : List ThreadPhase) {phase next : ThreadPhase}
    {running after : Bool} {how : Turn}
    (turned : phase.turn running how = some (next, after)) :
    (before ++ next :: others).countP ThreadPhase.live ≤
      (before ++ phase :: others).countP ThreadPhase.live := by
  rw [countP_live_split, countP_live_split, if_pos (ThreadPhase.live_of_turn turned)]
  apply Nat.add_le_add_left
  split
  · exact Nat.le_refl 1
  · exact Nat.zero_le 1

theorem Sound.exists_holdsFlag (sound : state.Sound) (running : state.running = true) :
    ∃ phase ∈ state.threads, phase.holdsFlag = true := by
  rcases sound.served running with ⟨phase, member, serves⟩
  exact ⟨phase, member, ThreadPhase.holdsFlag_iff.mpr serves⟩

/-- While the flag is up, the thread that takes a turn is the one that holds it up, and no
other thread is live. -/
theorem Sound.alone {before others : List ThreadPhase} {phase : ThreadPhase}
    (sound : state.Sound) (running : state.running = true)
    (split : state.threads = before ++ phase :: others) (live : phase.live = true) :
    phase.holdsFlag = true ∧
      ∀ other, other ∈ before ∨ other ∈ others → other.holdsFlag = false := by
  have single := sound.single
  rw [split, countP_live_split, if_pos live] at single
  have idle : ∀ other, other ∈ before ∨ other ∈ others → other.holdsFlag = false := by
    intro other member
    apply Bool.eq_false_iff.mpr
    intro holds
    have otherLive := ThreadPhase.live_of_holdsFlag holds
    rcases member with here | there
    · have counted := List.countP_pos_iff.mpr ⟨other, here, otherLive⟩
      omega
    · have counted := List.countP_pos_iff.mpr ⟨other, there, otherLive⟩
      omega
  constructor
  · rcases sound.exists_holdsFlag running with ⟨consumer, member, holds⟩
    rw [split, List.mem_append, List.mem_cons] at member
    rcases member with here | rfl | there
    · rw [idle consumer (.inl here)] at holds
      cases holds
    · exact holds
    · rw [idle consumer (.inr there)] at holds
      cases holds
  · exact idle

/-- The guard says exactly whether a step leaves the consumer sound. -/
theorem Sound.step_iff (sound : state.Sound) (stepped : step state action = some next) :
    next.Sound ↔ state.Orderly action := by
  cases moved_of_step stepped with
  | skipped skips =>
      constructor
      · intro _ serves
        rw [skips] at serves
        cases serves
      · intro _
        exact sound
  | already running =>
      constructor
      · intro _ _ stopped
        rw [running] at stopped
        cases stopped
      · intro _
        exact sound
  | started serves stopped =>
      constructor
      · intro after _ _
        have single := after.single
        rw [List.countP_append] at single
        exact Nat.le_zero.mp (Nat.le_of_succ_le_succ single)
      · intro orderly
        constructor
        · rw [List.countP_append, orderly serves stopped]
          exact Nat.le_refl 1
        · intro _
          exact ⟨.created, List.mem_append_right _ List.mem_cons_self, .inl rfl⟩
  | stop =>
      constructor
      · intro _
        trivial
      · intro _
        constructor
        · exact sound.single
        · intro up
          cases up
  | @turn before others phase after running how split turned =>
      have single := countP_live_turn_le before others turned
      rw [← split] at single
      have there : state.threads[before.length]? = some phase := by
        rw [split, List.getElem?_append_right (Nat.le_refl _), Nat.sub_self]
        rfl
      by_cases up : state.running = true
      · rcases sound.alone up split (ThreadPhase.live_of_turn turned) with ⟨holds, idle⟩
        rw [up] at turned
        have exact_turn := ThreadPhase.holdsFlag_turn_iff holds turned
        constructor
        · intro afterwards _ own member
          rw [there] at member
          cases member
          apply exact_turn.mp
          intro stillUp
          rcases afterwards.exists_holdsFlag stillUp with ⟨consumer, member, goes⟩
          rw [List.mem_append, List.mem_cons] at member
          rcases member with here | rfl | beyond
          · rw [idle consumer (.inl here)] at goes
            cases goes
          · exact goes
          · rw [idle consumer (.inr beyond)] at goes
            cases goes
        · intro orderly
          constructor
          · exact Nat.le_trans single sound.single
          · intro stillUp
            have goes := exact_turn.mpr (orderly up phase there) stillUp
            exact ⟨after, List.mem_append_right _ List.mem_cons_self,
              ThreadPhase.holdsFlag_iff.mp goes⟩
      · constructor
        · intro _ running
          exact absurd running up
        · intro _
          constructor
          · exact Nat.le_trans single sound.single
          · intro stillUp
            exact absurd (ThreadPhase.running_of_turn turned stillUp) up

/-- At most one consumer thread is live in every state of a run, and while the flag is up
one that consumes or is in the `catch` that clears it, exactly when each start that takes
effect waits for all threads to end and nothing escapes the `catch` while the flag is up. -/
theorem consumer_sound_iff {actions : List Action} {final : ConsumerThreads}
    (ran : run step initial actions = some final) :
    (∀ earlier later reached, actions = earlier ++ later →
      run step initial earlier = some reached → reached.Sound) ↔
    Guarded step Orderly initial actions := by
  have exact_guard : ∀ ⦃source action target⦄, Sound source →
      step source action = some target → (Sound target ↔ Orderly source action) :=
    fun _ _ _ sound stepped => sound.step_iff stepped
  exact (guarded_iff_forall_reached exact_guard sound_initial ran).symm

/-! ## The consumer loop -/

section RunConsumer

variable {π : Type} [DecidableEq π] {libraries : Libraries} {service : KafkaConsumerService}
  {source target : ConsumerState π} {act : Java.Action π}

/-- Where the thread of a process stands. -/
def phaseOf : Phase π → ThreadPhase
  | .looping => .testing
  | .polling _ | .handling _ => .working
  | .ended => .ended

/-- The flag and the thread of a process. -/
def ofConsumer (state : ConsumerState π) : ConsumerThreads :=
  ⟨state.running, [phaseOf state.phase]⟩

/-- The process goes on. -/
def GoesOn : Java.Action π → Prop
  | .crash | .restart => False
  | _ => True

/-- An orderly run of the threads. -/
def Follows (state next : ConsumerThreads) : Prop :=
  ∃ turns, Guarded step Orderly state turns ∧ run step state turns = some next

theorem Follows.refl (state : ConsumerThreads) : Follows state state :=
  ⟨[], trivial, rfl⟩

theorem Follows.trans {state middle next : ConsumerThreads} (first : Follows state middle)
    (second : Follows middle next) : Follows state next := by
  rcases first with ⟨turns, guarded, ran⟩
  rcases second with ⟨others, guardedOthers, ranOthers⟩
  refine ⟨turns ++ others, guarded.append ran guardedOthers, ?_⟩
  rw [run_append, ran]
  exact ranOthers

/-- A turn of the only thread. -/
theorem follows_turn {phase next : ThreadPhase} {running after : Bool} (how : Turn)
    (turned : phase.turn running how = some (next, after))
    (caught : phase.escapes how = false) :
    Follows ⟨running, [phase]⟩ ⟨after, [next]⟩ := by
  refine ⟨[.turn 0 how], ⟨?_, fun _ _ => trivial⟩, ?_⟩
  · intro _ other member
    cases member
    exact caught
  · simp only [run_cons, run_nil, step, List.getElem?_cons_zero, Option.bind_some, turned,
      Option.map_some, List.set_cons_zero]

/-- What the loop does to its process is a run of one thread. -/
theorem follows_runConsumer (goesOn : GoesOn act)
    (stepped : runConsumer libraries service source act = some target) :
    Follows (ofConsumer source) (ofConsumer target) := by
  have stops : ∀ running, Follows ⟨running, [.working]⟩ ⟨false, [.ended]⟩ := by
    intro running
    have thrown : Follows ⟨running, [.working]⟩ ⟨running, [.catching]⟩ :=
      follows_turn .throwsException rfl rfl
    exact thrown.trans (follows_turn .proceeds rfl rfl)
  cases Java.moved_of_step stepped with
  | append | elsewhere | autoCommit | rebalance => exact .refl _
  | poll looping running =>
      simp only [ofConsumer, looping, running, phaseOf]
      exact follows_turn .proceeds rfl rfl
  | close looping stopped =>
      simp only [ofConsumer, looping, stopped, phaseOf, ConsumerState.close,
        ConsumerState.commitPositions]
      have leaves : Follows ⟨false, [.testing]⟩ ⟨false, [.closing]⟩ :=
        follows_turn .proceeds rfl rfl
      exact leaves.trans (follows_turn .proceeds rfl rfl)
  | advance polling | deliver polling =>
      simp only [ofConsumer, polling, phaseOf, ConsumerState.advance]
      exact .refl _
  | pollThrows polling =>
      simp only [ofConsumer, polling, phaseOf, ConsumerState.close]
      exact stops _
  | process env handling =>
      simp only [ofConsumer, handling, phaseOf, ConsumerState.process]
      split
      · exact .refl _
      · exact stops _
  | skipLagCheck handled =>
      simp only [ofConsumer, handled, phaseOf]
      exact follows_turn .proceeds rfl rfl
  | checkLag endOffsets handled =>
      rcases source.checkLag_eq endOffsets with ⟨world, checked⟩
      simp only [ofConsumer, checked, handled, phaseOf]
      exact follows_turn .proceeds rfl rfl
  | stop => exact ⟨[.stop], ⟨trivial, fun _ _ => trivial⟩, rfl⟩
  | crash | restart => exact goesOn.elim

/-- As long as a process goes on, its thread takes an orderly run. -/
theorem follows_run {acts : List (Java.Action π)} (goesOn : ∀ act ∈ acts, GoesOn act)
    (ran : run (runConsumer libraries service) source acts = some target) :
    Follows (ofConsumer source) (ofConsumer target) := by
  induction acts generalizing source with
  | nil =>
      cases ran
      exact .refl _
  | cons act acts ih =>
      rcases Option.bind_eq_some_iff.mp ran with ⟨middle, stepped, rest⟩
      have first := follows_runConsumer (goesOn act List.mem_cons_self) stepped
      exact first.trans (ih (fun other member => goesOn other (.tail _ member)) rest)

end RunConsumer

/-- An orderly run keeps the consumer sound. -/
theorem Sound.follows {state next : ConsumerThreads} (sound : state.Sound)
    (follows : Follows state next) : next.Sound := by
  rcases follows with ⟨turns, guarded, ran⟩
  have preserved : PreservedWhen step Orderly Sound :=
    fun _ _ _ holds orderly stepped => (holds.step_iff stepped).mpr orderly
  exact preserved.of_run sound guarded ran

/-- The thread of a process that has been started does not end while the flag is up. -/
theorem not_ended_of_running {π : Type} [DecidableEq π] {libraries : Libraries}
    {service : KafkaConsumerService} {source target : ConsumerState π}
    {acts : List (Java.Action π)} (goesOn : ∀ act ∈ acts, GoesOn act)
    (ran : run (runConsumer libraries service) source.restart acts = some target)
    (running : target.running = true) : target.phase ≠ .ended := by
  have started : (ofConsumer source.restart).Sound := by
    constructor
    · exact Nat.le_refl 1
    · intro _
      exact ⟨.testing, List.mem_cons_self, .inl rfl⟩
  intro ended
  have sound := started.follows (follows_run goesOn ran)
  rcases sound.exists_holdsFlag running with ⟨phase, member, holds⟩
  rw [ofConsumer, ended, List.mem_singleton] at member
  subst member
  cases holds

/-! ## Stopping -/

/-- How many turns the threads can take while the flag is down. -/
def left (state : ConsumerThreads) : Nat :=
  (state.threads.map ThreadPhase.left).sum

/-- A turn of a consumer thread. -/
def Action.isTurn : Action → Bool
  | .turn _ _ => true
  | _ => false

/-- The action starts no consumer. -/
def StartsNone (action : Action) : Prop :=
  ∀ webType, action = .start webType → skipsConsumer webType = true

theorem left_le (state : ConsumerThreads) :
    state.left ≤ 5 * state.threads.countP ThreadPhase.live := by
  rw [left]
  induction state.threads with
  | nil => exact Nat.le_refl 0
  | cons phase threads ih =>
      rw [List.map_cons, List.sum_cons, List.countP_cons]
      have own := phase.left_le
      have more : 5 * (if phase.live then 1 else 0) = if phase.live then 5 else 0 := by
        cases phase.live <;> rfl
      rw [Nat.mul_add, more, Nat.add_comm]
      exact Nat.add_le_add ih own

/-- While the flag is down it stays down, and every turn is one fewer to take. -/
theorem usesUp_step :
    UsesUp step (fun _ => StartsNone) (fun state => state.running = false) Action.isTurn left := by
  intro source action target stopped none stepped
  cases moved_of_step stepped with
  | skipped | already => exact ⟨stopped, Nat.le_refl _⟩
  | started serves =>
      rw [none _ rfl] at serves
      cases serves
  | stop => exact ⟨rfl, Nat.le_refl _⟩
  | @turn before others phase next after how split turned =>
      rw [stopped] at turned
      constructor
      · cases after with
        | false => rfl
        | true => cases ThreadPhase.running_of_turn turned rfl
      · have fewer := ThreadPhase.left_of_turn turned
        simp only [left, split, List.map_append, List.map_cons, List.sum_append, List.sum_cons,
          Action.isTurn, if_true]
        omega

/-- While the flag is down, a thread that is live has a turn to take. -/
theorem exists_turn (source : ConsumerThreads) (stopped : source.running = false)
    (busy : source.threads.countP ThreadPhase.live ≠ 0) :
    ∃ action target, (∃ index, action = .turn index .proceeds) ∧
      step source action = some target ∧ target.running = false ∧ target.left < source.left := by
  rcases List.countP_pos_iff.mp (Nat.pos_of_ne_zero busy) with ⟨phase, member, live⟩
  rcases List.mem_iff_getElem?.mp member with ⟨index, there⟩
  rcases ThreadPhase.exists_turn source.running live with ⟨next, after, turned⟩
  have stepped : step source (.turn index .proceeds) =
      some ⟨after, source.threads.set index next⟩ := by
    rw [step, there, Option.bind_some, turned]
    rfl
  have used := usesUp_step stopped (fun _ starts => by cases starts) stepped
  exact ⟨_, _, ⟨index, rfl⟩, stepped, used.1, used.2⟩

/-- Once the flag is down, and until a consumer is started again, it stays down, every live
thread takes five turns at most, and all of them can come to their ends. -/
theorem stopped_consumers_end {state final : ConsumerThreads} {actions : List Action}
    (stopped : state.running = false)
    (unstarted : ∀ webType, .start webType ∈ actions → skipsConsumer webType = true)
    (ran : run step state actions = some final) :
    final.running = false ∧
    actions.countP Action.isTurn ≤ 5 * state.threads.countP ThreadPhase.live ∧
    ∃ turns ended, (∀ turn ∈ turns, ∃ index, turn = .turn index .proceeds) ∧
      run step final turns = some ended ∧ ended.running = false ∧
      ended.threads.countP ThreadPhase.live = 0 := by
  have guarded : Guarded step (fun _ => StartsNone) state actions := by
    apply guarded_of_forall
    intro action member _ webType starts
    rw [starts] at member
    exact unstarted webType member
  have kept : PreservedWhen step (fun _ => StartsNone) fun state => state.running = false :=
    fun _ _ _ stopped none stepped => (usesUp_step stopped none stepped).1
  have finallyStopped := kept.of_run stopped guarded ran
  refine ⟨finallyStopped, ?_, exists_run_to_end exists_turn finallyStopped⟩
  have counted := usesUp_step.countP_le stopped guarded ran
  exact Nat.le_trans (Nat.le_of_add_right_le counted) state.left_le

end ConsumerThreads

end PushCache.Java

namespace PushCache.Sample

open PushCache.Transition
open PushCache.Java PushCache.Java.ConsumerThreads

/-- The consumer is stopped at its loop and ends before it is started again. -/
def restarted : List ConsumerThreads.Action :=
  [.start none, .turn 0 .proceeds, .turn 0 .proceeds, .turn 0 .proceeds, .stop,
    .turn 0 .proceeds, .turn 0 .proceeds, .turn 0 .proceeds, .start none]

/-- The flag is set again before the consumer looks at it, and there are two. -/
example :
    (run step initial [.start none, .turn 0 .proceeds, .turn 0 .proceeds, .stop, .start none,
      .turn 0 .proceeds]).map ConsumerThreads.threads = some [.working, .created] :=
  rfl

/-- A start that meets a consumer in its `catch` is lost. -/
example :
    run step initial [.start none, .turn 0 .proceeds, .turn 0 .throwsException, .start none,
      .turn 0 .proceeds] = some ⟨false, [.ended]⟩ :=
  rfl

theorem consumer_sound_of_restarted :
    ConsumerThreads.Sound ⟨true, [.working]⟩ ∧
      ConsumerThreads.Sound ⟨true, [.ended, .created]⟩ := by
  have ran : run step initial restarted = some ⟨true, [.ended, .created]⟩ := rfl
  have orderly : Guarded step Orderly initial restarted := by
    simp [restarted, Guarded, step, Orderly, initial, ConsumerThreads.start, skipsConsumer,
      ThreadPhase.turn, ThreadPhase.escapes, ThreadPhase.live]
  have sound := (consumer_sound_iff ran).mpr orderly
  constructor
  · exact sound (restarted.take 4) (restarted.drop 4) _ rfl rfl
  · exact sound restarted [] _ rfl ran

/-- A consumer in its loop and one that has been started, after `stop`. -/
def bothStopped : ConsumerThreads :=
  ⟨false, [.working, .created]⟩

/-- The first of them goes back to the test of its loop. -/
theorem stopped_consumers_end_of_bothStopped :
    ∃ turns ended, (∀ turn ∈ turns, ∃ index, turn = .turn index .proceeds) ∧
      run step ⟨false, [.testing, .created]⟩ turns = some ended ∧ ended.running = false ∧
      ended.threads.countP ThreadPhase.live = 0 := by
  have ran : run step bothStopped [.turn 0 .proceeds, .stop] =
      some ⟨false, [.testing, .created]⟩ := rfl
  have unstarted : ∀ webType,
      .start webType ∈ ([.turn 0 .proceeds, .stop] : List ConsumerThreads.Action) →
        skipsConsumer webType = true := by
    intro webType member
    rcases List.mem_cons.mp member with turned | stopped
    · cases turned
    · cases List.mem_singleton.mp stopped
  exact (stopped_consumers_end rfl unstarted ran).2.2

end PushCache.Sample
