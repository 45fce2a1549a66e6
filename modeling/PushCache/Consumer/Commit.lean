import Mathlib.Tactic.Tauto
import PushCache.Consumer.Rebalance
import PushCache.Transition.Core

/-!
# Commits and stops

The client may commit a message's offset as soon as the message is handed over,
while its store writes are still to come.  The transition system below has one
action for every hand-over, store write, commit, stop and restart of one
consumer.  What a committed offset does guarantee is that every message below it
has been handled, except the one being handled and at most one for every stop.
-/

namespace PushCache

open PushCache.Log
open PushCache.Transition

/-! ## The protocol -/

/-- The handling of one delivered message: where it stands, what the handler
knew when it decided, and the store writes still to come. -/
structure Handling (ι : Type) where
  partition : ι
  offset : Nat
  message : Message
  service : MyState
  schemas : UInt32 → Option Schema
  pending : List StoreWrite

namespace Handling

variable {ι : Type}

/-- The position of the message. -/
def place (handling : Handling ι) : ι × Nat :=
  (handling.partition, handling.offset)

/-- The store writes of the message. -/
def writes (crates : Crates) (handling : Handling ι) : List StoreWrite :=
  (command crates handling.service handling.schemas handling.message).writes
    handling.service

end Handling

/-- A consumer with its client, the offsets committed in this run, and what has
happened so far: handled messages, interrupted messages, completed store writes
and the number of stops. -/
structure Process (ι : Type) where
  service : MyState
  world : World
  running : Bool
  position : ι → Nat
  eligible : ι → List Nat
  committed : ι → Option Nat
  current : Option (Handling ι)
  finished : List (Handling ι)
  interrupted : List (Handling ι)
  applied : List ((ι × Nat) × StoreWrite)
  stops : Nat

/-- What a run is about: the partitions' logs, and the offset the group starts
from where nothing has been committed in the run. -/
structure Deployment (ι : Type) where
  crates : Crates
  config : MyConfig
  logs : ι → List Message
  origin : ι → Nat

/-- Everything that can happen. -/
inductive Action (ι : Type) where
  | deliver (partition : ι) (env : Env)
  | write (env : Env)
  | finish
  | commit (partition : ι) (offset : Nat)
  | close
  | crash
  | restart (order : RandomState) (boot : Boot)

namespace Process

variable {ι : Type}

/-- The consumer is gone, and with it the handling of the current message. -/
def stop (process : Process ι) : Process ι :=
  { process with
    running := false
    current := none
    interrupted := process.current.toList ++ process.interrupted
    stops := process.stops + 1 }

/-- Closing the client commits the latest eligible offset of each partition. -/
def commitEligible (process : Process ι) : Process ι :=
  { process with
    committed := fun partition =>
      (process.eligible partition).head?.or (process.committed partition) }

/-- Make the next store write of the current message.  A failing write ends the
consumer, which closes the client. -/
def write (process : Process ι) (env : Env) : Option (Process ι) :=
  match process.current with
  | none => none
  | some handling =>
      match handling.pending with
      | [] => none
      | write :: pending =>
          match perform env write process.world with
          | (.ok _, world) =>
              some { process with
                world
                current := some { handling with pending }
                applied := process.applied ++ [(handling.place, write)] }
          | (.error _, world) => some { process.commitEligible with world }.stop

/-- The handler returns. -/
def finish (process : Process ι) : Option (Process ι) :=
  match process.current with
  | none => none
  | some handling =>
      match handling.pending with
      | [] =>
          some { process with
            current := none
            finished := handling :: process.finished }
      | _ :: _ => none

/-- The messages handed over so far. -/
def handlings (process : Process ι) : List (Handling ι) :=
  process.current.toList ++ (process.interrupted ++ process.finished)

/-- The positions of the messages handed over so far. -/
def places (process : Process ι) : List (ι × Nat) :=
  process.handlings.map Handling.place

end Process

namespace Deployment

variable {ι : Type} (deployment : Deployment ι)

/-- Where a new consumer starts to read, given the group's offset. -/
def resume (committed : Nat) : Nat :=
  if deployment.config.kafka.forceResetEarliest then 0 else committed

/-- Where the run starts to read a partition. -/
def start (partition : ι) : Nat :=
  deployment.resume (deployment.origin partition)

/-- A consumer that has just started. -/
def initial (service : MyState) (world : World) : Process ι where
  service
  world
  running := true
  position := deployment.start
  eligible := fun _ => []
  committed := fun _ => none
  current := none
  finished := []
  interrupted := []
  applied := []
  stops := 0

/-- Hand over the next message of a partition: the handler resolves its schema
and decides, and the offset after it becomes eligible for commit. -/
def deliver [DecidableEq ι] (process : Process ι) (partition : ι) (env : Env) :
    Option (Process ι) :=
  match process.running, process.current,
      (deployment.logs partition)[process.position partition]? with
  | true, none, some message =>
      let resolved :=
        resolveMessage deployment.crates process.service env message process.world
      let decided :=
        command deployment.crates process.service resolved.schemaOf message
      let next := process.position partition + 1
      some { process with
        world := decided.note resolved
        position := Function.update process.position partition next
        eligible :=
          Function.update process.eligible partition (next :: process.eligible partition)
        current := some
          { partition
            offset := process.position partition
            message
            service := process.service
            schemas := resolved.schemaOf
            pending := decided.writes process.service } }
  | _, _, _ => none

/-- Start the service again.  It reads from the committed offsets, or from the
beginning when a reset is forced. -/
def restart (process : Process ι) (order : RandomState) (boot : Boot) :
    Option (Process ι) :=
  match process.running,
      MyState.new deployment.crates order boot deployment.config
        process.world.contents with
  | false, .ok (service, world) =>
      some { process with
        service
        world
        running := true
        position := fun partition => deployment.resume
          ((process.committed partition).getD (deployment.origin partition))
        eligible := fun _ => [] }
  | _, _ => none

/-- The transition system. -/
def step [DecidableEq ι] : Step (Process ι) (Action ι)
  | process, .deliver partition env => deployment.deliver process partition env
  | process, .write env => process.write env
  | process, .finish => process.finish
  | process, .commit partition offset =>
      if process.running ∧ offset ∈ process.eligible partition then
        some { process with
          committed := Function.update process.committed partition (some offset) }
      else
        none
  | process, .close => if process.running then some process.commitEligible.stop else none
  | process, .crash => if process.running then some process.stop else none
  | process, .restart order boot => deployment.restart process order boot

/-! ## What a committed offset guarantees -/

/-- The handler decides by the service and by the schemas it knows at the hand-over. -/
structure Decided (process : Process ι) (env : Env) (handling : Handling ι) : Prop where
  offset : handling.offset = process.position handling.partition
  service : handling.service = process.service
  schemas : handling.schemas =
    (resolveMessage deployment.crates process.service env handling.message
      process.world).schemaOf

/-- What a hand-over changes. -/
structure Delivered [DecidableEq ι] (process next : Process ι) (partition : ι) (env : Env)
    (handling : Handling ι) : Prop where
  idle : process.current = none
  decided : deployment.Decided process env handling
  place : handling.place = (partition, process.position partition)
  message : (deployment.logs partition)[process.position partition]? =
    some handling.message
  pending : handling.pending = handling.writes deployment.crates
  current : next.current = some handling
  position : next.position =
    Function.update process.position partition (process.position partition + 1)
  eligible : next.eligible = Function.update process.eligible partition
    ((process.position partition + 1) :: process.eligible partition)
  committed : next.committed = process.committed
  finished : next.finished = process.finished
  interrupted : next.interrupted = process.interrupted
  applied : next.applied = process.applied
  stops : next.stops = process.stops
  view : next.world.view = process.world.view

variable {deployment} {process next : Process ι}

theorem delivered_of_deliver [DecidableEq ι] {partition : ι} {env : Env}
    (ok : deployment.deliver process partition env = some next) :
    ∃ handling, deployment.Delivered process next partition env handling := by
  simp only [deliver] at ok
  split at ok
  case h_1 idle found =>
    cases ok
    exact ⟨_, idle, ⟨rfl, rfl, rfl⟩, rfl, found, rfl, rfl, rfl, rfl, rfl, rfl, rfl, rfl, rfl, by
      rw [Command.view_note, resolveMessage_view]⟩
  case h_2 => cases ok

/-- What holds in every state of a run: every position up to the client's, or up
to a committed offset, has been handed over; a handled message has had all its
writes, and the current one has had those that are not still to come; and no
stop interrupts more than one message. -/
structure Sound (deployment : Deployment ι) (process : Process ι) : Prop where
  reached : ∀ partition offset, deployment.start partition ≤ offset →
    offset < process.position partition → (partition, offset) ∈ process.places
  eligible : ∀ partition, ∀ offset ∈ process.eligible partition,
    offset ≤ process.position partition
  committed : ∀ partition bound, process.committed partition = some bound →
    ∀ offset, deployment.start partition ≤ offset → offset < bound →
      (partition, offset) ∈ process.places
  delivered : ∀ handling ∈ process.handlings,
    (deployment.logs handling.partition)[handling.offset]? = some handling.message
  finished : ∀ handling ∈ process.finished,
    ∀ write ∈ handling.writes deployment.crates, (handling.place, write) ∈ process.applied
  current : ∀ handling, process.current = some handling →
    ∀ write ∈ handling.writes deployment.crates,
      (handling.place, write) ∈ process.applied ∨ write ∈ handling.pending
  interrupted : process.interrupted.length ≤ process.stops

theorem sound_initial (service : MyState) (world : World) :
    deployment.Sound (deployment.initial service world) where
  reached := by
    intro partition offset fromStart before
    exact absurd fromStart (Nat.not_le.mpr before)
  eligible := by simp [initial]
  committed := by simp [initial]
  delivered := by simp [initial, Process.handlings]
  finished := by simp [initial]
  current := by simp [initial]
  interrupted := Nat.le_refl 0

theorem Delivered.handlings_eq [DecidableEq ι] {partition : ι} {env : Env}
    {handling : Handling ι} (spec : deployment.Delivered process next partition env handling) :
    next.handlings = handling :: process.handlings := by
  simp [Process.handlings, spec.current, spec.idle, spec.interrupted, spec.finished]

theorem Sound.deliver [DecidableEq ι] (sound : deployment.Sound process) {partition : ι}
    {env : Env} {handling : Handling ι}
    (spec : deployment.Delivered process next partition env handling) :
    deployment.Sound next := by
  have handlingsEq := spec.handlings_eq
  have grown : ∀ place ∈ process.places, place ∈ next.places := by
    intro place member
    rw [Process.places, handlingsEq]
    exact List.mem_cons_of_mem _ member
  constructor
  case reached =>
    intro other offset fromStart before
    rw [spec.position] at before
    by_cases here : other = partition
    · subst other
      rw [Function.update_self] at before
      rcases Nat.lt_succ_iff_lt_or_eq.mp before with earlier | rfl
      · exact grown _ (sound.reached partition offset fromStart earlier)
      · rw [Process.places, handlingsEq, List.map_cons, spec.place]
        exact List.mem_cons_self
    · rw [Function.update_of_ne here] at before
      exact grown _ (sound.reached other offset fromStart before)
  case eligible =>
    intro other offset member
    rw [spec.eligible] at member
    rw [spec.position]
    by_cases here : other = partition
    · subst other
      rw [Function.update_self, List.mem_cons] at member
      rw [Function.update_self]
      rcases member with rfl | earlier
      · exact Nat.le_refl _
      · exact Nat.le_succ_of_le (sound.eligible partition offset earlier)
    · rw [Function.update_of_ne here] at member ⊢
      exact sound.eligible other offset member
  case committed =>
    intro other bound committed offset fromStart before
    rw [spec.committed] at committed
    exact grown _ (sound.committed other bound committed offset fromStart before)
  case delivered =>
    intro other member
    rw [handlingsEq] at member
    rcases List.mem_cons.mp member with rfl | earlier
    · rcases Prod.mk.inj spec.place with ⟨rfl, offset⟩
      rw [offset]
      exact spec.message
    · exact sound.delivered other earlier
  case finished =>
    rw [spec.finished, spec.applied]
    exact sound.finished
  case current =>
    intro other current write member
    rw [spec.current] at current
    cases current
    rw [spec.pending]
    exact Or.inr member
  case interrupted =>
    rw [spec.interrupted, spec.stops]
    exact sound.interrupted

theorem mem_handlings_stop (process : Process ι) (handling : Handling ι) :
    handling ∈ process.stop.handlings ↔ handling ∈ process.handlings := by
  simp only [Process.handlings, Process.stop, Option.toList_none, List.nil_append,
    List.append_assoc]

theorem places_stop (process : Process ι) : process.stop.places = process.places := by
  simp only [Process.places, Process.handlings, Process.stop, Option.toList_none,
    List.nil_append, List.append_assoc]

/-- Stopping moves the current message to the interrupted ones. -/
theorem Sound.stop (sound : deployment.Sound process) :
    deployment.Sound process.stop where
  reached := by
    rw [places_stop]
    exact sound.reached
  eligible := sound.eligible
  committed := by
    rw [places_stop]
    exact sound.committed
  delivered := by
    intro handling member
    exact sound.delivered handling ((mem_handlings_stop process handling).mp member)
  finished := sound.finished
  current := by
    rintro handling ⟨⟩
  interrupted := by
    have atMostOne : process.current.toList.length ≤ 1 := by
      cases process.current <;> simp
    have before := sound.interrupted
    simp only [Process.stop, List.length_append]
    omega

/-- Every offset that is eligible may be committed. -/
theorem Sound.commit (sound : deployment.Sound process)
    {committed : ι → Option Nat}
    (allowed : ∀ partition bound, committed partition = some bound →
      bound ∈ process.eligible partition ∨ process.committed partition = some bound) :
    deployment.Sound { process with committed } where
  reached := sound.reached
  eligible := sound.eligible
  committed := by
    intro partition bound isCommitted offset fromStart before
    rcases allowed partition bound isCommitted with eligible | already
    · exact sound.reached partition offset fromStart
        (Nat.lt_of_lt_of_le before (sound.eligible partition bound eligible))
    · exact sound.committed partition bound already offset fromStart before
  delivered := sound.delivered
  finished := sound.finished
  current := sound.current
  interrupted := sound.interrupted

theorem Sound.commitEligible (sound : deployment.Sound process) :
    deployment.Sound process.commitEligible := by
  apply sound.commit
  intro partition bound isCommitted
  rcases Option.or_eq_some_iff.mp isCommitted with latest | ⟨_, already⟩
  · exact Or.inl (List.mem_of_head? latest)
  · exact Or.inr already

theorem Sound.write (sound : deployment.Sound process) {env : Env}
    (written : process.write env = some next) : deployment.Sound next := by
  simp only [Process.write] at written
  split at written
  case h_1 => cases written
  case h_2 handling current =>
    split at written
    case h_1 => cases written
    case h_2 write pending pendingEq =>
      split at written
      case h_1 =>
        cases written
        have samePlaces : process.places =
            handling.place :: (process.interrupted ++ process.finished).map Handling.place := by
          simp [Process.places, Process.handlings, current]
        rcases sound with
          ⟨reached, eligible, committed, delivered, finished, soFar, interrupted⟩
        rw [samePlaces] at reached committed
        constructor
        case reached => exact reached
        case eligible => exact eligible
        case committed => exact committed
        case delivered =>
          intro other member
          rcases List.mem_cons.mp member with rfl | earlier
          · exact delivered handling (by simp [Process.handlings, current])
          · exact delivered other (List.mem_append_right _ earlier)
        case finished =>
          intro other member own ownMem
          exact List.mem_append_left _ (finished other member own ownMem)
        case current =>
          rintro other ⟨⟩ own ownMem
          rcases soFar handling current own ownMem with done | toCome
          · exact Or.inl (List.mem_append_left _ done)
          · rw [pendingEq, List.mem_cons] at toCome
            rcases toCome with rfl | later
            · exact Or.inl (List.mem_append_right _ List.mem_cons_self)
            · exact Or.inr later
        case interrupted => exact interrupted
      case h_2 failed =>
        cases written
        rw [perform_eq_of_error failed]
        exact sound.commitEligible.stop

theorem Sound.finish (sound : deployment.Sound process)
    (returned : process.finish = some next) : deployment.Sound next := by
  simp only [Process.finish] at returned
  split at returned
  case h_1 => cases returned
  case h_2 handling current =>
    split at returned
    case h_1 pendingEq =>
      cases returned
      have sameHandlings : ∀ other, other ∈ process.handlings ↔
          other ∈ process.interrupted ++ handling :: process.finished := by
        intro other
        simp only [Process.handlings, current, Option.toList_some, List.mem_append,
          List.mem_cons, List.not_mem_nil, or_false]
        tauto
      have samePlaces : ∀ place, place ∈ process.places →
          place ∈ (process.interrupted ++ handling :: process.finished).map
            Handling.place := by
        intro place member
        rcases List.mem_map.mp member with ⟨other, otherMem, rfl⟩
        exact List.mem_map_of_mem ((sameHandlings other).mp otherMem)
      constructor
      case reached =>
        intro partition offset fromStart before
        exact samePlaces _ (sound.reached partition offset fromStart before)
      case eligible => exact sound.eligible
      case committed =>
        intro partition bound committed offset fromStart before
        exact samePlaces _ (sound.committed partition bound committed offset fromStart before)
      case delivered =>
        intro other member
        exact sound.delivered other ((sameHandlings other).mpr member)
      case finished =>
        intro other member write writeMem
        rcases List.mem_cons.mp member with rfl | earlier
        · rcases sound.current _ current write writeMem with done | toCome
          · exact done
          · rw [pendingEq] at toCome
            cases toCome
        · exact sound.finished other earlier write writeMem
      case current => rintro other ⟨⟩
      case interrupted => exact sound.interrupted
    case h_2 => cases returned

theorem Sound.restart (sound : deployment.Sound process) {order : RandomState}
    {boot : Boot} (restarted : deployment.restart process order boot = some next) :
    deployment.Sound next := by
  simp only [Deployment.restart] at restarted
  split at restarted
  case h_1 =>
    cases restarted
    constructor
    case reached =>
      intro partition offset fromStart before
      simp only [start, resume] at fromStart before
      by_cases forced : deployment.config.kafka.forceResetEarliest
      · simp [forced] at before
      · simp only [forced, Bool.false_eq_true, if_false] at fromStart before
        cases committed : process.committed partition with
        | none =>
            rw [committed, Option.getD_none] at before
            exact absurd fromStart (Nat.not_le.mpr before)
        | some bound =>
            rw [committed, Option.getD_some] at before
            apply sound.committed partition bound committed offset _ before
            simpa [start, resume, forced] using fromStart
    case eligible => simp
    case committed => exact sound.committed
    case delivered => exact sound.delivered
    case finished => exact sound.finished
    case current => exact sound.current
    case interrupted => exact sound.interrupted
  case h_2 => cases restarted

/-- Every step keeps the invariant. -/
theorem sound_preserved [DecidableEq ι] : Preserved deployment.step deployment.Sound := by
  intro process action next sound stepped
  cases action with
  | deliver partition env =>
      rcases delivered_of_deliver stepped with ⟨handling, spec⟩
      exact sound.deliver spec
  | write env => exact sound.write stepped
  | finish => exact sound.finish stepped
  | commit partition offset =>
      simp only [step] at stepped
      split at stepped
      · next enabled =>
          cases stepped
          apply sound.commit
          intro other bound committed
          by_cases here : other = partition
          · subst other
            rw [Function.update_self] at committed
            cases committed
            exact Or.inl enabled.2
          · rw [Function.update_of_ne here] at committed
            exact Or.inr committed
      · cases stepped
  | close =>
      simp only [step] at stepped
      split at stepped
      · cases stepped
        exact sound.commitEligible.stop
      · cases stepped
  | crash =>
      simp only [step] at stepped
      split at stepped
      · cases stepped
        exact sound.stop
      · cases stepped
  | restart order boot => exact sound.restart stepped

/-! ### Completed writes and the remote stores -/

/-- The records of the remote stores are those of `initial` with the completed
writes on top. -/
def Recorded (initial : World) (process : Process ι) : Prop :=
  ∀ backend key, process.world.view (.remote backend, key) =
    (Patch.latest (process.applied.map fun entry => entry.2.patch)).apply initial.view
      (.remote backend, key)

theorem recorded_preserved [DecidableEq ι] (initial : World) :
    Preserved deployment.step (Recorded initial) := by
  intro process action next recorded stepped backend key
  cases action with
  | deliver partition env =>
      rcases delivered_of_deliver stepped with ⟨handling, spec⟩
      rw [spec.view, spec.applied]
      exact recorded backend key
  | write env =>
      simp only [step, Process.write] at stepped
      split at stepped
      · cases stepped
      · split at stepped
        · cases stepped
        · split at stepped
          · next performed =>
              cases stepped
              rw [perform_view_of_ok performed, List.map_append, Patch.apply_latest_append]
              simp only [List.map_cons, List.map_nil, Patch.latest_singleton]
              simp only [Patch.apply]
              rw [recorded backend key]
              rfl
          · next failed =>
              cases stepped
              rw [perform_eq_of_error failed]
              exact recorded backend key
  | finish =>
      simp only [step, Process.finish] at stepped
      split at stepped
      · cases stepped
      · split at stepped <;> cases stepped
        exact recorded backend key
  | commit partition offset =>
      simp only [step] at stepped
      split at stepped <;> cases stepped
      exact recorded backend key
  | close =>
      simp only [step] at stepped
      split at stepped <;> cases stepped
      exact recorded backend key
  | crash =>
      simp only [step] at stepped
      split at stepped <;> cases stepped
      exact recorded backend key
  | restart order boot =>
      simp only [step, restart] at stepped
      split at stepped
      · next started =>
          cases stepped
          rcases MyState.new_eq_ok started with ⟨_, _, _, _, _, rfl⟩
          exact recorded backend key
      · cases stepped

/-! ### Where a message was handed over -/

/-- The message has been handed over, whatever writes are still to come. -/
def HandedOver (process : Process ι) (handling : Handling ι) : Prop :=
  ∃ pending, { handling with pending } ∈ process.handlings

theorem HandedOver.of_handlings {handling : Handling ι}
    (same : ∀ other, other ∈ next.handlings → other ∈ process.handlings)
    (handed : HandedOver next handling) : HandedOver process handling := by
  rcases handed with ⟨pending, member⟩
  exact ⟨pending, same _ member⟩

theorem mem_handlings_finish (returned : process.finish = some next) (handling : Handling ι)
    (member : handling ∈ next.handlings) : handling ∈ process.handlings := by
  simp only [Process.finish] at returned
  split at returned
  · cases returned
  · next own current =>
      split at returned
      · cases returned
        simp only [Process.handlings, current, Option.toList_some, Option.toList_none,
          List.mem_append, List.mem_cons, List.not_mem_nil, or_false, false_or] at member ⊢
        tauto
      · cases returned

theorem HandedOver.of_write {env : Env} (written : process.write env = some next)
    {handling : Handling ι} (handed : HandedOver next handling) :
    HandedOver process handling := by
  simp only [Process.write] at written
  split at written
  · cases written
  · next own current =>
      split at written
      · cases written
      · split at written
        · cases written
          rcases handed with ⟨pending, member⟩
          rcases List.mem_cons.mp member with same | earlier
          · refine ⟨own.pending, List.mem_append_left _ (Option.mem_toList.mpr ?_)⟩
            rw [current]
            rcases own with ⟨_, _, _, _, _, _⟩
            cases same
            rfl
          · exact ⟨pending, List.mem_append_right _ earlier⟩
        · cases written
          exact handed.of_handlings fun other => (mem_handlings_stop _ other).mp

/-- A message has been handed over before a step, or is by the step. -/
theorem handedOver_traced [DecidableEq ι] (handling : Handling ι) {action : Action ι}
    (stepped : deployment.step process action = some next) (handed : HandedOver next handling) :
    HandedOver process handling ∨
      ∃ env, action = .deliver handling.partition env ∧
        deployment.Decided process env handling := by
  cases action with
  | deliver partition env =>
      rcases delivered_of_deliver stepped with ⟨own, spec⟩
      rcases handed with ⟨pending, member⟩
      rw [spec.handlings_eq] at member
      rcases List.mem_cons.mp member with rfl | earlier
      · right
        refine ⟨env, ?_, spec.decided.offset, spec.decided.service, spec.decided.schemas⟩
        rw [← (Prod.mk.inj spec.place).1]
      · exact Or.inl ⟨pending, earlier⟩
  | write env => exact Or.inl (handed.of_write stepped)
  | finish => exact Or.inl (handed.of_handlings (mem_handlings_finish stepped))
  | commit partition offset =>
      simp only [step] at stepped
      split at stepped <;> cases stepped
      exact Or.inl handed
  | close =>
      simp only [step] at stepped
      split at stepped <;> cases stepped
      exact Or.inl (handed.of_handlings fun other => (mem_handlings_stop _ other).mp)
  | crash =>
      simp only [step] at stepped
      split at stepped <;> cases stepped
      exact Or.inl (handed.of_handlings fun other => (mem_handlings_stop _ other).mp)
  | restart order boot =>
      simp only [step, restart] at stepped
      split at stepped <;> cases stepped
      exact Or.inl handed

/-- Every message handed over in a run was decided in the state of its hand-over. -/
theorem exists_delivery [DecidableEq ι] {service : MyState} {world : World}
    {actions : List (Action ι)} {final : Process ι}
    (ran : run deployment.step (deployment.initial service world) actions = some final)
    {handling : Handling ι} (member : handling ∈ final.handlings) :
    ∃ earlier env later reached,
      actions = earlier ++ .deliver handling.partition env :: later ∧
        run deployment.step (deployment.initial service world) earlier = some reached ∧
        deployment.Decided reached env handling := by
  have fresh : ¬HandedOver (deployment.initial service world) handling := by
    rintro ⟨pending, member⟩
    cases member
  rcases exists_cause_of_run (fun _ _ _ => handedOver_traced handling) fresh ran
    ⟨handling.pending, member⟩ with ⟨earlier, _, later, reached, split, ranTo, env, rfl, decided⟩
  exact ⟨earlier, env, later, reached, split, ranTo, decided⟩

/-! ### The guarantee -/

/-- Below a committed offset every message from the start of the run on has been
handled and has had all its store writes, except the message being handled and
at most one interrupted message for every stop.  The store writes of a message are
those its handler decided on when it was handed over, by the service and the schemas
of that moment. -/
theorem commit_accounted [DecidableEq ι] (deployment : Deployment ι) {service : MyState}
    {world : World} {actions : List (Action ι)} {final : Process ι}
    (ran : run deployment.step (deployment.initial service world) actions = some final) :
    (∀ partition bound, final.committed partition = some bound →
      ∀ offset, deployment.start partition ≤ offset → offset < bound →
        (∃ handling ∈ final.finished, handling.place = (partition, offset)) ∨
          (∃ handling, final.current = some handling ∧
            handling.place = (partition, offset)) ∨
          ∃ handling ∈ final.interrupted, handling.place = (partition, offset)) ∧
      (∀ handling ∈ final.finished,
        (deployment.logs handling.partition)[handling.offset]? = some handling.message ∧
          (∃ earlier env later reached,
            actions = earlier ++ .deliver handling.partition env :: later ∧
              run deployment.step (deployment.initial service world) earlier = some reached ∧
              deployment.Decided reached env handling) ∧
          ∀ write ∈ handling.writes deployment.crates,
            (handling.place, write) ∈ final.applied) ∧
      (∀ backend key, final.world.view (.remote backend, key) =
        (Patch.latest (final.applied.map fun entry => entry.2.patch)).apply world.view
          (.remote backend, key)) ∧
      final.interrupted.length ≤ final.stops := by
  have sound : deployment.Sound final :=
    sound_preserved.of_run (sound_initial service world) ran
  have recorded : Recorded world final :=
    (recorded_preserved world).of_run (fun _ _ => rfl) ran
  refine ⟨?_, ?_, recorded, sound.interrupted⟩
  · intro partition bound committed offset fromStart before
    obtain ⟨handling, member, place⟩ :=
      List.mem_map.mp (sound.committed partition bound committed offset fromStart before)
    simp only [Process.handlings, List.mem_append, Option.mem_toList] at member
    rcases member with current | interrupted | finished
    · exact Or.inr (Or.inl ⟨handling, current, place⟩)
    · exact Or.inr (Or.inr ⟨handling, interrupted, place⟩)
    · exact Or.inl ⟨handling, finished, place⟩
  · intro handling member
    have handed : handling ∈ final.handlings :=
      List.mem_append_right _ (List.mem_append_right _ member)
    exact ⟨sound.delivered handling handed, exists_delivery ran handed,
      sound.finished handling member⟩

/-! ### An undisturbed handling is the handler -/

/-- The current message's writes, one after the other. -/
theorem run_writes [DecidableEq ι] (deployment : Deployment ι) {env : Env}
    {writes : List StoreWrite} {process : Process ι} {handling : Handling ι} {world : World}
    (current : process.current = some handling) (pending : handling.pending = writes)
    (performed : tryForEach (perform env) writes process.world = (.ok (), world)) :
    run deployment.step process (List.replicate writes.length (.write env)) =
      some { process with
        world
        current := some { handling with pending := [] }
        applied := process.applied ++ writes.map fun write => (handling.place, write) } := by
  induction writes generalizing process handling with
  | nil =>
      cases performed
      rcases handling with ⟨_, _, _, _, _, _⟩
      rcases process with ⟨_, _, _, _, _, _, _, _, _, _, _⟩
      cases current
      cases pending
      simp
  | cons write writes ih =>
      rcases outcome : perform env write process.world with ⟨_ | _, middle⟩
      · rw [tryForEach_cons_of_error outcome] at performed
        cases performed
      · rw [tryForEach_cons_of_ok outcome] at performed
        have written : deployment.step process (.write env) = some { process with
            world := middle
            current := some { handling with pending := writes }
            applied := process.applied ++ [(handling.place, write)] } := by
          simp only [step, Process.write, current, pending, outcome]
        rw [List.length_cons, List.replicate_succ, run_cons, written, Option.bind_some,
          ih rfl rfl performed]
        simp [Handling.place]

/-- Delivering a message, making all its writes and returning, with nothing in
between, has the effect of the handler on the world. -/
theorem run_handling [DecidableEq ι] (deployment : Deployment ι) {env : Env}
    {process : Process ι} {partition : ι} {message : Message} {world : World}
    (running : process.running = true) (idle : process.current = none)
    (found : (deployment.logs partition)[process.position partition]? = some message)
    (handled : handleMessage deployment.crates process.service env message process.world =
      (.ok (), world)) :
    ∃ count final, run deployment.step process
        (.deliver partition env :: (List.replicate count (.write env) ++ [.finish])) =
          some final ∧
      final.world = world ∧ final.current = none := by
  rw [handleMessage_eq] at handled
  obtain ⟨first, handling, delivered, worldEq, current, pending⟩ :
      ∃ first handling, deployment.step process (.deliver partition env) = some first ∧
        first.world = (command deployment.crates process.service
          (resolveMessage deployment.crates process.service env message
            process.world).schemaOf message).note
          (resolveMessage deployment.crates process.service env message process.world) ∧
        first.current = some handling ∧
        handling.pending = (command deployment.crates process.service
          (resolveMessage deployment.crates process.service env message
            process.world).schemaOf message).writes process.service := by
    simp only [step, deliver, running, idle, found]
    exact ⟨_, _, rfl, rfl, rfl, rfl⟩
  rw [← worldEq, ← pending] at handled
  have written := run_writes deployment current rfl handled
  refine ⟨handling.pending.length, ?_⟩
  rw [run_cons, delivered, Option.bind_some, run_append, written, Option.bind_some]
  exact ⟨_, rfl, rfl, rfl⟩

end Deployment

/-! ## A commit before the write -/

namespace Sample

/-- One partition with one record, over Redis, without a forced reset. -/
def deployment : Deployment Unit where
  crates := crates
  config := { config redis with kafka := { kafka with forceResetEarliest := false } }
  logs := fun _ => [record 1]
  origin := fun _ => 0

def process : Process Unit :=
  deployment.initial (state redis) (world fun _ => ∅)

end Sample

/-- The offset after the record is committed before its insert; a crash and a
restart later the record is neither stored nor read again. -/
theorem commit_overtakes_insert :
    ∃ final, run Sample.deployment.step Sample.process
        [.deliver () Sample.env, .commit () 1, .crash, .restart Sample.order Sample.boot] =
          some final ∧
      final.committed () = some 1 ∧ final.position () = 1 ∧
      command Sample.crates (Sample.state Sample.redis)
          (registry Sample.crates (Sample.state Sample.redis) Sample.env)
          (Sample.record 1) =
        .insert (Sample.cache Sample.redis) "k" (Sample.payload 1) ∧
      final.applied = [] ∧
      final.world.view ((Sample.cache Sample.redis).location "k") = none :=
  ⟨_, rfl, rfl, rfl, rfl, rfl, by decide⟩

/-- In an undisturbed run the committed record has been stored. -/
theorem commit_accounted_sample :
    ∃ final, run Sample.deployment.step Sample.process
        [.deliver () Sample.env, .write Sample.env, .finish, .commit () 1] = some final ∧
      ∃ handling ∈ final.finished, handling.place = ((), 0) := by
  refine ⟨_, rfl, ?_⟩
  obtain ⟨accounted, _⟩ := Deployment.commit_accounted Sample.deployment
    (show run Sample.deployment.step
        (Sample.deployment.initial (Sample.state Sample.redis) (Sample.world fun _ => ∅))
        [.deliver () Sample.env, .write Sample.env, .finish, .commit () 1] = some _ from rfl)
  rcases accounted () 1 rfl 0 (Nat.le_refl 0) Nat.one_pos with
    finished | ⟨_, current, _⟩ | ⟨_, interrupted, _⟩
  · exact finished
  · cases current
  · cases interrupted

end PushCache
