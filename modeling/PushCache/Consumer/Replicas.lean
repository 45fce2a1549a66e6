import PushCache.Consumer.Compaction
import PushCache.Log.Redelivery
import PushCache.Transition.Core

/-!
# Replicas sharing one store

The replicas of a consumer group share a Redis store.  A replica reads the
partitions it owns and sends one write after the other; a partition may move to
another replica, at an offset the group has already reached, while a write of it
is still on its way.  A late write of the old owner can then undo a newer one.
Where a partition only moves when none of its writes is on its way, the store
converges to the log.
-/

namespace PushCache

open PushCache.Log
open PushCache.Transition

/-! ## The protocol -/

/-- The replicas' configuration, the schema of every id, and the log of every
partition. -/
structure Group (ι : Type) where
  crates : Crates
  state : MyState
  schemas : UInt32 → Option Schema
  logs : ι → List Message

/-- The shared stores, the owner and the position of every partition, and the
writes every replica has sent and Redis has not yet received. -/
structure Cluster (ρ ι : Type) where
  shared : World
  owner : ι → Option ρ
  position : ι → Nat
  inFlight : ρ → List (ι × StoreWrite)

namespace Cluster

inductive Action (ρ ι : Type) where
  | deliver (partition : ι)
  | arrive (replica : ρ)
  | reassign (partition : ι) (replica : ρ) (position : Nat)

variable {ρ ι : Type}

/-- No partition is assigned yet. -/
def initial (shared : World) : Cluster ρ ι :=
  ⟨shared, fun _ => none, fun _ => 0, fun _ => []⟩

/-- The next write of a replica reaches Redis. -/
def arrive [DecidableEq ρ] (cluster : Cluster ρ ι) (replica : ρ) :
    Option (Cluster ρ ι) :=
  match cluster.inFlight replica with
  | [] => none
  | (_, write) :: later =>
      some { cluster with
        shared := write.effect cluster.shared
        inFlight := Function.update cluster.inFlight replica later }

/-- A partition moves to a replica, which reads it from an offset that has been
reached.  Nobody waits for writes on their way. -/
def reassign [DecidableEq ι] (cluster : Cluster ρ ι) (partition : ι) (replica : ρ)
    (position : Nat) : Option (Cluster ρ ι) :=
  if position ≤ cluster.position partition then
    some { cluster with
      owner := Function.update cluster.owner partition (some replica)
      position := Function.update cluster.position partition position }
  else
    none

/-- Everything is delivered and nothing is on its way. -/
def Quiet (cluster : Cluster ρ ι) (group : Group ι) : Prop :=
  (∀ partition, cluster.position partition = (group.logs partition).length) ∧
    ∀ replica, cluster.inFlight replica = []

/-- A partition moves only when none of its writes is on its way. -/
def Drained (cluster : Cluster ρ ι) : Action ρ ι → Prop
  | .reassign partition _ _ =>
      ∀ replica, ∀ entry ∈ cluster.inFlight replica, entry.1 ≠ partition
  | _ => True

/-- The writes of a partition's owner that are on their way. -/
def ownerWrites (cluster : Cluster ρ ι) (partition : ι) : List StoreWrite :=
  match cluster.owner partition with
  | some replica => (cluster.inFlight replica).map Prod.snd
  | none => []

end Cluster

namespace Group

variable {ρ ι : Type} [DecidableEq ρ] [DecidableEq ι] (group : Group ι)

/-- The writes a replica makes for a message. -/
def writes (message : Message) : List StoreWrite :=
  (command group.crates group.state group.schemas message).writes group.state

/-- The owner of a partition handles its next message, once it is done with the
one before. -/
def deliver (cluster : Cluster ρ ι) (partition : ι) : Option (Cluster ρ ι) :=
  match cluster.owner partition with
  | none => none
  | some replica =>
      match cluster.inFlight replica,
          (group.logs partition)[cluster.position partition]? with
      | [], some message =>
          some { cluster with
            position := Function.update cluster.position partition
              (cluster.position partition + 1)
            inFlight := Function.update cluster.inFlight replica
              ((group.writes message).map (Prod.mk partition)) }
      | _, _ => none

/-- The transition system. -/
def step : Step (Cluster ρ ι) (Cluster.Action ρ ι)
  | cluster, .deliver partition => group.deliver cluster partition
  | cluster, .arrive replica => cluster.arrive replica
  | cluster, .reassign partition replica position =>
      cluster.reassign partition replica position

end Group

theorem map_snd_map_mk {ι : Type} (partition : ι) (writes : List StoreWrite) :
    (writes.map (Prod.mk partition)).map Prod.snd = writes := by
  simp

/-- A write that reaches its remote store is the store call of the handler. -/
theorem perform_remote {env : Env} {write : StoreWrite}
    (remote : write.cache.storeType ≠ .inMemory)
    (accepted : env.faults (.write write) = none) (world : World) :
    perform env write world = (.ok (), write.effect world) := by
  rw [perform_eq, StoreWrite.fault, if_neg remote, accepted, StoreWrite.growth,
    if_neg remote, World.resize_zero]

/-- A replica that resolves the message's schema id as the group does sends the
group's writes for the message, one after the other. -/
theorem Group.handleMessage_eq {ι : Type} (group : Group ι) {env : Env} {message : Message}
    {world : World}
    (agree : ∀ id, messageId group.crates message = some id →
      learn group.crates group.state (env, message) world.schemaOf id = group.schemas id) :
    ∃ noted, noted.view = world.view ∧
      handleMessage group.crates group.state env message world =
        tryForEach (perform env) (group.writes message) noted := by
  rw [PushCache.handleMessage_eq, resolveMessage_schemaOf, command_congr agree]
  exact ⟨_, by rw [Command.view_note, resolveMessage_view], rfl⟩

/-! ## Convergence at one location -/

section Location

variable {ρ ι : Type} [DecidableEq ρ] [DecidableEq ι] {group : Group ι}

/-- The patch of a message. -/
def Group.patch (group : Group ι) (message : Message) :
    Patch (Cell × String) (Option Bytes) :=
  storePatch group.crates group.state group.schemas message

/-- At a location that only messages of `partition` touch: writes of other
partitions on their way leave it alone, those of the partition are its owner's,
and the owner's writes on their way together with the log from any reached
offset on lead to the outcome of the whole log. -/
structure Cluster.Converging (group : Group ι) (start : World) (partition : ι)
    (location : Cell × String) (cluster : Cluster ρ ι) : Prop where
  foreign : ∀ replica, ∀ entry ∈ cluster.inFlight replica,
    entry.1 ≠ partition → entry.2.patch location = none
  owned : ∀ replica, ∀ entry ∈ cluster.inFlight replica,
    entry.1 = partition → cluster.owner partition = some replica
  outcome : ∀ target ≤ cluster.position partition,
    ((Patch.latest (((group.logs partition).drop target).map group.patch) location).or
        (writesPatch (cluster.ownerWrites partition) location)).getD
        (cluster.shared.view location) =
      (Patch.latest ((group.logs partition).map group.patch) location).getD
        (start.view location)

variable {start : World} {partition : ι} {location : Cell × String}
  {cluster next : Cluster ρ ι}

omit [DecidableEq ρ] [DecidableEq ι] in
theorem Cluster.converging_initial :
    (@Cluster.initial ρ ι start).Converging group start partition location where
  foreign := by simp [Cluster.initial]
  owned := by simp [Cluster.initial]
  outcome := by
    intro target reached
    obtain rfl := Nat.le_zero.mp reached
    simp [Cluster.initial, Cluster.ownerWrites, writesPatch]

omit [DecidableEq ρ] [DecidableEq ι] in
/-- Where no write on its way touches the location, the owner's do not. -/
theorem Cluster.ownerWrites_of_untouched
    (untouched : ∀ replica, ∀ entry ∈ cluster.inFlight replica,
      entry.2.patch location = none) (partition : ι) :
    writesPatch (cluster.ownerWrites partition) location = none := by
  rw [writesPatch, Patch.latest_map_eq_none_iff]
  intro write member
  simp only [Cluster.ownerWrites] at member
  split at member
  · next replica _ =>
      rcases List.mem_map.mp member with ⟨entry, entryMem, rfl⟩
      exact untouched replica entry entryMem
  · cases member

theorem Group.deliver_eq_some {moved : ι}
    (delivered : group.deliver cluster moved = some next) :
    ∃ replica message, cluster.owner moved = some replica ∧
      cluster.inFlight replica = [] ∧
      (group.logs moved)[cluster.position moved]? = some message ∧
      next.shared = cluster.shared ∧ next.owner = cluster.owner ∧
      next.position =
        Function.update cluster.position moved (cluster.position moved + 1) ∧
      next.inFlight = Function.update cluster.inFlight replica
        ((group.writes message).map (Prod.mk moved)) := by
  simp only [Group.deliver] at delivered
  split at delivered
  · cases delivered
  · next replica owner =>
      split at delivered
      · next message idle found =>
          cases delivered
          exact ⟨replica, message, owner, idle, found, rfl, rfl, rfl, rfl⟩
      · cases delivered

omit [DecidableEq ρ] [DecidableEq ι] in
/-- The owner's writes on their way when nothing else than `writes` is. -/
theorem Cluster.ownerWrites_of_owner {replica : ρ}
    (owner : cluster.owner partition = some replica) :
    cluster.ownerWrites partition = (cluster.inFlight replica).map Prod.snd := by
  simp only [Cluster.ownerWrites, owner]

/-- Handing over a message puts its patch between the records and the rest of
the log; in front of a rest that still contains the message it is absorbed. -/
theorem Cluster.Converging.deliver
    (converging : cluster.Converging group start partition location)
    (separate : ∀ other, ∀ message ∈ group.logs other,
      group.patch message location ≠ none → other = partition)
    {moved : ι} (delivered : group.deliver cluster moved = some next) :
    next.Converging group start partition location := by
  obtain ⟨replica, message, owner, idle, found, shared, owners, positions, flights⟩ :=
    Group.deliver_eq_some delivered
  have member : message ∈ group.logs moved := List.mem_of_getElem? found
  have foreignWrites : moved ≠ partition → ∀ write ∈ group.writes message,
      write.patch location = none := by
    intro foreign write writeMem
    have untouched : group.patch message location = none := by
      by_contra touched
      exact foreign (separate moved message member touched)
    exact Patch.latest_map_eq_none_iff.mp untouched write writeMem
  constructor
  case foreign =>
    intro other entry entryMem foreign
    rw [flights] at entryMem
    by_cases here : other = replica
    · subst other
      rw [Function.update_self] at entryMem
      rcases List.mem_map.mp entryMem with ⟨write, writeMem, rfl⟩
      exact foreignWrites foreign write writeMem
    · rw [Function.update_of_ne here] at entryMem
      exact converging.foreign other entry entryMem foreign
  case owned =>
    intro other entry entryMem own
    rw [flights] at entryMem
    rw [owners]
    by_cases here : other = replica
    · subst other
      rw [Function.update_self] at entryMem
      rcases List.mem_map.mp entryMem with ⟨write, _, rfl⟩
      rwa [← own]
    · rw [Function.update_of_ne here] at entryMem
      exact converging.owned other entry entryMem own
  case outcome =>
    intro target reached
    rw [shared]
    by_cases own : moved = partition
    · subst moved
      have before : cluster.ownerWrites partition = [] := by
        rw [Cluster.ownerWrites_of_owner owner, idle, List.map_nil]
      have after : writesPatch (next.ownerWrites partition) = group.patch message := by
        rw [Cluster.ownerWrites_of_owner (owners ▸ owner), flights, Function.update_self,
          map_snd_map_mk]
        rfl
      have silent : ∀ target ≤ cluster.position partition, _ := converging.outcome
      simp only [before, writesPatch, List.map_nil, Patch.latest_nil, Option.or_none]
        at silent
      rw [after]
      rw [positions, Function.update_self] at reached
      rcases Nat.eq_or_lt_of_le reached with rfl | earlier
      · have outcome := silent (cluster.position partition) (Nat.le_refl _)
        rwa [drop_eq_cons_of_getElem? found, List.map_cons, Patch.latest_cons] at outcome
      · have bounded := Nat.le_of_lt_succ earlier
        rw [Patch.latest_map_or_of_mem (mem_drop_of_getElem? found bounded)]
        exact silent target bounded
    · have before : writesPatch (cluster.ownerWrites partition) location =
          writesPatch (next.ownerWrites partition) location := by
        cases ownerEq : cluster.owner partition with
        | none => simp only [Cluster.ownerWrites, owners, ownerEq]
        | some other =>
            rw [Cluster.ownerWrites_of_owner ownerEq,
              Cluster.ownerWrites_of_owner (owners ▸ ownerEq), flights]
            by_cases here : other = replica
            · subst other
              rw [Function.update_self, idle, map_snd_map_mk]
              exact (Patch.latest_map_eq_none_iff.mpr (foreignWrites own)).symm
            · rw [Function.update_of_ne here]
      rw [← before]
      rw [positions, Function.update_of_ne (Ne.symm own)] at reached
      exact converging.outcome target reached

omit [DecidableEq ι] in
theorem Cluster.arrive_eq_some {replica : ρ}
    (arrived : cluster.arrive replica = some next) :
    ∃ source write later, cluster.inFlight replica = (source, write) :: later ∧
      next.shared = write.effect cluster.shared ∧ next.owner = cluster.owner ∧
      next.position = cluster.position ∧
      next.inFlight = Function.update cluster.inFlight replica later := by
  simp only [Cluster.arrive] at arrived
  split at arrived
  · cases arrived
  · next source write later flying =>
      cases arrived
      exact ⟨source, write, later, flying, rfl, rfl, rfl, rfl⟩

omit [DecidableEq ι] in
/-- A write that reaches the store moves from the writes on their way into the
records. -/
theorem Cluster.Converging.arrive
    (converging : cluster.Converging group start partition location)
    {replica : ρ} (arrived : cluster.arrive replica = some next) :
    next.Converging group start partition location := by
  obtain ⟨source, write, later, flying, shared, owners, positions, flights⟩ :=
    Cluster.arrive_eq_some arrived
  have fewer : ∀ other, ∀ entry ∈ next.inFlight other, entry ∈ cluster.inFlight other := by
    intro other entry entryMem
    rw [flights] at entryMem
    by_cases here : other = replica
    · subst other
      rw [Function.update_self] at entryMem
      rw [flying]
      exact List.mem_cons_of_mem _ entryMem
    · rwa [Function.update_of_ne here] at entryMem
  have viewAt : next.shared.view location =
      (write.patch location).getD (cluster.shared.view location) := by
    rw [shared, write.view_effect, Patch.apply]
  constructor
  case foreign =>
    intro other entry entryMem
    exact converging.foreign other entry (fewer other entry entryMem)
  case owned =>
    intro other entry entryMem
    rw [owners]
    exact converging.owned other entry (fewer other entry entryMem)
  case outcome =>
    intro target reached
    rw [positions] at reached
    rw [← converging.outcome target reached, viewAt]
    by_cases owner : cluster.owner partition = some replica
    · rw [Cluster.ownerWrites_of_owner (owners ▸ owner), Cluster.ownerWrites_of_owner owner,
        flights, Function.update_self, flying, List.map_cons, writesPatch, writesPatch,
        List.map_cons, Patch.latest_cons, ← Option.or_assoc]
      cases (Patch.latest (((group.logs partition).drop target).map group.patch)
          location).or
        (Patch.latest ((later.map Prod.snd).map StoreWrite.patch) location) <;> rfl
    · have foreign : source ≠ partition := by
        intro own
        exact owner (converging.owned replica (source, write)
          (flying ▸ List.mem_cons_self) own)
      have untouched := converging.foreign replica (source, write)
        (flying ▸ List.mem_cons_self) foreign
      have sameWrites : next.ownerWrites partition = cluster.ownerWrites partition := by
        cases ownerEq : cluster.owner partition with
        | none => simp only [Cluster.ownerWrites, owners, ownerEq]
        | some other =>
            have elsewhere : other ≠ replica := by
              rintro rfl
              exact owner ownerEq
            rw [Cluster.ownerWrites_of_owner (owners ▸ ownerEq),
              Cluster.ownerWrites_of_owner ownerEq, flights,
              Function.update_of_ne elsewhere]
      rw [untouched, sameWrites, Option.getD_none]

omit [DecidableEq ρ] in
theorem Cluster.reassign_eq_some {moved : ι} {replica : ρ} {position : Nat}
    (reassigned : cluster.reassign moved replica position = some next) :
    position ≤ cluster.position moved ∧ next.shared = cluster.shared ∧
      next.owner = Function.update cluster.owner moved (some replica) ∧
      next.position = Function.update cluster.position moved position ∧
      next.inFlight = cluster.inFlight := by
  simp only [Cluster.reassign] at reassigned
  split at reassigned
  · next reached =>
      cases reassigned
      exact ⟨reached, rfl, rfl, rfl, rfl⟩
  · cases reassigned

omit [DecidableEq ρ] in
/-- A drained partition may move back to any offset it has reached. -/
theorem Cluster.Converging.reassign
    (converging : cluster.Converging group start partition location)
    {moved : ι} {replica : ρ} {position : Nat}
    (drained : ∀ other, ∀ entry ∈ cluster.inFlight other, entry.1 ≠ moved)
    (reassigned : cluster.reassign moved replica position = some next) :
    next.Converging group start partition location := by
  obtain ⟨bounded, shared, owners, positions, flights⟩ :=
    Cluster.reassign_eq_some reassigned
  constructor
  case foreign =>
    rw [flights]
    exact converging.foreign
  case owned =>
    intro other entry entryMem own
    rw [flights] at entryMem
    have elsewhere : partition ≠ moved := own ▸ drained other entry entryMem
    rw [owners, Function.update_of_ne elsewhere]
    exact converging.owned other entry entryMem own
  case outcome =>
    intro target reached
    rw [positions] at reached
    rw [shared]
    by_cases own : partition = moved
    · subst moved
      rw [Function.update_self] at reached
      have untouched : ∀ other, ∀ entry ∈ cluster.inFlight other,
          entry.2.patch location = none := fun other entry entryMem =>
        converging.foreign other entry entryMem (drained other entry entryMem)
      rw [← converging.outcome target (Nat.le_trans reached bounded),
        Cluster.ownerWrites_of_untouched untouched,
        Cluster.ownerWrites_of_untouched (flights ▸ untouched)]
    · rw [Function.update_of_ne own] at reached
      have sameWrites : next.ownerWrites partition = cluster.ownerWrites partition := by
        simp only [Cluster.ownerWrites, owners, flights, Function.update_of_ne own]
      rw [sameWrites]
      exact converging.outcome target reached

/-- Every step of a drained run keeps the convergence. -/
theorem Cluster.converging_preserved
    (separate : ∀ other, ∀ message ∈ group.logs other,
      group.patch message location ≠ none → other = partition) :
    PreservedWhen (@Group.step ρ ι _ _ group) Cluster.Drained
      (Cluster.Converging group start partition location) := by
  intro cluster action next converging drained stepped
  cases action with
  | deliver moved => exact converging.deliver separate stepped
  | arrive replica => exact converging.arrive stepped
  | reassign moved replica position => exact converging.reassign drained stepped

omit [DecidableEq ρ] [DecidableEq ι] in
/-- A quiet cluster holds the outcome of the log. -/
theorem Cluster.Converging.of_quiet
    (converging : cluster.Converging group start partition location)
    (quiet : cluster.Quiet group) :
    cluster.shared.view location =
      (Patch.latest ((group.logs partition).map group.patch) location).getD
        (start.view location) := by
  have untouched : ∀ replica, ∀ entry ∈ cluster.inFlight replica,
      entry.2.patch location = none := by
    intro replica entry entryMem
    rw [quiet.2 replica] at entryMem
    cases entryMem
  have outcome := converging.outcome _ (Nat.le_refl _)
  rwa [Cluster.ownerWrites_of_untouched untouched, quiet.1 partition, List.drop_length,
    List.map_nil, Patch.latest_nil, Option.or_none, Option.getD_none] at outcome

end Location

/-! ## One Redis store -/

section Started

variable {crates : Crates} {order : RandomState} {boot : Boot} {config : MyConfig}
  {persisted : Cell → Records} {state : MyState} {world : World}

/-- The only store of a service with one definition. -/
theorem MyState.new_mem_of_single {definition : StoreDefinition}
    (single : config.cache.stores = [definition])
    (started : MyState.new crates order boot config persisted = .ok (state, world)) :
    (∀ cache ∈ state.caches, cache = ⟨definition.name, definition.storeType⟩) ∧
      ⟨definition.name, definition.storeType⟩ ∈ state.caches := by
  have only : ∀ cache ∈ state.caches,
      cache = ⟨definition.name, definition.storeType⟩ := by
    intro cache member
    obtain ⟨other, configured, _, cacheEq⟩ :=
      MyState.new_stores_lookup started (MyState.new_lookup_of_mem started member)
    rw [single, List.mem_singleton] at configured
    rw [cacheEq, configured]
  constructor
  · exact only
  · obtain ⟨cache, found⟩ :=
      MyState.new_stores_mem started (single ▸ List.mem_singleton.mpr rfl)
    have member := MyState.mem_caches_of_lookup found
    rwa [only cache member] at member

theorem MyState.new_separated_of_redis {definition : StoreDefinition} {redis : RedisConfig}
    (single : config.cache.stores = [definition])
    (backend : definition.storeType = .redis redis)
    (started : MyState.new crates order boot config persisted = .ok (state, world)) :
    state.Separated := by
  have only := (MyState.new_mem_of_single single started).1
  intro first firstMem second secondMem key other same
  obtain rfl := only first firstMem
  obtain rfl := only second secondMem
  simp only [Cache.location, Cache.storedKey, backend, Prod.mk.injEq] at same
  exact ⟨rfl, RedisCache.formatKey_injective redis same.2⟩

/-- Replicas share one Redis store.  In every run in which a partition moves only
when none of its writes is on its way, once everything is delivered and nothing is
on its way, each key of a partition holds the payload of the last routed record
for it, or nothing if a tombstone came last. -/
theorem replicas_converge {ρ ι : Type} [DecidableEq ρ] [DecidableEq ι]
    {definition : StoreDefinition} {redis : RedisConfig}
    (framing : ConfluentFraming crates.getBytesResult)
    (single : config.cache.stores = [definition])
    (backend : definition.storeType = .redis redis)
    (started : MyState.new crates order boot config persisted = .ok (state, world))
    (schemas : UInt32 → Option Schema) (logs : ι → List Message)
    {actions : List (Cluster.Action ρ ι)} {final : Cluster ρ ι}
    (drained : Guarded (Group.step ⟨crates, state, schemas, logs⟩) Cluster.Drained
      (Cluster.initial world) actions)
    (ran : run (Group.step ⟨crates, state, schemas, logs⟩) (Cluster.initial world) actions =
      some final)
    (quiet : final.Quiet ⟨crates, state, schemas, logs⟩) {partition : ι} {key : String}
    (separate : ∀ other, ∀ message ∈ logs other, message.HasKey key → other = partition) :
    let location := Cache.location ⟨definition.name, definition.storeType⟩ key
    (∀ payload, Compacted config schemas (logs partition) definition.name key payload →
      final.shared.view location = some payload) ∧
      (Cleared config schemas (logs partition) definition.name key →
        final.shared.view location = none) := by
  intro location
  have member := (MyState.new_mem_of_single single started).2
  have separated := MyState.new_separated_of_redis single backend started
  have separatePatches : ∀ other, ∀ message ∈ logs other,
      storePatch crates state schemas message location ≠ none → other = partition := by
    intro other message messageMem touched
    rcases Option.ne_none_iff_exists'.mp touched with ⟨content, decided⟩
    apply separate other message messageMem
    cases content with
    | some payload =>
        exact ((storePatch_writes_iff framing started separated member message key
          payload).mp decided).1
    | none =>
        exact ((storePatch_deletes_iff separated member message key).mp decided).1
  have converging : final.Converging ⟨crates, state, schemas, logs⟩ world partition location :=
    (Cluster.converging_preserved separatePatches).of_run Cluster.converging_initial drained
      ran
  have outcome : final.shared.view location =
      (Patch.latest ((logs partition).map (storePatch crates state schemas)) location).getD
        (world.view location) := converging.of_quiet quiet
  constructor
  · intro payload compacted
    rw [outcome, (latest_compacted_iff framing started separated member _ key payload).mpr
      compacted, Option.getD_some]
  · intro cleared
    rw [outcome, (latest_cleared_iff framing started separated member _ key).mpr cleared,
      Option.getD_some]

end Started

/-! ## A late write -/

namespace Sample

/-- One partition with two records of one key. -/
def group : Group Unit where
  crates := crates
  state := state redis
  schemas := registry crates (state redis) env
  logs := fun _ => [record 1, record 2]

end Sample

/-- The partition moves while the first record is on its way; the new owner's
write arrives first and is undone. -/
theorem late_write_wins :
    ∃ final : Cluster Bool Unit,
      run Sample.group.step (Cluster.initial (Sample.world fun _ => ∅))
          [.reassign () false 0, .deliver (), .reassign () true 1, .deliver (),
            .arrive true, .arrive false] = some final ∧
        final.Quiet Sample.group ∧
        Compacted (Sample.config Sample.redis) Sample.group.schemas
          [Sample.record 1, Sample.record 2] "customers" "k" (Sample.payload 2) ∧
        final.shared.view ((Sample.cache Sample.redis).location "k") =
          some (Sample.payload 1) := by
  refine ⟨_, rfl, ⟨fun _ => rfl, fun replica => ?_⟩, ?_, by decide⟩
  · cases replica <;> rfl
  · exact ⟨[Sample.record 1], Sample.record 2, [], rfl,
      ⟨⟨Sample.key, rfl, by decide⟩, rfl, 7, [2], .record "customer" "customer", "customer",
        ⟨0, 0, 0, 7, rfl, rfl⟩, rfl, .record _ _, ⟨Sample.customers Sample.redis, rfl, rfl⟩⟩,
      by simp, by simp⟩

/-- The same move after the first write has arrived. -/
theorem replicas_converge_sample :
    ∃ final : Cluster Bool Unit,
      run Sample.group.step (Cluster.initial (Sample.world fun _ => ∅))
          [.reassign () false 0, .deliver (), .arrive false, .reassign () true 1,
            .deliver (), .arrive true] = some final ∧
        final.shared.view ((Sample.cache Sample.redis).location "k") =
          some (Sample.payload 2) := by
  have drained : Guarded (@Group.step Bool Unit _ _ Sample.group) Cluster.Drained
      (Cluster.initial (Sample.world fun _ => ∅))
      [.reassign () false 0, .deliver (), .arrive false, .reassign () true 1,
        .deliver (), .arrive true] := by
    refine ⟨?_, fun _ moved => ?_⟩
    · rintro _ _ ⟨⟩
    cases moved
    refine ⟨trivial, fun _ delivered => ?_⟩
    cases delivered
    refine ⟨trivial, fun _ arrived => ?_⟩
    cases arrived
    refine ⟨?_, fun _ moved => ?_⟩
    · rintro (_ | _) _ ⟨⟩
    cases moved
    refine ⟨trivial, fun _ delivered => ?_⟩
    cases delivered
    exact ⟨trivial, fun _ _ => trivial⟩
  have compacted : Compacted (Sample.config Sample.redis) Sample.group.schemas
      (Sample.group.logs ()) "customers" "k" (Sample.payload 2) :=
    ⟨[Sample.record 1], Sample.record 2, [], rfl,
      ⟨⟨Sample.key, rfl, by decide⟩, rfl, 7, [2], .record "customer" "customer", "customer",
        ⟨0, 0, 0, 7, rfl, rfl⟩, rfl, .record _ _, ⟨Sample.customers Sample.redis, rfl, rfl⟩⟩,
      by simp, by simp⟩
  refine ⟨_, rfl, ?_⟩
  refine (replicas_converge confluentParser_framing rfl rfl
    (Sample.started Sample.redis fun _ => ∅) Sample.group.schemas Sample.group.logs
    drained rfl ⟨fun _ => rfl, fun replica => ?_⟩ (fun _ _ _ _ => rfl)).1 _ compacted
  cases replica <;> rfl

end PushCache
