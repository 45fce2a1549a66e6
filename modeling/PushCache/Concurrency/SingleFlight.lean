import Mathlib.Data.Finmap
import PushCache.Concurrency.Pool

/-!
# A table filled under a monitor

Callers look a key up in a shared table.  A caller that does not find it enters
the monitor, looks again, and only then fetches the value and puts it into the
table.  The first look is not protected by the monitor, and the fetch may fail or
give another value each time.  Whatever the interleaving, a key is fetched
successfully at most once, no fetch of it starts once it is in the table, and all
callers that return get the one value in the table.
-/

namespace PushCache.Concurrency

universe u v

/-- The table, and whether a caller is in the monitor. -/
structure Table (K : Type u) (V : Type v) where
  entries : Finmap fun _ : K => V
  locked : Bool

namespace Table

variable {ε E : Type*} {K : Type u} {V : Type v} [DecidableEq K]

/-- The atomic steps of a caller.  A look at the table says whether the caller is
in the monitor. -/
inductive Command (K : Type u) (V : Type v) where
  | containsKey (inside : Bool) (key : K)
  | get (inside : Bool) (key : K)
  | enter
  | fetch (key : K)
  | put (key : K) (value : V)
  | leave

/-- A look answers with the entry it finds, and a fetch with its outcome. -/
abbrev Reply (E : Type*) (V : Type v) := Except E (Option V)

/-- Entering waits for the monitor to be free.  What a fetch gives is up to the
outside world. -/
def answer (fetches : ε → K → Except E V) : Answers ε (Command K V) (Reply E V) (Table K V)
  | _, .containsKey _ key, table => some (.ok (table.entries.lookup key), table)
  | _, .get _ key, table => some (.ok (table.entries.lookup key), table)
  | _, .enter, table =>
      if table.locked then none else some (.ok none, { table with locked := true })
  | outside, .fetch key, table => some ((fetches outside key).map some, table)
  | _, .put key value, table =>
      some (.ok none, { table with entries := table.entries.insert key value })
  | _, .leave, table => some (.ok none, { table with locked := false })

/-- A call, and what it returns: a value, possibly null, or an error. -/
abbrev Caller (E : Type*) (K : Type u) (V : Type v) :=
  Program (Command K V) (Reply E V) (Except E (Option V))

/-- Leave the monitor with a result. -/
def leaveWith (result : Except E (Option V)) : Caller E K V :=
  .command .leave fun _ => .done result

/-- Put the fetched value into the table and leave with it, or leave with the
error of the fetch. -/
def cacheFetched (key : K) : Reply E V → Caller E K V
  | .error error => leaveWith (.error error)
  | .ok none => leaveWith (.ok none)
  | .ok (some value) => .command (.put key value) fun _ => leaveWith (.ok (some value))

/-- Inside the monitor: return the value that is there after all, or fetch it. -/
def getOrRequest (key : K) : Reply E V → Caller E K V
  | .ok (some _) => .command (.get true key) leaveWith
  | _ => .command (.fetch key) (cacheFetched key)

/-- Look again inside the monitor, and fetch the value if it is not there. -/
def fetchAndCache (key : K) : Caller E K V :=
  .command .enter fun _ => .command (.containsKey true key) (getOrRequest key)

/-- Outside the monitor: return the value that is there, or enter. -/
def getOrEnter (key : K) : Reply E V → Caller E K V
  | .ok (some _) => .command (.get false key) .done
  | _ => fetchAndCache key

/-- Look the key up, and enter the monitor only if it is not there. -/
def getOrFetch (key : K) : Caller E K V :=
  .command (.containsKey false key) (getOrEnter key)

/-- The table with the calls made on it; a call is for a key. -/
abbrev Callers (E : Type*) (K : Type u) (V : Type v) :=
  Pool (Table K V) (Command K V) (Reply E V) (Except E (Option V)) K

/-- The transition system. -/
def step (fetches : ε → K → Except E V) : Transition.Step (Callers E K V) (Move ε K) :=
  Pool.step (answer fetches) getOrFetch

/-- Nothing is in the table and nobody in the monitor. -/
def empty : Table K V :=
  ⟨∅, false⟩

/-- The command has fetched the key successfully. -/
def isFetched (key : K) : Command K V × Reply E V → Bool
  | (.fetch other, .ok _) => other = key
  | _ => false

/-- How often a key has been fetched successfully. -/
def fetched (key : K) (callers : Callers E K V) : Nat :=
  (callers.calls.flatMap Call.trace).countP (isFetched key)

/-- Every caller is served by one fetch: a key is fetched successfully at most
once, and not when it is in the table; a value that is returned is the one in the
table; and a failed fetch makes its caller leave without a put. -/
structure SingleFlight (fetches : ε → K → Except E V) (callers : Callers E K V) : Prop where
  fetched_once : ∀ key, fetched key callers ≤ 1
  returned : ∀ call ∈ callers.calls, ∀ result, call.program = .done (.ok result) →
    result ≠ none ∧ result = callers.shared.entries.lookup call.operation
  fetches_absent : ∀ choice next,
    ∀ details : Pool.Advanced (answer fetches) choice callers next, ∀ key,
      details.command = .fetch key → key ∉ callers.shared.entries ∧
        next.shared = callers.shared ∧
        ∀ error, details.reply = .error error →
          details.continuation details.reply = leaveWith (.error error)

/-! ## Where a caller is -/

/-- The commands a caller sends inside the monitor. -/
def Command.isInside : Command K V → Bool
  | .containsKey inside _ => inside
  | .get inside _ => inside
  | .enter => false
  | .fetch _ => true
  | .put _ _ => true
  | .leave => true

/-- A put of the key. -/
def Command.isPut (key : K) : Command K V → Bool
  | .put other _ => other = key
  | _ => false

/-- A value that is returned is the entry of the table. -/
def Returns (entries : Finmap fun _ : K => V) (key : K) (result : Except E (Option V)) : Prop :=
  ∀ value, result = .ok value → value ≠ none ∧ value = entries.lookup key

/-- What can be left to do for a caller, given the table. -/
inductive Stage (entries : Finmap fun _ : K => V) (key : K) : Caller E K V → Prop where
  | start : Stage entries key (.command (.containsKey false key) (getOrEnter key))
  | get : key ∈ entries → Stage entries key (.command (.get false key) .done)
  | enter : Stage entries key
      (.command .enter fun _ => .command (.containsKey true key) (getOrRequest key))
  | again : Stage entries key (.command (.containsKey true key) (getOrRequest key))
  | getInside : key ∈ entries → Stage entries key (.command (.get true key) leaveWith)
  | fetch : key ∉ entries → Stage entries key (.command (.fetch key) (cacheFetched key))
  | put (value : V) : key ∉ entries →
      Stage entries key (.command (.put key value) fun _ => leaveWith (.ok (some value)))
  | leave (result : Except E (Option V)) : Returns entries key result →
      Stage entries key (.command .leave fun _ => .done result)
  | done (result : Except E (Option V)) : Returns entries key result →
      Stage entries key (.done result)

variable {entries larger : Finmap fun _ : K => V} {key : K}

theorem returns_lookup (present : key ∈ entries) :
    Returns entries key (.ok (entries.lookup key) : Except E (Option V)) := by
  rintro _ ⟨⟩
  constructor
  · intro absent
    exact Finmap.lookup_eq_none.mp absent present
  · rfl

theorem Returns.error (thrown : E) :
    Returns entries key (.error thrown : Except E (Option V)) :=
  fun _ impossible => by cases impossible

theorem Returns.grow {result : Except E (Option V)} (returns : Returns entries key result)
    (kept : ∀ other ∈ entries, larger.lookup other = entries.lookup other) :
    Returns larger key result := by
  intro value returned
  rcases returns value returned with ⟨present, rfl⟩
  exact ⟨present, (kept key (Finmap.lookup_isSome.mp (Option.isSome_iff_ne_none.mpr present))).symm⟩

theorem mem_of_kept {other : K} (present : other ∈ entries)
    (kept : ∀ other ∈ entries, larger.lookup other = entries.lookup other) :
    other ∈ larger := by
  rw [← Finmap.lookup_isSome] at present ⊢
  rw [kept other (Finmap.lookup_isSome.mp present)]
  exact present

/-- A caller outside the monitor does not mind new entries. -/
theorem Stage.grow {program : Caller E K V} (stage : Stage entries key program)
    (outside : program.next?.any Command.isInside = false)
    (kept : ∀ other ∈ entries, larger.lookup other = entries.lookup other) :
    Stage larger key program := by
  cases stage with
  | start => exact .start
  | get present => exact .get (mem_of_kept present kept)
  | enter => exact .enter
  | again => cases outside
  | getInside => cases outside
  | fetch => cases outside
  | put => cases outside
  | leave => cases outside
  | done result returns => exact .done result (returns.grow kept)

/-! ## One command -/

variable {fetches : ε → K → Except E V} {table after : Table K V} {outside : ε}
  {command : Command K V} {reply : Reply E V} {next : Reply E V → Caller E K V}

/-- What one command of a caller does to the caller, to the table and the monitor,
and to the fetches and puts of each key. -/
structure Moved (table after : Table K V) (key : K) (command : Command K V)
    (reply : Reply E V) (rest : Caller E K V) : Prop where
  stage : Stage after.entries key rest
  kept : ∀ other ∈ table.entries, after.entries.lookup other = table.entries.lookup other
  unchanged : command.isInside = false → after.entries = table.entries
  monitor : (if after.locked then 1 else 0) + (if command.isInside then 1 else 0) =
    (if table.locked then 1 else 0) + if rest.next?.any Command.isInside then 1 else 0
  counted : ∀ other, (if (table.entries.lookup other).isSome then 1 else 0) +
      (if isFetched other (command, reply) then 1 else 0) +
        (if command.isPut other then 1 else 0) =
    (if (after.entries.lookup other).isSome then 1 else 0) +
      if rest.next?.any (Command.isPut other) then 1 else 0

theorem Stage.moved (stage : Stage table.entries key (.command command next))
    (locked : command.isInside = true → table.locked = true)
    (answered : answer fetches outside command table = some (reply, after)) :
    Moved table after key command reply (next reply) := by
  cases stage with
  | start =>
      cases answered
      cases found : table.entries.lookup key with
      | none => exact ⟨.enter, fun _ _ => rfl, fun _ => rfl, rfl, fun _ => rfl⟩
      | some value =>
          have present := Finmap.mem_of_lookup_eq_some found
          exact ⟨.get present, fun _ _ => rfl, fun _ => rfl, rfl, fun _ => rfl⟩
  | get present =>
      cases answered
      exact ⟨.done _ (returns_lookup present), fun _ _ => rfl, fun _ => rfl, rfl, fun _ => rfl⟩
  | enter =>
      simp only [answer] at answered
      split at answered
      · cases answered
      · next free =>
          cases answered
          have entered : (1 : Nat) + 0 = (if table.locked then 1 else 0) + 1 := by
            rw [if_neg free]
          exact ⟨.again, fun _ _ => rfl, fun _ => rfl, entered, fun _ => rfl⟩
  | again =>
      cases answered
      cases found : table.entries.lookup key with
      | none =>
          exact ⟨.fetch (Finmap.lookup_eq_none.mp found), fun _ _ => rfl, fun _ => rfl, rfl,
            fun _ => rfl⟩
      | some value =>
          have present := Finmap.mem_of_lookup_eq_some found
          exact ⟨.getInside present, fun _ _ => rfl, fun _ => rfl, rfl, fun _ => rfl⟩
  | getInside present =>
      cases answered
      exact ⟨.leave _ (returns_lookup present), fun _ _ => rfl, fun _ => rfl, rfl, fun _ => rfl⟩
  | fetch absent =>
      cases answered
      cases fetches outside key with
      | error thrown =>
          exact ⟨.leave _ (.error thrown), fun _ _ => rfl, fun _ => rfl, rfl, fun _ => rfl⟩
      | ok value =>
          exact ⟨.put value absent, fun _ _ => rfl, fun _ => rfl, rfl, fun _ => rfl⟩
  | put value absent =>
      cases answered
      constructor
      · apply Stage.leave
        rintro _ ⟨⟩
        exact ⟨Option.some_ne_none _, (Finmap.lookup_insert table.entries).symm⟩
      · intro other present
        apply Finmap.lookup_insert_of_ne
        rintro rfl
        exact absent present
      · intro outside
        cases outside
      · rfl
      · intro other
        by_cases same : key = other
        · subst same
          simp [Finmap.lookup_eq_none.mpr absent, isFetched, Command.isPut, leaveWith,
            Program.next?]
        · simp [Finmap.lookup_insert_of_ne _ (Ne.symm same), same, isFetched, Command.isPut,
            leaveWith, Program.next?]
  | leave result returns =>
      cases answered
      have left : (0 : Nat) + 1 = (if table.locked then 1 else 0) + 0 := by
        rw [if_pos (locked rfl)]
      exact ⟨.done _ returns, fun _ _ => rfl, fun _ => rfl, left, fun _ => rfl⟩

/-- A fetch is of an absent key, and a failed one leaves nothing to do but to
leave. -/
theorem Stage.fetching {other : K}
    (stage : Stage table.entries key (.command (.fetch other) next))
    (answered : answer fetches outside (.fetch other) table = some (reply, after)) :
    other ∉ table.entries ∧ after = table ∧
      ∀ thrown, reply = .error thrown → next reply = leaveWith (.error thrown) := by
  cases stage with
  | fetch absent =>
      cases answered
      refine ⟨absent, rfl, fun thrown failed => ?_⟩
      rw [failed, cacheFetched]

/-! ## Every run -/

variable {callers callersNext : Callers E K V}

/-- Every caller is at one of its stages, the monitor holds the callers inside it,
and every fetched value is in the table or about to be put there. -/
structure Flight (callers : Callers E K V) : Prop where
  staged : ∀ call ∈ callers.calls, Stage callers.shared.entries call.operation call.program
  held : callers.pendingWhere Command.isInside = if callers.shared.locked then 1 else 0
  counted : ∀ key, fetched key callers =
    (if (callers.shared.entries.lookup key).isSome then 1 else 0) +
      callers.pendingWhere (Command.isPut key)

theorem flight_initial : Flight (.initial empty : Callers E K V) :=
  ⟨(fun _ member => by cases member), rfl, fun _ => rfl⟩

theorem Flight.start (flight : Flight callers) (key : K) :
    Flight (callers.start getOrFetch key) := by
  constructor
  · intro call member
    rcases List.mem_append.mp member with old | new
    · exact flight.staged call old
    · obtain rfl := List.mem_singleton.mp new
      exact .start
  · rw [Pool.pendingWhere_start]
    exact flight.held
  · intro other
    have same : fetched other (callers.start getOrFetch key) = fetched other callers := by
      simp [fetched, Pool.start]
    rw [same, Pool.pendingWhere_start]
    exact flight.counted other

theorem fetched_advance (key : K)
    (details : Pool.Advanced (answer fetches) outside callers callersNext) :
    fetched key callersNext =
      fetched key callers + if isFetched key (details.command, details.reply) then 1 else 0 := by
  simp only [fetched, details.calls, details.calls_next, Call.receive, List.flatMap_append,
    List.flatMap_cons, List.countP_append, List.countP_cons, List.countP_nil]
  omega

theorem Flight.inside_le_one (flight : Flight callers) :
    callers.pendingWhere Command.isInside ≤ 1 := by
  rw [flight.held]
  split <;> omega

/-- A caller that sends a command inside the monitor has locked it. -/
theorem Flight.locked (flight : Flight callers)
    (details : Pool.Advanced (answer fetches) outside callers callersNext)
    (inside : details.command.isInside = true) : callers.shared.locked = true := by
  have counted := Pool.pendingWhere_pos details inside
  rw [flight.held] at counted
  by_contra free
  rw [if_neg free] at counted
  omega

theorem Flight.stage (flight : Flight callers)
    (details : Pool.Advanced (answer fetches) outside callers callersNext) :
    Stage callers.shared.entries details.call.operation
      (.command details.command details.continuation) := by
  rw [← details.program]
  exact flight.staged details.call (details.calls ▸ List.mem_append_right _ List.mem_cons_self)

theorem Flight.moved (flight : Flight callers)
    (details : Pool.Advanced (answer fetches) outside callers callersNext) :
    Moved callers.shared callersNext.shared details.call.operation details.command
      details.reply (details.continuation details.reply) :=
  (flight.stage details).moved (flight.locked details) details.answered

theorem Flight.advance (flight : Flight callers)
    (details : Pool.Advanced (answer fetches) outside callers callersNext) :
    Flight callersNext := by
  have moved := flight.moved details
  constructor
  · apply details.forall_calls_next fun call =>
      Stage callersNext.shared.entries call.operation call.program
    · intro call member
      have stage := details.others flight.staged call member
      cases inside : details.command.isInside with
      | false =>
          rw [moved.unchanged inside]
          exact stage
      | true =>
          -- the sender holds the monitor, so the others are outside
          exact stage.grow
            (Pool.others_of_pendingWhere_le_one details flight.inside_le_one inside call member)
            moved.kept
    · exact moved.stage
  · have counted := Pool.pendingWhere_advance Command.isInside details
    have monitor := moved.monitor
    rw [flight.held] at counted
    omega
  · intro key
    have counted := Pool.pendingWhere_advance (Command.isPut key) details
    have now := moved.counted key
    have before := flight.counted key
    rw [fetched_advance key details]
    omega

theorem flight_preserved :
    Transition.Preserved (step fetches : Transition.Step (Callers E K V) _) Flight :=
  Pool.preserved_of (fun _ key flight => flight.start key)
    (fun _ _ _ flight details => flight.advance details)

/-- A value that has been fetched and not been put yet is not in the table. -/
theorem Flight.absent_of_put (flight : Flight callers)
    (putting : 0 < callers.pendingWhere (Command.isPut key)) : key ∉ callers.shared.entries := by
  rcases Pool.exists_of_pendingWhere_pos putting with
    ⟨call, member, command, continuation, programEq, puts⟩
  have stage := flight.staged call member
  rw [programEq] at stage
  cases stage with
  | put value absent =>
      simp only [Command.isPut, decide_eq_true_eq] at puts
      exact puts ▸ absent
  | _ => cases puts

theorem Flight.fetched_le_one (flight : Flight callers) (key : K) : fetched key callers ≤ 1 := by
  have fewer : callers.pendingWhere (Command.isPut key) ≤
      callers.pendingWhere Command.isInside := by
    apply Pool.pendingWhere_mono
    rintro (_ | _ | _ | _ | _ | _) puts
    all_goals first | rfl | cases puts
  have single := flight.inside_le_one
  rw [flight.counted key]
  split
  · next present =>
      have idle : ¬0 < callers.pendingWhere (Command.isPut key) := fun putting =>
        flight.absent_of_put putting (Finmap.lookup_isSome.mp present)
      omega
  · omega

theorem Flight.singleFlight (flight : Flight callers) : SingleFlight fetches callers := by
  constructor
  · exact flight.fetched_le_one
  · intro call member result programEq
    have stage := flight.staged call member
    rw [programEq] at stage
    cases stage with
    | done _ returns => exact returns result rfl
  · intro choice next details key fetching
    have stage := flight.stage details
    have answered := details.answered
    rw [fetching] at stage answered
    exact stage.fetching answered

/-- An entry stays in the table, whatever happens later. -/
theorem lookup_of_run {final : Callers E K V} {moves : List (Move ε K)} {value : V}
    (flight : Flight callers) (ran : Transition.run (step fetches) callers moves = some final)
    (cached : callers.shared.entries.lookup key = some value) :
    final.shared.entries.lookup key = some value := by
  have preserved : Transition.Preserved (step fetches) fun callers : Callers E K V =>
      Flight callers ∧ callers.shared.entries.lookup key = some value := by
    apply Pool.preserved_of
    · intro callers operation holds
      exact ⟨holds.1.start operation, holds.2⟩
    · intro callers next choice holds details
      have present := Finmap.mem_of_lookup_eq_some holds.2
      exact ⟨holds.1.advance details, ((holds.1.moved details).kept key present).trans holds.2⟩
  exact (preserved.of_run ⟨flight, cached⟩ ran).2

theorem flight_of_run {moves : List (Move ε K)}
    (ran : Transition.run (step fetches) (.initial empty) moves = some callers) :
    Flight callers :=
  flight_preserved.of_run flight_initial ran

end Table

end PushCache.Concurrency
