import Mathlib.Data.List.Nodup
import PushCache.Concurrency.Pool

/-!
# A register under concurrent writes and removals

The register holds the record of one key.  Clients write it and remove it, with
commands that are atomic and may fail.  A removal should answer with the value
it deleted.  One that deletes and answers in one command does; one that reads
first and deletes afterwards does exactly as long as nobody has changed the
value in between.

Every write has a number, which no program sees; it tells writes of one value
apart.
-/

namespace PushCache.Concurrency

/-- A value with the number of the write that left it. -/
structure Stamped (V : Type*) where
  stamp : Nat
  value : V
  deriving DecidableEq

/-- The record, if there is one, and the values of all writes so far. -/
structure Register (V : Type*) where
  record : Option (Stamped V)
  written : List V

namespace Register

variable {E V : Type*}

inductive Command (V : Type*) where
  | write (value : V)
  | read
  | delete
  deriving DecidableEq

/-- Writing and deleting answer with the record they replaced. -/
abbrev Reply (E V : Type*) := Except E (Option (Stamped V))

/-- The register with at most one value, written before anything else. -/
def holding : Option V → Register V
  | some value => ⟨some ⟨0, value⟩, [value]⟩
  | none => ⟨none, []⟩

/-- A command succeeds, or fails with an error and changes nothing. -/
def answer : Answers (Option E) (Command V) (Reply E V) (Register V)
  | some error, _, register => some (.error error, register)
  | none, .write value, register =>
      some (.ok register.record,
        ⟨some ⟨register.written.length, value⟩, register.written ++ [value]⟩)
  | none, .read, register => some (.ok register.record, register)
  | none, .delete, register => some (.ok register.record, { register with record := none })

/-- What a call returns: a removal, the value it claims to have deleted. -/
inductive Returned (E V : Type*) where
  | written (result : Except E Unit)
  | removed (result : Except E (Option V))

/-- The calls of this file. -/
abbrev Client (E V : Type*) := Program (Command V) (Reply E V) (Returned E V)

/-! ## The programs -/

/-- A write is one command. -/
def write (value : V) : Client E V :=
  .command (.write value) fun reply => .done (.written (reply.map fun _ => ()))

/-- Return the record the delete command answers with. -/
def returnDeleted (reply : Reply E V) : Client E V :=
  .done (.removed (reply.map (Option.map Stamped.value)))

/-- Whatever has been deleted, return the record that was read. -/
def returnRead (previous : Option (Stamped V)) (reply : Reply E V) : Client E V :=
  .done (.removed (reply.map fun _ => previous.map Stamped.value))

/-- How a removal is built from commands. -/
inductive Removal where
  | deleteReturning
  | readThenDelete
  | readThenDeleteIfPresent
  deriving DecidableEq

/-- The program of a removal. -/
def Removal.program : Removal → Client E V
  | .deleteReturning => .command .delete returnDeleted
  | .readThenDelete =>
      .command .read fun
        | .error error => .done (.removed (.error error))
        | .ok previous => .command .delete (returnRead previous)
  | .readThenDeleteIfPresent =>
      .command .read fun
        | .error error => .done (.removed (.error error))
        | .ok none => .done (.removed (.ok none))
        | .ok (some previous) => .command .delete (returnRead (some previous))

/-- Undisturbed, every removal deletes the record and returns its value, or fails
and changes nothing. -/
theorem Removal.alone_eq (removal : Removal) (choice : Option E) (register : Register V) :
    (removal.program : Client E V).alone answer choice register =
      match choice with
      | some error => some (.removed (.error error), register)
      | none =>
          some (.removed (.ok (register.record.map Stamped.value)),
            { register with record := none }) := by
  rcases register with ⟨_ | record, written⟩ <;> cases choice <;> cases removal <;> rfl

/-- What a client may call. -/
inductive Operation (V : Type*) where
  | write (value : V)
  | remove

/-- The program of an operation. -/
def program (removal : Removal) : Operation V → Client E V
  | .write value => write value
  | .remove => removal.program

/-- The register with the calls made on it. -/
abbrev Clients (E V : Type*) :=
  Pool (Register V) (Command V) (Reply E V) (Returned E V) (Operation V)

/-- The transition system. -/
def step (removal : Removal) :
    Transition.Step (Clients E V) (Move (Option E) (Operation V)) :=
  Pool.step answer (program removal)

/-! ## Atomic removal -/

/-- The record a call has deleted. -/
def deleted (call : Call (Command V) (Reply E V) (Returned E V) (Operation V)) :
    Option (Stamped V) :=
  call.trace.findSome? fun
    | (.delete, .ok record) => record
    | _ => none

/-- The call has returned a value, or that there was none. -/
def Returns (call : Call (Command V) (Reply E V) (Returned E V) (Operation V))
    (result : Option V) : Prop :=
  call.program = .done (.removed (.ok result))

/-- The call at an index has returned a value. -/
def ReturnsAt (clients : Clients E V) (index : Nat) (value : V) : Prop :=
  ∃ call, clients.calls[index]? = some call ∧ Returns call (some value)

/-- Every removal that has returned a result has deleted a record with the value
it returned, or no record when it returned none; and the values returned come
from different writes. -/
structure RemovesAtomic (clients : Clients E V) : Prop where
  deleted_of_returns : ∀ call ∈ clients.calls, ∀ result, Returns call result →
    (deleted call).map Stamped.value = result
  single : ∃ origin : Nat → Nat,
    (∀ index value, ReturnsAt clients index value →
      clients.shared.written[origin index]? = some value) ∧
    ∀ first second firstValue secondValue, ReturnsAt clients first firstValue →
      ReturnsAt clients second secondValue → origin first = origin second → first = second

/-- A call that deletes after it has read finds the value it has read. -/
def Undisturbed (clients : Clients E V) : Move (Option E) (Operation V) → Prop
  | .start _ => True
  | .advance index choice =>
      ∀ call previous, clients.calls[index]? = some call →
        call.program.next? = some .delete → call.trace = [(.read, .ok previous)] →
        choice = none → clients.shared.record.map Stamped.value = previous.map Stamped.value

/-! ## What a call does next -/

/-- The commands a call can be about to send, with its trace and what it does
afterwards. -/
inductive NextStep : List (Command V × Reply E V) → Command V →
    (Reply E V → Client E V) → Prop where
  | write (value : V) :
      NextStep [] (.write value) fun reply => .done (.written (reply.map fun _ => ()))
  | read {next : Reply E V → Client E V} :
      (∀ reply result, next reply = .done (.removed (.ok result)) → result = none) →
      NextStep [] .read next
  | deleteReturning : NextStep [] .delete returnDeleted
  | deleteRead (previous : Option (Stamped V)) :
      NextStep [(.read, .ok previous)] .delete (returnRead previous)

theorem nextStep_of_follows {removal : Removal} {operation : Operation V}
    {trace : List (Command V × Reply E V)} {command : Command V}
    {next : Reply E V → Client E V}
    (follows : (program removal operation).Follows trace (.command command next)) :
    NextStep trace command next := by
  cases operation with
  | write value =>
      rcases follows.last with ⟨rfl, here⟩
      cases here
      exact .write value
  | remove =>
      cases removal with
      | deleteReturning =>
          rcases follows.last with ⟨rfl, here⟩
          cases here
          exact .deleteReturning
      | readThenDelete =>
          rcases Program.follows_command_iff.mp follows with
            ⟨rfl, here⟩ | ⟨reply, later, rfl, rest⟩
          · cases here
            apply NextStep.read
            intro reply result returned
            rcases reply with _ | _ <;> cases returned
          · rcases reply with error | previous
            · cases (Program.follows_done_iff.mp rest).2
            · rcases rest.last with ⟨rfl, here⟩
              cases here
              exact .deleteRead previous
      | readThenDeleteIfPresent =>
          rcases Program.follows_command_iff.mp follows with
            ⟨rfl, here⟩ | ⟨reply, later, rfl, rest⟩
          · cases here
            apply NextStep.read
            intro reply result returned
            rcases reply with _ | _ | _ <;> cases returned
            rfl
          · rcases reply with error | _ | previous
            · cases (Program.follows_done_iff.mp rest).2
            · cases (Program.follows_done_iff.mp rest).2
            · rcases rest.last with ⟨rfl, here⟩
              cases here
              exact .deleteRead (some previous)

/-- A removal in one command never reads. -/
theorem not_read_of_deleteReturning {operation : Operation V}
    {previous : Option (Stamped V)} {rest : Client E V} :
    ¬(program .deleteReturning operation).Follows [(.read, .ok previous)] rest := by
  intro follows
  cases operation with
  | write value =>
      rcases Program.follows_command_iff.mp follows with ⟨none, _⟩ | ⟨_, _, sent, _⟩
      · cases none
      · cases sent
  | remove =>
      rcases Program.follows_command_iff.mp follows with ⟨none, _⟩ | ⟨_, _, sent, _⟩
      · cases none
      · cases sent

/-! ## Records and their writes -/

variable {removal : Removal} {clients next : Clients E V} {choice : Option E}

/-- The record a command deletes. -/
def deletedBy : Command V → Reply E V → Option (Stamped V)
  | .delete, .ok record => record
  | _, _ => none

theorem deleted_receive {call : Call (Command V) (Reply E V) (Returned E V) (Operation V)}
    (fresh : deleted call = none) (command : Command V) (next : Reply E V → Client E V)
    (reply : Reply E V) : deleted (call.receive command next reply) = deletedBy command reply := by
  simp only [deleted] at fresh
  simp only [deleted, Call.receive, List.findSome?_append, fresh, Option.none_or]
  cases command <;> rcases reply with _ | _ | _ <;> rfl

/-- Before its last command a call has deleted nothing. -/
theorem NextStep.deleted_eq_none
    {call : Call (Command V) (Reply E V) (Returned E V) (Operation V)} {command : Command V}
    {next : Reply E V → Client E V} (step : NextStep call.trace command next) :
    deleted call = none := by
  simp only [deleted]
  generalize call.trace = trace at step
  cases step <;> rfl

/-- A command moves the record to the call that deletes it, or leaves it, unless
it writes a new one. -/
theorem answer_eq_some {command : Command V} {register after : Register V}
    {reply : Reply E V} (answered : answer choice command register = some (reply, after)) :
    ((deletedBy command reply).toList ++ after.record.toList = register.record.toList ∧
        after.written = register.written) ∨
      ∃ value, deletedBy command reply = none ∧
        after = ⟨some ⟨register.written.length, value⟩, register.written ++ [value]⟩ := by
  cases choice with
  | some error =>
      cases answered
      cases command <;> exact Or.inl ⟨rfl, rfl⟩
  | none =>
      cases command with
      | write value =>
          cases answered
          exact Or.inr ⟨value, rfl, rfl⟩
      | read =>
          cases answered
          exact Or.inl ⟨rfl, rfl⟩
      | delete =>
          cases answered
          exact Or.inl ⟨List.append_nil _, rfl⟩

/-- The record that is there and the records that have been deleted. -/
def held (clients : Clients E V) : List (Stamped V) :=
  clients.shared.record.toList ++ clients.calls.filterMap deleted

/-- Every call is part-way through its program, and every record comes from a
write of its own. -/
structure Traced (removal : Removal) (clients : Clients E V) : Prop where
  sound : clients.Sound (program removal)
  nodup : ((held clients).map Stamped.stamp).Nodup
  written : ∀ record ∈ held clients, clients.shared.written[record.stamp]? = some record.value

theorem held_perm (details : Pool.Advanced answer choice clients next)
    (step : NextStep details.call.trace details.command details.continuation) :
    (held clients).Perm (clients.shared.record.toList ++
        (details.before.filterMap deleted ++ details.after.filterMap deleted)) ∧
      (held next).Perm
        ((deletedBy details.command details.reply).toList ++ next.shared.record.toList ++
          (details.before.filterMap deleted ++ details.after.filterMap deleted)) := by
  have fresh := step.deleted_eq_none
  have received := deleted_receive fresh details.command details.continuation details.reply
  constructor
  · simp [held, details.calls, fresh]
  · have split : next.calls.filterMap deleted = details.before.filterMap deleted ++
        ((deletedBy details.command details.reply).toList ++
          details.after.filterMap deleted) := by
      rw [details.calls_next, List.filterMap_append, List.filterMap_cons, received]
      cases deletedBy details.command details.reply <;> rfl
    have moved := List.perm_append_comm_assoc
      (next.shared.record.toList ++ details.before.filterMap deleted)
      (deletedBy details.command details.reply).toList (details.after.filterMap deleted)
    rw [held, split]
    simpa only [List.append_assoc] using moved

/-- No step lets two records share a write. -/
theorem Traced.advance (traced : Traced removal clients)
    (details : Pool.Advanced answer choice clients next)
    (step : NextStep details.call.trace details.command details.continuation) :
    Traced removal next := by
  rcases held_perm details step with ⟨before, after⟩
  have answered := details.answered
  have nodup := (before.map Stamped.stamp).nodup_iff.mp traced.nodup
  have written : ∀ record ∈ clients.shared.record.toList ++
      (details.before.filterMap deleted ++ details.after.filterMap deleted),
        clients.shared.written[record.stamp]? = some record.value :=
    fun record member => traced.written record (before.mem_iff.mpr member)
  rcases answer_eq_some answered with ⟨moved, unchanged⟩ | ⟨value, undeleted, sharedEq⟩
  · rw [moved] at after
    refine ⟨traced.sound.advance details, (after.map Stamped.stamp).nodup_iff.mpr nodup,
      fun record member => ?_⟩
    rw [unchanged]
    exact written record (after.mem_iff.mp member)
  · rw [undeleted, sharedEq] at after
    have older : ∀ record ∈ details.before.filterMap deleted ++
        details.after.filterMap deleted, record.stamp < clients.shared.written.length := by
      intro record member
      exact (List.getElem?_eq_some_iff.mp
        (written record (List.mem_append_right _ member))).1
    refine ⟨traced.sound.advance details, (after.map Stamped.stamp).nodup_iff.mpr ?_,
      fun record member => ?_⟩
    · have others := (List.nodup_append.mp (List.map_append ▸ nodup)).2.1
      apply List.nodup_cons.mpr
      constructor
      · intro again
        rcases List.mem_map.mp again with ⟨record, member, same⟩
        exact absurd same (Nat.ne_of_lt (older record member))
      · exact others
    · rw [sharedEq]
      rcases List.mem_cons.mp (after.mem_iff.mp member) with rfl | old
      · simp
      · rw [List.getElem?_append_left (older record old)]
        exact written record (List.mem_append_right _ old)

theorem Traced.start (traced : Traced removal clients) (operation : Operation V) :
    Traced removal (clients.start (program removal) operation) := by
  have same : held (clients.start (program removal) operation) = held clients := by
    simp [held, Pool.start, List.filterMap_append, deleted]
  exact ⟨traced.sound.start operation, same ▸ traced.nodup, same ▸ traced.written⟩

theorem traced_preserved :
    Transition.Preserved (step removal) (Traced (E := E) (V := V) removal) :=
  Pool.preserved_of (fun _ operation traced => traced.start operation)
    fun _ _ _ traced details =>
      traced.advance details (nextStep_of_follows (traced.sound.follows details))

theorem traced_holding (content : Option V) :
    Traced removal (Pool.initial (holding content) : Clients E V) := by
  refine ⟨Pool.sound_initial _, ?_, ?_⟩ <;> cases content <;> simp [held, Pool.initial, holding]

/-! ## Exactly when removal is atomic -/

/-- Every removal that has returned has deleted what it returned. -/
def Exact (clients : Clients E V) : Prop :=
  ∀ call ∈ clients.calls, ∀ result, Returns call result →
    (deleted call).map Stamped.value = result

/-- The values returned come from different writes because the records deleted
do. -/
theorem Traced.removesAtomic_iff (traced : Traced removal clients) :
    RemovesAtomic clients ↔ Exact clients := by
  constructor
  · exact RemovesAtomic.deleted_of_returns
  · intro exact
    have returned : ∀ index value, ReturnsAt clients index value →
        ∃ call record, clients.calls[index]? = some call ∧ deleted call = some record ∧
          record.value = value := by
      rintro index value ⟨call, found, returns⟩
      rcases Option.map_eq_some_iff.mp
        (exact call (List.mem_of_getElem? found) (some value) returns) with
          ⟨record, deletedEq, valueEq⟩
      exact ⟨call, record, found, deletedEq, valueEq⟩
    let origin (index : Nat) : Nat :=
      ((clients.calls[index]?.bind deleted).map Stamped.stamp).getD 0
    refine ⟨exact, origin, fun index value returns => ?_,
      fun first second firstValue secondValue firstReturns secondReturns same => ?_⟩
    · rcases returned index value returns with ⟨call, record, found, deletedEq, rfl⟩
      simp only [origin, found, Option.bind_some, deletedEq, Option.map_some, Option.getD_some]
      exact traced.written record (List.mem_append_right _
        (List.mem_filterMap.mpr ⟨call, List.mem_of_getElem? found, deletedEq⟩))
    · rcases returned first firstValue firstReturns with ⟨firstCall, one, firstFound, firstEq, _⟩
      rcases returned second secondValue secondReturns with
        ⟨secondCall, two, secondFound, secondEq, _⟩
      simp only [origin, firstFound, secondFound, Option.bind_some, firstEq, secondEq,
        Option.map_some, Option.getD_some] at same
      have nodup := traced.nodup
      rw [held, List.map_append] at nodup
      have distinct := List.pairwise_filterMap.mp
        (List.pairwise_map.mp (List.nodup_append.mp nodup).2.1)
      rcases List.getElem?_eq_some_iff.mp firstFound with ⟨firstBound, rfl⟩
      rcases List.getElem?_eq_some_iff.mp secondFound with ⟨secondBound, rfl⟩
      rcases Nat.lt_trichotomy first second with before | equal | after
      · exact absurd same (List.pairwise_iff_getElem.mp distinct first second firstBound
          secondBound before one firstEq two secondEq)
      · exact equal
      · exact absurd same.symm (List.pairwise_iff_getElem.mp distinct second first secondBound
          firstBound after two secondEq one firstEq)

/-- A command keeps exactness when the call that sent it is exact. -/
theorem Exact.advance_iff (exact : Exact clients)
    (details : Pool.Advanced answer choice clients next) :
    Exact next ↔ ∀ result,
      details.continuation details.reply = .done (.removed (.ok result)) →
        (deleted (details.call.receive details.command details.continuation
          details.reply)).map Stamped.value = result := by
  constructor
  · intro exactNext result
    exact exactNext _ (details.calls_next ▸ List.mem_append_right _ List.mem_cons_self) result
  · intro own
    exact details.forall_calls_next _ (details.others exact) own

/-- A command keeps exactness exactly when it is undisturbed. -/
theorem Exact.advance_iff_undisturbed (exact : Exact clients)
    (details : Pool.Advanced answer choice clients next)
    (step : NextStep details.call.trace details.command details.continuation) {index : Nat}
    (found : clients.calls[index]? = some details.call) :
    Exact next ↔ Undisturbed clients (.advance index choice) := by
  have sent : details.call.program.next? = some details.command := by
    rw [details.program]
    rfl
  have received := deleted_receive step.deleted_eq_none details.command details.continuation
    details.reply
  have about : Undisturbed clients (.advance index choice) ↔ (details.command = .delete →
      ∀ previous, details.call.trace = [(.read, .ok previous)] → choice = none →
        clients.shared.record.map Stamped.value = previous.map Stamped.value) := by
    constructor
    · exact fun undisturbed isDelete previous =>
        undisturbed details.call previous found (isDelete ▸ sent)
    · rintro finds call previous here isDelete
      obtain rfl := Option.some.inj (found.symm.trans here)
      exact finds (Option.some.inj (sent.symm.trans isDelete)) previous
  have answered := details.answered
  rw [exact.advance_iff details, received, about]
  generalize details.command = command, details.continuation = continuation,
    details.reply = reply, details.call.trace = trace at step answered
  cases step with
  | write value => simp
  | read quiet =>
      simp only [reduceCtorEq, false_implies, iff_true]
      intro result returns
      rw [quiet reply result returns]
      rfl
  | deleteReturning =>
      constructor
      · rintro _ _ previous unread
        cases unread
      · rintro _ result returns
        rcases reply with error | record <;> cases returns
        rfl
  | deleteRead previous =>
      cases choice with
      | some error =>
          simp only [answer, Option.some.injEq, Prod.mk.injEq] at answered
          rcases answered with ⟨rfl, _⟩
          constructor
          · rintro _ _ _ _ failed
            cases failed
          · rintro _ result returns
            cases returns
      | none =>
          simp only [answer, Option.some.injEq, Prod.mk.injEq] at answered
          rcases answered with ⟨rfl, _⟩
          constructor
          · rintro deletedRead _ other sameTrace _
            cases sameTrace
            exact deletedRead _ rfl
          · rintro finds result returns
            cases returns
            exact finds rfl previous rfl rfl

/-- A step keeps exactness exactly when it is undisturbed. -/
theorem Exact.step_iff_undisturbed (traced : Traced removal clients) (exact : Exact clients)
    {move : Move (Option E) (Operation V)}
    (stepped : step removal clients move = some next) :
    Exact next ↔ Undisturbed clients move := by
  cases move with
  | start operation =>
      cases stepped
      refine iff_of_true (fun call member result returns => ?_) trivial
      rcases List.mem_append.mp member with old | new
      · exact exact call old result returns
      · obtain rfl := List.mem_singleton.mp new
        cases operation <;> cases removal <;> cases returns
  | advance index choice =>
      rcases Pool.advance_eq_some stepped with ⟨details, found⟩
      exact exact.advance_iff_undisturbed details
        (nextStep_of_follows (traced.sound.follows details)) found

theorem exact_initial (register : Register V) : Exact (Pool.initial register : Clients E V) :=
  fun _ member => by cases member

/-- In every run, removal is atomic in every state the run reaches exactly when
every command of the run is undisturbed. -/
theorem removesAtomic_iff_guarded (removal : Removal) (content : Option V)
    {moves : List (Move (Option E) (Operation V))} {final : Clients E V}
    (ran : Transition.run (step removal) (Pool.initial (holding content)) moves = some final) :
    Transition.Guarded (step removal) Undisturbed (Pool.initial (holding content)) moves ↔
      ∀ earlier later reached, moves = earlier ++ later →
        Transition.run (step removal) (Pool.initial (holding content)) earlier =
          some reached → RemovesAtomic reached := by
  have initially : Traced removal (Pool.initial (holding content) : Clients E V) :=
    traced_holding content
  have exactGuard : ∀ ⦃source : Clients E V⦄ ⦃move target⦄,
      Traced removal source ∧ Exact source → step removal source move = some target →
        ((Traced removal target ∧ Exact target) ↔ Undisturbed source move) := by
    rintro source move target ⟨traced, exact⟩ stepped
    rw [and_iff_right (traced_preserved traced stepped)]
    exact exact.step_iff_undisturbed traced stepped
  rw [Transition.guarded_iff_forall_reached exactGuard ⟨initially, exact_initial _⟩ ran]
  constructor
  · intro everywhere earlier later reached split reachedBy
    rcases everywhere earlier later reached split reachedBy with ⟨traced, exact⟩
    exact traced.removesAtomic_iff.mpr exact
  · intro atomic earlier later reached split reachedBy
    have traced := traced_preserved.of_run initially reachedBy
    exact ⟨traced, traced.removesAtomic_iff.mp (atomic earlier later reached split reachedBy)⟩

/-- A removal that deletes and answers in one command is atomic in every run. -/
theorem removesAtomic_of_deleteReturning (content : Option V)
    {moves : List (Move (Option E) (Operation V))} {final : Clients E V}
    (ran : Transition.run (step .deleteReturning) (Pool.initial (holding content)) moves =
      some final) : RemovesAtomic final := by
  have kept : Transition.Preserved (step .deleteReturning) fun clients : Clients E V =>
      Traced .deleteReturning clients ∧ Exact clients := by
    rintro source move target ⟨traced, exact⟩ stepped
    refine ⟨traced_preserved traced stepped,
      (exact.step_iff_undisturbed traced stepped).mpr ?_⟩
    cases move with
    | start operation => trivial
    | advance index choice =>
        rintro call previous found _ read _
        have follows := traced.sound call (List.mem_of_getElem? found)
        rw [read] at follows
        exact absurd follows not_read_of_deleteReturning
  rcases kept.of_run ⟨traced_holding content, exact_initial _⟩ ran with ⟨traced, exact⟩
  exact traced.removesAtomic_iff.mpr exact

end Register

end PushCache.Concurrency
