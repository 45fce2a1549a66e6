import PushCache.Concurrency.Program
import PushCache.Transition.Core

/-!
# Calls in progress

A pool is a shared object together with all calls made on it so far.  At any
moment a new call may start, or one of the calls may send its next command; so
the runs of a pool are all interleavings of any number of calls, command by
command.  The proof rules reduce an invariant of every run to what one command
does.
-/

namespace PushCache.Concurrency

open PushCache.Transition

variable {ε κ ρ σ τ ω : Type*}

/-- A call: what was called, the commands it has sent with their replies, and
what is left to do. -/
structure Call (κ ρ τ ω : Type*) where
  operation : ω
  trace : List (κ × ρ)
  program : Program κ ρ τ

/-- The shared object and the calls made on it, in the order they started. -/
structure Pool (σ κ ρ τ ω : Type*) where
  shared : σ
  calls : List (Call κ ρ τ ω)

/-- A new call starts, or the call at an index sends its next command. -/
inductive Move (ε ω : Type*) where
  | start (operation : ω)
  | advance (index : Nat) (choice : ε)

namespace Call

/-- The call has returned. -/
def Returned (call : Call κ ρ τ ω) : Prop :=
  ∃ result, call.program = .done result

/-- The call after the reply to its next command. -/
def receive (call : Call κ ρ τ ω) (command : κ) (next : ρ → Program κ ρ τ) (reply : ρ) :
    Call κ ρ τ ω :=
  ⟨call.operation, call.trace ++ [(command, reply)], next reply⟩

end Call

namespace Pool

/-- No call has been made. -/
def initial (shared : σ) : Pool σ κ ρ τ ω :=
  ⟨shared, []⟩

/-- No call is in progress. -/
def Idle (pool : Pool σ κ ρ τ ω) : Prop :=
  ∀ call ∈ pool.calls, call.Returned

/-- A new call. -/
def start (program : ω → Program κ ρ τ) (pool : Pool σ κ ρ τ ω) (operation : ω) :
    Pool σ κ ρ τ ω :=
  { pool with calls := pool.calls ++ [⟨operation, [], program operation⟩] }

/-- The next command of one call. -/
def advance (answers : Answers ε κ ρ σ) (pool : Pool σ κ ρ τ ω) (index : Nat) (choice : ε) :
    Option (Pool σ κ ρ τ ω) :=
  match pool.calls[index]? with
  | none => none
  | some call =>
      match call.program with
      | .done _ => none
      | .command command next =>
          (answers choice command pool.shared).map fun outcome =>
            ⟨outcome.2, pool.calls.set index (call.receive command next outcome.1)⟩

/-- The transition system. -/
def step (answers : Answers ε κ ρ σ) (program : ω → Program κ ρ τ) :
    Step (Pool σ κ ρ τ ω) (Move ε ω)
  | pool, .start operation => some (pool.start program operation)
  | pool, .advance index choice => pool.advance answers index choice

/-- One command of one call of the pool: the call, the others before and after
it, the command with its answer, and the pool after it. -/
structure Advanced (answers : Answers ε κ ρ σ) (choice : ε)
    (pool next : Pool σ κ ρ τ ω) where
  before : List (Call κ ρ τ ω)
  call : Call κ ρ τ ω
  after : List (Call κ ρ τ ω)
  command : κ
  continuation : ρ → Program κ ρ τ
  reply : ρ
  calls : pool.calls = before ++ call :: after
  program : call.program = .command command continuation
  answered : answers choice command pool.shared = some (reply, next.shared)
  calls_next : next.calls = before ++ call.receive command continuation reply :: after

variable {answers : Answers ε κ ρ σ} {program : ω → Program κ ρ τ}
  {pool next : Pool σ κ ρ τ ω} {index : Nat} {choice : ε}

/-- Everything a command of the call at an index can do. -/
theorem advance_eq_some (advanced : pool.advance answers index choice = some next) :
    ∃ details : Advanced answers choice pool next,
      pool.calls[index]? = some details.call := by
  simp only [advance] at advanced
  split at advanced
  · cases advanced
  · next call found =>
      split at advanced
      · cases advanced
      · next command continuation programEq =>
          rcases Option.map_eq_some_iff.mp advanced with ⟨⟨reply, shared⟩, answered, rfl⟩
          rcases List.getElem?_eq_some_iff.mp found with ⟨bound, here⟩
          have split : pool.calls =
              pool.calls.take index ++ call :: pool.calls.drop (index + 1) := by
            rw [← here, List.getElem_cons_drop, List.take_append_drop]
          exact ⟨⟨pool.calls.take index, call, pool.calls.drop (index + 1), command,
            continuation, reply, split, programEq, answered,
            List.set_eq_take_append_cons_drop.trans (if_pos bound)⟩, found⟩

/-- An invariant is kept by every step once it is kept by every new call and by
every command. -/
theorem preserved_of {invariant : Pool σ κ ρ τ ω → Prop}
    (started : ∀ pool operation, invariant pool → invariant (pool.start program operation))
    (advanced : ∀ pool next choice, invariant pool → Advanced answers choice pool next →
      invariant next) : Preserved (step answers program) invariant := by
  intro source move target holds stepped
  cases move with
  | start operation =>
      cases stepped
      exact started source operation holds
  | advance index choice =>
      rcases advance_eq_some stepped with ⟨details, _⟩
      exact advanced source target choice holds details

/-- The other calls are calls of the pool. -/
theorem Advanced.others (details : Advanced answers choice pool next)
    {property : Call κ ρ τ ω → Prop} (holds : ∀ call ∈ pool.calls, property call) :
    ∀ call ∈ details.before ++ details.after, property call := by
  intro call member
  apply holds
  rw [details.calls]
  rcases List.mem_append.mp member with before | after
  · exact List.mem_append_left _ before
  · exact List.mem_append_right _ (List.mem_cons_of_mem _ after)

/-- Every call has a property after a command when the sender and the others
have it. -/
theorem Advanced.forall_calls_next (details : Advanced answers choice pool next)
    (property : Call κ ρ τ ω → Prop)
    (others : ∀ call ∈ details.before ++ details.after, property call)
    (own : property (details.call.receive details.command details.continuation details.reply)) :
    ∀ call ∈ next.calls, property call := by
  intro call member
  rw [details.calls_next] at member
  rcases List.mem_append.mp member with before | rest
  · exact others call (List.mem_append_left _ before)
  · rcases List.mem_cons.mp rest with rfl | after
    · exact own
    · exact others call (List.mem_append_right _ after)

/-- Every call of a pool is part-way through its own program. -/
def Sound (program : ω → Program κ ρ τ) (pool : Pool σ κ ρ τ ω) : Prop :=
  ∀ call ∈ pool.calls, (program call.operation).Follows call.trace call.program

theorem sound_initial (shared : σ) : (initial shared : Pool σ κ ρ τ ω).Sound program :=
  fun _ member => by cases member

/-- The call that sends a command has come to it in its own program. -/
theorem Sound.follows (sound : pool.Sound program)
    (details : Advanced answers choice pool next) :
    (program details.call.operation).Follows details.call.trace
      (.command details.command details.continuation) := by
  rw [← details.program]
  exact sound details.call (details.calls ▸ List.mem_append_right _ List.mem_cons_self)

theorem Sound.start (sound : pool.Sound program) (operation : ω) :
    (pool.start program operation).Sound program := by
  intro call member
  rcases List.mem_append.mp member with old | new
  · exact sound call old
  · obtain rfl := List.mem_singleton.mp new
    exact .start _

theorem Sound.advance (sound : pool.Sound program)
    (details : Advanced answers choice pool next) : next.Sound program :=
  details.forall_calls_next _ (details.others sound) ((sound.follows details).snoc details.reply)

/-! ## Counting calls by their next command -/

/-- The number of calls whose next command is of a kind. -/
def pendingWhere (kind : κ → Bool) (pool : Pool σ κ ρ τ ω) : Nat :=
  pool.calls.countP fun call => call.program.next?.any kind

theorem pendingWhere_start (kind : κ → Bool) (pool : Pool σ κ ρ τ ω) (operation : ω) :
    (pool.start program operation).pendingWhere kind =
      pool.pendingWhere kind + if (program operation).next?.any kind then 1 else 0 := by
  simp [pendingWhere, start, List.countP_append, List.countP_cons]

/-- A command of a call takes the call out of its count and puts it into that of
the next one. -/
theorem pendingWhere_advance (kind : κ → Bool) (details : Advanced answers choice pool next) :
    next.pendingWhere kind + (if kind details.command then 1 else 0) =
      pool.pendingWhere kind +
        if (details.continuation details.reply).next?.any kind then 1 else 0 := by
  have own : details.call.program.next? = some details.command := by
    rw [details.program]
    rfl
  simp only [pendingWhere, details.calls, details.calls_next, List.countP_append,
    List.countP_cons, Call.receive, own, Option.any_some]
  omega

theorem pendingWhere_mono {kind other : κ → Bool} (pool : Pool σ κ ρ τ ω)
    (implied : ∀ command, kind command = true → other command = true) :
    pool.pendingWhere kind ≤ pool.pendingWhere other := by
  apply List.countP_mono_left
  intro call _ counted
  cases sent : call.program.next? with
  | none => simp [sent] at counted
  | some command =>
      rw [sent] at counted
      exact implied command counted

/-- A kind that is counted is the kind of some call's next command. -/
theorem exists_of_pendingWhere_pos {kind : κ → Bool} (counted : 0 < pool.pendingWhere kind) :
    ∃ call ∈ pool.calls, ∃ command continuation,
      call.program = .command command continuation ∧ kind command = true := by
  rcases List.countP_pos_iff.mp counted with ⟨call, member, sends⟩
  cases programEq : call.program with
  | done => simp [programEq, Program.next?] at sends
  | command command continuation =>
      rw [programEq] at sends
      exact ⟨call, member, command, continuation, programEq, sends⟩

theorem pendingWhere_pos (details : Advanced answers choice pool next) {kind : κ → Bool}
    (sends : kind details.command = true) : 0 < pool.pendingWhere kind := by
  apply List.countP_pos_iff.mpr
  refine ⟨details.call, details.calls ▸ List.mem_append_right _ List.mem_cons_self, ?_⟩
  rw [details.program]
  exact sends

/-- When at most one call is about to send a command of a kind and it is this
one, the others are about to do something else. -/
theorem others_of_pendingWhere_le_one (details : Advanced answers choice pool next)
    {kind : κ → Bool} (single : pool.pendingWhere kind ≤ 1)
    (sends : kind details.command = true) :
    ∀ other ∈ details.before ++ details.after, other.program.next?.any kind = false := by
  intro other member
  have own : details.call.program.next?.any kind = true := by
    rw [details.program]
    exact sends
  simp only [pendingWhere, details.calls, List.countP_append, List.countP_cons, own,
    if_true] at single
  have none : (details.before ++ details.after).countP
      (fun call => call.program.next?.any kind) = 0 := by
    rw [List.countP_append]
    omega
  simpa using List.countP_eq_zero.mp none other member

section Pending

variable [DecidableEq κ]

/-- The number of calls that are about to send a command. -/
def pending (command : κ) (pool : Pool σ κ ρ τ ω) : Nat :=
  pool.calls.countP fun call => call.program.next? = some command

theorem pending_eq_pendingWhere (command : κ) (pool : Pool σ κ ρ τ ω) :
    pool.pending command = pool.pendingWhere fun sent => sent = command := by
  rw [pending, pendingWhere]
  congr 1
  funext call
  cases call.program.next? <;> simp

theorem pending_initial (command : κ) (shared : σ) :
    (initial shared : Pool σ κ ρ τ ω).pending command = 0 :=
  rfl

theorem pending_start (command : κ) (pool : Pool σ κ ρ τ ω) (operation : ω) :
    (pool.start program operation).pending command =
      pool.pending command +
        if (program operation).next? = some command then 1 else 0 := by
  rw [pending_eq_pendingWhere, pending_eq_pendingWhere, pendingWhere_start]
  cases (program operation).next? <;> simp

theorem pending_advance (command : κ) (details : Advanced answers choice pool next) :
    next.pending command + (if details.command = command then 1 else 0) =
      pool.pending command +
        if (details.continuation details.reply).next? = some command then 1 else 0 := by
  have counted := pendingWhere_advance (fun sent => sent = command) details
  rw [← pending_eq_pendingWhere, ← pending_eq_pendingWhere] at counted
  generalize (details.continuation details.reply).next? = sent at counted ⊢
  cases sent <;> simpa using counted

/-- With no call in progress, none is about to send a command. -/
theorem Idle.pending_eq_zero (idle : pool.Idle) (command : κ) :
    pool.pending command = 0 := by
  apply List.countP_eq_zero.mpr
  intro call member
  rcases idle call member with ⟨result, done⟩
  simp [done, Program.next?]

end Pending

end Pool

end PushCache.Concurrency
