import Mathlib.Tactic.TypeStar

/-!
# Programs over a shared object

A call on a shared object is a program: it has its result, or it sends the next
command and goes on with the reply.  Commands are atomic; whatever happens to
the object between two commands of a call is up to the others.  The object may
refuse a command for the moment, and its answer may depend on a choice of the
outside world.
-/

namespace PushCache.Concurrency

universe u

/-- A call that is done, or that sends a command and continues with its reply. -/
inductive Program (κ ρ τ : Type*) where
  | done (result : τ)
  | command (command : κ) (next : ρ → Program κ ρ τ)

/-- How an object in a given state answers a command, under a choice of the
outside world: with a reply and its next state, or not for the moment. -/
abbrev Answers (ε κ ρ σ : Type*) := ε → κ → σ → Option (ρ × σ)

variable {ε κ ρ σ τ : Type*}

namespace Program

/-- Run a program with nothing in between, always under the same choice. -/
def alone (answers : Answers ε κ ρ σ) (choice : ε) : Program κ ρ τ → σ → Option (τ × σ)
  | .done result, state => some (result, state)
  | .command sent next, state =>
      (answers choice sent state).bind fun outcome =>
        (next outcome.1).alone answers choice outcome.2

/-- A program run with nothing in between, each command under a choice of its own. -/
inductive Executes (answers : Answers ε κ ρ σ) : Program κ ρ τ → σ → List ε → τ → σ → Prop
  | done (result : τ) (state : σ) : Executes answers (.done result) state [] result state
  | command {sent : κ} {next : ρ → Program κ ρ τ} {state middle final : σ} {choice : ε}
      {choices : List ε} {reply : ρ} {result : τ}
      (answered : answers choice sent state = some (reply, middle))
      (rest : Executes answers (next reply) middle choices result final) :
      Executes answers (.command sent next) state (choice :: choices) result final

/-- Go on with the result of a program, without a command. -/
def map {ω : Type*} (go : τ → ω) : Program κ ρ τ → Program κ ρ ω
  | .done result => .done (go result)
  | .command sent next => .command sent fun reply => (next reply).map go

/-- Run a program against replies that depend on the command alone: its result, and the
commands it has sent. -/
def against (reply : κ → ρ) : Program κ ρ τ → τ × List κ
  | .done result => (result, [])
  | .command sent next =>
      (((next (reply sent)).against reply).1, sent :: ((next (reply sent)).against reply).2)

theorem against_map {ω : Type*} (reply : κ → ρ) (go : τ → ω) (program : Program κ ρ τ) :
    (program.map go).against reply =
      (go (program.against reply).1, (program.against reply).2) := by
  induction program with
  | done result => rfl
  | command sent next ih => simp only [map, against, ih]

/-- The command a program sends next. -/
def next? : Program κ ρ τ → Option κ
  | .done _ => none
  | .command sent _ => some sent

/-- The program has sent the commands of the trace, received their replies, and
goes on as the second program. -/
inductive Follows : Program κ ρ τ → List (κ × ρ) → Program κ ρ τ → Prop where
  | start (program : Program κ ρ τ) : Follows program [] program
  | send {command : κ} {next : ρ → Program κ ρ τ} {reply : ρ} {trace : List (κ × ρ)}
      {rest : Program κ ρ τ} :
      Follows (next reply) trace rest →
      Follows (.command command next) ((command, reply) :: trace) rest

/-- The next command extends the trace. -/
theorem Follows.snoc {program : Program κ ρ τ} {trace : List (κ × ρ)} {command : κ}
    {next : ρ → Program κ ρ τ} (follows : program.Follows trace (.command command next))
    (reply : ρ) : program.Follows (trace ++ [(command, reply)]) (next reply) := by
  generalize restEq : Program.command command next = rest at follows
  induction follows with
  | start program =>
      subst restEq
      exact .send (.start _)
  | send _ ih => exact .send (ih restEq)

@[simp]
theorem follows_done_iff {result : τ} {trace : List (κ × ρ)} {rest : Program κ ρ τ} :
    (Program.done result).Follows trace rest ↔ trace = [] ∧ rest = .done result := by
  constructor
  · intro follows
    cases follows
    exact ⟨rfl, rfl⟩
  · rintro ⟨rfl, rfl⟩
    exact .start _

/-- What a program that sends a command has done so far: nothing, or the command
and part of what follows its reply. -/
theorem follows_command_iff {command : κ} {next : ρ → Program κ ρ τ}
    {trace : List (κ × ρ)} {rest : Program κ ρ τ} :
    (Program.command command next).Follows trace rest ↔
      (trace = [] ∧ rest = .command command next) ∨
        ∃ reply later, trace = (command, reply) :: later ∧
          (next reply).Follows later rest := by
  constructor
  · intro follows
    cases follows with
    | start => exact Or.inl ⟨rfl, rfl⟩
    | @send _ _ reply later _ tail => exact Or.inr ⟨reply, later, rfl, tail⟩
  · rintro (⟨rfl, rfl⟩ | ⟨reply, later, rfl, tail⟩)
    · exact .start _
    · exact .send tail

/-- A program that sends one command and is done has not sent it while it has a command
to send. -/
theorem Follows.last {sent command : κ} {result : ρ → τ} {next : ρ → Program κ ρ τ}
    {trace : List (κ × ρ)}
    (follows : (Program.command sent fun reply => .done (result reply)).Follows trace
      (.command command next)) :
    trace = [] ∧
      Program.command command next = .command sent fun reply => .done (result reply) := by
  rcases follows_command_iff.mp follows with here | ⟨reply, later, _, tail⟩
  · exact here
  · cases (follows_done_iff.mp tail).2

end Program

end PushCache.Concurrency
