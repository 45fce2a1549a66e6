import PushCache.Consumer.Ingestion
import PushCache.Startup

/-!
# Failing inserts

`try_for_each` ends with the first error, so the messages after a failing insert
are not handled.  A failing insert therefore does no harm in one case only: when
its message is the last of the log.
-/

namespace PushCache

open PushCache.Log
open PushCache.Transition

/-- A message of a feed, marked when its insert fails. -/
structure Attempt where
  item : Env × Message
  fails : Bool

namespace Attempt

/-- The feed with its failing messages. -/
def feed (attempts : List Attempt) : List (Env × Message) :=
  attempts.map Attempt.item

/-- The feed without its failing messages. -/
def survivors (attempts : List Attempt) : List (Env × Message) :=
  (attempts.filter fun attempt => !attempt.fails).map Attempt.item

end Attempt

/-- The marks are right: where a marked message stands, its insert fails, and
the other messages are handled without an error. -/
inductive Marked (crates : Crates) (state : MyState) : World → List Attempt → Prop
  | nil {world : World} : Marked crates state world []
  | handled {env : Env} {message : Message} {world next : World}
      {attempts : List Attempt} :
      handleMessage crates state env message world = (.ok (), next) →
      Marked crates state next attempts →
      Marked crates state world (⟨(env, message), false⟩ :: attempts)
  | failed {env : Env} {message : Message} {world next : World} {error : MyError}
      {attempts : List Attempt} :
      message.payload.isSome →
      handleMessage crates state env message world = (.error error, next) →
      Marked crates state world attempts →
      Marked crates state world (⟨(env, message), true⟩ :: attempts)

/-- The items of a stream the closure is called with. -/
def handledItems (crates : Crates) (state : MyState) (stream : Stream) (world : World) :
    Stream :=
  givenTo (processItem crates state) stream world

section Runs

variable {crates : Crates} {state : MyState}

theorem handledItems_cons_of_ok {env : Env} {message : Message} {world next : World}
    (handled : handleMessage crates state env message world = (.ok (), next))
    (feed : List (Env × Message)) :
    handledItems crates state (feedStream ((env, message) :: feed)) world =
      .ok (env, message) :: handledItems crates state (feedStream feed) next :=
  givenTo_cons_of_ok handled

theorem handledItems_cons_of_error {env : Env} {message : Message} {world next : World}
    {error : MyError}
    (failed : handleMessage crates state env message world = (.error error, next))
    (feed : List (Env × Message)) :
    handledItems crates state (feedStream ((env, message) :: feed)) world =
      [.ok (env, message)] :=
  givenTo_cons_of_error failed

/-- A failing insert leaves the records alone. -/
theorem handleMessage_view_of_insert_error {env : Env} {message : Message}
    {world next : World} {error : MyError} (hasPayload : message.payload.isSome)
    (failed : handleMessage crates state env message world = (.error error, next)) :
    next.view = world.view := by
  rw [handleMessage_eq] at failed
  cases decided : command crates state
      (resolveMessage crates state env message world).schemaOf message with
  | insert cache key value =>
      rw [decided, Command.writes, tryForEach_singleton] at failed
      rw [perform_eq_of_error failed, Command.view_note, resolveMessage_view]
  | tombstone key =>
      rcases command_eq_tombstone_iff.mp decided with ⟨noPayload, _⟩
      rw [noPayload] at hasPayload
      cases hasPayload
  | unrouted =>
      rw [decided] at failed
      cases failed
  | skip =>
      rw [decided] at failed
      cases failed

/-- Without its failing messages a feed is processed to its end. -/
theorem Marked.streamProcessor_survivors {world : World} {attempts : List Attempt}
    (marked : Marked crates state world attempts) :
    ∃ reference, streamProcessor crates state (feedStream (Attempt.survivors attempts))
      world = (.ok (), reference) := by
  induction marked with
  | nil => exact ⟨_, rfl⟩
  | handled handled _ ih =>
      rcases ih with ⟨reference, ok⟩
      exact ⟨reference, (streamProcessor_feed_cons_of_ok handled _).trans ok⟩
  | failed _ _ _ ih => exact ih

/-- Where only the last message fails, every message is handled, and the records come out
as without it. -/
theorem Marked.unharmed {world reference : World} {attempts : List Attempt}
    (marked : Marked crates state world attempts)
    (safe : ∀ attempt ∈ attempts.dropLast, attempt.fails = false)
    (ok : streamProcessor crates state (feedStream (Attempt.survivors attempts)) world =
      (.ok (), reference)) :
    (streamProcessor crates state (feedStream (Attempt.feed attempts)) world).2.view =
        reference.view ∧
      handledItems crates state (feedStream (Attempt.feed attempts)) world =
        feedStream (Attempt.feed attempts) := by
  induction marked with
  | nil =>
      cases ok
      exact ⟨rfl, rfl⟩
  | @handled env message world next attempts handled _ ih =>
      have laterSafe : ∀ attempt ∈ attempts.dropLast, attempt.fails = false := by
        intro attempt member
        cases attempts with
        | nil => cases member
        | cons _ _ => exact safe attempt (List.mem_cons_of_mem _ member)
      have survivors : Attempt.survivors (⟨(env, message), false⟩ :: attempts) =
          (env, message) :: Attempt.survivors attempts := rfl
      rw [survivors, streamProcessor_feed_cons_of_ok handled] at ok
      rcases ih laterSafe ok with ⟨views, given⟩
      constructor
      · rw [Attempt.feed, List.map_cons, streamProcessor_feed_cons_of_ok handled]
        exact views
      · rw [Attempt.feed, List.map_cons, handledItems_cons_of_ok handled]
        exact congrArg _ given
  | @failed env message world next error attempts hasPayload failed _ _ =>
      cases attempts with
      | cons attempt attempts =>
          have impossible := safe _ List.mem_cons_self
          cases impossible
      | nil =>
          cases ok
          constructor
          · rw [Attempt.feed, List.map_cons, streamProcessor_feed_cons_of_error failed]
            exact handleMessage_view_of_insert_error hasPayload failed
          · exact handledItems_cons_of_error failed []

/-- Where a message before the last one fails, not every message is handled. -/
theorem Marked.length_handledItems_lt {world : World} {attempts : List Attempt}
    (marked : Marked crates state world attempts)
    (fails : ∃ attempt ∈ attempts.dropLast, attempt.fails = true) :
    (handledItems crates state (feedStream (Attempt.feed attempts)) world).length <
      attempts.length := by
  induction marked with
  | nil =>
      rcases fails with ⟨attempt, member, _⟩
      cases member
  | @handled env message world next attempts handled _ ih =>
      have later : ∃ attempt ∈ attempts.dropLast, attempt.fails = true := by
        rcases fails with ⟨attempt, member, failing⟩
        cases attempts with
        | nil => cases member
        | cons _ _ =>
            rcases List.mem_cons.mp member with rfl | there
            · cases failing
            · exact ⟨attempt, there, failing⟩
      rw [Attempt.feed, List.map_cons, handledItems_cons_of_ok handled, List.length_cons,
        List.length_cons]
      exact Nat.succ_lt_succ (ih later)
  | @failed env message world next error attempts hasPayload failed _ _ =>
      cases attempts with
      | nil =>
          rcases fails with ⟨attempt, member, _⟩
          cases member
      | cons attempt attempts =>
          rw [Attempt.feed, List.map_cons, handledItems_cons_of_error failed]
          exact Nat.succ_lt_succ (Nat.succ_pos _)

/-- The stores come out as without the failing messages, and each message after a failing
one is handled, exactly when no insert fails before the last message. -/
theorem streamProcessor_skips_failures_iff {world : World} {attempts : List Attempt}
    (marked : Marked crates state world attempts) :
    ∃ reference,
      streamProcessor crates state (feedStream (Attempt.survivors attempts)) world =
          (.ok (), reference) ∧
        (((streamProcessor crates state (feedStream (Attempt.feed attempts)) world).2.contents =
              reference.contents ∧
            ∀ before failing after, attempts = before ++ failing :: after →
              failing.fails = true →
              handledItems crates state (feedStream (Attempt.feed attempts)) world =
                feedStream (Attempt.feed before) ++
                  .ok failing.item :: feedStream (Attempt.feed after)) ↔
          ∀ attempt ∈ attempts.dropLast, attempt.fails = false) := by
  rcases marked.streamProcessor_survivors with ⟨reference, ok⟩
  refine ⟨reference, ok, ?_⟩
  constructor
  · rintro ⟨_, handled⟩ attempt member
    by_contra failing
    have fails : attempt.fails = true := Bool.eq_true_of_not_eq_false failing
    rcases List.append_of_mem (List.mem_of_mem_dropLast member) with ⟨before, after, split⟩
    have fewer := marked.length_handledItems_lt ⟨attempt, member, fails⟩
    rw [handled before attempt after split fails, split] at fewer
    simp [feedStream, Attempt.feed] at fewer
  · intro safe
    rcases marked.unharmed safe ok with ⟨views, handled⟩
    constructor
    · exact World.contents_eq_of_view_eq views
    · intro before failing after split _
      rw [handled, split]
      simp [feedStream, Attempt.feed]

end Runs

/-! ## A key Postgres refuses -/

namespace Sample

def postgres : StoreType := .postgres ⟨⟨url, none, none⟩, "records"⟩

/-- A record under a key of one NUL character. -/
def nulRecord : Message := ⟨some [0], some (payload 1)⟩

/-- The database refuses that key. -/
def refusesNul : Env where
  http := http
  faults := fun call =>
    if call = .write (.insert (cache postgres) "\x00" (payload 1)) then
      some (.message "Postgres insert error: invalid byte sequence")
    else
      none

/-- The refused record, and a record of another key after it. -/
def attempts : List Attempt :=
  [⟨(refusesNul, nulRecord), true⟩, ⟨(refusesNul, record 2), false⟩]

theorem marked :
    Marked crates (state postgres) (world fun _ => ∅) attempts :=
  .failed rfl rfl (.handled rfl .nil)

end Sample

/-- The record after the refused one is lost. -/
theorem streamProcessor_loses_after_failure :
    Marked Sample.crates (Sample.state Sample.postgres) (Sample.world fun _ => ∅)
        Sample.attempts ∧
      (streamProcessor Sample.crates (Sample.state Sample.postgres)
          (feedStream (Attempt.feed Sample.attempts)) (Sample.world fun _ => ∅)).2.contents ≠
        (streamProcessor Sample.crates (Sample.state Sample.postgres)
          (feedStream (Attempt.survivors Sample.attempts))
          (Sample.world fun _ => ∅)).2.contents := by
  constructor
  · exact Sample.marked
  · intro same
    have found := congrArg (fun contents =>
      Finmap.lookup "k" (contents (Sample.cache Sample.postgres).cell)) same
    revert found
    decide

/-- Where the refused record comes last, nothing is lost. -/
theorem streamProcessor_skips_failures_sample :
    let attempts : List Attempt :=
      [⟨(Sample.refusesNul, Sample.record 2), false⟩, ⟨(Sample.refusesNul, Sample.nulRecord), true⟩]
    ∃ reference,
      streamProcessor Sample.crates (Sample.state Sample.postgres)
          (feedStream (Attempt.survivors attempts)) (Sample.world fun _ => ∅) =
            (.ok (), reference) ∧
        (streamProcessor Sample.crates (Sample.state Sample.postgres)
            (feedStream (Attempt.feed attempts)) (Sample.world fun _ => ∅)).2.contents =
          reference.contents ∧
        handledItems Sample.crates (Sample.state Sample.postgres)
            (feedStream (Attempt.feed attempts)) (Sample.world fun _ => ∅) =
          feedStream (Attempt.feed attempts) := by
  intro attempts
  have marked : Marked Sample.crates (Sample.state Sample.postgres)
      (Sample.world fun _ => ∅) attempts :=
    .handled rfl (.failed rfl rfl .nil)
  rcases streamProcessor_skips_failures_iff marked with ⟨reference, ok, same⟩
  have safe : ∀ attempt ∈ attempts.dropLast, attempt.fails = false := by
    intro attempt member
    rw [List.mem_singleton.mp member]
  rcases same.mpr safe with ⟨contents, handled⟩
  exact ⟨reference, ok, contents, handled [attempts.head (by simp [attempts])] _ [] rfl rfl⟩

end PushCache
