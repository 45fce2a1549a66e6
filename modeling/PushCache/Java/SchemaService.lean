import PushCache.Concurrency.SingleFlight
import PushCache.Java.Tombstone

/-!
# Concurrent schema lookups of the Java service

`SchemaService.getSchema` looks the schema up without a lock, and again inside the
synchronized `fetchAndCacheSchema`, which fetches it.  One caller alone behaves as
`getSchema` in the record handler; any number of callers, in any interleaving and
under any behaviour of the registry over time, share one successful fetch of each
schema.
-/

namespace PushCache.Java

open PushCache.Concurrency
open PushCache.Transition

namespace SchemaService

/-- The schema cache and its monitor with the calls of `getSchema`. -/
abbrev Calls := Table.Callers JavaException Int32 Schema

/-- One fetch of a schema, under what the registry answers at that time. -/
def fetches (libraries : Libraries) (registryUrl : String) (restClient : RestClient)
    (id : Int32) : Except JavaException Schema :=
  fetchSchema libraries restClient registryUrl id

/-- `SchemaService.getSchema`, step by step. -/
def getSchemaCall (id : Int32) : Table.Caller JavaException Int32 Schema :=
  Table.getOrFetch id

/-- Callers of the service: a call starts, or takes its next step. -/
def callStep (libraries : Libraries) (registryUrl : String) : Step Calls (Move RestClient Int32) :=
  Pool.step (Table.answer (fetches libraries registryUrl)) getSchemaCall

/-- Undisturbed, the steps of a call are the method. -/
theorem getSchema_alone (libraries : Libraries) (registryUrl : String) (restClient : RestClient)
    (id : Int32) (world : World) :
    (getSchemaCall id).alone (Table.answer (fetches libraries registryUrl)) restClient
        ⟨world.schemaCache, false⟩ =
      some ((getSchema libraries restClient registryUrl id world).1.map some,
        ⟨(getSchema libraries restClient registryUrl id world).2.schemaCache, false⟩) := by
  simp only [getSchemaCall, Table.getOrFetch, Program.alone, Table.answer, Option.bind_some,
    getSchema]
  cases cached : world.schemaCache.lookup id with
  | some schema =>
      simp only [Table.getOrEnter, Program.alone, Table.answer, Option.bind_some, cached]
      rfl
  | none =>
      simp only [Table.getOrEnter, Table.fetchAndCache, Program.alone, Table.answer,
        Bool.false_eq_true, if_false, Option.bind_some, cached, Table.getOrRequest, fetches]
      cases fetchSchema libraries restClient registryUrl id <;> rfl

/-- In every interleaving of any number of calls, with any answers of the registry
over time: each schema is fetched successfully at most once, never when it is
cached, and a failed fetch leaves the cache as it is; a call that returns a schema
returns the cached one; and a cached schema never changes. -/
theorem getSchema_singleFlight (libraries : Libraries) (registryUrl : String)
    {moves : List (Move RestClient Int32)} {calls : Calls}
    (ran : run (callStep libraries registryUrl) (.initial Table.empty) moves = some calls) :
    Table.SingleFlight (fetches libraries registryUrl) calls ∧
      ∀ later final id schema,
        run (callStep libraries registryUrl) calls later = some final →
          calls.shared.entries.lookup id = some schema →
            final.shared.entries.lookup id = some schema := by
  have flight := Table.flight_of_run ran
  constructor
  · exact flight.singleFlight
  · intro later final id schema ranLater cached
    exact Table.lookup_of_run flight ranLater cached

end SchemaService

end PushCache.Java

namespace PushCache.Sample

open PushCache.Concurrency
open PushCache.Java.SchemaService
open PushCache.Transition

/-- Two callers miss the schema; the fetch of the first fails, that of the second,
which has waited, does not; and a third finds the schema. -/
def threeCallers : List (Move Java.RestClient Int32) :=
  let down : Java.RestClient := fun _ => .error ⟨"down"⟩
  let up : Java.RestClient := fun _ => .ok (some "customer")
  [.start 7, .start 7, .advance 0 up, .advance 1 up, .advance 0 up, .advance 0 up,
    .advance 0 down, .advance 0 up, .advance 1 up, .advance 1 up, .advance 1 up, .advance 1 up,
    .advance 1 up, .start 7, .advance 2 up, .advance 2 up]

theorem getSchema_singleFlight_of_threeCallers :
    ∃ calls, run (callStep (libraries (.record "customer" "schema")) "http://localhost:8081/")
        (.initial Table.empty) threeCallers = some calls ∧
      Table.fetched 7 calls = 1 ∧
      calls.calls.map (fun call => call.program.next?.isNone) = [true, true, true] ∧
      Table.SingleFlight (fetches (libraries (.record "customer" "schema"))
        "http://localhost:8081/") calls := by
  have ran : ∃ calls, run (callStep (libraries (.record "customer" "schema"))
      "http://localhost:8081/") (.initial Table.empty) threeCallers = some calls ∧
        Table.fetched 7 calls = 1 ∧
        calls.calls.map (fun call => call.program.next?.isNone) = [true, true, true] := by
    exact ⟨_, rfl, rfl, rfl⟩
  rcases ran with ⟨calls, ran, once, returned⟩
  exact ⟨calls, ran, once, returned, (getSchema_singleFlight _ _ ran).1⟩

end PushCache.Sample
