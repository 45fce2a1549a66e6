import PushCache.Concurrency.Program
import PushCache.Consumer.Feed

/-!
# The requests of the consumer

The message handler as a program whose commands are the `GET` requests it sends to
the schema registry, by their URLs.  Against a registry the program has the result
of `handleMessage`; beside it stand the requests it has sent.
-/

namespace PushCache

open PushCache.Concurrency
open PushCache.Transition

/-- What a request is answered: a response or a transport error. -/
abbrev HttpReply := Except String HttpResponse

/-- The URL at which a service asks for a schema. -/
def MyConfig.schemaUrl (config : MyConfig) (id : UInt32) : String :=
  s!"{config.kafka.schemaRegistryUrl.asStr}schemas/ids/{id}"

/-- Two ids are asked for at two URLs. -/
theorem MyConfig.schemaUrl_injective (config : MyConfig) :
    Function.Injective config.schemaUrl := by
  intro first second same
  have texts : (toString first).toList = (toString second).toList := by
    simpa [schemaUrl] using congrArg String.toList same
  have digits : Nat.toDigits 10 first.toNat = Nat.toDigits 10 second.toNat := by
    rw [← Nat.toList_repr, ← Nat.toList_repr]
    exact texts
  apply UInt32.toNat_inj.mp
  rw [← Nat.ofDigitChars_ten_toDigits (n := first.toNat), digits, Nat.ofDigitChars_ten_toDigits]

/-! ## The handler -/

/-- `fetch_schema_by_id`: one request, and what is made of the reply. -/
def requestSchema (crates : Crates) (state : MyState) (id : UInt32) :
    Program String HttpReply (Except MyError Schema) :=
  .command (state.config.schemaUrl id) fun reply =>
    .done (fetchSchemaById crates (fun _ => reply) state.config.kafka.schemaRegistryUrl.asStr id)

/-- The schema step of the closure: an id that is cached is not asked for. -/
def cacheSchemaProgram (crates : Crates) (state : MyState) (id : UInt32) (world : World) :
    Program String HttpReply World :=
  if id ∈ world.schemaCache then
    .done world
  else
    (requestSchema crates state id).map fun
      | .ok schema => { world with schemaCache := world.schemaCache.insert id schema }
      | .error _ => world

/-- The rest of the closure for a payload, after the schema step. -/
def routePayload (state : MyState) (faults : Faults) (key : Option Bytes) (payload : Bytes)
    (id : UInt32) (world : World) : Except MyError Unit × World :=
  match world.schemaCache.lookup id with
  | some schema =>
      match state.schemaToStore.lookup (fullName schema) with
      | some storeName =>
          match state.stores.lookup storeName with
          | some store =>
              match key with
              | some keyBytes =>
                  match fromUtf8 keyBytes with
                  | some keyStr => store.insert faults keyStr payload world
                  | none => (.ok (), world)
              | none => (.ok (), world)
          | none => (.ok (), world)
      | none => (.ok (), world.countUnrouted)
  | none => (.ok (), world)

/-- The closure for a message without a payload. -/
def removeEverywhere (state : MyState) (faults : Faults) (key : Option Bytes) (world : World) :
    Except MyError Unit × World :=
  match key with
  | some keyBytes =>
      match fromUtf8 keyBytes with
      | some keyStr =>
          tryForEach (fun cache world =>
            match cache.remove faults keyStr world with
            | (.ok _, world) => (.ok (), world)
            | (.error error, world) => (.error error, world)) state.caches world.countTombstone
      | none => (.ok (), world)
  | none => (.ok (), world)

/-- The closure `start_consumer` runs for each message, as a program. -/
def handleMessageProgram (crates : Crates) (state : MyState) (faults : Faults)
    (message : Message) (world : World) : Program String HttpReply (Except MyError Unit × World) :=
  match message.payload with
  | some payload =>
      match crates.getBytesResult (some payload) with
      | .valid msgId _ =>
          (cacheSchemaProgram crates state msgId world).map
            (routePayload state faults message.key payload msgId)
      | _ => .done (.ok (), world)
  | none => .done (removeEverywhere state faults message.key world)

section Handler

variable {crates : Crates} {state : MyState} {message : Message} {world : World}

theorem cacheSchemaProgram_against (env : Env) (id : UInt32) (world : World) :
    (cacheSchemaProgram crates state id world).against env.http =
      (cacheSchema crates state env id world,
        if id ∈ world.schemaCache then [] else [state.config.schemaUrl id]) := by
  rw [cacheSchemaProgram, cacheSchema]
  by_cases cached : id ∈ world.schemaCache
  · rw [if_pos cached, if_pos cached, if_pos cached]
    rfl
  · rw [if_neg cached, if_neg cached, if_neg cached, Program.against_map]
    rfl

/-- Against a registry the program has the result of the handler. -/
theorem handleMessageProgram_result (env : Env) (message : Message) (world : World) :
    ((handleMessageProgram crates state env.faults message world).against env.http).1 =
      handleMessage crates state env message world := by
  simp only [handleMessageProgram, handleMessage]
  cases message.payload with
  | none => rfl
  | some payload =>
      simp only
      cases crates.getBytesResult (some payload) with
      | null => rfl
      | invalid bytes => rfl
      | valid id data =>
          simp only [Program.against_map, cacheSchemaProgram_against]
          rfl

/-- The handler asks for the schema of its message, and only if it is not known. -/
theorem handleMessageProgram_requests (env : Env) {url : String}
    (requested : url ∈
      ((handleMessageProgram crates state env.faults message world).against env.http).2) :
    ∃ id, messageId crates message = some id ∧ world.schemaOf id = none ∧
      url = state.config.schemaUrl id := by
  simp only [handleMessageProgram] at requested
  split at requested
  · next payload payloadEq =>
      split at requested
      · next id data parsed =>
          rw [Program.against_map, cacheSchemaProgram_against] at requested
          by_cases cached : id ∈ world.schemaCache
          · simp only [if_pos cached] at requested
            cases requested
          · simp only [if_neg cached, List.mem_singleton] at requested
            refine ⟨id, ?_, Finmap.lookup_eq_none.mpr cached, requested⟩
            simp only [messageId, payloadEq, parsed]
      · cases requested
  · cases requested

end Handler

end PushCache
