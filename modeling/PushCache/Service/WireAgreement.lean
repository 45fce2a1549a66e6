import PushCache.Service.Core

/-!
# Writers and readers agree on the wire format

Two writers accept records, the consumer through the registry client's parser and
`create_record` through its own check, and one reader parses what they stored.
Every stored value can be traced to the step of the run that wrote it, and the
reader finds the schema id and the body that the writer found.
-/

namespace PushCache

open PushCache.Transition

/-- Some step of the run wrote the value at the location and read it as the
schema id and the body. -/
def Service.WrittenAs (crates : Crates) (config : MyConfig) (start : Service)
    (actions : List Service.Action) (location : Cell × String) (value : Bytes)
    (id : UInt32) (data : Bytes) : Prop :=
  ∃ earlier action later reached, actions = earlier ++ action :: later ∧
    run (Service.step crates config) start earlier = some reached ∧
    action.Writes crates reached location value id data

/-- A write whose bytes are not in Confluent format: a posted body that is too
short or has another magic byte, or an invalid payload of a message. -/
def Service.Action.Rejected (crates : Crates) : Service.Action → Prop
  | .message _ delivered =>
      ∃ payload, delivered.payload = some payload ∧
        ∀ id data, crates.getBytesResult (some payload) ≠ .valid id data
  | .create _ _ _ body => body.length < 5 ∨ body.head? ≠ some 0
  | _ => False

/-! ## Rejected writes -/

/-- A message with an invalid payload changes nothing. -/
theorem handleMessage_of_invalid {crates : Crates} {message : Message} {payload : Bytes}
    (hasPayload : message.payload = some payload)
    (invalid : ∀ id data, crates.getBytesResult (some payload) ≠ .valid id data)
    (state : MyState) (env : Env) (world : World) :
    handleMessage crates state env message world = (.ok (), world) := by
  simp only [handleMessage, hasPayload]

/-- `create_record` answers an error to a body that is too short or has another
magic byte. -/
theorem checkRecord_of_rejected {body : Bytes}
    (rejected : body.length < 5 ∨ body.head? ≠ some 0) :
    ∃ error, checkRecord body = .error error := by
  cases checked : checkRecord body with
  | error error => exact ⟨error, rfl⟩
  | ok id =>
      rcases checkRecord_eq_ok_iff.mp checked with ⟨data, framed⟩
      rcases (exists_framed_iff body).mp ⟨id, data, framed⟩ with ⟨long, magic⟩
      rcases rejected with short | other
      · omega
      · contradiction

section Runs

variable {crates : Crates} {config : MyConfig} {service next : Service}
  {action : Service.Action}

/-- A rejected write leaves every store as it is. -/
theorem Service.step_of_rejected (rejected : action.Rejected crates)
    (stepped : step crates config service action = some next) :
    next.world = service.world := by
  cases action with
  | message env delivered =>
      rcases rejected with ⟨payload, hasPayload, invalid⟩
      rw [(step_message stepped).2, handleMessage_of_invalid hasPayload invalid]
  | create env route key body =>
      rcases request_eq_some stepped with ⟨cache, _, _, world⟩
      rcases checkRecord_of_rejected rejected with ⟨error, checked⟩
      rw [world, createRecord_of_rejected checked]
  | delete env route key => exact rejected.elim
  | get env route key => exact rejected.elim
  | getByBody env route body => exact rejected.elim
  | restart order boot => exact rejected.elim

/-! ## Whole runs -/

/-- The stores of a service stay in memory. -/
theorem Service.inMemory_preserved
    (allInMemory : ∀ definition ∈ config.cache.stores, definition.storeType = .inMemory) :
    Preserved (step crates config) fun service => service.state.InMemory := by
  intro source action target inMemory stepped
  rcases step_state stepped with same | ⟨order, boot, created⟩
  · rwa [same]
  · exact MyState.new_inMemory created allInMemory

/-- Every stored value was written by a step of the run. -/
theorem Service.writtenAs_of_stored {start final : Service} {actions : List Service.Action}
    {location : Cell × String} {value : Bytes}
    (startsEmpty : start.world.view location = none)
    (ran : run (step crates config) start actions = some final)
    (stored : final.world.view location = some value) :
    ∃ id data, WrittenAs crates config start actions location value id data := by
  have traced : ∀ ⦃source action target⦄, step crates config source action = some target →
      target.world.view location = some value → source.world.view location = some value ∨
        ∃ id data, action.Writes crates source location value id data :=
    fun _ _ _ stepped here => step_stored stepped here
  obtain ⟨earlier, action, later, reached, split, before, id, data, writes⟩ :=
    exists_cause_of_run traced (by simp [startsEmpty]) ran stored
  exact ⟨id, data, earlier, action, later, reached, split, before, writes⟩

/-- Whoever wrote a value read it the way the wire format says. -/
theorem Service.WrittenAs.framed (framing : ConfluentFraming crates.getBytesResult)
    {start : Service} {actions : List Service.Action} {location : Cell × String}
    {value data : Bytes} {id : UInt32}
    (written : WrittenAs crates config start actions location value id data) :
    Framed value id data := by
  rcases written with ⟨_, _, _, _, _, _, writes⟩
  exact writes.framed framing

/-- Over in-memory stores that start empty, in every state a run reaches: every
stored value is at least five bytes long, starts with the magic byte and was
written by a step of the run; the reader never answers that the format is
invalid and extracts the id and the body that the writer read; and a rejected
write changes nothing. -/
theorem writers_agree_with_reader {order : RandomState} {boot : Boot} {state : MyState}
    {world : World} {final : Service} {actions : List Service.Action}
    (framing : ConfluentFraming crates.getBytesResult)
    (allInMemory : ∀ definition ∈ config.cache.stores, definition.storeType = .inMemory)
    (started : MyState.new crates order boot config (fun _ => ∅) = .ok (state, world))
    (ran : run (Service.step crates config) (Service.started state world) actions =
      some final) :
    (∀ location value, final.world.view location = some value →
      4 < value.length ∧ value.head? = some 0 ∧
        ∃ id data, Service.WrittenAs crates config (Service.started state world) actions
          location value id data) ∧
    (∀ env, ∀ cache ∈ final.state.caches, ∀ key,
      (retrieveRecordLogic crates final.state env cache key final.world).1 ≠
          .error (.message "Invalid Avro message format") ∧
        ∀ value id data, final.world.view (cache.location key) = some value →
          Service.WrittenAs crates config (Service.started state world) actions
              (cache.location key) value id data →
            crates.getBytesResult (some value) = .valid id data ∧
              retrieveRecordLogic crates final.state env cache key final.world =
                (renderRecord crates final.state id data final.world, final.world)) ∧
    ∀ action next, action.Rejected crates →
      Service.step crates config final action = some next → next.world = final.world := by
  have startsEmpty := MyState.new_view_of_empty started
  have inMemory : final.state.InMemory :=
    (Service.inMemory_preserved allInMemory).of_run
      (MyState.new_inMemory started allInMemory) ran
  refine ⟨?_, ?_, fun _ _ rejected stepped => Service.step_of_rejected rejected stepped⟩
  · intro location value stored
    obtain ⟨id, data, written⟩ :=
      Service.writtenAs_of_stored (startsEmpty location) ran stored
    rcases (exists_framed_iff value).mp ⟨id, data, written.framed framing⟩ with ⟨long, magic⟩
    exact ⟨long, magic, id, data, written⟩
  · intro env cache member key
    have got := Cache.get_of_inMemory (inMemory cache member) env.faults key final.world
    constructor
    · cases stored : final.world.view (cache.location key) with
      | none =>
          rw [stored] at got
          simp [retrieveRecordLogic, got]
      | some value =>
          obtain ⟨id, data, written⟩ :=
            Service.writtenAs_of_stored (startsEmpty _) ran stored
          rw [stored] at got
          rw [retrieveRecordLogic_of_framed framing final.state got (written.framed framing)]
          exact renderRecord_ne_message crates final.state id data final.world _
    · intro value id data stored written
      rw [stored] at got
      have framed := written.framed framing
      exact ⟨(framing value id data).mpr framed,
        retrieveRecordLogic_of_framed framing final.state got framed⟩

end Runs

theorem writers_agree_with_reader_sample :
    ∃ final, run (Service.step Sample.crates (Sample.config .inMemory))
        (Service.started (Sample.state .inMemory) (Sample.world fun _ => ∅)) Sample.served =
          some final ∧
      retrieveRecordLogic Sample.crates final.state Sample.env (Sample.cache .inMemory) "other"
          final.world =
        (renderRecord Sample.crates final.state 7 [2] final.world, final.world) := by
  have ran : run (Service.step Sample.crates (Sample.config .inMemory))
      (Service.started (Sample.state .inMemory) (Sample.world fun _ => ∅)) Sample.served =
        some _ := rfl
  refine ⟨_, ran, ?_⟩
  obtain ⟨_, reads, _⟩ := writers_agree_with_reader confluentParser_framing
    (by simp [Sample.config, Sample.customers]) (Sample.started .inMemory fun _ => ∅) ran
  have reading := (reads Sample.env (Sample.cache .inMemory) List.mem_cons_self "other").2
    (Sample.payload 2) 7 [2] rfl
  refine (reading ⟨[.message Sample.env (Sample.record 1)], _, _, _, rfl, rfl, ?_⟩).2
  exact ⟨⟨Sample.cache .inMemory, rfl, rfl⟩, rfl, rfl, rfl⟩

end PushCache
