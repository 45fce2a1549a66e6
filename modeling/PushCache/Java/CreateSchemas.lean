import Mathlib.Logic.Function.Basic
import PushCache.Java.DataSource
import PushCache.Keyed.Provision

/-!
# The tables of the Java stores

The `create-schemas` command of the Java service lets Flyway make the table of every
SQL store.  Flyway keeps its history in the database schema, and the one migration
there is counts as applied for the whole of it, whatever the name of the table; so a
schema gets the table of the first store that lives in it, and no other.
-/

namespace PushCache.Java

open PushCache.Keyed
open PushCache.Transition

/-- A schema of a database: its tables, apart from the history of Flyway, and whether that
history has the migration. -/
structure DatabaseSchema (C : Type*) where
  tables : String → Option C
  applied : Bool

/-- What a call of `migrate` may do with the name of a table.  An applied migration is
not applied again; a failure leaves no table behind. -/
inductive Migrates {C : Type*} (fresh : C) (name : String) (before : DatabaseSchema C) :
    Except JavaException Unit → DatabaseSchema C → Prop
  | upToDate (applied : before.applied = true) : Migrates fresh name before (.ok ()) before
  | first (pending : before.applied = false) (missing : before.tables name = none) :
      Migrates fresh name before (.ok ())
        ⟨Function.update before.tables name (some fresh), true⟩
  | failed (thrown : JavaException) : Migrates fresh name before (.error thrown) before

/-- Flyway, in an outside world: `migrate` with a location and the placeholder
`tableName`, on the schema of a data source. -/
structure Flyway (ω C : Type*) where
  fresh : C
  migrate : ω → String → Option String → DatabaseSchema C →
    Except JavaException Unit × DatabaseSchema C
  documented : ∀ outside location name before,
    Migrates fresh name before (migrate outside location (some name) before).1
      (migrate outside location (some name) before).2

/-- What the command works with, apart from its configuration: the schema that a login
lands in, and the pools that cannot be opened. -/
structure SchemaCreation (ω S C : Type*) where
  uri : NetUri
  flyway : Flyway ω C
  schemaOf : HikariConfig → S
  refuses : ω → HikariConfig → Option JavaException

variable {ω S C : Type*} [DecidableEq S]

/-- The body of the loop for an SQL store: open it and migrate. -/
def SchemaCreation.migrate (creation : SchemaCreation ω S C) (outside : ω) (location : String)
    (opened : Except JavaException HikariConfig) (tableName : Option String)
    (schemas : S → DatabaseSchema C) :
    Except JavaException Unit × (S → DatabaseSchema C) :=
  match opened with
  | .error _ => (.error ⟨"Schema creation failed"⟩, schemas)
  | .ok config =>
      match creation.refuses outside config with
      | some _ => (.error ⟨"Schema creation failed"⟩, schemas)
      | none =>
          let schema := creation.schemaOf config
          match creation.flyway.migrate outside location tableName (schemas schema) with
          | (.ok _, after) => (.ok (), Function.update schemas schema after)
          | (.error _, after) =>
              (.error ⟨"Schema creation failed"⟩, Function.update schemas schema after)

/-- The round of the loop for a store. -/
def SchemaCreation.createSchema (creation : SchemaCreation ω S C) (outside : ω)
    (storeDef : StoreDefinition) :
    (S → DatabaseSchema C) → Except JavaException Unit × (S → DatabaseSchema C) :=
  match storeDef.type with
  | .oracle =>
      creation.migrate outside "classpath:db/migration/oracle"
        (OracleCache.hikariConfig creation.uri storeDef) storeDef.tableName
  | .postgres =>
      creation.migrate outside "classpath:db/migration/postgres"
        (PostgresCache.hikariConfig creation.uri storeDef) storeDef.tableName
  | _ => fun schemas => (.ok (), schemas)

/-- What the constructor of an SQL store is made with. -/
def sqlKind : StoreType → Option SqlKind
  | .oracle => some OracleCache.kind
  | .postgres => some PostgresCache.kind
  | _ => none

/-- The store has a table. -/
def StoreDefinition.HasTable (storeDef : StoreDefinition) : Prop :=
  (sqlKind storeDef.type).isSome = true

/-- `CreateSchemas.run`.  The list of stores may be null. -/
def SchemaCreation.createSchemas (creation : SchemaCreation ω S C)
    (stores : Option (List StoreDefinition)) (outside : ω) :
    (S → DatabaseSchema C) → Except JavaException Unit × (S → DatabaseSchema C) :=
  tryForEach (creation.createSchema outside) (stores.getD [])

/-- An attempt to create the schemas, or a change of what a table holds. -/
inductive SchemaCreation.Move (ω S C : Type*) where
  | attempt (outside : ω)
  | change (schema : S) (name : String) (next : C → C)

/-- A store that can be configured has a table name. -/
theorem SqlKind.tableName_of_hikariConfig (kind : SqlKind) {uri : NetUri}
    {definition : StoreDefinition} {config : HikariConfig}
    (configured : kind.hikariConfig uri definition = .ok config) :
    ∃ name, definition.tableName = some name := by
  rw [hikariConfig] at configured
  cases given : definition.url with
  | none =>
      rw [given] at configured
      cases configured
  | some url =>
      cases named : definition.tableName with
      | none =>
          rw [given, named] at configured
          cases configured
      | some name => exact ⟨name, rfl⟩

namespace SchemaCreation

/-- The transition system, with the configured stores. -/
def step (creation : SchemaCreation ω S C) (stores : Option (List StoreDefinition)) :
    Step (S → DatabaseSchema C) (Move ω S C)
  | schemas, .attempt outside => some (creation.createSchemas stores outside schemas).2
  | schemas, .change schema name next =>
      some (Function.update schemas schema
        { schemas schema with
          tables := Function.update (schemas schema).tables name
            (((schemas schema).tables name).map next) })

/-- What a move makes of what a table holds. -/
def Move.edit : Move ω S C → S × String → C → C
  | .change schema name next, place, content =>
      if place = (schema, name) then next content else content
  | _, _, content => content

/-- The schema and the name of the table of a store, if it is an SQL store that can be
configured. -/
def target (creation : SchemaCreation ω S C) (storeDef : StoreDefinition) : Option (S × String) :=
  (sqlKind storeDef.type).bind fun kind =>
    (kind.hikariConfig creation.uri storeDef).toOption.bind fun config =>
      storeDef.tableName.map fun name => (creation.schemaOf config, name)

/-- The name of the table of the first store that lives in a schema. -/
def firstTable (creation : SchemaCreation ω S C) (stores : List StoreDefinition) (schema : S) :
    Option String :=
  stores.findSome? fun storeDef =>
    (creation.target storeDef).bind fun place =>
      if place.1 = schema then some place.2 else none

/-- The schemas of these stores have been migrated. -/
def Covered (creation : SchemaCreation ω S C) (schemas : S → DatabaseSchema C)
    (done : List StoreDefinition) : Prop :=
  ∀ storeDef ∈ done, ∀ schema name, creation.target storeDef = some (schema, name) →
    (schemas schema).applied = true

/-- A migrated schema has the table of the first store that lives in it. -/
def FirstMade (creation : SchemaCreation ω S C) (stores : List StoreDefinition)
    (schemas : S → DatabaseSchema C) : Prop :=
  ∀ schema, (schemas schema).applied = true → ∃ name,
    creation.firstTable stores schema = some name ∧
      ((schemas schema).tables name).isSome = true

section Rounds

variable {creation : SchemaCreation ω S C} {outside : ω} {stores done : List StoreDefinition}
  {storeDef : StoreDefinition} {schemas : S → DatabaseSchema C} {schema : S} {name : String}

/-- The body of the loop fails and does nothing, or migrates the schema of the store. -/
theorem migrate_spec (creation : SchemaCreation ω S C) (outside : ω) (location : String)
    {kind : SqlKind} (sql : sqlKind storeDef.type = some kind)
    (schemas : S → DatabaseSchema C) :
    (∃ thrown, creation.migrate outside location (kind.hikariConfig creation.uri storeDef)
      storeDef.tableName schemas = (.error thrown, schemas)) ∨
    ∃ schema name after, creation.target storeDef = some (schema, name) ∧
      Migrates creation.flyway.fresh name (schemas schema) (.ok ()) after ∧
      creation.migrate outside location (kind.hikariConfig creation.uri storeDef)
        storeDef.tableName schemas = (.ok (), Function.update schemas schema after) := by
  rw [target, sql, Option.bind_some]
  cases opened : kind.hikariConfig creation.uri storeDef with
  | error thrown => exact Or.inl ⟨_, rfl⟩
  | ok config =>
      rcases kind.tableName_of_hikariConfig opened with ⟨name, named⟩
      cases refused : creation.refuses outside config with
      | some thrown => exact Or.inl ⟨⟨"Schema creation failed"⟩, by simp only [migrate, refused]⟩
      | none =>
          have documented := creation.flyway.documented outside location name
            (schemas (creation.schemaOf config))
          simp only [migrate, refused, named]
          rcases migrated : creation.flyway.migrate outside location (some name)
            (schemas (creation.schemaOf config)) with ⟨thrown | done, after⟩
          · rw [migrated] at documented
            cases documented
            left
            exact ⟨_, congrArg (Prod.mk _) (Function.update_eq_self _ schemas)⟩
          · rw [migrated] at documented
            right
            exact ⟨_, _, after, rfl, documented, rfl⟩

/-- Everything a round can do: fail, pass over a store without a table, or migrate. -/
theorem createSchema_spec (creation : SchemaCreation ω S C) (outside : ω)
    (storeDef : StoreDefinition) (schemas : S → DatabaseSchema C) :
    (∃ thrown, creation.createSchema outside storeDef schemas = (.error thrown, schemas)) ∨
    (sqlKind storeDef.type = none ∧
      creation.createSchema outside storeDef schemas = (.ok (), schemas)) ∨
    ∃ schema name after, creation.target storeDef = some (schema, name) ∧
      Migrates creation.flyway.fresh name (schemas schema) (.ok ()) after ∧
      creation.createSchema outside storeDef schemas =
        (.ok (), Function.update schemas schema after) := by
  cases type : storeDef.type with
  | inMemory | redis | mongo =>
      right
      left
      rw [createSchema, type]
      exact ⟨rfl, rfl⟩
  | oracle =>
      have sql : sqlKind storeDef.type = some OracleCache.kind := by rw [type]; rfl
      rw [createSchema, type]
      exact (migrate_spec creation outside _ sql schemas).imp_right Or.inr
  | postgres =>
      have sql : sqlKind storeDef.type = some PostgresCache.kind := by rw [type]; rfl
      rw [createSchema, type]
      exact (migrate_spec creation outside _ sql schemas).imp_right Or.inr

/-- A store whose schema nobody has migrated is the first that lives in it. -/
theorem firstTable_of_pending {rest : List StoreDefinition}
    (split : stores = done ++ storeDef :: rest) (covered : creation.Covered schemas done)
    (targeted : creation.target storeDef = some (schema, name))
    (pending : (schemas schema).applied = false) :
    creation.firstTable stores schema = some name := by
  have nobody : done.findSome? (fun other => (creation.target other).bind fun place =>
      if place.1 = schema then some place.2 else none) = none := by
    rw [List.findSome?_eq_none_iff]
    intro other member
    cases there : creation.target other with
    | none => rfl
    | some place =>
        rw [Option.bind_some]
        apply if_neg
        rintro rfl
        have applied := covered other member place.1 place.2 there
        rw [applied] at pending
        cases pending
  rw [firstTable, split, List.findSome?_append, nobody, Option.none_or, List.findSome?_cons,
    targeted, Option.bind_some, if_pos rfl]

theorem mem_of_firstTable (first : creation.firstTable stores schema = some name) :
    ∃ storeDef ∈ stores, creation.target storeDef = some (schema, name) := by
  rcases List.exists_of_findSome?_eq_some first with ⟨storeDef, member, found⟩
  rcases Option.bind_eq_some_iff.mp found with ⟨⟨other, table⟩, targeted, here⟩
  by_cases same : other = schema
  · rw [if_pos same] at here
    cases here
    exact ⟨storeDef, member, same ▸ targeted⟩
  · rw [if_neg same] at here
    cases here

omit [DecidableEq S] in
theorem hasTable_of_target {place : S × String}
    (targeted : creation.target storeDef = some place) : storeDef.HasTable := by
  rcases Option.bind_eq_some_iff.mp targeted with ⟨kind, sql, _⟩
  rw [StoreDefinition.HasTable, sql]
  rfl

/-- The tables there are stay, and at most the one of the first store that lives in a
schema is made, when the schema is migrated. -/
structure Progresses (creation : SchemaCreation ω S C) (stores : List StoreDefinition)
    (before after : S → DatabaseSchema C) : Prop where
  applied : ∀ schema, (before schema).applied = true → (after schema).applied = true
  tables : ∀ schema name, (after schema).tables name = (before schema).tables name ∨
    ((before schema).tables name = none ∧ creation.firstTable stores schema = some name ∧
      (after schema).tables name = some creation.flyway.fresh)
  made : ∀ schema, (before schema).applied = false → (after schema).applied = true →
    ∃ name, creation.firstTable stores schema = some name ∧
      ((after schema).tables name).isSome = true

theorem Progresses.refl (creation : SchemaCreation ω S C) (stores : List StoreDefinition)
    (schemas : S → DatabaseSchema C) : creation.Progresses stores schemas schemas where
  applied _ applied := applied
  tables _ _ := Or.inl rfl
  made schema pending applied := by
    rw [applied] at pending
    cases pending

theorem Progresses.isSome {after : S → DatabaseSchema C}
    (progresses : creation.Progresses stores schemas after)
    (there : ((schemas schema).tables name).isSome = true) :
    ((after schema).tables name).isSome = true := by
  rcases progresses.tables schema name with same | ⟨missing, _⟩
  · rw [same]
    exact there
  · rw [missing] at there
    cases there

theorem Progresses.trans {middle after : S → DatabaseSchema C}
    (first : creation.Progresses stores schemas middle)
    (second : creation.Progresses stores middle after) :
    creation.Progresses stores schemas after where
  applied schema applied := second.applied schema (first.applied schema applied)
  tables schema name := by
    rcases second.tables schema name with same | ⟨missing, own, made⟩
    · rw [same]
      exact first.tables schema name
    · rcases first.tables schema name with same | ⟨_, _, there⟩
      · exact Or.inr ⟨same ▸ missing, own, made⟩
      · rw [there] at missing
        cases missing
  made schema pending applied := by
    cases between : (middle schema).applied with
    | true =>
        rcases first.made schema pending between with ⟨name, own, there⟩
        exact ⟨name, own, second.isSome there⟩
    | false => exact second.made schema between applied

theorem FirstMade.of_progresses {after : S → DatabaseSchema C}
    (firstMade : creation.FirstMade stores schemas)
    (progresses : creation.Progresses stores schemas after) :
    creation.FirstMade stores after := by
  intro schema applied
  cases before : (schemas schema).applied with
  | true =>
      rcases firstMade schema before with ⟨name, own, there⟩
      exact ⟨name, own, progresses.isSome there⟩
  | false => exact progresses.made schema before applied

/-- The migration of the schema of the next store. -/
theorem progresses_of_migrates {rest : List StoreDefinition} {after : DatabaseSchema C}
    (split : stores = done ++ storeDef :: rest) (covered : creation.Covered schemas done)
    (targeted : creation.target storeDef = some (schema, name))
    (migrates : Migrates creation.flyway.fresh name (schemas schema) (.ok ()) after) :
    creation.Progresses stores schemas (Function.update schemas schema after) ∧
      after.applied = true := by
  cases migrates with
  | upToDate applied =>
      rw [Function.update_eq_self]
      exact ⟨.refl creation stores schemas, applied⟩
  | first pending missing =>
      have own := firstTable_of_pending split covered targeted pending
      apply And.intro _ rfl
      constructor
      · intro other applied
        by_cases same : other = schema
        · rw [same, Function.update_self]
        · rw [Function.update_of_ne same]
          exact applied
      · intro other table
        by_cases same : other = schema
        · subst same
          rw [Function.update_self]
          by_cases named : table = name
          · subst named
            exact Or.inr ⟨missing, own, Function.update_self _ _ _⟩
          · exact Or.inl (Function.update_of_ne named _ _)
        · rw [Function.update_of_ne same]
          exact Or.inl rfl
      · intro other before applied
        by_cases same : other = schema
        · subst same
          apply Exists.intro name
          apply And.intro own
          have here : Function.update (schemas other).tables name (some creation.flyway.fresh)
              name = some creation.flyway.fresh := Function.update_self name _ _
          rw [Function.update_self]
          exact congrArg Option.isSome here
        · rw [Function.update_of_ne same, before] at applied
          cases applied

/-- The stores have been dealt with: their schemas are migrated, and those with a table
could be configured. -/
def Dealt (creation : SchemaCreation ω S C) (schemas : S → DatabaseSchema C)
    (done : List StoreDefinition) : Prop :=
  creation.Covered schemas done ∧
    ∀ storeDef ∈ done, storeDef.HasTable → (creation.target storeDef).isSome = true

omit [DecidableEq S] in
theorem Dealt.snoc (dealt : creation.Dealt schemas done)
    (own : ∀ schema name, creation.target storeDef = some (schema, name) →
      (schemas schema).applied = true)
    (configured : storeDef.HasTable → (creation.target storeDef).isSome = true) :
    creation.Dealt schemas (done ++ [storeDef]) :=
  ⟨List.forall_mem_append.mpr ⟨dealt.1, List.forall_mem_singleton.mpr own⟩,
    List.forall_mem_append.mpr ⟨dealt.2, List.forall_mem_singleton.mpr configured⟩⟩

theorem Dealt.of_progresses {after : S → DatabaseSchema C}
    (dealt : creation.Dealt schemas done)
    (progresses : creation.Progresses stores schemas after) : creation.Dealt after done :=
  ⟨fun storeDef member schema name targeted =>
    progresses.applied schema (dealt.1 storeDef member schema name targeted), dealt.2⟩

/-- The rest of the loop, after some stores have been dealt with. -/
theorem traverse_progresses (creation : SchemaCreation ω S C) (outside : ω)
    {remaining : List StoreDefinition} (split : stores = done ++ remaining)
    (dealt : creation.Dealt schemas done) :
    creation.Progresses stores schemas
        (tryForEach (creation.createSchema outside) remaining schemas).2 ∧
      ((tryForEach (creation.createSchema outside) remaining schemas).1 = .ok () →
        creation.Dealt (tryForEach (creation.createSchema outside) remaining schemas).2
          stores) := by
  induction remaining generalizing done schemas with
  | nil =>
      rw [List.append_nil] at split
      exact ⟨.refl creation stores schemas, fun _ => split ▸ dealt⟩
  | cons storeDef remaining ih =>
      have splitLater : stores = (done ++ [storeDef]) ++ remaining := by
        rw [split, List.append_assoc, List.singleton_append]
      rcases createSchema_spec creation outside storeDef schemas with
        ⟨thrown, failed⟩ | ⟨noTable, passed⟩ | ⟨schema, name, after, targeted, migrates, passed⟩
      · rw [tryForEach_cons_of_error failed]
        apply And.intro (.refl creation stores schemas)
        intro ok
        cases ok
      · rw [tryForEach_cons_of_ok passed]
        apply ih splitLater
        apply dealt.snoc
        · intro schema name targeted
          rw [target, noTable] at targeted
          cases targeted
        · intro hasTable
          rw [StoreDefinition.HasTable, noTable] at hasTable
          cases hasTable
      · rw [tryForEach_cons_of_ok passed]
        rcases progresses_of_migrates split dealt.1 targeted migrates with ⟨progresses, applied⟩
        have dealtLater :
            creation.Dealt (Function.update schemas schema after) (done ++ [storeDef]) := by
          apply (dealt.of_progresses progresses).snoc
          · intro other table also
            rw [targeted] at also
            cases also
            rw [Function.update_self]
            exact applied
          · intro _
            rw [targeted]
            rfl
        rcases ih splitLater dealtLater with ⟨later, dealtLast⟩
        exact ⟨progresses.trans later, dealtLast⟩

end Rounds

section Runs

variable {creation : SchemaCreation ω S C} {configured : Option (List StoreDefinition)}
  {schemas final : S → DatabaseSchema C} {moves : List (Move ω S C)}

/-- An attempt of the command. -/
theorem createSchemas_progresses (creation : SchemaCreation ω S C)
    (configured : Option (List StoreDefinition)) (outside : ω) (schemas : S → DatabaseSchema C) :
    creation.Progresses (configured.getD []) schemas
        (creation.createSchemas configured outside schemas).2 ∧
      ((creation.createSchemas configured outside schemas).1 = .ok () →
        creation.Dealt (creation.createSchemas configured outside schemas).2
          (configured.getD [])) :=
  traverse_progresses creation outside (List.nil_append _).symm
    ⟨fun _ member => absurd member List.not_mem_nil,
      fun _ member => absurd member List.not_mem_nil⟩

/-- Every move edits the tables there are, and an attempt makes at most the table of the
first store that lives in a schema. -/
theorem provisions :
    Provisions (creation.step configured) (creation.FirstMade (configured.getD []))
      (fun schemas place => (schemas place.1).tables place.2) Move.edit
      (fun _ => creation.flyway.fresh)
      (fun place => creation.firstTable (configured.getD []) place.1 = some place.2) := by
  intro source move target firstMade stepped
  cases move with
  | attempt outside =>
      cases stepped
      have progresses := (createSchemas_progresses creation configured outside source).1
      apply And.intro (firstMade.of_progresses progresses)
      intro place
      rcases progresses.tables place.1 place.2 with same | made
      · exact Or.inl (same.trans Option.map_id'.symm)
      · exact Or.inr made
  | change schema name next =>
      cases stepped
      have entries : ∀ place : S × String,
          (Function.update source schema
            { source schema with
              tables := Function.update (source schema).tables name
                (((source schema).tables name).map next) } place.1).tables place.2 =
            ((source place.1).tables place.2).map
              (Move.edit (.change schema name next : Move ω S C) place) := by
        rintro ⟨other, table⟩
        by_cases here : (other, table) = (schema, name)
        · cases here
          have edits : Move.edit (.change schema name next : Move ω S C) (schema, name) = next :=
            funext fun content => if_pos rfl
          rw [edits, Function.update_self]
          exact Function.update_self name _ _
        · have untouched : Move.edit (.change schema name next : Move ω S C) (other, table) =
              fun content => content := funext fun content => if_neg here
          rw [untouched, Option.map_id']
          by_cases same : other = schema
          · subst same
            have different : table ≠ name := by
              rintro rfl
              exact here rfl
            rw [Function.update_self]
            exact Function.update_of_ne different _ _
          · rw [Function.update_of_ne same]
      apply And.intro _ fun place => Or.inl (entries place)
      intro other applied
      have before : (source other).applied = true := by
        by_cases same : other = schema
        · subst same
          rw [Function.update_self] at applied
          exact applied
        · rw [Function.update_of_ne same] at applied
          exact applied
      rcases firstMade other before with ⟨table, own, there⟩
      apply Exists.intro table
      apply And.intro own
      have kept := congrArg Option.isSome (entries (other, table))
      rw [Option.isSome_map] at kept
      exact kept.trans there

/-- Tables of configured stores, and of the first in a schema only. -/
theorem firstTable_of_isSome
    (ran : run (creation.step configured) (fun _ => ⟨fun _ => none, false⟩) moves = some final)
    {schema : S} {name : String} (there : ((final schema).tables name).isSome = true) :
    creation.firstTable (configured.getD []) schema = some name := by
  have initial : creation.FirstMade (configured.getD []) fun _ => ⟨fun _ => none, false⟩ :=
    fun _ applied => absurd applied Bool.false_ne_true
  rcases provisions.run_of_none initial ran (schema, name) rfl with missing | ⟨own, _⟩
  · rw [missing] at there
    cases there
  · exact own

/-- From databases without tables, however often the command is run, whatever fails and
whatever services do in between: a schema has no store table but that of the first store
that lives in it.  After an attempt that succeeds, every store has its table exactly when
stores that live in one schema have one table. -/
theorem java_createSchemas_covers_iff
    (ran : run (creation.step configured) (fun _ => ⟨fun _ => none, false⟩) moves =
      some final) :
    (∀ schema name, (final schema).tables name = none ∨
      creation.firstTable (configured.getD []) schema = some name ∧
        ∃ earlier later, moves = earlier ++ later ∧ (final schema).tables name =
          some (edited Move.edit (schema, name) later creation.flyway.fresh)) ∧
    ∀ outside, (creation.createSchemas configured outside final).1 = .ok () →
      ((∀ storeDef ∈ configured.getD [], storeDef.HasTable → ∃ schema name,
          creation.target storeDef = some (schema, name) ∧
            (((creation.createSchemas configured outside final).2 schema).tables
              name).isSome = true) ↔
        ∀ first ∈ configured.getD [], ∀ second ∈ configured.getD [],
          ∀ schema name other, creation.target first = some (schema, name) →
            creation.target second = some (schema, other) → name = other) := by
  have initial : creation.FirstMade (configured.getD []) fun _ => ⟨fun _ => none, false⟩ :=
    fun _ applied => absurd applied Bool.false_ne_true
  constructor
  · intro schema name
    exact provisions.run_of_none initial ran (schema, name) rfl
  · intro outside ok
    have ranMore : run (creation.step configured) (fun _ => ⟨fun _ => none, false⟩)
        (moves ++ [.attempt outside]) =
          some (creation.createSchemas configured outside final).2 := by
      rw [run_append, ran]
      rfl
    have firstMade := provisions.preserved.of_run initial ranMore
    have dealt := (createSchemas_progresses creation configured outside final).2 ok
    constructor
    · intro all first firstIn second secondIn schema name other firstTarget secondTarget
      rcases all first firstIn (hasTable_of_target firstTarget) with
        ⟨_, _, targeted, firstThere⟩
      rcases all second secondIn (hasTable_of_target secondTarget) with
        ⟨_, _, also, secondThere⟩
      cases firstTarget.symm.trans targeted
      cases secondTarget.symm.trans also
      have own := firstTable_of_isSome ranMore firstThere
      rw [firstTable_of_isSome ranMore secondThere] at own
      exact (Option.some.inj own).symm
    · intro alike storeDef member hasTable
      rcases Option.isSome_iff_exists.mp (dealt.2 storeDef member hasTable) with
        ⟨⟨schema, name⟩, targeted⟩
      rcases firstMade schema (dealt.1 storeDef member schema name targeted) with
        ⟨made, own, there⟩
      rcases mem_of_firstTable own with ⟨other, otherIn, otherTarget⟩
      cases alike storeDef member other otherIn schema name made targeted otherTarget
      exact ⟨schema, name, targeted, there⟩

end Runs

end SchemaCreation

end PushCache.Java

namespace PushCache.Sample

open PushCache.Java
open PushCache.Transition

/-- A history, and tables with a number of records. -/
def flyway : Flyway (Option JavaException) Nat where
  fresh := 0
  migrate _ _ tableName before :=
    match tableName with
    | none => (.error ⟨"No value provided for placeholder"⟩, before)
    | some name =>
        if before.applied then (.ok (), before)
        else if (before.tables name).isSome then (.error ⟨"already exists"⟩, before)
        else (.ok (), ⟨Function.update before.tables name (some 0), true⟩)
  documented _ _ name before := by
    cases applied : before.applied with
    | true =>
        simp only [if_true]
        exact .upToDate applied
    | false =>
        cases there : before.tables name with
        | some content =>
            simp only [there, Option.isSome_some, if_true, Bool.false_eq_true, if_false]
            exact .failed _
        | none =>
            simp only [there, Option.isSome_none, Bool.false_eq_true, if_false]
            exact .first applied there

/-- Every login lands in the one schema there is, while the database is up. -/
def oneSchema : SchemaCreation (Option JavaException) Unit Nat where
  uri := escapedUri
  flyway := flyway
  schemaOf _ := ()
  refuses down _ := down

/-- Two stores of one schema, with tables of their own. -/
def twoTables : List Java.StoreDefinition :=
  [escapedDefinition, { escapedDefinition with name := "bills", tableName := some "bills" }]

/-- The database is down at the first attempt; after the second, a service writes a
record. -/
def attemptedTwice : List (SchemaCreation.Move (Option JavaException) Unit Nat) :=
  [.attempt (some ⟨"Connection refused"⟩), .attempt none, .change () "cache" (· + 1)]

theorem attemptedTwice_run :
    ∃ final, run (oneSchema.step (some twoTables)) (fun _ => ⟨fun _ => none, false⟩)
        attemptedTwice = some final ∧
      (oneSchema.createSchemas (some twoTables) none final).1 = .ok () ∧
      ((oneSchema.createSchemas (some twoTables) none final).2 ()).tables "cache" = some 1 :=
  ⟨_, rfl, rfl, rfl⟩

/-- The command succeeds once more, the record is still there, and the second store has no
table. -/
theorem java_createSchemas_covers_of_twoTables :
    ∃ final, run (oneSchema.step (some twoTables)) (fun _ => ⟨fun _ => none, false⟩)
        attemptedTwice = some final ∧
      ((oneSchema.createSchemas (some twoTables) none final).2 ()).tables "cache" = some 1 ∧
      ¬∀ storeDef ∈ twoTables, storeDef.HasTable → ∃ schema name,
        oneSchema.target storeDef = some (schema, name) ∧
          (((oneSchema.createSchemas (some twoTables) none final).2 schema).tables
            name).isSome = true := by
  rcases attemptedTwice_run with ⟨final, ran, succeeds, kept⟩
  refine ⟨final, ran, kept, fun all => ?_⟩
  have alike := ((SchemaCreation.java_createSchemas_covers_iff ran).2 none succeeds).mp all
    _ List.mem_cons_self _ (List.mem_cons_of_mem _ List.mem_cons_self)
    () "cache" "bills" rfl rfl
  exact absurd alike (by decide)

end PushCache.Sample
