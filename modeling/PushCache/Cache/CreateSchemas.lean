import Mathlib.Logic.Function.Basic
import PushCache.Cache.OracleLogin
import PushCache.Cache.Sql
import PushCache.Keyed.Provision

/-!
# The tables of the SQL stores

`create-schemas` makes the table of every Oracle and Postgres store.  The command may
run more than once, beside itself, and beside services that use the tables: no
table is made anew, and no process of the command can tell that there are others.
-/

namespace PushCache

open PushCache.Keyed
open PushCache.Transition

/-! ## The databases -/

/-- An error of the Oracle driver other than that a name is in use. -/
structure Refusal where
  error : OracleError
  otherwise : error.code ≠ some 955

/-- What has a name in a database. -/
inductive Relation where
  | oracle (table : OracleCache.Table)
  | postgres (table : PostgresCache.Table)
  | other

/-- The database servers: which name a `CREATE TABLE` is about, on a connection. -/
structure Servers (O P : Type*) where
  oracleCreates : Login → String → Except Refusal O
  postgresCreates : String → String → Except String P

/-- The relation is a table of the database that the name is in. -/
def Relation.IsTable {O P : Type*} : O ⊕ P → Relation → Prop
  | .inl _, .oracle _ => True
  | .inr _, .postgres _ => True
  | _, _ => False

/-- What every name stands for. -/
abbrev Databases (O P : Type*) := O ⊕ P → Option Relation

/-- An Oracle table right after `CREATE TABLE`. -/
def OracleCache.Table.empty : OracleCache.Table :=
  ⟨∅, fun _ held => absurd held Finmap.notMem_empty⟩

/-- What `CREATE TABLE` makes of a name. -/
def Databases.fresh {O P : Type*} : O ⊕ P → Relation
  | .inl _ => .oracle .empty
  | .inr _ => .postgres ∅

/-- What happens to the connection and to the statement of one round of the loop. -/
structure Weather where
  connect : Option String
  execute : Option Refusal

variable {O P : Type*} [DecidableEq O] [DecidableEq P]

/-- `CREATE TABLE` on Oracle. -/
def executeOracle (servers : Servers O P) (weather : Weather) (login : Login) (sql : String)
    (databases : Databases O P) : Except OracleError Unit × Databases O P :=
  match weather.execute with
  | some refusal => (.error refusal.error, databases)
  | none =>
      match servers.oracleCreates login sql with
      | .error refusal => (.error refusal.error, databases)
      | .ok name =>
          match databases (.inl name) with
          | some _ =>
              (.error ⟨some 955, "ORA-00955: name is already used by an existing object"⟩,
                databases)
          | none =>
              (.ok (), Function.update databases (.inl name)
                (some (.oracle .empty)))

/-- `CREATE TABLE IF NOT EXISTS` on Postgres. -/
def executePostgres (servers : Servers O P) (weather : Weather) (url : String) (sql : String)
    (databases : Databases O P) : Except String Unit × Databases O P :=
  match weather.execute with
  | some refusal => (.error refusal.error.text, databases)
  | none =>
      match servers.postgresCreates url sql with
      | .error error => (.error error, databases)
      | .ok name =>
          match databases (.inr name) with
          | some _ => (.ok (), databases)
          | none =>
              (.ok (), Function.update databases (.inr name)
                (some (.postgres ∅)))

/-! ## The rounds of the loop -/

/-- The statement for an Oracle store. -/
def OracleConfig.createTable (config : OracleConfig) : String :=
  s!"CREATE TABLE {config.tableName} (k VARCHAR2(255) PRIMARY KEY, v BLOB)"

/-- The statement for a Postgres store. -/
def PostgresConfig.createTable (config : PostgresConfig) : String :=
  s!"CREATE TABLE IF NOT EXISTS {config.tableName} (k VARCHAR PRIMARY KEY, v BYTEA)"

/-- The round for an Oracle store: what stops the command here, if anything. -/
def makeOracleTable (crate : UrlCrate) (servers : Servers O P) (weather : Weather)
    (config : OracleConfig) (databases : Databases O P) : Option Stop × Databases O P :=
  match crate.intoUrl config.url with
  | none => (some .panicked, databases)
  | some url =>
      match weather.connect with
      | some error =>
          (some (.failed (.message s!"Oracle connect error: {error}")), databases)
      | none =>
          match executeOracle servers weather (Login.ofUrl crate url) config.createTable
              databases with
          | (.ok _, after) => (none, after)
          | (.error error, after) =>
              if error.code = some 955 then (none, after)
              else
                (some (.failed (.message s!"Oracle create table error: {error.text}")), after)

/-- The round for a Postgres store. -/
def makePostgresTable (crate : UrlCrate) (servers : Servers O P) (weather : Weather)
    (config : PostgresConfig) (databases : Databases O P) : Option Stop × Databases O P :=
  match crate.intoUrl config.url with
  | none => (some .panicked, databases)
  | some url =>
      match weather.connect with
      | some error =>
          (some (.failed (.message s!"Postgres connect error: {error}")), databases)
      | none =>
          match executePostgres servers weather url.asStr config.createTable databases with
          | (.ok _, after) => (none, after)
          | (.error error, after) =>
              (some (.failed (.message s!"Postgres create table error: {error}")), after)

/-- One round of the loop. -/
def makeTable (crate : UrlCrate) (servers : Servers O P) (weather : Weather)
    (storeDef : StoreDefinition) (databases : Databases O P) : Option Stop × Databases O P :=
  match storeDef.storeType with
  | .oracle config => makeOracleTable crate servers weather config databases
  | .postgres config => makePostgresTable crate servers weather config databases
  | _ => (none, databases)

/-- The name that the statement for a store is about, if it has one. -/
def target (crate : UrlCrate) (servers : Servers O P) (storeDef : StoreDefinition) :
    Option (O ⊕ P) :=
  match storeDef.storeType with
  | .oracle config =>
      (crate.intoUrl config.url).bind fun url =>
        ((servers.oracleCreates (Login.ofUrl crate url) config.createTable).toOption).map .inl
  | .postgres config =>
      (crate.intoUrl config.url).bind fun url =>
        ((servers.postgresCreates url.asStr config.createTable).toOption).map .inr
  | _ => none

/-- A store without a table, or one whose table has a name that is in use. -/
def NameInUse (crate : UrlCrate) (servers : Servers O P) (databases : Databases O P)
    (storeDef : StoreDefinition) : Prop :=
  match storeDef.storeType with
  | .oracle _ | .postgres _ =>
      ∃ name, target crate servers storeDef = some name ∧ (databases name).isSome = true
  | _ => True

/-- A store without a table, or one whose table is there. -/
def TableThere (crate : UrlCrate) (servers : Servers O P) (databases : Databases O P)
    (storeDef : StoreDefinition) : Prop :=
  match storeDef.storeType with
  | .oracle _ | .postgres _ =>
      ∃ name relation, target crate servers storeDef = some name ∧
        databases name = some relation ∧ relation.IsTable name
  | _ => True

/-- Make a name stand for a new table, unless it stands for something. -/
def Databases.ensure (name : O ⊕ P) (databases : Databases O P) : Databases O P :=
  Function.update databases name (some ((databases name).getD (Databases.fresh name)))

section Rounds

variable {crate : UrlCrate} {servers : Servers O P} {weather : Weather}
  {databases : Databases O P} {storeDef : StoreDefinition}

theorem Databases.ensure_of_some {name : O ⊕ P} {relation : Relation}
    (held : databases name = some relation) : databases.ensure name = databases := by
  rw [Databases.ensure, held, Option.getD_some, ← held, Function.update_eq_self]

theorem Databases.ensure_of_none {name : O ⊕ P} (missing : databases name = none) :
    databases.ensure name = Function.update databases name (some (Databases.fresh name)) := by
  rw [Databases.ensure, missing, Option.getD_none]

theorem Databases.ensure_isSome (name : O ⊕ P) (databases : Databases O P) :
    (databases.ensure name name).isSome = true := by
  rw [Databases.ensure, Function.update_self]
  rfl

/-- What a name stands for after another one has been made sure of, or itself. -/
theorem Databases.ensure_cases (name other : O ⊕ P) (databases : Databases O P) :
    databases.ensure name other = databases other ∨
      (databases other = none ∧ name = other ∧
        databases.ensure name other = some (Databases.fresh other)) := by
  by_cases same : other = name
  · subst same
    cases held : databases other with
    | some relation => exact Or.inl (by rw [ensure_of_some held, held])
    | none => exact Or.inr ⟨rfl, rfl, by rw [ensure_of_none held, Function.update_self]⟩
  · exact Or.inl (Function.update_of_ne same _ _)

theorem Databases.ensure_grows (name : O ⊕ P) (databases : Databases O P) (other : O ⊕ P)
    (there : (databases other).isSome = true) : (databases.ensure name other).isSome = true := by
  rcases ensure_cases name other databases with same | ⟨missing, _⟩
  · rw [same]
    exact there
  · rw [missing] at there
    cases there

/-- The statement is refused, whatever the databases hold, or its name is made sure of and
the only error is that it is in use. -/
theorem executeOracle_spec (servers : Servers O P) (weather : Weather) (login : Login)
    (sql : String) :
    (∃ refusal : Refusal, ∀ databases,
      executeOracle servers weather login sql databases = (.error refusal.error, databases)) ∨
    ∃ name, servers.oracleCreates login sql = .ok name ∧ ∀ databases, ∃ result,
      executeOracle servers weather login sql databases =
        (result, databases.ensure (.inl name)) ∧
      ∀ error, result = .error error → error.code = some 955 := by
  cases executed : weather.execute with
  | some refusal =>
      left
      exact ⟨refusal, fun databases => by simp only [executeOracle, executed]⟩
  | none =>
      cases created : servers.oracleCreates login sql with
      | error refusal =>
          left
          exact ⟨refusal, fun databases => by simp only [executeOracle, executed, created]⟩
      | ok name =>
          right
          apply Exists.intro name
          apply And.intro rfl
          intro databases
          simp only [executeOracle, executed, created]
          cases held : databases (.inl name) with
          | some relation =>
              apply Exists.intro
              apply And.intro
              · rw [Databases.ensure_of_some held]
              · intro error failed
                cases failed
                rfl
          | none =>
              apply Exists.intro
              apply And.intro
              · rw [Databases.ensure_of_none held]
                rfl
              · intro error failed
                cases failed

theorem executePostgres_spec (servers : Servers O P) (weather : Weather) (url sql : String) :
    (∃ error, ∀ databases,
      executePostgres servers weather url sql databases = (.error error, databases)) ∨
    ∃ name, servers.postgresCreates url sql = .ok name ∧ ∀ databases,
      executePostgres servers weather url sql databases =
        (.ok (), databases.ensure (.inr name)) := by
  cases executed : weather.execute with
  | some refusal =>
      left
      exact ⟨refusal.error.text, fun databases => by simp only [executePostgres, executed]⟩
  | none =>
      cases created : servers.postgresCreates url sql with
      | error error =>
          left
          exact ⟨error, fun databases => by simp only [executePostgres, executed, created]⟩
      | ok name =>
          right
          apply Exists.intro name
          apply And.intro rfl
          intro databases
          simp only [executePostgres, executed, created]
          cases held : databases (.inr name) with
          | some relation => rw [Databases.ensure_of_some held]
          | none =>
              rw [Databases.ensure_of_none held]
              rfl

/-- Everything a round can do.  What the databases hold never decides whether it stops the
command. -/
theorem makeTable_spec (crate : UrlCrate) (servers : Servers O P) (weather : Weather)
    (storeDef : StoreDefinition) :
    (∃ stop, ∀ databases,
      makeTable crate servers weather storeDef databases = (some stop, databases)) ∨
    ((∀ databases, NameInUse crate servers databases storeDef) ∧ ∀ databases,
      makeTable crate servers weather storeDef databases = (none, databases)) ∨
    ∃ name, target crate servers storeDef = some name ∧ ∀ databases,
      makeTable crate servers weather storeDef databases = (none, databases.ensure name) := by
  rcases storeDef with ⟨storeName, storeType, schemas⟩
  cases storeType with
  | inMemory | redis config | mongo config =>
      exact Or.inr (Or.inl ⟨fun _ => trivial, fun _ => rfl⟩)
  | oracle config =>
      simp only [makeTable, makeOracleTable, target]
      cases converted : crate.intoUrl config.url with
      | none => exact Or.inl ⟨_, fun _ => rfl⟩
      | some url =>
          cases connected : weather.connect with
          | some error => exact Or.inl ⟨_, fun _ => rfl⟩
          | none =>
              rcases executeOracle_spec servers weather (Login.ofUrl crate url)
                config.createTable with ⟨refusal, refused⟩ | ⟨name, created, executes⟩
              · left
                apply Exists.intro
                  (.failed (.message s!"Oracle create table error: {refusal.error.text}"))
                intro databases
                simp only [refused, if_neg refusal.otherwise]
              · right
                right
                apply Exists.intro (.inl name)
                apply And.intro
                · simp only [Option.bind_some, created, Except.toOption, Option.map_some]
                · intro databases
                  rcases executes databases with ⟨result, executed, onlyInUse⟩
                  simp only [executed]
                  cases result with
                  | ok done => rfl
                  | error error => exact if_pos (onlyInUse error rfl)
  | postgres config =>
      simp only [makeTable, makePostgresTable, target]
      cases converted : crate.intoUrl config.url with
      | none => exact Or.inl ⟨_, fun _ => rfl⟩
      | some url =>
          cases connected : weather.connect with
          | some error => exact Or.inl ⟨_, fun _ => rfl⟩
          | none =>
              rcases executePostgres_spec servers weather url.asStr config.createTable with
                ⟨error, refused⟩ | ⟨name, created, executes⟩
              · left
                apply Exists.intro (.failed (.message s!"Postgres create table error: {error}"))
                intro databases
                simp only [refused]
              · right
                right
                apply Exists.intro (.inr name)
                apply And.intro
                · simp only [Option.bind_some, created, Except.toOption, Option.map_some]
                · intro databases
                  simp only [executes]

/-- The drivers as they are while the databases do not change. -/
def Servers.drivers (servers : Servers O P) (weather : Weather) (databases : Databases O P) :
    Drivers Login String where
  connect login :=
    match weather.connect with
    | some error => .error error
    | none => .ok login
  execute login sql := (executeOracle servers weather login sql databases).1
  pgConnect url :=
    match weather.connect with
    | some error => .error error
    | none => .ok url
  pgExecute url sql := (executePostgres servers weather url sql databases).1

theorem makeOracleTable_stop (config : OracleConfig) :
    (makeOracleTable crate servers weather config databases).1 =
      (createOracleSchema crate (servers.drivers weather databases) config).2 := by
  have text : s!"CREATE TABLE {config.tableName} (k VARCHAR2(255) PRIMARY KEY, v BLOB)" =
    config.createTable := rfl
  rw [makeOracleTable, createOracleSchema]
  cases crate.intoUrl config.url with
  | none => rfl
  | some url =>
      simp only [Servers.drivers]
      cases weather.connect with
      | some error => rfl
      | none =>
          simp only [text]
          rcases executeOracle servers weather (Login.ofUrl crate url) config.createTable
            databases with ⟨error | done, after⟩
          · by_cases inUse : error.code = some 955
            · simp only [if_pos inUse]
            · simp only [if_neg inUse]
          · rfl

theorem makePostgresTable_stop (config : PostgresConfig) :
    (makePostgresTable crate servers weather config databases).1 =
      createPostgresSchema crate (servers.drivers weather databases) config := by
  have text : s!"CREATE TABLE IF NOT EXISTS {config.tableName} (k VARCHAR PRIMARY KEY, v BYTEA)" =
    config.createTable := rfl
  rw [makePostgresTable, createPostgresSchema]
  cases crate.intoUrl config.url with
  | none => rfl
  | some url =>
      simp only [Servers.drivers]
      cases weather.connect with
      | some error => rfl
      | none =>
          simp only [text]
          rcases executePostgres servers weather url.asStr config.createTable databases with
            ⟨error | done, after⟩
          · rfl
          · rfl

/-- A round stops the command exactly as it does over drivers with no databases behind
them. -/
theorem makeTable_stop (storeDef : StoreDefinition) :
    (makeTable crate servers weather storeDef databases).1 =
      (createSchema crate (servers.drivers weather databases) storeDef).2 := by
  rw [makeTable, createSchema]
  cases storeDef.storeType with
  | inMemory | redis config | mongo config => rfl
  | oracle config => exact makeOracleTable_stop config
  | postgres config => exact makePostgresTable_stop config

end Rounds

/-! ## A command and its fellows -/

/-- A process of the command: the stores that are left, or how it ended. -/
inductive CreateSchemas where
  | running (stores : List StoreDefinition)
  | exited (stop : Option Stop)

/-- The databases, and the processes of the command. -/
structure Provisioning (O P : Type*) where
  databases : Databases O P
  commands : List CreateSchemas

/-- A process starts, a process makes its next round, or somebody else changes what a
name stands for. -/
inductive Provisioning.Move (O P : Type*) where
  | launch
  | round (index : Nat) (weather : Weather)
  | change (name : O ⊕ P) (next : Relation → Relation)

/-- The next round of a process. -/
def CreateSchemas.round (crate : UrlCrate) (servers : Servers O P) (weather : Weather) :
    CreateSchemas → Databases O P → Option (CreateSchemas × Databases O P)
  | .exited _, _ => none
  | .running [], databases => some (.exited none, databases)
  | .running (storeDef :: stores), databases =>
      match makeTable crate servers weather storeDef databases with
      | (none, after) => some (.running stores, after)
      | (some stop, after) => some (.exited (some stop), after)

namespace Provisioning

/-- The transition system, with the configured stores. -/
def step (crate : UrlCrate) (servers : Servers O P) (stores : List StoreDefinition) :
    Step (Provisioning O P) (Move O P)
  | provisioning, .launch =>
      some { provisioning with commands := provisioning.commands ++ [.running stores] }
  | provisioning, .round index weather =>
      (provisioning.commands[index]?).bind fun command =>
        (command.round crate servers weather provisioning.databases).map fun next =>
          ⟨next.2, provisioning.commands.set index next.1⟩
  | provisioning, .change name next =>
      some { provisioning with
        databases := Function.update provisioning.databases name
          ((provisioning.databases name).map next) }

/-- What a move makes of what a name stands for, if it stands for something. -/
def Move.edit : Move O P → O ⊕ P → Relation → Relation
  | .change name next, other, relation => if other = name then next relation else relation
  | _, _, relation => relation

/-- The move leaves a table a table. -/
def Move.KeepsTables (move : Move O P) : Prop :=
  ∀ name relation, relation.IsTable name → (move.edit name relation).IsTable name

/-- What the rounds of one process meet. -/
def weathers (index : Nat) (moves : List (Move O P)) : List Weather :=
  moves.filterMap fun
    | .round other weather => if other = index then some weather else none
    | _ => none

end Provisioning

/-- So many rounds of a process, with nothing else going on. -/
def CreateSchemas.rounds (crate : UrlCrate) (servers : Servers O P) :
    CreateSchemas → Databases O P → List Weather → Option (CreateSchemas × Databases O P)
  | command, databases, [] => some (command, databases)
  | command, databases, weather :: later =>
      (command.round crate servers weather databases).bind fun next =>
        next.1.rounds crate servers next.2 later

section Commands

variable {crate : UrlCrate} {servers : Servers O P} {weather : Weather}
  {databases after : Databases O P} {stores : List StoreDefinition} {command next : CreateSchemas}

/-- The name is that of a table of a configured store. -/
def Wanted (crate : UrlCrate) (servers : Servers O P) (stores : List StoreDefinition)
    (name : O ⊕ P) : Prop :=
  ∃ storeDef ∈ stores, target crate servers storeDef = some name

/-- The names of the tables of the stores that a process has been at are in use. -/
def CreateSchemas.Accounts (crate : UrlCrate) (servers : Servers O P)
    (stores : List StoreDefinition) (databases : Databases O P) : CreateSchemas → Prop
  | .running remaining =>
      ∃ done, stores = done ++ remaining ∧
        ∀ storeDef ∈ done, NameInUse crate servers databases storeDef
  | .exited none => ∀ storeDef ∈ stores, NameInUse crate servers databases storeDef
  | .exited (some _) => True

omit [DecidableEq O] [DecidableEq P] in
theorem NameInUse.grow {storeDef : StoreDefinition}
    (made : NameInUse crate servers databases storeDef)
    (grows : ∀ name, (databases name).isSome = true → (after name).isSome = true) :
    NameInUse crate servers after storeDef := by
  rw [NameInUse] at made ⊢
  split at made
  · rcases made with ⟨name, named, there⟩
    exact ⟨name, named, grows name there⟩
  · rcases made with ⟨name, named, there⟩
    exact ⟨name, named, grows name there⟩
  · trivial

omit [DecidableEq O] [DecidableEq P] in
theorem NameInUse.of_target {storeDef : StoreDefinition} {name : O ⊕ P}
    (named : target crate servers storeDef = some name)
    (there : (databases name).isSome = true) : NameInUse crate servers databases storeDef := by
  rw [NameInUse]
  split
  · exact ⟨name, named, there⟩
  · exact ⟨name, named, there⟩
  · trivial

omit [DecidableEq O] [DecidableEq P] in
theorem NameInUse.tableThere {storeDef : StoreDefinition}
    (inUse : NameInUse crate servers databases storeDef)
    (isTable : ∀ name relation, target crate servers storeDef = some name →
      databases name = some relation → relation.IsTable name) :
    TableThere crate servers databases storeDef := by
  rw [NameInUse] at inUse
  rw [TableThere]
  split at inUse
  · rcases inUse with ⟨name, named, there⟩
    rcases Option.isSome_iff_exists.mp there with ⟨relation, held⟩
    exact ⟨name, relation, named, held, isTable name relation named held⟩
  · rcases inUse with ⟨name, named, there⟩
    rcases Option.isSome_iff_exists.mp there with ⟨relation, held⟩
    exact ⟨name, relation, named, held, isTable name relation named held⟩
  · trivial

omit [DecidableEq O] [DecidableEq P] in
theorem CreateSchemas.Accounts.grow (accounts : command.Accounts crate servers stores databases)
    (grows : ∀ name, (databases name).isSome = true → (after name).isSome = true) :
    command.Accounts crate servers stores after := by
  cases command with
  | running remaining =>
      rcases accounts with ⟨done, split, made⟩
      exact ⟨done, split, fun storeDef mem => (made storeDef mem).grow grows⟩
  | exited stop =>
      cases stop with
      | some stop => trivial
      | none => exact fun storeDef mem => (accounts storeDef mem).grow grows

/-- A round of a process does the same to it, whatever the databases hold. -/
theorem CreateSchemas.round_agrees
    (rounded : command.round crate servers weather databases = some (next, after))
    (other : Databases O P) :
    ∃ otherAfter, command.round crate servers weather other = some (next, otherAfter) := by
  cases command with
  | exited stop => cases rounded
  | running remaining =>
      cases remaining with
      | nil =>
          cases rounded
          exact ⟨other, rfl⟩
      | cons storeDef remaining =>
          simp only [round] at rounded ⊢
          rcases makeTable_spec crate servers weather storeDef with
            ⟨stop, stops⟩ | ⟨_, passes⟩ | ⟨name, _, makes⟩
          · rw [stops] at rounded ⊢
            cases rounded
            exact ⟨other, rfl⟩
          · rw [passes] at rounded ⊢
            cases rounded
            exact ⟨other, rfl⟩
          · rw [makes] at rounded ⊢
            cases rounded
            exact ⟨other.ensure name, rfl⟩

/-- A round of a process makes sure of a wanted name, if it does anything, and the process
still accounts for what it has been at. -/
theorem CreateSchemas.Accounts.round (accounts : command.Accounts crate servers stores databases)
    (rounded : command.round crate servers weather databases = some (next, after)) :
    next.Accounts crate servers stores after ∧
      (after = databases ∨ ∃ name, Wanted crate servers stores name ∧
        after = databases.ensure name) := by
  cases command with
  | exited stop => cases rounded
  | running remaining =>
      rcases accounts with ⟨done, split, made⟩
      cases remaining with
      | nil =>
          cases rounded
          rw [List.append_nil] at split
          exact ⟨split ▸ made, Or.inl rfl⟩
      | cons storeDef remaining =>
          have splitLater : stores = (done ++ [storeDef]) ++ remaining := by
            rw [split, List.append_assoc, List.singleton_append]
          simp only [CreateSchemas.round] at rounded
          rcases makeTable_spec crate servers weather storeDef with
            ⟨stop, stops⟩ | ⟨own, passes⟩ | ⟨name, named, makes⟩
          · rw [stops] at rounded
            cases rounded
            exact ⟨trivial, Or.inl rfl⟩
          · rw [passes] at rounded
            cases rounded
            have madeLater := List.forall_mem_append.mpr
              ⟨made, List.forall_mem_singleton.mpr (own databases)⟩
            exact ⟨⟨_, splitLater, madeLater⟩, Or.inl rfl⟩
          · rw [makes] at rounded
            cases rounded
            have wanted : Wanted crate servers stores name :=
              ⟨storeDef, by rw [split]; exact List.mem_append_right _ List.mem_cons_self, named⟩
            have own := NameInUse.of_target named (databases.ensure_isSome name)
            have kept : ∀ other ∈ done, NameInUse crate servers (databases.ensure name) other :=
              fun other mem => (made other mem).grow (databases.ensure_grows name)
            have madeLater := List.forall_mem_append.mpr
              ⟨kept, List.forall_mem_singleton.mpr own⟩
            exact ⟨⟨_, splitLater, madeLater⟩, Or.inr ⟨name, wanted, rfl⟩⟩

end Commands

namespace Provisioning

/-- Every process accounts for the stores it has been at. -/
def Accounted (crate : UrlCrate) (servers : Servers O P) (stores : List StoreDefinition)
    (provisioning : Provisioning O P) : Prop :=
  ∀ command ∈ provisioning.commands,
    command.Accounts crate servers stores provisioning.databases

section Runs

variable {crate : UrlCrate} {servers : Servers O P} {stores : List StoreDefinition}
  {source middle final : Provisioning O P} {moves : List (Move O P)} {index : Nat}
  {weather : Weather}

/-- The round of a process of the system. -/
theorem step_round (stepped : step crate servers stores source (.round index weather) =
    some final) :
    ∃ command next after, source.commands[index]? = some command ∧
      command.round crate servers weather source.databases = some (next, after) ∧
      final = ⟨after, source.commands.set index next⟩ := by
  rcases Option.bind_eq_some_iff.mp stepped with ⟨command, found, mapped⟩
  rcases Option.map_eq_some_iff.mp mapped with ⟨⟨next, after⟩, rounded, rfl⟩
  exact ⟨command, next, after, found, rounded, rfl⟩

/-- Every step edits what there is, and makes at most a wanted table. -/
theorem provisions :
    Provisions (step crate servers stores) (Accounted crate servers stores)
      (fun provisioning => provisioning.databases) Move.edit Databases.fresh
      (Wanted crate servers stores) := by
  intro source move target accounted stepped
  cases move with
  | launch =>
      cases stepped
      apply And.intro
      · intro command member
        rcases List.mem_append.mp member with before | new
        · exact accounted command before
        · cases List.mem_singleton.mp new
          exact ⟨[], rfl, fun storeDef mem => absurd mem List.not_mem_nil⟩
      · intro name
        exact Or.inl Option.map_id'.symm
  | round index weather =>
      rcases step_round stepped with ⟨command, next, after, found, rounded, rfl⟩
      have own := accounted command (List.mem_of_getElem? found)
      rcases own.round rounded with ⟨accounts, changed⟩
      have grows : ∀ name, (source.databases name).isSome = true → (after name).isSome = true := by
        rcases changed with rfl | ⟨made, _, rfl⟩
        · exact fun _ there => there
        · exact source.databases.ensure_grows made
      apply And.intro
      · intro other member
        rcases List.mem_or_eq_of_mem_set member with before | rfl
        · exact (accounted other before).grow grows
        · exact accounts
      · intro name
        rcases changed with rfl | ⟨made, wanted, rfl⟩
        · exact Or.inl Option.map_id'.symm
        · rcases source.databases.ensure_cases made name with same | ⟨missing, rfl, fresh⟩
          · exact Or.inl (same.trans Option.map_id'.symm)
          · exact Or.inr ⟨missing, wanted, fresh⟩
  | change name next =>
      cases stepped
      have entries : ∀ other, Function.update source.databases name
          ((source.databases name).map next) other =
            (source.databases other).map (Move.edit (.change name next) other) := by
        intro other
        by_cases same : other = name
        · subst same
          rw [Function.update_self]
          congr
          funext relation
          exact (if_pos rfl).symm
        · rw [Function.update_of_ne same]
          have untouched : Move.edit (.change name next) other = fun relation => relation :=
            funext fun relation => if_neg same
          rw [untouched, Option.map_id']
      apply And.intro
      · intro command member
        apply (accounted command member).grow
        intro other there
        have kept := congrArg Option.isSome (entries other)
        rw [Option.isSome_map] at kept
        exact kept.trans there
      · exact fun other => Or.inl (entries other)

omit [DecidableEq O] [DecidableEq P] in
theorem weathers_round_self (index : Nat) (weather : Weather) (moves : List (Move O P)) :
    weathers index (.round index weather :: moves) = weather :: weathers index moves := by
  simp [weathers]

omit [DecidableEq O] [DecidableEq P] in
theorem weathers_round_of_ne {other : Nat} (different : other ≠ index) (weather : Weather)
    (moves : List (Move O P)) :
    weathers index (.round other weather :: moves) = weathers index moves := by
  simp [weathers, different]

/-- A process is where its own rounds have brought it, whatever the databases hold. -/
theorem rounds_of_run (ran : run (step crate servers stores) source moves = some final)
    {command : CreateSchemas} (found : final.commands[index]? = some command) :
    ∃ earlier, (source.commands[index]? = some earlier ∨
        source.commands[index]? = none ∧ earlier = .running stores) ∧
      ∀ databases, ∃ after,
        earlier.rounds crate servers databases (weathers index moves) = some (command, after) := by
  induction moves generalizing source with
  | nil =>
      cases ran
      exact ⟨command, Or.inl found, fun databases => ⟨databases, rfl⟩⟩
  | cons move moves ih =>
      rcases Option.bind_eq_some_iff.mp ran with ⟨middle, stepped, rest⟩
      rcases ih rest with ⟨earlier, located, rounds⟩
      cases move with
      | change name next =>
          cases stepped
          exact ⟨earlier, located, rounds⟩
      | launch =>
          cases stepped
          apply Exists.intro earlier
          apply And.intro _ rounds
          simp only [List.getElem?_append] at located
          by_cases before : index < source.commands.length
          · rw [if_pos before] at located
            exact located
          · right
            apply And.intro (List.getElem?_eq_none (Nat.not_lt.mp before))
            rw [if_neg before] at located
            rcases located with there | ⟨_, new⟩
            · exact List.mem_singleton.mp (List.mem_of_getElem? there)
            · exact new
      | round other weather =>
          rcases step_round stepped with ⟨own, next, after, here, rounded, rfl⟩
          by_cases same : other = index
          · subst same
            have reached : earlier = next := by
              have bound := (List.getElem?_eq_some_iff.mp here).1
              rw [List.getElem?_set_self bound] at located
              rcases located with there | ⟨missing, _⟩
              · exact (Option.some.inj there).symm
              · cases missing
            subst reached
            apply Exists.intro own
            apply And.intro (Or.inl here)
            intro databases
            rcases CreateSchemas.round_agrees rounded databases with ⟨otherAfter, agrees⟩
            rcases rounds otherAfter with ⟨last, rounds⟩
            apply Exists.intro last
            rw [weathers_round_self, CreateSchemas.rounds, agrees]
            exact rounds
          · rw [List.getElem?_set_ne same] at located
            rw [weathers_round_of_ne same]
            exact ⟨earlier, located, rounds⟩

omit [DecidableEq O] [DecidableEq P] in
theorem fresh_isTable (name : O ⊕ P) : (Databases.fresh name).IsTable name := by
  cases name <;> trivial

/-- A name that stood for a table or for nothing stands for a table, if it is in use. -/
theorem isTable_of_run {databases : Databases O P}
    (ran : run (step crate servers stores) ⟨databases, []⟩ moves = some final)
    (keeps : ∀ move ∈ moves, move.KeepsTables) {name : O ⊕ P}
    (tables : ∀ relation ∈ databases name, relation.IsTable name) {relation : Relation}
    (held : final.databases name = some relation) : relation.IsTable name := by
  have initial : Accounted crate servers stores ⟨databases, []⟩ :=
    fun command member => absurd member List.not_mem_nil
  cases before : databases name with
  | some first =>
      have now := provisions.run_of_some initial ran before
      rw [held] at now
      rw [Option.some.inj now]
      exact edited_of_kept (fun move member => keeps move member name) (tables first before)
  | none =>
      rcases provisions.run_of_none initial ran name before with still | ⟨_, _, later, split, now⟩
      · rw [held] at still
        cases still
      · rw [held] at now
        rw [Option.some.inj now]
        apply edited_of_kept _ (fresh_isTable name)
        intro move member
        apply keeps move _ name
        rw [split]
        exact List.mem_append_right _ member

/-- The command run again, beside itself and beside the services: what has a name keeps
it and is only edited, and only the tables of configured stores are made, empty.  A
process does what it would do alone on any databases, and when it exits with success,
the names of the tables of all stores are in use.  They need not be those of tables:
what stood there before may be something else, or become it. -/
theorem createSchemas_undisturbed {databases : Databases O P}
    (ran : run (step crate servers stores) ⟨databases, []⟩ moves = some final) :
    (∀ name, match databases name with
      | some relation =>
          final.databases name = some (edited Move.edit name moves relation)
      | none => final.databases name = none ∨
          Wanted crate servers stores name ∧ ∃ earlier later, moves = earlier ++ later ∧
            final.databases name =
              some (edited Move.edit name later (Databases.fresh name))) ∧
    ∀ index command, final.commands[index]? = some command →
      (∀ other, ∃ after,
        (CreateSchemas.running stores).rounds crate servers other (weathers index moves) =
          some (command, after)) ∧
      (command = .exited none → ∀ storeDef ∈ stores,
        NameInUse crate servers final.databases storeDef ∧
        ((∀ move ∈ moves, move.KeepsTables) →
          (∀ name, target crate servers storeDef = some name →
            ∀ relation ∈ databases name, relation.IsTable name) →
          TableThere crate servers final.databases storeDef)) := by
  have initial : Accounted crate servers stores ⟨databases, []⟩ :=
    fun command member => absurd member List.not_mem_nil
  apply And.intro
  · intro name
    split
    · next relation held => exact provisions.run_of_some initial ran held
    · next missing => exact provisions.run_of_none initial ran name missing
  · intro index command found
    rcases rounds_of_run ran found with ⟨earlier, located, rounds⟩
    apply And.intro
    · rcases located with there | ⟨_, rfl⟩
      · cases there
      · exact rounds
    · rintro rfl storeDef member
      have accounted := provisions.preserved.of_run initial ran _ (List.mem_of_getElem? found)
      have inUse := accounted storeDef member
      exact ⟨inUse, fun keeps tables => inUse.tableThere fun name relation named held =>
        isTable_of_run ran keeps (tables name named) held⟩

end Runs

end Provisioning

end PushCache

namespace PushCache.Sample

open PushCache.Provisioning
open PushCache.Transition

/-- One table can be made. -/
def oracleServers : Servers String String where
  oracleCreates _ sql :=
    if sql = "CREATE TABLE cache (k VARCHAR2(255) PRIMARY KEY, v BLOB)" then .ok "CACHE"
    else .error ⟨⟨some 903, "ORA-00903: invalid table name"⟩, by decide⟩
  postgresCreates _ _ := .error "syntax error"

def oracleStores : List StoreDefinition :=
  [⟨"users", .oracle ⟨⟨oracleUrl, some "scott", some "tiger"⟩, "cache"⟩, none⟩]

def fair : Weather := ⟨none, none⟩

/-- Somebody writes a record, where there is a table. -/
def written : Relation → Relation
  | .oracle _ => .oracle (OracleCache.Table.empty.merge "x" [1] rfl)
  | relation => relation

/-- Two processes of the command, and a failed round in the second.  The table is in use
before the third comes to it. -/
def threeLaunches : List (Move String String) :=
  [.launch, .launch, .round 1 ⟨some "ORA-12541: no listener", none⟩, .round 0 fair,
    .change (.inl "CACHE") written,
    .launch, .round 2 fair, .round 2 fair]

theorem threeLaunches_run :
    ∃ final, run (step urlCrate oracleServers oracleStores) ⟨fun _ => none, []⟩ threeLaunches =
      some final ∧ final.commands[2]? = some (.exited none) :=
  ⟨_, rfl, rfl⟩

theorem written_isTable {name : String ⊕ String} {relation : Relation}
    (isTable : relation.IsTable name) : (written relation).IsTable name := by
  cases relation with
  | oracle table =>
      cases name with
      | inl name => trivial
      | inr name => cases isTable
  | postgres table | other => exact isTable

theorem threeLaunches_keepsTables : ∀ move ∈ threeLaunches, move.KeepsTables := by
  intro move member name relation isTable
  cases move with
  | launch | round => exact isTable
  | change other next =>
      simp [threeLaunches] at member
      rcases member with ⟨rfl, rfl⟩
      simp only [Move.edit]
      split
      · exact written_isTable isTable
      · exact isTable

/-- The third process exits with success, and the table is there. -/
theorem createSchemas_undisturbed_of_threeLaunches :
    ∃ final, run (step urlCrate oracleServers oracleStores) ⟨fun _ => none, []⟩ threeLaunches =
      some final ∧ ∀ storeDef ∈ oracleStores,
        TableThere urlCrate oracleServers final.databases storeDef := by
  rcases threeLaunches_run with ⟨final, ran, exited⟩
  refine ⟨final, ran, fun storeDef member => ?_⟩
  have made := ((createSchemas_undisturbed ran).2 2 _ exited).2 rfl storeDef member
  apply made.2 threeLaunches_keepsTables
  intro name named relation before
  cases before

end PushCache.Sample
