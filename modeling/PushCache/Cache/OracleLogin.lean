import PushCache.UrlCrate

/-!
# The Oracle login

`OracleCache::new` and the `create-schemas` command put separately configured
credentials into the URL, read them back from it and hand them to the Oracle
driver.  What is read back is encoded, and nothing decodes it.
-/

namespace PushCache

open PushCache.Percent

/-- What the driver gets: credentials and a connect string. -/
structure Login where
  username : String
  password : String
  connectString : String
  deriving DecidableEq

/-- `conn_str`: `//host:port/service_name`, or the URL itself when it has no host. -/
def connStr (crate : UrlCrate) (url : Url) : String :=
  match url.hostStr with
  | some host =>
      s!"//{host}" ++ (url.port.elim "" fun port => s!":{port}") ++ crate.path url
  | none => url.asStr

/-- The credentials and the connect string of a URL. -/
def Login.ofUrl (crate : UrlCrate) (url : Url) : Login where
  username := crate.username url
  password := (crate.password url).getD ""
  connectString := connStr crate url

/-! ## `OracleCache::new` -/

/-- `PoolBuilder`. -/
structure PoolBuilder where
  login : Login
  minConnections : Nat
  maxConnections : Nat
  deriving DecidableEq

/-- The builder of `OracleCache::new`, on which `build` is called; `none` is a panic. -/
def OracleCache.poolBuilder (crate : UrlCrate) (config : OracleConfig) : Option PoolBuilder :=
  (crate.intoUrl config.url).map fun url => ⟨Login.ofUrl crate url, 1, 10⟩

/-- `OracleCache`. -/
structure OracleCache (Pool : Type*) where
  pool : Pool
  tableName : String

/-- What `OracleCache::new` makes of the driver's answer. -/
def OracleCache.ofBuild {Pool : Type*} (config : OracleConfig) :
    Except String Pool → Except MyError (OracleCache Pool)
  | .ok pool => .ok ⟨pool, config.tableName⟩
  | .error error => .error (.message s!"Oracle pool build error: {error}")

/-- `OracleCache::new`, over the driver's `build`. -/
def OracleCache.new {Pool : Type*} (crate : UrlCrate) (build : PoolBuilder → Except String Pool)
    (config : OracleConfig) : Option (Except MyError (OracleCache Pool)) :=
  (poolBuilder crate config).map fun builder => ofBuild config (build builder)

/-! ## `create-schemas` -/

/-- An error of the Oracle driver, with the code of the database if it has one. -/
structure OracleError where
  code : Option Int
  text : String

/-- The two database drivers of the command. -/
structure Drivers (Connection Pool : Type*) where
  connect : Login → Except String Connection
  execute : Connection → String → Except OracleError Unit
  pgConnect : String → Except String Pool
  pgExecute : Pool → String → Except String Unit

/-- What stops the command early. -/
inductive Stop where
  | failed (error : MyError)
  | panicked
  deriving DecidableEq

variable {Connection Pool : Type*}

/-- The round of the loop for an Oracle store: the login that was tried, if any, and
what stops the command here, or `none` if it goes on. -/
def createOracleSchema (crate : UrlCrate) (drivers : Drivers Connection Pool)
    (config : OracleConfig) : Option Login × Option Stop :=
  match crate.intoUrl config.url with
  | none => (none, some .panicked)
  | some url =>
      let login := Login.ofUrl crate url
      match drivers.connect login with
      | .error error => (login, some (.failed (.message s!"Oracle connect error: {error}")))
      | .ok connection =>
          match drivers.execute connection
              s!"CREATE TABLE {config.tableName} (k VARCHAR2(255) PRIMARY KEY, v BLOB)" with
          | .ok _ => (login, none)
          | .error error =>
              if error.code = some 955 then (login, none)
              else (login, some (.failed (.message s!"Oracle create table error: {error.text}")))

/-- The round of the loop for a Postgres store. -/
def createPostgresSchema (crate : UrlCrate) (drivers : Drivers Connection Pool)
    (config : PostgresConfig) : Option Stop :=
  match crate.intoUrl config.url with
  | none => some .panicked
  | some url =>
      match drivers.pgConnect url.asStr with
      | .error error => some (.failed (.message s!"Postgres connect error: {error}"))
      | .ok pool =>
          match drivers.pgExecute pool
              s!"CREATE TABLE IF NOT EXISTS {config.tableName} (k VARCHAR PRIMARY KEY, v BYTEA)"
              with
          | .ok _ => none
          | .error error => some (.failed (.message s!"Postgres create table error: {error}"))

/-- One round of the loop. -/
def createSchema (crate : UrlCrate) (drivers : Drivers Connection Pool)
    (storeDef : StoreDefinition) : Option Login × Option Stop :=
  match storeDef.storeType with
  | .oracle config => createOracleSchema crate drivers config
  | .postgres config => (none, createPostgresSchema crate drivers config)
  | _ => (none, none)

/-- `create-schemas`: the Oracle logins it tries, in order, and what stops it early. -/
def createSchemas (crate : UrlCrate) (drivers : Drivers Connection Pool) :
    List StoreDefinition → List Login × Option Stop
  | [] => ([], none)
  | storeDef :: stores =>
      match createSchema crate drivers storeDef with
      | (login, some stop) => (login.toList, some stop)
      | (login, none) =>
          (login.toList ++ (createSchemas crate drivers stores).1,
            (createSchemas crate drivers stores).2)

/-- Rounds that all go on are followed by the rest of the loop. -/
theorem createSchemas_append {crate : UrlCrate} {drivers : Drivers Connection Pool}
    {before : List StoreDefinition} {logins : List Login}
    (finished : createSchemas crate drivers before = (logins, none))
    (rest : List StoreDefinition) :
    createSchemas crate drivers (before ++ rest) =
      (logins ++ (createSchemas crate drivers rest).1, (createSchemas crate drivers rest).2) := by
  induction before generalizing logins with
  | nil =>
      cases finished
      rfl
  | cons storeDef before ih =>
      rw [List.cons_append, createSchemas]
      rw [createSchemas] at finished
      rcases round : createSchema crate drivers storeDef with ⟨login, _ | stop⟩
      · simp only [round, Prod.mk.injEq] at finished ⊢
        rw [ih (Prod.ext rfl finished.2), ← finished.1, List.append_assoc]
        exact ⟨rfl, rfl⟩
      · simp only [round, Prod.mk.injEq, reduceCtorEq, and_false] at finished

/-! ## What reaches the driver -/

/-- `OracleCache::new` passes these credentials to the driver. -/
def OracleCache.Passes (crate : UrlCrate) (config : OracleConfig) (username password : String) :
    Prop :=
  ∃ connectString, ∀ (Pool : Type) (build : PoolBuilder → Except String Pool),
    new crate build config =
      some (ofBuild config (build ⟨⟨username, password, connectString⟩, 1, 10⟩))

/-- `create-schemas` passes these credentials to the driver, when it comes to a store
with this configuration. -/
def CreateSchemasPasses (crate : UrlCrate) (config : OracleConfig) (username password : String) :
    Prop :=
  ∀ (Connection Pool : Type) (drivers : Drivers Connection Pool) (name : String)
    (schemas : Option (List String)) (before after : List StoreDefinition) (logins : List Login),
    createSchemas crate drivers before = (logins, none) →
      ∃ connectString rest,
        (createSchemas crate drivers (before ++ ⟨name, .oracle config, schemas⟩ :: after)).1 =
          logins ++ ⟨username, password, connectString⟩ :: rest

/-- The login of an Oracle store, as both places build it. -/
theorem createSchema_oracle_login (crate : UrlCrate) (drivers : Drivers Connection Pool)
    (name : String) (config : OracleConfig) (schemas : Option (List String)) :
    (createSchema crate drivers ⟨name, .oracle config, schemas⟩).1 =
      (crate.intoUrl config.url).map (Login.ofUrl crate) := by
  simp only [createSchema, createOracleSchema]
  cases crate.intoUrl config.url with
  | none => rfl
  | some url =>
      simp only [Option.map_some]
      split
      · rfl
      · split
        · rfl
        · split <;> rfl

theorem createSchemas_cons_login (crate : UrlCrate) (drivers : Drivers Connection Pool)
    (storeDef : StoreDefinition) (stores : List StoreDefinition) :
    ∃ rest, (createSchemas crate drivers (storeDef :: stores)).1 =
      (createSchema crate drivers storeDef).1.toList ++ rest := by
  rw [createSchemas]
  rcases createSchema crate drivers storeDef with ⟨login, _ | stop⟩
  · exact ⟨_, rfl⟩
  · exact ⟨[], (List.append_nil _).symm⟩

theorem OracleCache.passes_iff {crate : UrlCrate} {config : OracleConfig}
    {username password : String} :
    OracleCache.Passes crate config username password ↔
      ∃ url, crate.intoUrl config.url = some url ∧ crate.username url = username ∧
        (crate.password url).getD "" = password := by
  constructor
  · rintro ⟨connectString, passes⟩
    -- A driver that answers with the builder itself shows what it was given.
    have given := passes PoolBuilder .ok
    simp only [OracleCache.new, OracleCache.poolBuilder] at given
    cases converted : crate.intoUrl config.url with
    | none =>
        rw [converted] at given
        cases given
    | some url =>
        rw [converted] at given
        simp only [Option.map_some, Option.some.injEq, OracleCache.ofBuild, Except.ok.injEq,
          OracleCache.mk.injEq, PoolBuilder.mk.injEq, Login.ofUrl, Login.mk.injEq] at given
        exact ⟨url, rfl, given.1.1.1, given.1.1.2.1⟩
  · rintro ⟨url, converted, rfl, rfl⟩
    refine ⟨connStr crate url, fun Pool build => ?_⟩
    rw [OracleCache.new, OracleCache.poolBuilder, converted]
    rfl

theorem createSchemasPasses_iff {crate : UrlCrate} {config : OracleConfig}
    {username password : String} :
    CreateSchemasPasses crate config username password ↔
      ∃ url, crate.intoUrl config.url = some url ∧ crate.username url = username ∧
        (crate.password url).getD "" = password := by
  constructor
  · intro passes
    -- A driver that refuses every login is enough to see the first one.
    let drivers : Drivers Unit Unit :=
      { connect := fun _ => .error ""
        execute := fun _ _ => .ok ()
        pgConnect := fun _ => .ok ()
        pgExecute := fun _ _ => .ok () }
    rcases passes Unit Unit drivers "" none [] [] [] rfl with ⟨connectString, rest, logins⟩
    simp only [List.nil_append, createSchemas, createSchema, createOracleSchema] at logins
    cases converted : crate.intoUrl config.url with
    | none => simp [converted] at logins
    | some url =>
        simp only [converted, drivers, Option.toList_some, List.cons.injEq, Login.ofUrl,
          Login.mk.injEq] at logins
        exact ⟨url, rfl, logins.1.1, logins.1.2.1⟩
  · rintro ⟨url, converted, rfl, rfl⟩
    intro Connection Pool drivers name schemas before after logins finished
    rcases createSchemas_cons_login crate drivers ⟨name, .oracle config, schemas⟩ after with
      ⟨rest, first⟩
    rw [createSchema_oracle_login, converted] at first
    exact ⟨connStr crate url, rest, by rw [createSchemas_append finished, first]; rfl⟩

/-- Both places pass the configured credentials on exactly when the URL takes credentials
and neither text has a character that the URL library escapes. -/
theorem credentials_reach_driver_iff {crate : UrlCrate} {url : Url} {username password : String}
    (sets : crate.SetsCredentials url username password) (tableName : String) :
    let config : OracleConfig := ⟨⟨url, some username, some password⟩, tableName⟩
    (OracleCache.Passes crate config username password ↔
      crate.TakesCredentials url ∧ Plain userinfo username ∧ Plain userinfo password) ∧
    (CreateSchemasPasses crate config username password ↔
      crate.TakesCredentials url ∧ Plain userinfo username ∧ Plain userinfo password) := by
  intro config
  rw [OracleCache.passes_iff, createSchemasPasses_iff, and_self]
  rcases crate.intoUrl_of_setsCredentials sets with
    ⟨takes, next, converted, named, stored⟩ | ⟨refuses, panics⟩
  · rw [and_iff_right takes, ← encode_eq_self_iff, ← encode_eq_self_iff]
    constructor
    · rintro ⟨other, same, usernameEq, passwordEq⟩
      obtain rfl : next = other := Option.some.inj (converted.symm.trans same)
      exact ⟨named.symm.trans usernameEq, stored.symm.trans passwordEq⟩
    · rintro ⟨usernameEq, passwordEq⟩
      exact ⟨next, converted, named.trans usernameEq, stored.trans passwordEq⟩
  · apply iff_of_false
    · rintro ⟨other, same, _⟩
      cases panics.symm.trans same
    · exact fun both => refuses both.1

end PushCache

namespace PushCache.Sample

open PushCache.Percent

/-- `oracle://db:1521/orcl`. -/
def oracleUrl : Url := ⟨"oracle://db:1521/orcl", some "db", some 1521⟩

example : withUserinfo oracleUrl "scott" (some "tiger") =
    { oracleUrl with asStr := "oracle://scott:tiger@db:1521/orcl" } := by
  decide

/-- The user `scott` with the password `tiger` logs in as such, from both places. -/
theorem scott_reaches_driver :
    OracleCache.Passes urlCrate ⟨⟨oracleUrl, some "scott", some "tiger"⟩, "cache"⟩
        "scott" "tiger" ∧
      CreateSchemasPasses urlCrate ⟨⟨oracleUrl, some "scott", some "tiger"⟩, "cache"⟩
        "scott" "tiger" := by
  have withPassword : urlCrate.setPassword oracleUrl "tiger" =
      some (withUserinfo oracleUrl "" (some "tiger")) := by decide
  have withUsername : urlCrate.setUsername (withUserinfo oracleUrl "" (some "tiger")) "scott" =
      some (withUserinfo oracleUrl "scott" (some "tiger")) := by decide
  have setsPassword : urlCrate.SetsPassword oracleUrl "tiger" := by
    simp only [UrlCrate.SetsPassword, withPassword]
    exact ⟨by decide, ⟨by decide, rfl, rfl, by decide⟩, by decide⟩
  have setsUsername : ∀ next, urlCrate.setPassword oracleUrl "tiger" = some next →
      urlCrate.SetsUsername next "scott" := by
    intro next set
    obtain rfl := Option.some.inj (withPassword.symm.trans set)
    simp only [UrlCrate.SetsUsername, withUsername]
    exact ⟨by decide, ⟨by decide, rfl, rfl, by decide⟩, by decide, by decide⟩
  have plain : urlCrate.TakesCredentials oracleUrl ∧ Plain userinfo "scott" ∧
      Plain userinfo "tiger" := by decide
  have exactly := credentials_reach_driver_iff ⟨setsPassword, setsUsername⟩ "cache"
  exact ⟨exactly.1.mpr plain, exactly.2.mpr plain⟩

/-- The password `p@ss` reaches the driver as `p%40ss`, from both places. -/
theorem password_reaches_driver_encoded :
    let config : OracleConfig := ⟨⟨oracleUrl, some "scott", some "p@ss"⟩, "cache"⟩
    OracleCache.poolBuilder urlCrate config =
        some ⟨⟨"scott", "p%40ss", "//db:1521/orcl"⟩, 1, 10⟩ ∧
      ¬OracleCache.Passes urlCrate config "scott" "p@ss" ∧
        ¬CreateSchemasPasses urlCrate config "scott" "p@ss" := by
  intro config
  have builder : OracleCache.poolBuilder urlCrate config =
      some ⟨⟨"scott", "p%40ss", "//db:1521/orcl"⟩, 1, 10⟩ := by decide
  have refused : ¬OracleCache.Passes urlCrate config "scott" "p@ss" := by
    rw [OracleCache.passes_iff]
    rintro ⟨url, converted, _, stored⟩
    have encoded : urlCrate.intoUrl config.url =
        some (withUserinfo oracleUrl "scott" (some "p%40ss")) := by decide
    obtain rfl := Option.some.inj (encoded.symm.trans converted)
    exact absurd stored (by decide)
  refine ⟨builder, refused, ?_⟩
  rw [createSchemasPasses_iff, ← OracleCache.passes_iff]
  exact refused

end PushCache.Sample
