import Mathlib.Data.List.TakeWhile
import PushCache.Cache.OracleLogin
import PushCache.Java.CacheFactory
import PushCache.Percent.Decode

/-!
# The logins of the Java stores

The SQL stores and the Redis store take their credentials out of the URL of the store.
The URI class decodes them before the store looks for the colon between them, so a
colon that was escaped counts as well.
-/

namespace PushCache.Java

open PushCache.Percent

/-- What the stores read of `java.net.URI`, beyond the components every `Url` carries,
and how it reads UTF-8. -/
structure NetUri where
  rawUserInfo : Url → Option String
  /-- `getPath`; null for an opaque URI. -/
  path : Url → Option String
  readUtf8 : List UInt8 → List Char

/-- `getUserInfo`. -/
def NetUri.userInfo (uri : NetUri) (url : Url) : Option String :=
  (uri.rawUserInfo url).map (decode uri.readUtf8)

/-- `split(":", 2)`: the part before the first colon, and the part after it if there is
one. -/
def splitColon (text : String) : String × Option String :=
  match text.toList.span (· ≠ ':') with
  | (_, []) => (text, none)
  | (first, _ :: second) => (String.ofList first, some (String.ofList second))

/-! ## The SQL stores -/

/-- `HikariConfig`; what is not set is null. -/
structure HikariConfig where
  jdbcUrl : String
  driverClassName : String
  username : Option String
  password : Option String
  minimumIdle : Nat
  maximumPoolSize : Nat
  deriving DecidableEq

/-- What the constructors of the SQL stores differ in. -/
structure SqlKind where
  label : String
  defaultPort : UInt16
  jdbcScheme : String
  driverClassName : String

/-- The configuration that the constructor of an SQL store hands to its pool. -/
def SqlKind.hikariConfig (kind : SqlKind) (uri : NetUri) (definition : StoreDefinition) :
    Except JavaException HikariConfig :=
  match definition.url with
  | none => .error ⟨s!"{kind.label} URL is required for store: {definition.name}"⟩
  | some url =>
      match definition.tableName with
      | none => .error ⟨s!"{kind.label} tableName is required for store: {definition.name}"⟩
      | some _ =>
          let host := url.hostStr.getD "localhost"
          let port := url.port.getD kind.defaultPort
          -- A null path is formatted as a word.
          let path := (uri.path url).elim "null" fun path =>
            if path.startsWith "/" then (path.drop 1).toString else path
          let login := (uri.userInfo url).map splitColon
          .ok {
            jdbcUrl := s!"{kind.jdbcScheme}{host}:{port}/{path}"
            driverClassName := kind.driverClassName
            username := login.map Prod.fst
            password := login.bind Prod.snd
            minimumIdle := 1
            maximumPoolSize := 10 }

def OracleCache.kind : SqlKind :=
  ⟨"Oracle", 1521, "jdbc:oracle:thin:@//", "oracle.jdbc.OracleDriver"⟩

def PostgresCache.kind : SqlKind :=
  ⟨"Postgres", 5432, "jdbc:postgresql://", "org.postgresql.Driver"⟩

/-- `new OracleCache`. -/
def OracleCache.hikariConfig : NetUri → StoreDefinition → Except JavaException HikariConfig :=
  OracleCache.kind.hikariConfig

/-- `new PostgresCache`. -/
def PostgresCache.hikariConfig : NetUri → StoreDefinition → Except JavaException HikariConfig :=
  PostgresCache.kind.hikariConfig

/-! ## The Redis store -/

/-- `RedisStandaloneConfiguration`; what is not set is null. -/
structure RedisStandaloneConfiguration where
  hostName : Option String
  port : UInt16
  database : Int32
  username : Option String
  password : Option String
  deriving DecidableEq

/-- `new RedisCache`: a user info without a colon is a password, and an empty user name is
none. -/
def RedisCache.redisConfig (uri : NetUri) (parseInt : String → Option Int32)
    (definition : StoreDefinition) : Except JavaException RedisStandaloneConfiguration :=
  match definition.url with
  | none => .error ⟨s!"Redis URL must be provided for store: {definition.name}"⟩
  | some url =>
      let database := (uri.path url).elim 0 fun path =>
        if 1 < path.length then (parseInt (path.drop 1).toString).getD 0 else 0
      let login : Option String × Option String :=
        match uri.userInfo url with
        | none => (none, none)
        | some userInfo =>
            match splitColon userInfo with
            | (_, none) => (none, some userInfo)
            | (first, some second) =>
                (if first.isEmpty then none else some first, some second)
      .ok ⟨url.hostStr, url.port.getD 6379, database, login.1, login.2⟩

/-! ## What reaches the driver -/

/-- An SQL store logs in with these credentials. -/
def SqlKind.LogsIn (kind : SqlKind) (uri : NetUri) (definition : StoreDefinition)
    (username password : String) : Prop :=
  ∃ config, kind.hikariConfig uri definition = .ok config ∧
    config.username = some username ∧ config.password = some password

/-- A Redis store logs in with these credentials. -/
def RedisCache.LogsIn (uri : NetUri) (parseInt : String → Option Int32)
    (definition : StoreDefinition) (username : Option String) (password : String) : Prop :=
  ∃ config, redisConfig uri parseInt definition = .ok config ∧
    config.username = username ∧ config.password = some password

/-- A text has no colon and is not split, or is split at its first colon. -/
theorem splitColon_spec (text : String) :
    (':' ∉ text.toList ∧ splitColon text = (text, none)) ∨
      ∃ first second, splitColon text = (first, some second) ∧ ':' ∉ first.toList ∧
        text.toList = first.toList ++ ':' :: second.toList := by
  have whole := List.takeWhile_append_dropWhile (p := (· ≠ ':')) (l := text.toList)
  rw [splitColon, List.span_eq_takeWhile_dropWhile]
  cases later : text.toList.dropWhile (· ≠ ':') with
  | nil =>
      left
      constructor
      · intro colon
        have other := List.dropWhile_eq_nil_iff.mp later ':' colon
        rw [decide_eq_true_iff] at other
        exact other rfl
      · rfl
  | cons char rest =>
      right
      have filled : text.toList.dropWhile (· ≠ ':') ≠ [] := by
        rw [later]
        exact List.cons_ne_nil char rest
      have stops := List.head_dropWhile_not (· ≠ ':') filled
      simp only [later, List.head_cons, decide_eq_false_iff_not, not_not] at stops
      subst stops
      apply Exists.intro (String.ofList (text.toList.takeWhile (· ≠ ':')))
      apply Exists.intro (String.ofList rest)
      apply And.intro rfl
      rw [String.toList_ofList, String.toList_ofList]
      constructor
      · intro colon
        have other := List.mem_takeWhile_imp colon
        rw [decide_eq_true_iff] at other
        exact other rfl
      · rw [← later, whole]

/-- Two texts with a colon between them are split into these exactly when the first has no
colon of its own. -/
theorem splitColon_eq_iff {text first second : String}
    (joined : text.toList = first.toList ++ ':' :: second.toList) :
    splitColon text = (first, some second) ↔ ':' ∉ first.toList := by
  constructor
  · intro split
    rcases splitColon_spec text with ⟨_, whole⟩ | ⟨before, after, cut, absent, _⟩
    · rw [whole] at split
      cases split
    · rw [cut] at split
      cases split
      exact absent
  · intro absent
    have before : ∀ char ∈ first.toList, decide (char ≠ ':') = true := by
      intro char member
      rw [decide_eq_true_iff]
      rintro rfl
      exact absent member
    rw [splitColon, List.span_eq_takeWhile_dropWhile, joined,
      List.takeWhile_append_of_pos before, List.dropWhile_append_of_pos before]
    simp

section Logins

variable {uri : NetUri} {definition : StoreDefinition} {url : Url}
  {username password userInfo : String}

/-- The login of an SQL store is the user info at the colon. -/
theorem SqlKind.logsIn_iff (kind : SqlKind) (configured : definition.url = some url)
    (table : definition.tableName.isSome = true) (given : uri.userInfo url = some userInfo) :
    kind.LogsIn uri definition username password ↔
      splitColon userInfo = (username, some password) := by
  rcases Option.isSome_iff_exists.mp table with ⟨tableName, tabled⟩
  simp only [LogsIn, hikariConfig, configured, tabled, given, Except.ok.injEq, exists_eq_left',
    Option.map_some, Option.bind_some, Option.some.injEq, Prod.ext_iff]

/-- The login of a Redis store whose user info has a colon. -/
theorem RedisCache.logsIn_of_split (parseInt : String → Option Int32)
    (configured : definition.url = some url) (given : uri.userInfo url = some userInfo)
    {first second : String} (split : splitColon userInfo = (first, some second))
    (username : Option String) :
    LogsIn uri parseInt definition username password ↔
      (if first.isEmpty then none else some first) = username ∧ second = password := by
  simp only [LogsIn, redisConfig, configured, given, split, Except.ok.injEq, exists_eq_left',
    Option.some.injEq]

/-- The login of a Redis store whose user info has no colon. -/
theorem RedisCache.logsIn_of_whole (parseInt : String → Option Int32)
    (configured : definition.url = some url) (given : uri.userInfo url = some userInfo)
    (whole : splitColon userInfo = (userInfo, none)) (username : Option String) :
    LogsIn uri parseInt definition username password ↔
      none = username ∧ userInfo = password := by
  simp only [LogsIn, redisConfig, configured, given, whole, Except.ok.injEq, exists_eq_left',
    Option.some.injEq]

/-- With a colon between the credentials, the Redis store splits as the SQL stores do. -/
theorem RedisCache.logsIn_iff_of_joined (parseInt : String → Option Int32)
    (configured : definition.url = some url) (given : uri.userInfo url = some userInfo)
    (joined : userInfo.toList = username.toList ++ ':' :: password.toList) :
    LogsIn uri parseInt definition (if username.isEmpty then none else some username) password ↔
      ':' ∉ username.toList := by
  constructor
  · intro logsIn colon
    rcases splitColon_spec userInfo with ⟨absent, _⟩ | ⟨first, second, split, absent, _⟩
    · apply absent
      rw [joined]
      exact List.mem_append_left _ colon
    · rcases (logsIn_of_split parseInt configured given split _).mp logsIn with ⟨same, _⟩
      have filled : ¬username.isEmpty = true := by
        intro empty
        rw [String.isEmpty_iff.mp empty] at colon
        cases colon
      rw [if_neg filled] at same
      by_cases empty : first.isEmpty = true
      · rw [if_pos empty] at same
        cases same
      · rw [if_neg empty] at same
        exact absent (Option.some.inj same ▸ colon)
  · intro absent
    exact (logsIn_of_split parseInt configured given ((splitColon_eq_iff joined).mpr absent)
      _).mpr ⟨rfl, rfl⟩

/-- A password alone is kept whole exactly when it has no colon. -/
theorem RedisCache.logsIn_iff_of_password (parseInt : String → Option Int32)
    (configured : definition.url = some url) (given : uri.userInfo url = some password) :
    LogsIn uri parseInt definition none password ↔ ':' ∉ password.toList := by
  rcases splitColon_spec password with ⟨absent, whole⟩ | ⟨first, second, split, _, joined⟩
  · rw [logsIn_of_whole parseInt configured given whole]
    exact iff_of_true ⟨rfl, rfl⟩ absent
  · rw [logsIn_of_split parseInt configured given split]
    apply iff_of_false
    · rintro ⟨_, rfl⟩
      -- The part after a colon is shorter than the text.
      have lengths := congrArg List.length joined
      rw [List.length_append, List.length_cons] at lengths
      omega
    · intro absent
      apply absent
      rw [joined]
      exact List.mem_append_right _ List.mem_cons_self

end Logins

end PushCache.Java

namespace PushCache.Sample

open PushCache.Percent

/-- What UTF-8 gives, on bytes that are. -/
def readUtf8 (bytes : List UInt8) : List Char :=
  ((fromUtf8 bytes).map String.toList).getD []

theorem readUtf8_reads : ReadsUtf8 readUtf8 := by
  intro chars
  have bytes : chars.flatMap String.utf8EncodeChar = asBytes (String.ofList chars) := by
    simp [asBytes, List.utf8Encode]
  rw [readUtf8, bytes, fromUtf8_asBytes, Option.map_some, Option.getD_some, String.toList_ofList]

/-- What a URL of a database has in front of its host: `scott:p%40ss%3A`. -/
def escapedUri : Java.NetUri where
  rawUserInfo _ := some "scott:p%40ss%3A"
  path _ := some "/orcl"
  readUtf8 := readUtf8

def escapedDefinition : Java.StoreDefinition :=
  ⟨"users", .oracle, none, some oracleUrl, none, none, none, some "cache"⟩

/-- A Redis store has no table. -/
def escapedRedis : Java.StoreDefinition :=
  ⟨"sessions", .redis, none, some oracleUrl, none, none, none, none⟩

def escapesUserinfo (char : Char) : Bool :=
  "%:@".toList.contains char

end PushCache.Sample
