import Mathlib.Data.List.DropRight
import PushCache.Startup
import PushCache.Transition.Queries
import PushCache.UrlCrate

/-!
# Requests to the schema registry

The start-up check and the fetch of a schema derive their URLs from one setting by
different means: the check replaces the whole path, the fetch appends to the text of
the URL.
-/

namespace PushCache

open PushCache.Transition

/-- How the check reads a list of types from a body, and what it does with texts. -/
structure SchemaTypes where
  parse : String → Except String (List String)
  toUppercase : String → String
  debug : List String → String

/-- `check_schema_registry`. -/
def checkSchemaRegistry (crate : UrlCrate) (types : SchemaTypes) (http : Http) (url : Url)
    (schemaType : String) : Except MyError Unit :=
  let srUrl := crate.setPath url "/schemas/types"
  match http srUrl.asStr with
  | .error error =>
      .error (.message s!"Failed to connect to Schema Registry at {srUrl.asStr}: {error}")
  | .ok res =>
      if res.status.isSuccess then
        match types.parse res.body with
        | .error error =>
            .error (.message s!"Failed to parse Schema Registry response: {error}")
        | .ok schemaTypes =>
            if schemaTypes.contains (types.toUppercase schemaType) then .ok ()
            else
              .error (.message (s!"Schema type {schemaType} is not supported by the Schema " ++
                s!"Registry. Supported types: {types.debug schemaTypes}"))
      else
        .error (.message s!"Schema Registry check failed with status: {res.status.printed}")

/-- The URL without slashes at its end. -/
def registryBase (url : Url) : String :=
  String.ofList (url.asStr.toList.rdropWhile (· = '/'))

/-- Every fetch asks for `<base>/schemas/ids/<id>` and the check for
`<base>/schemas/types`. -/
def AddressesBase (crates : Crates) (crate : UrlCrate) (types : SchemaTypes) (url : Url)
    (schemaType : String) : Prop :=
  (∀ id : UInt32, Asks (fun http => fetchSchemaById crates http url.asStr id)
    (registryBase url ++ s!"/schemas/ids/{id}")) ∧
  Asks (fun http => checkSchemaRegistry crate types http url schemaType)
    (registryBase url ++ "/schemas/types")

/-- The serialization of a URL around its path, as far as `set_path` is documented to
keep it. -/
structure UrlCrate.Around (crate : UrlCrate) (url : Url) where
  before : String
  after : String
  asStr_eq : url.asStr = before ++ crate.path url ++ after
  before_last : before.toList.getLast? ≠ some '/'
  setPath : (crate.setPath url "/schemas/types").asStr = before ++ "/schemas/types" ++ after

/-! ## What the two functions ask for -/

theorem fetchSchemaById_asks (crates : Crates) (registryUrl : String) (id : UInt32) :
    Asks (fun http => fetchSchemaById crates http registryUrl id)
      (registryUrl ++ s!"schemas/ids/{id}") := by
  have url : s!"{registryUrl}schemas/ids/{id}" = registryUrl ++ s!"schemas/ids/{id}" :=
    String.append_assoc
  constructor
  · intro answers others same
    simp only [fetchSchemaById, url, same]
  · refine ⟨fun _ => .error "first", fun _ => .error "second", ?_⟩
    simp only [fetchSchemaById, ne_eq, Except.error.injEq, MyError.message.injEq,
      String.append_right_inj]
    decide

theorem checkSchemaRegistry_asks (crate : UrlCrate) (types : SchemaTypes) (url : Url)
    (schemaType : String) :
    Asks (fun http => checkSchemaRegistry crate types http url schemaType)
      (crate.setPath url "/schemas/types").asStr := by
  constructor
  · intro answers others same
    simp only [checkSchemaRegistry, same]
  · refine ⟨fun _ => .error "first", fun _ => .error "second", ?_⟩
    simp only [checkSchemaRegistry, ne_eq, Except.error.injEq, MyError.message.injEq,
      String.append_right_inj]
    decide

/-- The fetches keep to the base exactly when the URL is the base and one slash. -/
theorem fetches_base_iff (crates : Crates) (url : Url) :
    (∀ id : UInt32, Asks (fun http => fetchSchemaById crates http url.asStr id)
      (registryBase url ++ s!"/schemas/ids/{id}")) ↔ url.asStr = registryBase url ++ "/" := by
  have split : ∀ id : UInt32, registryBase url ++ s!"/schemas/ids/{id}" =
      registryBase url ++ "/" ++ s!"schemas/ids/{id}" := by
    intro id
    have joined : toString "/schemas/ids/" = "/" ++ toString "schemas/ids/" := by decide
    rw [joined, String.append_assoc, String.append_assoc]
  simp only [(fetchSchemaById_asks crates url.asStr _).iff_eq, split, String.append_left_inj]
  exact ⟨fun all => (all 0).symm, fun equal _ => equal.symm⟩

/-- Nothing but slashes is trimmed from a text that does not end with one. -/
theorem registryBase_of_concat {url : Url} {before : String}
    (last : before.toList.getLast? ≠ some '/') (split : url.asStr = before ++ "/") :
    registryBase url = before := by
  have kept : before.toList.rdropWhile (· = '/') = before.toList := by
    rw [List.rdropWhile_eq_self_iff]
    intro nonempty isSlash
    apply last
    rw [List.getLast?_eq_some_getLast nonempty, of_decide_eq_true isSlash]
  have slash : "/".toList = ['/'] := rfl
  rw [registryBase, split, String.toList_append, slash, List.rdropWhile_concat_pos _ _ _ rfl, kept,
    String.ofList_toList]

theorem getLast?_append_of_ne {front text : String} (nonempty : text ≠ "") :
    (front ++ text).toList.getLast? = text.toList.getLast? := by
  rw [String.toList_append, List.getLast?_append_of_ne_nil]
  exact mt String.toList_eq_nil_iff.mp nonempty

/-- All requests address the same base exactly when the configured URL is an origin: its
path is a single slash and nothing follows it. -/
theorem addressesBase_iff (crates : Crates) {crate : UrlCrate} (types : SchemaTypes) {url : Url}
    (schemaType : String) (around : crate.Around url) :
    AddressesBase crates crate types url schemaType ↔
      crate.path url = "/" ∧ around.after = "" := by
  rw [AddressesBase, fetches_base_iff, (checkSchemaRegistry_asks crate types url schemaType).iff_eq,
    around.setPath]
  constructor
  · rintro ⟨fetches, checks⟩
    rw [around.asStr_eq] at fetches
    have nothing : around.after = "" := by
      by_contra something
      -- What follows the path would end both like `/` and like `/schemas/types`.
      have lastFetch := congrArg (fun text : String => text.toList.getLast?) fetches
      have lastCheck := congrArg (fun text : String => text.toList.getLast?) checks
      simp only [getLast?_append_of_ne something,
        getLast?_append_of_ne (by decide : "/" ≠ "")] at lastFetch
      simp only [getLast?_append_of_ne something,
        getLast?_append_of_ne (by decide : "/schemas/types" ≠ "")] at lastCheck
      rw [lastFetch] at lastCheck
      exact absurd lastCheck (by decide)
    rw [nothing, String.append_empty] at fetches checks
    rw [String.append_left_inj] at checks
    rw [checks, String.append_right_inj] at fetches
    exact ⟨fetches, nothing⟩
  · rintro ⟨root, nothing⟩
    have split : url.asStr = around.before ++ "/" := by
      rw [around.asStr_eq, root, nothing, String.append_empty]
    have base := registryBase_of_concat around.before_last split
    rw [base, nothing, String.append_empty]
    exact ⟨split, rfl⟩

end PushCache

namespace PushCache.Sample

open PushCache.Transition

/-- `http://localhost:8081/`, an origin. -/
def originUrl : Url := ⟨"http://localhost:8081/", some "localhost", some 8081⟩

/-- A registry that is served below a path. -/
def registryBelowPath : Url := ⟨"http://localhost:8081/registry", some "localhost", some 8081⟩

/-- An origin around its path. -/
def originAround : urlCrate.Around originUrl where
  before := "http://localhost:8081"
  after := ""
  asStr_eq := by decide
  before_last := by decide
  setPath := by decide

/-- A list of one type. -/
def schemaTypes : SchemaTypes where
  parse := fun body => if body = "[\"AVRO\"]" then .ok ["AVRO"] else .error "expected a list"
  toUppercase := String.toUpper
  debug := fun types => s!"{types}"

/-- Against an origin every request keeps to the base. -/
theorem origin_addressesBase : AddressesBase crates urlCrate schemaTypes originUrl "AVRO" :=
  (addressesBase_iff crates schemaTypes "AVRO" originAround).mpr ⟨by decide, rfl⟩

/-- Below a path, the fetch of schema 1 asks for `/registryschemas/ids/1` and the check
for `/schemas/types`, neither of which is below the base. -/
theorem registryBelowPath_requests :
    Asks (fun http => fetchSchemaById crates http registryBelowPath.asStr 1)
        "http://localhost:8081/registryschemas/ids/1" ∧
      Asks (fun http => checkSchemaRegistry urlCrate schemaTypes http registryBelowPath "AVRO")
        "http://localhost:8081/schemas/types" ∧
      ¬AddressesBase crates urlCrate schemaTypes registryBelowPath "AVRO" := by
  have fetches := fetchSchemaById_asks crates registryBelowPath.asStr 1
  have checks := checkSchemaRegistry_asks urlCrate schemaTypes registryBelowPath "AVRO"
  refine ⟨fetches, ?_, ?_⟩
  · have types : (urlCrate.setPath registryBelowPath "/schemas/types").asStr =
        "http://localhost:8081/schemas/types" := by decide
    rwa [types] at checks
  · rintro ⟨_, checksBase⟩
    exact absurd (checksBase.unique checks) (by decide)

end PushCache.Sample
