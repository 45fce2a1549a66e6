import PushCache.Java.Tombstone

/-!
# The record routes of the Java service

`WebConfig.route` mounts every configured route with its listing and its records,
and next to it the request by body.  Spring tries router functions in the order in
which they are registered; a path pattern is matched segment by segment, `{id}`
stands for any one segment that is not empty, and every other segment for itself.
A mounted path is served by its own route exactly when no route before it takes
the request.
-/

namespace PushCache.Java

/-! ## Spring's router functions -/

inductive HttpMethod where
  | get
  | post
  | delete
  deriving DecidableEq

/-- The segments of a path. -/
def segments (path : List Char) : List (List Char) :=
  if path = ['/'] then [] else (path.splitOn '/').drop 1

/-- A segment of a pattern matches a segment of a path.  The `{id}` of the routes is the
only variable: other segments in braces in a configured path are not modelled. -/
def segmentMatches (pattern segment : List Char) : Bool :=
  if pattern = "{id}".toList then segment ≠ [] else pattern = segment

/-- Match a pattern against the start of a path: the segments that are left. -/
def matchStartOfPath : List (List Char) → List (List Char) → Option (List (List Char))
  | [], path => some path
  | pattern :: patterns, segment :: path =>
      if segmentMatches pattern segment then matchStartOfPath patterns path else none
  | _ :: _, [] => none

/-- A pattern matches a whole path. -/
def pathMatches (pattern path : List (List Char)) : Bool :=
  matchStartOfPath pattern path = some []

/-- A request predicate with its handler: `GET(pattern, handler)` and the like. -/
structure RouteEntry (η : Type*) where
  method : HttpMethod
  pattern : List Char
  handler : η

/-- The handler of a request, if the predicate accepts it. -/
def RouteEntry.handle {η : Type*} (entry : RouteEntry η) (method : HttpMethod)
    (path : List (List Char)) : Option η :=
  if entry.method = method ∧ pathMatches (segments entry.pattern) path then some entry.handler
  else none

/-- A router function: a single entry, or entries nested under a path. -/
inductive RouterFunction (η : Type*) where
  | route (entry : RouteEntry η)
  | path (pattern : List Char) (entries : List (RouteEntry η))

/-- The handler a router function has for a request. -/
def RouterFunction.handle {η : Type*} (method : HttpMethod) (path : List (List Char)) :
    RouterFunction η → Option η
  | .route entry => entry.handle method path
  | .path pattern entries =>
      (matchStartOfPath (segments pattern) path).bind fun rest =>
        entries.findSome? fun entry => entry.handle method rest

/-- Router functions are tried in the order of their registration. -/
def dispatch {η : Type*} (routers : List (RouterFunction η)) (method : HttpMethod)
    (path : List Char) : Option η :=
  routers.findSome? (RouterFunction.handle method (segments path))

/-! ## The configuration -/

/-- `RouteDefinition`. -/
structure RouteDefinition where
  path : String
  store : String
  keyFromBody : Option String

/-- `CacheFactory.getStore`. -/
def CacheFactory.getStore (factory : CacheFactory) (name : String) : Option Cache :=
  factory.stores.lookup name

/-- The methods of `RecordHandler`. -/
inductive HandlerMethod where
  | listRecords
  | getRecord
  | deleteRecord
  | createRecord
  | getRecordByBody
  deriving DecidableEq

/-- A method of the `RecordHandler` of one route; routes are told apart by their
place in the configuration. -/
structure Handler where
  number : Nat
  store : Cache
  keyFromBody : Option String
  method : HandlerMethod
  deriving DecidableEq

namespace WebConfig

/-- `text.replace("//", "/")`. -/
def replaceSlashes : List Char → List Char
  | '/' :: '/' :: rest => '/' :: replaceSlashes rest
  | char :: rest => char :: replaceSlashes rest
  | [] => []

/-- The path with a slash at its start. -/
def ensureLeadingSlash (path : List Char) : List Char :=
  if path.head? = some '/' then path else '/' :: path

/-- `basePath`: the path of the configured address, without a slash at its end. -/
def trimBasePath (path : Option String) : List Char :=
  let basePath := (path.getD "").toList
  if basePath.getLast? = some '/' then basePath.dropLast else basePath

/-- `fullPath`. -/
def fullPath (basePath : List Char) (route : RouteDefinition) : List Char :=
  let fullPath := ensureLeadingSlash (replaceSlashes (basePath ++ route.path.toList))
  if 1 < fullPath.length ∧ fullPath.getLast? = some '/' then fullPath.dropLast else fullPath

/-- `bodyPath`. -/
def bodyPath (basePath : List Char) (route : RouteDefinition) : List Char :=
  ensureLeadingSlash
    (replaceSlashes (basePath ++ route.path.toList ++ "_by_body".toList))

/-- The route has a request by body. -/
def hasBodyPath (route : RouteDefinition) : Bool :=
  route.keyFromBody.any fun key => key ≠ ""

/-- `builder.GET("", handler::listRecords)` and so on: what is nested under the
mounted path. -/
def recordEntries (handler : HandlerMethod → Handler) : List (RouteEntry Handler) :=
  [⟨.get, [], handler .listRecords⟩,
    ⟨.get, "/{id}".toList, handler .getRecord⟩,
    ⟨.delete, "/{id}".toList, handler .deleteRecord⟩,
    ⟨.post, "/{id}".toList, handler .createRecord⟩]

/-- The router functions of one route. -/
def mount (basePath : List Char) (route : RouteDefinition)
    (handler : HandlerMethod → Handler) : List (RouterFunction Handler) :=
  if hasBodyPath route then
    [.path (fullPath basePath route) (recordEntries handler),
      .route ⟨.get, bodyPath basePath route, handler .getRecordByBody⟩]
  else
    [.path (fullPath basePath route) (recordEntries handler)]

/-- One round of the loop in `route`: a route whose store does not exist is left
out. -/
def mountIfFound (basePath : List Char) (factory : CacheFactory) (number : Nat)
    (route : RouteDefinition) : List (RouterFunction Handler) :=
  match factory.getStore route.store with
  | some store => mount basePath route (Handler.mk number store route.keyFromBody)
  | none => []

/-- `route`. -/
def route (path : Option String) (factory : CacheFactory)
    (routes : Option (List RouteDefinition)) : List (RouterFunction Handler) :=
  (routes.getD []).zipIdx.flatMap fun (route, number) =>
    mountIfFound (trimBasePath path) factory number route

/-! ## Requests -/

variable {path : Option String} {basePath : List Char} {factory : CacheFactory}
  {routes : List RouteDefinition} {number : Nat} {store : Cache} {route : RouteDefinition}

/-- The path is the mounted path of the route, or a record below it. -/
def TakesBelow (basePath : List Char) (route : RouteDefinition) (requested : List Char) : Prop :=
  pathMatches (segments (fullPath basePath route)) (segments requested) = true ∨
    ∃ id ≠ [], matchStartOfPath (segments (fullPath basePath route)) (segments requested) =
      some [id]

/-- The route has a handler for a `GET` of the path. -/
def Takes (basePath : List Char) (route : RouteDefinition) (requested : List Char) : Prop :=
  TakesBelow basePath route requested ∨
    hasBodyPath route = true ∧
      pathMatches (segments (bodyPath basePath route)) (segments requested) = true

theorem segmentMatches_self (segment : List Char) : segmentMatches segment segment = true := by
  rw [segmentMatches]
  split
  · next variable_ =>
      rw [variable_]
      rfl
  · simp

theorem pathMatches_self (path : List (List Char)) : pathMatches path path = true := by
  rw [pathMatches, decide_eq_true_eq]
  induction path with
  | nil => rfl
  | cons segment path ih => rw [matchStartOfPath, segmentMatches_self, if_pos rfl, ih]

/-- The listing or the record a route has below its mounted path. -/
def handlerBelow (handler : HandlerMethod → Handler) :
    Option (List (List Char)) → Option Handler
  | some [] => some (handler .listRecords)
  | some [[]] => none
  | some [_ :: _] => some (handler .getRecord)
  | _ => none

theorem recordEntries_get (handler : HandlerMethod → Handler) (rest : List (List Char)) :
    (recordEntries handler).findSome? (fun entry => entry.handle .get rest) =
      handlerBelow handler (some rest) := by
  have record : segments "/{id}".toList = ["{id}".toList] := by decide
  have listing : segments [] = [] := rfl
  simp only [recordEntries, List.findSome?_cons, List.findSome?_nil, RouteEntry.handle, record,
    listing, pathMatches, reduceCtorEq, false_and, if_false, true_and]
  rcases rest with _ | ⟨first, _ | ⟨second, rest⟩⟩
  · rfl
  · cases first <;> rfl
  · cases first <;> rfl

/-- What one route has for a `GET`: first the listing and the records, then the
request by body. -/
theorem mount_get (handler : HandlerMethod → Handler) (requested : List Char) :
    (mount basePath route handler).findSome?
        (RouterFunction.handle .get (segments requested)) =
      (handlerBelow handler
        (matchStartOfPath (segments (fullPath basePath route)) (segments requested))).or
        (if hasBodyPath route = true ∧
            pathMatches (segments (bodyPath basePath route)) (segments requested) = true then
          some (handler .getRecordByBody)
        else none) := by
  have nested : RouterFunction.handle .get (segments requested)
      (.path (fullPath basePath route) (recordEntries handler)) =
        handlerBelow handler
          (matchStartOfPath (segments (fullPath basePath route)) (segments requested)) := by
    rw [RouterFunction.handle]
    cases matchStartOfPath (segments (fullPath basePath route)) (segments requested) with
    | none => rfl
    | some rest => exact recordEntries_get handler rest
  rw [mount]
  by_cases byBody : hasBodyPath route = true
  · rw [if_pos byBody, List.findSome?_cons, nested]
    cases handlerBelow handler
      (matchStartOfPath (segments (fullPath basePath route)) (segments requested)) with
    | some below => rfl
    | none =>
        rw [List.findSome?_cons, Option.none_or]
        simp only [RouterFunction.handle, RouteEntry.handle, byBody, true_and]
        split
        · next tried => rw [tried]
        · next tried => rw [tried, List.findSome?_nil]
  · rw [if_neg byBody, List.findSome?_cons, nested, if_neg fun both => byBody both.1]
    cases handlerBelow handler
      (matchStartOfPath (segments (fullPath basePath route)) (segments requested)) <;> rfl

theorem handlerBelow_eq_none_iff (handler : HandlerMethod → Handler) {requested : List Char} :
    handlerBelow handler
        (matchStartOfPath (segments (fullPath basePath route)) (segments requested)) = none ↔
      ¬TakesBelow basePath route requested := by
  rw [TakesBelow, pathMatches, decide_eq_true_eq]
  rcases matchStartOfPath (segments (fullPath basePath route)) (segments requested) with
    _ | (_ | ⟨_ | ⟨_, _⟩, _ | ⟨_, _⟩⟩) <;> simp [handlerBelow]

/-- A route has no handler for a `GET` exactly when it does not take it. -/
theorem mount_get_eq_none_iff {handler : HandlerMethod → Handler} {requested : List Char} :
    (mount basePath route handler).findSome?
        (RouterFunction.handle .get (segments requested)) = none ↔
      ¬Takes basePath route requested := by
  rw [mount_get, Option.or_eq_none_iff, handlerBelow_eq_none_iff, Takes, not_or]
  simp

/-- A route lists its keys under its mounted path. -/
theorem mount_get_fullPath (handler : HandlerMethod → Handler) :
    (mount basePath route handler).findSome?
        (RouterFunction.handle .get (segments (fullPath basePath route))) =
      some (handler .listRecords) := by
  have whole := of_decide_eq_true (pathMatches_self (segments (fullPath basePath route)))
  rw [mount_get, whole]
  rfl

/-- A route with a request by body answers it as such exactly when it is not a
listing or a record of the route itself. -/
theorem mount_get_bodyPath_iff {key : Option String} (byBody : hasBodyPath route = true) :
    (mount basePath route (Handler.mk number store key)).findSome?
        (RouterFunction.handle .get (segments (bodyPath basePath route))) =
        some ⟨number, store, key, .getRecordByBody⟩ ↔
      ¬TakesBelow basePath route (bodyPath basePath route) := by
  rw [mount_get, ← handlerBelow_eq_none_iff (Handler.mk number store key),
    if_pos ⟨byBody, pathMatches_self _⟩]
  rcases matchStartOfPath (segments (fullPath basePath route))
      (segments (bodyPath basePath route)) with
    _ | (_ | ⟨_ | ⟨_, _⟩, _ | ⟨_, _⟩⟩) <;> simp [handlerBelow]

/-! ## First match -/

theorem findSome?_flatMap {α β γ : Type*} (items : List α) (expand : α → List β)
    (answer : β → Option γ) :
    (items.flatMap expand).findSome? answer =
      items.findSome? fun item => (expand item).findSome? answer := by
  induction items with
  | nil => rfl
  | cons item items ih =>
      rw [List.flatMap_cons, List.findSome?_append, ih, List.findSome?_cons]
      cases (expand item).findSome? answer <;> rfl

/-- The first answer comes from the first item that has one. -/
theorem findSome?_zipIdx_eq_some_iff {α β : Type*} (items : List α) (start : Nat)
    (answer : α × Nat → Option β) (result : β) :
    (items.zipIdx start).findSome? answer = some result ↔
      ∃ number item, items[number]? = some item ∧
        answer (item, start + number) = some result ∧
        ∀ earlier < number, ∀ other, items[earlier]? = some other →
          answer (other, start + earlier) = none := by
  induction items generalizing start with
  | nil => simp
  | cons item items ih =>
      rw [List.zipIdx_cons, List.findSome?_cons]
      cases first : answer (item, start) with
      | some found =>
          simp only [Option.some.injEq]
          constructor
          · rintro rfl
            exact ⟨0, item, rfl, first, fun earlier below => by omega⟩
          · rintro ⟨number, other, here, answered, before⟩
            cases number with
            | zero =>
                cases here
                exact Option.some.inj (first.symm.trans answered)
            | succ number =>
                have refused := before 0 (Nat.succ_pos number) item rfl
                rw [Nat.add_zero, first] at refused
                cases refused
      | none =>
          simp only [ih]
          constructor
          · rintro ⟨number, other, here, answered, before⟩
            refine ⟨number + 1, other, here, ?_, ?_⟩
            · rw [← answered]
              congr 2
              omega
            · intro earlier below third there
              cases earlier with
              | zero =>
                  cases there
                  exact first
              | succ earlier =>
                  rw [← before earlier (by omega) third there]
                  congr 2
                  omega
          · rintro ⟨number, other, here, answered, before⟩
            cases number with
            | zero =>
                cases here
                rw [Nat.add_zero, first] at answered
                cases answered
            | succ number =>
                refine ⟨number, other, here, ?_, ?_⟩
                · rw [← answered]
                  congr 2
                  omega
                · intro earlier below third there
                  rw [← before (earlier + 1) (by omega) third there]
                  congr 2
                  omega

/-- A `GET` that an earlier route takes does not get to a later one. -/
theorem dispatch_eq_some_iff {requested : List Char} {handler : Handler} :
    dispatch (WebConfig.route path factory (some routes)) .get requested = some handler ↔
      ∃ number route, routes[number]? = some route ∧
        (mountIfFound (trimBasePath path) factory number route).findSome?
          (RouterFunction.handle .get (segments requested)) = some handler ∧
        ∀ earlier < number, ∀ other, routes[earlier]? = some other →
          (mountIfFound (trimBasePath path) factory earlier other).findSome?
            (RouterFunction.handle .get (segments requested)) = none := by
  rw [dispatch, WebConfig.route, findSome?_flatMap, Option.getD_some,
    findSome?_zipIdx_eq_some_iff]
  simp only [Nat.zero_add]

/-- A mounted route hands its number on. -/
theorem number_of_mountIfFound {requested : List Char} {handler : Handler}
    (handles : (mountIfFound basePath factory number route).findSome?
      (RouterFunction.handle .get (segments requested)) = some handler) :
    handler.number = number := by
  rw [mountIfFound] at handles
  split at handles
  · rw [mount_get] at handles
    revert handles
    rcases matchStartOfPath (segments (fullPath basePath route)) (segments requested) with
      _ | (_ | ⟨_ | ⟨_, _⟩, _ | ⟨_, _⟩⟩) <;> simp [handlerBelow] <;> grind
  · cases handles

/-- The routes before a route leave it the request: none of those whose store
exists takes it. -/
def LeftBy (basePath : List Char) (factory : CacheFactory) (routes : List RouteDefinition)
    (number : Nat) (requested : List Char) : Prop :=
  ∀ earlier < number, ∀ other, routes[earlier]? = some other →
    factory.getStore other.store ≠ none → ¬Takes basePath other requested

theorem mountIfFound_eq_none_iff {requested : List Char} :
    (mountIfFound basePath factory number route).findSome?
        (RouterFunction.handle .get (segments requested)) = none ↔
      (factory.getStore route.store ≠ none → ¬Takes basePath route requested) := by
  rw [mountIfFound]
  cases factory.getStore route.store with
  | none => simp
  | some store => simp only [mount_get_eq_none_iff, ne_eq, reduceCtorEq, not_false_eq_true,
      true_imp_iff]

/-- A request gets to a route exactly when the route has a handler for it and the
routes before it leave it. -/
theorem dispatch_of_route {requested : List Char} {key : Option String} {method : HandlerMethod}
    (here : routes[number]? = some route) (found : factory.getStore route.store = some store) :
    dispatch (WebConfig.route path factory (some routes)) .get requested =
        some ⟨number, store, key, method⟩ ↔
      (mount (trimBasePath path) route (Handler.mk number store route.keyFromBody)).findSome?
          (RouterFunction.handle .get (segments requested)) =
          some ⟨number, store, key, method⟩ ∧
        LeftBy (trimBasePath path) factory routes number requested := by
  have mounted : mountIfFound (trimBasePath path) factory number route =
      mount (trimBasePath path) route (Handler.mk number store route.keyFromBody) := by
    rw [mountIfFound, found]
  simp only [dispatch_eq_some_iff, mountIfFound_eq_none_iff, LeftBy]
  constructor
  · rintro ⟨other, otherRoute, there, handles, before⟩
    obtain rfl : number = other := number_of_mountIfFound handles
    obtain rfl : route = otherRoute := Option.some.inj (here.symm.trans there)
    exact ⟨mounted ▸ handles, before⟩
  · rintro ⟨handles, before⟩
    exact ⟨number, route, here, mounted ▸ handles, before⟩

/-- For every configuration: each route whose store exists answers a `GET` of its
mounted path with its own listing, and of its path by body, if it has one, with its
own record by body, exactly when no route before it takes the first, no route
before it takes the second, and the second is not a listing or a record of the
route itself. -/
theorem route_unshadowed_iff (path : Option String) (factory : CacheFactory)
    (routes : List RouteDefinition) :
    (∀ number route store, routes[number]? = some route →
      factory.getStore route.store = some store →
        dispatch (WebConfig.route path factory (some routes)) .get
            (fullPath (trimBasePath path) route) =
            some ⟨number, store, route.keyFromBody, .listRecords⟩ ∧
          (hasBodyPath route = true →
            dispatch (WebConfig.route path factory (some routes)) .get
              (bodyPath (trimBasePath path) route) =
                some ⟨number, store, route.keyFromBody, .getRecordByBody⟩)) ↔
      ∀ number route, routes[number]? = some route → factory.getStore route.store ≠ none →
        LeftBy (trimBasePath path) factory routes number (fullPath (trimBasePath path) route) ∧
          (hasBodyPath route = true →
            LeftBy (trimBasePath path) factory routes number
                (bodyPath (trimBasePath path) route) ∧
              ¬TakesBelow (trimBasePath path) route (bodyPath (trimBasePath path) route)) := by
  have listing : ∀ number route store, routes[number]? = some route →
      factory.getStore route.store = some store →
        (dispatch (WebConfig.route path factory (some routes)) .get
            (fullPath (trimBasePath path) route) =
            some ⟨number, store, route.keyFromBody, .listRecords⟩ ↔
          LeftBy (trimBasePath path) factory routes number
            (fullPath (trimBasePath path) route)) := by
    intro number route store here found
    rw [dispatch_of_route here found, and_iff_right (mount_get_fullPath _)]
  have byBody : ∀ number route store, routes[number]? = some route →
      factory.getStore route.store = some store → hasBodyPath route = true →
        (dispatch (WebConfig.route path factory (some routes)) .get
            (bodyPath (trimBasePath path) route) =
            some ⟨number, store, route.keyFromBody, .getRecordByBody⟩ ↔
          LeftBy (trimBasePath path) factory routes number
              (bodyPath (trimBasePath path) route) ∧
            ¬TakesBelow (trimBasePath path) route (bodyPath (trimBasePath path) route)) := by
    intro number route store here found has
    rw [dispatch_of_route here found, mount_get_bodyPath_iff has, and_comm]
  constructor
  · intro served number route here exists_
    rcases Option.ne_none_iff_exists'.mp exists_ with ⟨store, found⟩
    rcases served number route store here found with ⟨lists, answers⟩
    exact ⟨(listing number route store here found).mp lists, fun has =>
      (byBody number route store here found has).mp (answers has)⟩
  · intro left number route store here found
    rcases left number route here (by simp [found]) with ⟨leftList, leftBody⟩
    exact ⟨(listing number route store here found).mpr leftList, fun has =>
      (byBody number route store here found has).mpr (leftBody has)⟩

end WebConfig

end PushCache.Java

namespace PushCache.Sample

open PushCache.Java

/-- A route with a slash at its end and a request by body, and a route below it. -/
def nestedRoutes : List Java.RouteDefinition :=
  [⟨"/users/", "customers", some "userId"⟩, ⟨"/users/vip", "customers", none⟩]

/-- Both the request by body of the first route and the listing of the second end up
as requests for a record of the first. -/
theorem route_shadows :
    nestedRoutes.map (fun route =>
        (String.ofList (WebConfig.fullPath "/api".toList route),
          String.ofList (WebConfig.bodyPath "/api".toList route))) =
        [("/api/users", "/api/users/_by_body"), ("/api/users/vip", "/api/users/vip_by_body")] ∧
      ∀ requested ∈ ["/api/users/_by_body", "/api/users/vip"],
        dispatch (WebConfig.route (some "/api/") (javaService .inMemory).cacheFactory
            (some nestedRoutes)) .get requested.toList =
          some ⟨0, ⟨javaCustomers .inMemory⟩, some "userId", .getRecord⟩ := by
  decide

end PushCache.Sample
