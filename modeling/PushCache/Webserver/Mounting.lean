import PushCache.Paths.Core
import PushCache.State

/-!
# The record routes of the service

`start_app_api` nests a record router for every configured route whose store
exists, and next to it a router for the request by body.  The path of each is the
base path and the route's path in a row, with pairs of slashes replaced once and a
slash put in front where there is none.
-/

namespace PushCache

open PushCache.Paths

/-- `RouteDefinition`, with the path it is mounted at. -/
structure RoutePath extends RouteDefinition where
  path : String

/-- `full_path`. -/
def fullPath (basePath path : String) : List Char :=
  ensureLeading '/' (replacePairs '/' (basePath ++ path).toList)

/-- `full_body_path`. -/
def fullBodyPath (basePath path : String) : List Char :=
  ensureLeading '/' (replacePairs '/' (basePath ++ path ++ "_by_body").toList)

/-- A router that is nested under a path. -/
inductive Mount where
  | router (path : List Char) (store : Cache)
  | bodyRouter (path : List Char) (store : Cache) (keyField : String)

/-- One round of the loop in `start_app_api`: a route whose store does not exist is
left out. -/
def mountRoute (basePath : String) (stores : Stores) (routeDef : RoutePath) : List Mount :=
  match stores.lookup routeDef.store with
  | none => []
  | some store =>
      match routeDef.keyFromBody with
      | none => [.router (fullPath basePath routeDef.path) store]
      | some keyField =>
          [.router (fullPath basePath routeDef.path) store,
            .bodyRouter (fullBodyPath basePath routeDef.path) store keyField]

/-- The routers that `start_app_api` nests. -/
def startAppApi (basePath : String) (stores : Stores) (routes : List RoutePath) : List Mount :=
  routes.flatMap (mountRoute basePath stores)

/-- A record router is mounted at the path of a configured route, and every route whose
store exists has one. -/
theorem router_mem_startAppApi_iff {basePath : String} {stores : Stores}
    {routes : List RoutePath} {path : List Char} {store : Cache} :
    .router path store ∈ startAppApi basePath stores routes ↔
      ∃ routeDef ∈ routes, stores.lookup routeDef.store = some store ∧
        path = fullPath basePath routeDef.path := by
  rw [startAppApi, List.mem_flatMap]
  apply exists_congr
  intro routeDef
  apply and_congr_right
  intro _
  rw [mountRoute]
  cases stores.lookup routeDef.store with
  | none => simp
  | some found => cases routeDef.keyFromBody <;> simp [eq_comm, and_comm]

/-- A mounted path that stands for the base path followed by the route's path. -/
structure MeansBaseThenRoute (base route mounted : List Char) : Prop where
  pieces : pieces '/' mounted = pieces '/' base ++ pieces '/' route
  leading : mounted.head? = some '/'
  noPair : ¬HasPair '/' mounted

/-- The mounted path always starts with a slash.  It keeps the pieces apart exactly when
a slash does so at the seam, and it has no pair exactly when there were never three
slashes in a row. -/
theorem fullPath_means_iff (basePath path : String) :
    MeansBaseThenRoute basePath.toList path.toList (fullPath basePath path) ↔
      (EndsClosed '/' basePath.toList ∨ StartsClosed '/' path.toList) ∧
        ¬HasTriple '/' (basePath ++ path).toList := by
  have kept : Paths.pieces '/' (fullPath basePath path) =
      Paths.pieces '/' (basePath.toList ++ path.toList) := by
    rw [fullPath, pieces_ensureLeading, pieces_replacePairs, String.toList_append]
  have pair : HasPair '/' (fullPath basePath path) ↔ HasTriple '/' (basePath ++ path).toList := by
    rw [fullPath, hasPair_ensureLeading_iff, hasPair_replacePairs_iff]
  constructor
  · intro means
    exact ⟨pieces_append_iff.mp (kept.symm.trans means.pieces), mt pair.mpr means.noPair⟩
  · rintro ⟨closed, noTriple⟩
    exact ⟨kept.trans (pieces_append_iff.mpr closed), head?_ensureLeading '/' _,
      mt pair.mp noTriple⟩

end PushCache
