import PushCache.Java.WebConfig
import PushCache.Webserver.Mounting

/-!
# Where the two services mount a route

The Java service trims one slash from the base path before, and one from the whole
path after, what the Rust service does.  So it needs a slash at the seam more often,
and tolerates more slashes at the end.
-/

namespace PushCache.Java.WebConfig

open PushCache.Paths

/-! ## The Java paths as operations on paths -/

theorem replaceSlashes_eq (path : List Char) : replaceSlashes path = replacePairs '/' path := by
  fun_induction replacePairs '/' path with
  | case1 => rfl
  | case2 char => rw [replaceSlashes, replaceSlashes]; simp
  | case3 first next rest both ih =>
      rcases both with ⟨rfl, rfl⟩
      rw [replaceSlashes, ih]
  | case4 first next rest both ih =>
      rw [replaceSlashes, ih]
      rintro others rfl split
      cases split
      exact both ⟨rfl, rfl⟩

theorem trimBasePath_eq (path : Option String) :
    trimBasePath path = dropTrailing '/' (path.getD "").toList :=
  rfl

theorem fullPath_eq (basePath : List Char) (route : RouteDefinition) :
    fullPath basePath route =
      trimEnd '/' (ensureLeading '/' (replacePairs '/' (basePath ++ route.path.toList))) := by
  rw [fullPath, replaceSlashes_eq]
  rfl

/-- A record router is mounted at the path of a configured route. -/
theorem path_mem_route {path : Option String} {factory : CacheFactory}
    {routes : Option (List RouteDefinition)} {pattern : List Char}
    {entries : List (RouteEntry Handler)}
    (mounted : .path pattern entries ∈ route path factory routes) :
    ∃ routeDef ∈ routes.getD [], pattern = fullPath (trimBasePath path) routeDef := by
  rw [route, List.mem_flatMap] at mounted
  rcases mounted with ⟨⟨routeDef, number⟩, member, mounted⟩
  have configured : routeDef ∈ routes.getD [] := (List.mem_zipIdx' member).2 ▸ List.getElem_mem _
  refine ⟨routeDef, configured, ?_⟩
  simp only [mountIfFound] at mounted
  split at mounted
  · rw [mount] at mounted
    split at mounted
    · rcases List.mem_cons.mp mounted with same | byBody
      · exact (RouterFunction.path.inj same).1
      · cases List.mem_singleton.mp byBody
    · exact (RouterFunction.path.inj (List.mem_singleton.mp mounted)).1
  · cases mounted

/-- The mounted path of the Java service. -/
theorem fullPath_means_iff (path : Option String) (route : RouteDefinition) :
    MeansBaseThenRoute (path.getD "").toList route.path.toList
        (fullPath (trimBasePath path) route) ↔
      (EndsClosed '/' (trimBasePath path) ∨ StartsClosed '/' route.path.toList) ∧
        ¬HasInnerTriple '/' (trimBasePath path ++ route.path.toList) := by
  have kept : Paths.pieces '/' (fullPath (trimBasePath path) route) =
      Paths.pieces '/' (trimBasePath path ++ route.path.toList) := by
    rw [fullPath_eq, pieces_trimEnd, pieces_ensureLeading, pieces_replacePairs]
  have base : Paths.pieces '/' (path.getD "").toList = Paths.pieces '/' (trimBasePath path) := by
    rw [trimBasePath_eq, pieces_dropTrailing]
  have leading : (fullPath (trimBasePath path) route).head? = some '/' := by
    rw [fullPath_eq, head?_trimEnd, head?_ensureLeading]
  have pair : HasPair '/' (fullPath (trimBasePath path) route) ↔
      HasInnerTriple '/' (trimBasePath path ++ route.path.toList) := by
    rw [fullPath_eq, hasPair_trimEnd_iff, hasPair_dropTrailing_ensureLeading_iff,
      hasPair_dropTrailing_replacePairs_iff]
  constructor
  · intro means
    exact ⟨pieces_append_iff.mp (kept.symm.trans (means.pieces.trans (by rw [base]))),
      mt pair.mpr means.noPair⟩
  · rintro ⟨closed, noTriple⟩
    exact ⟨kept.trans ((pieces_append_iff.mpr closed).trans (by rw [base])), leading,
      mt pair.mp noTriple⟩

end PushCache.Java.WebConfig

namespace PushCache

open PushCache.Paths

/-- In the Rust service a mounted path stands for base plus route exactly when there is
a slash at the seam, if both sides have anything there, and there are never three
slashes in a row.  In the Java service the slash at the seam must be there after one has
been trimmed from the base, and three slashes in a row do no harm at the very end. -/
theorem mountedPaths_mean_iff (basePath path : String) (javaPath : Option String)
    (route : Java.RouteDefinition) :
    (MeansBaseThenRoute basePath.toList path.toList (fullPath basePath path) ↔
      (EndsClosed '/' basePath.toList ∨ StartsClosed '/' path.toList) ∧
        ¬HasTriple '/' (basePath ++ path).toList) ∧
    (MeansBaseThenRoute (javaPath.getD "").toList route.path.toList
        (Java.WebConfig.fullPath (Java.WebConfig.trimBasePath javaPath) route) ↔
      (EndsClosed '/' (Java.WebConfig.trimBasePath javaPath) ∨
          StartsClosed '/' route.path.toList) ∧
        ¬HasInnerTriple '/' (Java.WebConfig.trimBasePath javaPath ++ route.path.toList)) :=
  ⟨fullPath_means_iff basePath path, Java.WebConfig.fullPath_means_iff javaPath route⟩

end PushCache

namespace PushCache.Sample

/-- Without a slash at the seam both services mount `users` below `/api` at `/apiusers`.
With one at the end of the base only, the Java service still does. -/
theorem mountedPath_runs_together :
    fullPath "/api" "users" = "/apiusers".toList ∧
    ¬MeansBaseThenRoute "/api".toList "users".toList (fullPath "/api" "users") ∧
    fullPath "/api/" "users" = "/api/users".toList ∧
    Java.WebConfig.fullPath (Java.WebConfig.trimBasePath (some "/api/"))
        ⟨"users", "customers", none⟩ = "/apiusers".toList ∧
    ¬MeansBaseThenRoute "/api/".toList "users".toList
      (Java.WebConfig.fullPath (Java.WebConfig.trimBasePath (some "/api/"))
        ⟨"users", "customers", none⟩) := by
  refine ⟨by decide, fun means => ?_, by decide, by decide, fun means => ?_⟩
  · exact absurd means.pieces (by decide)
  · exact absurd means.pieces (by decide)

end PushCache.Sample
