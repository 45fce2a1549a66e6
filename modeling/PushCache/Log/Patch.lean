import Mathlib.Data.List.Basic
import Mathlib.Tactic.TypeStar

/-!
# Patches and last-write-wins logs

A patch says, location by location, which content it leaves there, or that it
leaves the location alone.  Applying a log of patches one after the other is
applying one patch, the `latest` of the log: at each location the last entry
that touches it decides.  Locations and contents are arbitrary types; deletion
is a patch whose content says so.
-/

namespace PushCache.Log

universe u v

/-- A partial assignment of contents to locations.  `none` leaves the location
as it was. -/
abbrev Patch (K : Type u) (C : Type v) := K → Option C

namespace Patch

variable {K : Type u} {C : Type v}

/-- Overwrite the locations the patch touches. -/
def apply (patch : Patch K C) (state : K → C) : K → C :=
  fun location => (patch location).getD (state location)

/-- The combined patch of a log, its later entries deciding. -/
def latest : List (Patch K C) → Patch K C
  | [] => fun _ => none
  | patch :: later => fun location => (latest later location).or (patch location)

@[simp]
theorem latest_nil (location : K) : latest ([] : List (Patch K C)) location = none :=
  rfl

theorem latest_cons (patch : Patch K C) (later : List (Patch K C)) (location : K) :
    latest (patch :: later) location = (latest later location).or (patch location) :=
  rfl

theorem latest_append (earlier later : List (Patch K C)) (location : K) :
    latest (earlier ++ later) location =
      (latest later location).or (latest earlier location) := by
  induction earlier with
  | nil => simp
  | cons patch rest ih =>
      rw [List.cons_append, latest_cons, ih, latest_cons, Option.or_assoc]

theorem apply_of_none {patch : Patch K C} {location : K}
    (untouched : patch location = none) (state : K → C) :
    patch.apply state location = state location := by
  simp [apply, untouched]

theorem apply_of_some {patch : Patch K C} {location : K} {content : C}
    (touched : patch location = some content) (state : K → C) :
    patch.apply state location = content := by
  simp [apply, touched]

/-- Applying the combined patch is applying the log entry by entry. -/
theorem apply_latest_cons (patch : Patch K C) (later : List (Patch K C))
    (state : K → C) :
    (latest (patch :: later)).apply state =
      (latest later).apply (patch.apply state) := by
  funext location
  simp only [apply, latest_cons]
  cases latest later location <;> rfl

theorem apply_latest_append (earlier later : List (Patch K C)) (state : K → C) :
    (latest (earlier ++ later)).apply state =
      (latest later).apply ((latest earlier).apply state) := by
  funext location
  simp only [apply, latest_append]
  cases latest later location <;> rfl

@[simp]
theorem latest_singleton (patch : Patch K C) : latest [patch] = patch := by
  funext location
  simp [latest_cons]

/-! ## The last entry that touches a location decides -/

theorem latest_eq_none_iff {log : List (Patch K C)} {location : K} :
    latest log location = none ↔ ∀ patch ∈ log, patch location = none := by
  induction log with
  | nil => simp
  | cons patch later ih =>
      simp only [latest_cons, Option.or_eq_none_iff, ih, List.mem_cons,
        forall_eq_or_imp]
      exact and_comm

/-- The combined patch has a content exactly when some entry of the log leaves
it and every later entry leaves the location alone. -/
theorem latest_eq_some_iff {log : List (Patch K C)} {location : K} {content : C} :
    latest log location = some content ↔
      ∃ earlier patch later, log = earlier ++ patch :: later ∧
        patch location = some content ∧
        ∀ other ∈ later, other location = none := by
  constructor
  · intro decided
    induction log with
    | nil => simp at decided
    | cons patch later ih =>
        rw [latest_cons, Option.or_eq_some_iff] at decided
        rcases decided with decidedLater | ⟨untouchedLater, decidedHere⟩
        · rcases ih decidedLater with ⟨earlier, decisive, rest, rfl, touched, untouched⟩
          exact ⟨patch :: earlier, decisive, rest, rfl, touched, untouched⟩
        · exact ⟨[], patch, later, rfl, decidedHere,
            latest_eq_none_iff.mp untouchedLater⟩
  · rintro ⟨earlier, patch, later, rfl, touched, untouched⟩
    rw [latest_append, latest_cons, latest_eq_none_iff.mpr untouched, touched]
    rfl

theorem latest_map_eq_none_iff {α : Type*} {patch : α → Patch K C} {log : List α}
    {location : K} :
    latest (log.map patch) location = none ↔ ∀ item ∈ log, patch item location = none := by
  rw [latest_eq_none_iff, List.forall_mem_map]

/-- The last entry that touches a location, for a log whose entries denote
patches. -/
theorem latest_map_eq_some_iff {α : Type*} {patch : α → Patch K C} {log : List α}
    {location : K} {content : C} :
    latest (log.map patch) location = some content ↔
      ∃ earlier item later, log = earlier ++ item :: later ∧
        patch item location = some content ∧
        ∀ other ∈ later, patch other location = none := by
  rw [latest_eq_some_iff]
  constructor
  · rintro ⟨earlierPatches, _, laterPatches, split, touched, untouched⟩
    rcases List.map_eq_append_iff.mp split with ⟨earlier, rest, rfl, rfl, restEq⟩
    rcases List.map_eq_cons_iff.mp restEq with ⟨item, later, rfl, rfl, rfl⟩
    exact ⟨earlier, item, later, rfl, touched, List.forall_mem_map.mp untouched⟩
  · rintro ⟨earlier, item, later, rfl, touched, untouched⟩
    exact ⟨earlier.map patch, patch item, later.map patch, by simp, touched,
      List.forall_mem_map.mpr untouched⟩

/-- Some entry of the log leaves the content of the combined patch. -/
theorem exists_mem_of_latest_eq_some {log : List (Patch K C)} {location : K}
    {content : C} (decided : latest log location = some content) :
    ∃ patch ∈ log, patch location = some content := by
  rcases latest_eq_some_iff.mp decided with ⟨earlier, patch, later, rfl, touched, _⟩
  exact ⟨patch, by simp, touched⟩

/-- An entry that occurs again later in the log can be dropped. -/
theorem latest_cons_of_mem {patch : Patch K C} {log : List (Patch K C)}
    (member : patch ∈ log) : latest (patch :: log) = latest log := by
  funext location
  rw [latest_cons]
  cases decided : latest log location with
  | some content => rfl
  | none => exact latest_eq_none_iff.mp decided patch member

theorem latest_map_or_of_mem {α : Type*} {patch : α → Patch K C} {log : List α} {item : α}
    (member : item ∈ log) (location : K) :
    (latest (log.map patch) location).or (patch item location) =
      latest (log.map patch) location :=
  congrFun (latest_cons_of_mem (List.mem_map_of_mem member)) location

/-- The combined patch ignores every entry that occurs again later. -/
theorem latest_map_absorbs {α : Type*} (patch : α → Patch K C) (earlier later : List α)
    (item : α) (again : item ∈ later) :
    latest ((earlier ++ item :: later).map patch) =
      latest ((earlier ++ later).map patch) := by
  funext location
  rw [List.map_append, List.map_append, latest_append, latest_append, List.map_cons,
    latest_cons_of_mem (List.mem_map_of_mem again)]

/-- Only the entries that touch a location matter there. -/
theorem latest_eq_getLast?_filterMap (log : List (Patch K C)) (location : K) :
    latest log location = (log.filterMap fun patch => patch location).getLast? := by
  induction log with
  | nil => rfl
  | cons patch later ih =>
      rw [latest_cons, ih, List.filterMap_cons]
      cases patch location with
      | none => simp
      | some content =>
          rw [List.getLast?_cons]
          cases (later.filterMap fun patch => patch location).getLast? <;> rfl

/-- Where all entries agree, the order of the log is irrelevant. -/
theorem latest_eq_of_perm_of_agree {first second : List (Patch K C)} {location : K}
    (permutation : first.Perm second)
    (agree : ∀ patch ∈ first, ∀ other ∈ first, ∀ content otherContent,
      patch location = some content → other location = some otherContent →
        content = otherContent) :
    latest first location = latest second location := by
  cases decided : latest first location with
  | none =>
      rw [latest_eq_none_iff] at decided
      exact (latest_eq_none_iff.mpr fun patch member =>
        decided patch (permutation.mem_iff.mpr member)).symm
  | some content =>
      rcases exists_mem_of_latest_eq_some decided with ⟨patch, member, touched⟩
      cases decidedSecond : latest second location with
      | none =>
          have untouched := latest_eq_none_iff.mp decidedSecond patch
            (permutation.mem_iff.mp member)
          rw [touched] at untouched
          contradiction
      | some otherContent =>
          obtain ⟨other, otherMember, otherTouched⟩ :=
            exists_mem_of_latest_eq_some decidedSecond
          rw [agree patch member other (permutation.mem_iff.mpr otherMember)
            content otherContent touched otherTouched]

/-! ## Patches of at most one location -/

/-- Leave a content at a location, if there is one. -/
def placing [DecidableEq K] (target : Option K) (content : C) : Patch K C :=
  fun location => if target = some location then some content else none

theorem placing_eq_some_iff [DecidableEq K] {target : Option K} {content other : C}
    {location : K} :
    placing target content location = some other ↔
      target = some location ∧ content = other := by
  by_cases here : target = some location <;> simp [placing, here]

theorem placing_apply [DecidableEq K] (target : Option K) (content : C) (state : K → C)
    (location : K) :
    (placing target content).apply state location =
      if target = some location then content else state location := by
  by_cases here : target = some location <;> simp [apply, placing, here]

/-- One content left at two targets comes to the same exactly when the targets
are one, or hold the content already. -/
theorem placing_apply_eq_iff [DecidableEq K] {first second : Option K} {content : C}
    {state : K → C} :
    (placing first content).apply state = (placing second content).apply state ↔
      first = second ∨
        ∀ location, first = some location ∨ second = some location →
          state location = content := by
  constructor
  · intro same
    by_cases equal : first = second
    · exact Or.inl equal
    · right
      intro location target
      have here := congrFun same location
      rw [placing_apply, placing_apply] at here
      rcases target with firstHere | secondHere
      · rw [if_pos firstHere, if_neg fun other => equal (firstHere.trans other.symm)] at here
        exact here.symm
      · rw [if_pos secondHere, if_neg fun other => equal (other.trans secondHere.symm)] at here
        exact here
  · rintro (rfl | held)
    · rfl
    · funext location
      rw [placing_apply, placing_apply]
      by_cases firstHere : first = some location
      · rw [held location (Or.inl firstHere), ite_self, ite_self]
      · by_cases secondHere : second = some location
        · rw [held location (Or.inr secondHere), ite_self, ite_self]
        · rw [if_neg firstHere, if_neg secondHere]

end Patch

end PushCache.Log
