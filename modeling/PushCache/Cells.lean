import Mathlib.Data.Finmap

/-!
# Cells of keyed records

A family of finite maps, one for each cell, with the two writes on it: leaving a
record in a cell and erasing one.
-/

namespace PushCache.Cells

universe u v w

variable {C : Type u} {K : Type v} {V : Type w} [DecidableEq C] [DecidableEq K]

/-- Leave a record in a cell. -/
def put (contents : C → Finmap fun _ : K => V) (cell : C) (key : K) (value : V) :
    C → Finmap fun _ : K => V :=
  Function.update contents cell ((contents cell).insert key value)

/-- Erase a record from a cell. -/
def erase (contents : C → Finmap fun _ : K => V) (cell : C) (key : K) :
    C → Finmap fun _ : K => V :=
  Function.update contents cell ((contents cell).erase key)

theorem lookup_put (contents : C → Finmap fun _ : K => V) (cell : C) (key : K) (value : V)
    (location : C × K) :
    (put contents cell key value location.1).lookup location.2 =
      if location = (cell, key) then some value
      else (contents location.1).lookup location.2 := by
  rcases location with ⟨otherCell, otherKey⟩
  simp only [put, Prod.mk.injEq]
  by_cases sameCell : otherCell = cell
  · subst otherCell
    by_cases sameKey : otherKey = key
    · subst otherKey
      simp
    · simp [sameKey, Finmap.lookup_insert_of_ne]
  · simp [sameCell]

theorem lookup_erase (contents : C → Finmap fun _ : K => V) (cell : C) (key : K)
    (location : C × K) :
    (erase contents cell key location.1).lookup location.2 =
      if location = (cell, key) then none else (contents location.1).lookup location.2 := by
  rcases location with ⟨otherCell, otherKey⟩
  simp only [erase, Prod.mk.injEq]
  by_cases sameCell : otherCell = cell
  · subst otherCell
    by_cases sameKey : otherKey = key
    · subst otherKey
      simp
    · simp [sameKey, Finmap.lookup_erase_ne]
  · simp [sameCell]

/-- Erasing a record that is not there changes nothing. -/
theorem erase_of_absent {contents : C → Finmap fun _ : K => V} {cell : C} {key : K}
    (absent : (contents cell).lookup key = none) : erase contents cell key = contents := by
  have same : (contents cell).erase key = contents cell := by
    apply Finmap.ext_lookup
    intro other
    by_cases here : other = key
    · subst other
      rw [Finmap.lookup_erase, absent]
    · exact Finmap.lookup_erase_ne here
  rw [erase, same, Function.update_eq_self]

end PushCache.Cells
