import Mathlib.Data.List.Basic

/-!
# Pages of a list

A page is what a list holds from an offset on, up to a limit.  A client that
walks the pages asks for one page after the other until it gets an empty one;
the pages it has seen by then tile the list.
-/

namespace PushCache.Listing

universe u

variable {α : Type u}

/-- The page of a list at an offset. -/
def page (items : List α) (offset limit : Nat) : List α :=
  (items.drop offset).take limit

@[simp]
theorem page_eq_nil_iff {items : List α} {offset limit : Nat} :
    page items offset limit = [] ↔ limit = 0 ∨ items.length ≤ offset := by
  simp [page, List.take_eq_nil_iff]

/-- A page is full unless the list ends on it. -/
theorem length_page_of_le {items : List α} {offset limit : Nat}
    (inside : offset + limit ≤ items.length) : (page items offset limit).length = limit := by
  rw [page, List.length_take, List.length_drop]
  omega

/-- A page and what comes after it. -/
theorem page_append_drop (items : List α) (offset limit : Nat) :
    page items offset limit ++ items.drop (offset + limit) = items.drop offset := by
  rw [page, ← List.drop_drop, List.take_append_drop]

/-- A limit that reaches the end of the list is no limit. -/
theorem page_eq_drop {items : List α} {offset limit : Nat}
    (long : items.length ≤ offset + limit) : page items offset limit = items.drop offset := by
  rw [page, List.take_of_length_le]
  rw [List.length_drop]
  omega

/-- A page does not reach beyond the end of the list. -/
theorem page_min (items : List α) (offset limit : Nat) :
    page items offset (min limit (items.length - offset)) = page items offset limit := by
  rw [page, page, ← List.length_drop, ← List.take_eq_take_min]

/-- The pages a client sees that starts at an offset and asks for the next page
until it gets an empty one.  Where `fetch` has no answer, the client is stuck. -/
inductive Walk (fetch : Nat → Option (List α)) (size : Nat) : Nat → List (List α) → Prop where
  | done {offset : Nat} : fetch offset = some [] → Walk fetch size offset []
  | next {offset : Nat} {first : List α} {pages : List (List α)} :
      fetch offset = some first → first ≠ [] → Walk fetch size (offset + size) pages →
        Walk fetch size offset (first :: pages)

/-- A client sees one sequence of pages only. -/
theorem Walk.unique {fetch : Nat → Option (List α)} {size offset : Nat}
    {pages others : List (List α)} (walk : Walk fetch size offset pages)
    (other : Walk fetch size offset others) : pages = others := by
  induction walk generalizing others with
  | done fetched =>
      cases other with
      | done => rfl
      | next again nonempty => exact absurd (Option.some.inj (again.symm.trans fetched)) nonempty
  | next fetched nonempty _ ih =>
      cases other with
      | done again => exact absurd (Option.some.inj (fetched.symm.trans again)) nonempty
      | next again _ rest =>
          rw [Option.some.inj (fetched.symm.trans again), ih rest]

/-- Where the server answers with pages of a list, the walk ends, its pages tile
the list, and all but the last are full.  The client asks for no offset beyond
the first page that is at least twice the length of the list. -/
theorem exists_walk {items : List α} {size : Nat} {fetch : Nat → Option (List α)}
    (positive : 0 < size) (answers : ∀ offset, offset ≤ size ∨ offset < 2 * items.length →
      fetch offset = some (page items offset size))
    {offset : Nat} (asked : offset ≤ size ∨ offset < 2 * items.length)
    (started : offset = 0 ∨ size ≤ offset) :
    ∃ pages, Walk fetch size offset pages ∧ pages.flatten = items.drop offset ∧
      ∀ full ∈ pages.dropLast, full.length = size := by
  have fetched := answers offset asked
  by_cases beyond : items.length ≤ offset
  · have empty : page items offset size = [] := page_eq_nil_iff.mpr (Or.inr beyond)
    rw [empty] at fetched
    refine ⟨[], .done fetched, ?_, fun full member => by cases member⟩
    rw [List.flatten_nil, List.drop_eq_nil_of_le beyond]
  · have nonempty : page items offset size ≠ [] := by
      rw [Ne, page_eq_nil_iff]
      omega
    have askedNext : offset + size ≤ size ∨ offset + size < 2 * items.length := by omega
    have startedNext : offset + size = 0 ∨ size ≤ offset + size := by omega
    rcases exists_walk positive answers askedNext startedNext with ⟨pages, walk, tiles, full⟩
    refine ⟨page items offset size :: pages, .next fetched nonempty walk, ?_, ?_⟩
    · rw [List.flatten_cons, tiles, page_append_drop]
    · intro other member
      cases walk with
      | done _ => cases member
      | next again nonemptyNext rest =>
          rcases List.mem_cons.mp member with rfl | older
          · apply length_page_of_le
            rw [answers _ askedNext] at again
            cases again
            rw [Ne, page_eq_nil_iff] at nonemptyNext
            omega
          · exact full other older
termination_by items.length - offset

end PushCache.Listing
