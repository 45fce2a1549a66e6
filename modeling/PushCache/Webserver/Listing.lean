import Mathlib.Data.List.Sort
import Mathlib.Data.String.Basic
import PushCache.Listing.Pages
import PushCache.Webserver.Core

/-!
# Listing the keys of a store

`list_records` filters, sorts and pages what `keys()` answers.  Whatever the
store answers, there is one sorted list of the keys with the filter in them, and
every request gets a part of it: the listing from the offset on, up to the limit.
A client that walks the pages gets that list, nothing missing and nothing twice.
-/

namespace PushCache

open PushCache.Listing

/-- `Vec<T>`: a vector never holds more than `isize::MAX` elements. -/
structure Vec (α : Type*) where
  toList : List α
  bounded : toList.length < 2 ^ 63

/-- `ListUsersParams`; `usize` has 64 bits. -/
structure ListUsersParams where
  limit : Option UInt64
  offset : Option UInt64
  filter : Option String

/-- `str::contains`. -/
def contains (text pattern : String) : Bool :=
  decide (pattern.toList <:+: text.toList)

/-- `list_records`, given what `keys()` answers. -/
def listRecords (answer : Except MyError (Vec String)) (params : ListUsersParams) :
    Except MyError Response :=
  match answer with
  | .error error => .error error
  | .ok keys =>
      let keys :=
        match params.filter with
        | some filter => keys.toList.filter fun key => contains key filter
        | none => keys.toList
      let keys := keys.mergeSort
      let offset := params.offset.getD 0
      -- `usize::MAX`
      let limit := params.limit.getD (UInt64.ofNat (2 ^ 64 - 1))
      let pagedKeys := (keys.drop offset.toNat).take limit.toNat
      .ok ⟨200, [], .array (pagedKeys.map .string)⟩

/-- The key has the filter in it, if there is one. -/
def Selected (filter : Option String) (key : String) : Prop :=
  ∀ pattern, filter = some pattern → pattern.toList <:+: key.toList

instance (filter : Option String) (key : String) : Decidable (Selected filter key) :=
  match filter with
  | none => .isTrue fun _ given => by cases given
  | some pattern =>
      decidable_of_iff (pattern.toList <:+: key.toList)
        ⟨fun within other given => by cases given; exact within, fun all => all pattern rfl⟩

/-- The listing a request is answered from. -/
def listing (filter : Option String) (keys : List String) : List String :=
  (keys.filter fun key => Selected filter key).mergeSort

theorem listing_pairwise (filter : Option String) (keys : List String) :
    (listing filter keys).Pairwise (· ≤ ·) :=
  List.pairwise_mergeSort' (· ≤ ·) _

theorem listing_perm (filter : Option String) (keys : List String) :
    (listing filter keys).Perm (keys.filter fun key => Selected filter key) :=
  List.mergeSort_perm _ _

theorem length_listing_le (filter : Option String) (keys : List String) :
    (listing filter keys).length ≤ keys.length := by
  rw [(listing_perm filter keys).length_eq]
  exact List.length_filter_le _ _

/-- The part of the listing a request is answered with. -/
def pageOf (params : ListUsersParams) (keys : List String) : List String :=
  match params.limit with
  | some limit => page keys (params.offset.getD 0).toNat limit.toNat
  | none => keys.drop (params.offset.getD 0).toNat

/-- The answer to a request is its part of the listing. -/
theorem listRecords_eq (keys : Vec String) (params : ListUsersParams) :
    listRecords (.ok keys) params =
      .ok ⟨200, [], .array ((pageOf params (listing params.filter keys.toList)).map .string)⟩ := by
  have filtered : (match params.filter with
      | some filter => keys.toList.filter fun key => contains key filter
      | none => keys.toList) = keys.toList.filter fun key => Selected params.filter key := by
    cases params.filter with
    | none => simp [Selected]
    | some pattern => simp [Selected, contains]
  have short : (listing params.filter keys.toList).length ≤ 2 ^ 64 - 1 := by
    have bounded := keys.bounded
    have fewer := length_listing_le params.filter keys.toList
    omega
  simp only [listRecords, filtered, pageOf]
  cases params.limit with
  | some limit => rfl
  | none =>
      rw [← page_eq_drop (Nat.le_trans short (Nat.le_add_left _ _))]
      rfl

/-! ## Walking the pages -/

/-- The strings of a JSON array of strings. -/
def Json.strings : Json → Option (List String)
  | .array items => items.mapM fun item =>
      match item with
      | .string text => some text
      | _ => none
  | _ => none

theorem Json.strings_array (texts : List String) :
    (Json.array (texts.map .string)).strings = some texts := by
  rw [strings, List.mapM_map]
  induction texts with
  | nil => rfl
  | cons text texts ih => simp only [List.mapM_cons, ih]; rfl

/-- The page a client gets for an offset; it can only ask for offsets of type
`usize`. -/
def fetchPage (answer : Except MyError (Vec String)) (filter : Option String) (size : UInt64)
    (offset : Nat) : Option (List String) :=
  if offset < 2 ^ 64 then
    match listRecords answer ⟨some size, some (.ofNat offset), filter⟩ with
    | .ok response => response.body.strings
    | .error _ => none
  else
    none

theorem fetchPage_eq (keys : Vec String) (filter : Option String) (size : UInt64)
    {offset : Nat} (representable : offset < 2 ^ 64) :
    fetchPage (.ok keys) filter size offset =
      some (page (listing filter keys.toList) offset size.toNat) := by
  rw [fetchPage, if_pos representable, listRecords_eq]
  simp only [Json.strings_array, pageOf, Option.getD_some]
  rw [UInt64.toNat_ofNat_of_lt' representable]

/-- For every answer of `keys()` and every filter there is one sorted list of
the keys with the filter in them: every request is answered with its part of
the list, and for every page size the pages, taken until an empty one, are full
but for the last and tile the list. -/
theorem listRecords_tiles (keys : Vec String) (filter : Option String) :
    ∃ sorted : List String,
      sorted.Pairwise (· ≤ ·) ∧
        sorted.Perm (keys.toList.filter fun key => Selected filter key) ∧
        (∀ limit offset : Option UInt64, listRecords (.ok keys) ⟨limit, offset, filter⟩ =
          .ok ⟨200, [], .array ((pageOf ⟨limit, offset, filter⟩ sorted).map .string)⟩) ∧
        ∀ size : UInt64, 0 < size →
          ∃ pages, Walk (fetchPage (.ok keys) filter size) size.toNat 0 pages ∧
            pages.flatten = sorted ∧ ∀ full ∈ pages.dropLast, full.length = size.toNat := by
  refine ⟨listing filter keys.toList, listing_pairwise filter keys.toList,
    listing_perm filter keys.toList, ?_, ?_⟩
  · intro limit offset
    exact listRecords_eq keys ⟨limit, offset, filter⟩
  · intro size positive
    have answers : ∀ offset, offset ≤ size.toNat ∨
        offset < 2 * (listing filter keys.toList).length →
          fetchPage (.ok keys) filter size offset =
            some (page (listing filter keys.toList) offset size.toNat) := by
      intro offset asked
      apply fetchPage_eq
      have bounded := keys.bounded
      have fewer := length_listing_le filter keys.toList
      have small := size.toNat_lt
      omega
    exact exists_walk (UInt64.lt_iff_toNat_lt.mp positive) answers (Or.inl (Nat.zero_le _))
      (Or.inl rfl)

namespace Sample

/-- An answer of `keys()` that holds a key twice. -/
def listed : Vec String := ⟨["b", "a", "b"], by decide⟩

theorem listRecords_tiles_of_listed :
    ∃ pages, Walk (fetchPage (.ok listed) none 2) 2 0 pages ∧
      pages.flatten.Perm ["b", "a", "b"] := by
  rcases listRecords_tiles listed none with ⟨sorted, _, perm, _, tiled⟩
  rcases tiled 2 (by decide) with ⟨pages, walk, tiles, _⟩
  rw [← tiles] at perm
  exact ⟨pages, walk, perm⟩

end Sample

end PushCache
