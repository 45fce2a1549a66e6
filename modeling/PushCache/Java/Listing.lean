import PushCache.Java.CacheFactory
import PushCache.Webserver.Listing

/-!
# Listing the keys of a store in the Java service

`RecordHandler.listRecords` computes the end of a page as `offset + limit` in
`long` arithmetic, with `Long.MAX_VALUE` for an absent limit.  The sum wraps
around as soon as it reaches `2 ^ 63`, so a request with an offset and without a
limit gets an empty page.  The page is the right one exactly when the sum does
not wrap around or no key is left after the offset.
-/

namespace PushCache.Java

open PushCache.Listing

/-- `ArrayList<T>`: its size is an `int`. -/
structure ArrayList (α : Type*) where
  toList : List α
  bounded : toList.length < 2 ^ 31

/-- The query parameters `listRecords` reads. -/
structure ListRequest where
  filter : Option String
  limit : Option String
  offset : Option String

/-- The UTF-16 code units of a character. -/
def codeUnits (char : Char) : List Nat :=
  if char.toNat < 0x10000 then [char.toNat]
  else [0xD800 + (char.toNat - 0x10000) / 0x400, 0xDC00 + (char.toNat - 0x10000) % 0x400]

/-- `first.compareTo(second) <= 0`: strings are compared by their code units. -/
def compareToLe (first second : String) : Bool :=
  decide (first.toList.flatMap codeUnits ≤ second.toList.flatMap codeUnits)

/-- `keys.get((int) i)`, unless it throws. -/
def getAt (keys : List String) (i : Int64) : Option String :=
  if i.toInt32 < 0 then none else keys[i.toInt32.toInt.toNat]?

/-- The values of `i` in `for (long i = first; i < end; i++)`. -/
def longRange (first stop : Int64) : List Int64 :=
  (List.range (stop.toInt - first.toInt).toNat).map fun n => first + .ofNat n

/-- `param.map(Long::parseLong).orElse(absent)`, unless it throws. -/
def parseParam (parseLong : String → Option Int64) (param : Option String) (absent : Int64) :
    Option Int64 :=
  match param with
  | some text => parseLong text
  | none => some absent

/-- `RecordHandler.listRecords`, given what `getKeys()` emits. -/
def listRecords (parseLong : String → Option Int64)
    (answer : Except JavaException (ArrayList String)) (request : ListRequest) :
    Except JavaException Response :=
  match parseParam parseLong request.offset 0, parseParam parseLong request.limit .maxValue with
  | some offset, some limit =>
      match answer with
      | .error thrown => .error thrown
      | .ok keys =>
          let keys :=
            match request.filter with
            | some filter => keys.toList.filter fun key => contains key filter
            | none => keys.toList
          let keys := keys.mergeSort compareToLe
          let size := Int64.ofNat keys.length
          let stop := if offset + limit ≤ size then offset + limit else size
          if offset < size then
            match (longRange offset stop).mapM (getAt keys) with
            | some pagedKeys =>
                .ok ⟨200, [("Content-Type", "application/json")],
                  .array (pagedKeys.map .string)⟩
            | none => .error ⟨"Index out of bounds"⟩
          else
            .ok ⟨200, [("Content-Type", "application/json")], .array []⟩
  | _, _ => .ok ⟨400, [], .string "Invalid limit or offset"⟩

/-! ## The listing -/

theorem compareToLe_trans (first second third : String) (lower : compareToLe first second)
    (upper : compareToLe second third) : compareToLe first third := by
  rw [compareToLe, decide_eq_true_eq] at lower upper ⊢
  exact lower.trans upper

theorem compareToLe_total (first second : String) :
    (compareToLe first second || compareToLe second first) = true := by
  simp only [compareToLe, Bool.or_eq_true, decide_eq_true_eq]
  exact le_total _ _

/-- The listing a request is answered from. -/
def listing (filter : Option String) (keys : List String) : List String :=
  (keys.filter fun key => Selected filter key).mergeSort compareToLe

theorem listing_pairwise (filter : Option String) (keys : List String) :
    (listing filter keys).Pairwise fun first second => compareToLe first second :=
  List.pairwise_mergeSort compareToLe_trans compareToLe_total _

theorem listing_perm (filter : Option String) (keys : List String) :
    (listing filter keys).Perm (keys.filter fun key => Selected filter key) :=
  List.mergeSort_perm _ _

theorem listing_bounded (filter : Option String) (keys : ArrayList String) :
    (listing filter keys.toList).length < 2 ^ 31 := by
  rw [(listing_perm filter keys.toList).length_eq]
  exact Nat.lt_of_le_of_lt (List.length_filter_le _ _) keys.bounded

/-- The part of the listing a request asks for. -/
def pageOf (offset limit : Option Int64) (keys : List String) : List String :=
  match limit with
  | some limit => page keys (offset.getD 0).toInt.toNat limit.toInt.toNat
  | none => keys.drop (offset.getD 0).toInt.toNat

/-! ## The page -/

section Page

variable {parseLong : String → Option Int64} {keys : ArrayList String} {request : ListRequest}
  {offset limit : Option Int64}

/-- Without a wrap-around, the sum of two `long`s is their sum. -/
theorem toInt_add_of_lt {first second : Int64} (firstNonnegative : 0 ≤ first.toInt)
    (secondNonnegative : 0 ≤ second.toInt) (fits : first.toInt + second.toInt < 2 ^ 63) :
    (first + second).toInt = first.toInt + second.toInt := by
  rw [Int64.toInt_add, Int.bmod_eq_of_le]
  · omega
  · omega

/-- A sum that wraps around is negative. -/
theorem toInt_add_of_le {first second : Int64}
    (wraps : 2 ^ 63 ≤ first.toInt + second.toInt) : (first + second).toInt < 0 := by
  have firstBound := first.toInt_lt
  have secondBound := second.toInt_lt
  rw [Int64.toInt_add, Int.bmod_eq_emod]
  split <;> omega

theorem getAt_longRange {sorted : List String} (bounded : sorted.length < 2 ^ 31)
    {first : Int64} (nonnegative : 0 ≤ first.toInt) {n : Nat}
    (within : first.toInt + n < sorted.length) :
    getAt sorted (first + .ofNat n) = sorted[first.toInt.toNat + n]? := by
  have small : (Int64.ofNat n).toInt = n := Int64.toInt_ofNat_of_lt (by omega)
  have index : (first + .ofNat n).toInt32.toInt = first.toInt + n := by
    rw [Int64.toInt_toInt32, toInt_add_of_lt nonnegative (by omega) (by omega), small,
      Int.bmod_eq_of_le]
    · omega
    · omega
  have inside : ¬(first + .ofNat n).toInt32 < 0 := by
    rw [Int32.lt_iff_toInt_lt, index, Int32.toInt_zero]
    omega
  rw [getAt, if_neg inside, index]
  congr 1
  omega

/-- The loop reads a stretch of the listing. -/
theorem mapM_getAt_longRange {sorted : List String} (bounded : sorted.length < 2 ^ 31)
    {first stop : Int64} (nonnegative : 0 ≤ first.toInt) (within : stop.toInt ≤ sorted.length) :
    (longRange first stop).mapM (getAt sorted) =
      some (page sorted first.toInt.toNat (stop.toInt - first.toInt).toNat) := by
  have stretch : ∀ n : Nat, n ≤ (stop.toInt - first.toInt).toNat →
      (List.range n).mapM (getAt sorted ∘ fun n => first + .ofNat n) =
        some (page sorted first.toInt.toNat n) := by
    intro n
    induction n with
    | zero =>
        intro _
        simp [page]
    | succ n ih =>
        intro inside
        have here : first.toInt.toNat + n < sorted.length := by omega
        have read := getAt_longRange bounded nonnegative (n := n) (by omega)
        rw [List.getElem?_eq_getElem here] at read
        rw [List.range_succ, List.mapM_append, ih (by omega), List.mapM_cons,
          List.mapM_nil, Function.comp_apply, read, page, page, List.take_add_one,
          List.getElem?_drop, List.getElem?_eq_getElem here]
        rfl
  rw [longRange, List.mapM_map]
  exact stretch _ (Nat.le_refl _)

/-- The answer of the handler. -/
def answered (keys : List String) : Except JavaException Response :=
  .ok ⟨200, [("Content-Type", "application/json")], .array (keys.map .string)⟩

theorem answered_inj {first second : List String} :
    answered first = answered second ↔ first = second := by
  constructor
  · intro same
    simp only [answered, Except.ok.injEq, Response.mk.injEq, Json.array.injEq, true_and] at same
    exact List.map_injective_iff.mpr (fun _ _ equal => Json.string.inj equal) same
  · rintro rfl
    rfl

/-- The parameters of the request are absent or denote the values. -/
def ListRequest.Denotes (parseLong : String → Option Int64) (request : ListRequest)
    (offset limit : Option Int64) : Prop :=
  request.offset.map parseLong = offset.map some ∧ request.limit.map parseLong = limit.map some

theorem parseParam_eq {param : Option String} {value : Option Int64}
    (denotes : param.map parseLong = value.map some) (absent : Int64) :
    parseParam parseLong param absent = some (value.getD absent) := by
  cases param with
  | none =>
      cases value with
      | none => rfl
      | some value => cases denotes
  | some text =>
      cases value with
      | none => cases denotes
      | some value => exact Option.some.inj denotes

/-- The handler on the listing it pages. -/
theorem listRecords_eq (denotes : request.Denotes parseLong offset limit) :
    listRecords parseLong (.ok keys) request =
      let sorted := listing request.filter keys.toList
      let first := offset.getD 0
      let sum := first + limit.getD .maxValue
      let size := Int64.ofNat sorted.length
      if first < size then
        match (longRange first (if sum ≤ size then sum else size)).mapM (getAt sorted) with
        | some pagedKeys => answered pagedKeys
        | none => .error ⟨"Index out of bounds"⟩
      else
        answered [] := by
  have filtered : (match request.filter with
      | some filter => keys.toList.filter fun key => contains key filter
      | none => keys.toList) = keys.toList.filter fun key => Selected request.filter key := by
    cases request.filter with
    | none => simp [Selected]
    | some pattern => simp [Selected, contains]
  simp only [listRecords, parseParam_eq denotes.1, parseParam_eq denotes.2, filtered]
  rfl

/-- The `int` size of the listing, as a `long`. -/
theorem toInt_size (filter : Option String) (keys : ArrayList String) :
    (Int64.ofNat (listing filter keys.toList).length).toInt =
      (listing filter keys.toList).length := by
  have bounded := listing_bounded filter keys
  exact Int64.toInt_ofNat_of_lt (by omega)

/-- An absent limit asks for as many keys as there can be. -/
theorem pageOf_eq (offset limit : Option Int64) {sorted : List String}
    (bounded : sorted.length < 2 ^ 31) :
    pageOf offset limit sorted =
      page sorted (offset.getD 0).toInt.toNat (limit.getD .maxValue).toInt.toNat := by
  cases limit with
  | some limit => rfl
  | none =>
      rw [pageOf, page_eq_drop]
      have max : (Option.getD none Int64.maxValue).toInt.toNat = 2 ^ 63 - 1 := rfl
      omega

/-- While the sum fits, the answer is the page. -/
theorem listRecords_of_fits (denotes : request.Denotes parseLong offset limit)
    (offsetNonnegative : 0 ≤ (offset.getD 0).toInt)
    (limitNonnegative : 0 ≤ (limit.getD .maxValue).toInt)
    (fits : (offset.getD 0).toInt + (limit.getD .maxValue).toInt < 2 ^ 63) :
    listRecords parseLong (.ok keys) request =
      answered (pageOf offset limit (listing request.filter keys.toList)) := by
  have bounded := listing_bounded request.filter keys
  have size := toInt_size request.filter keys
  have sum := toInt_add_of_lt offsetNonnegative limitNonnegative fits
  rw [listRecords_eq denotes, pageOf_eq offset limit bounded, ← page_min]
  simp only [Int64.lt_iff_toInt_lt, Int64.le_iff_toInt_le, size, sum]
  by_cases inside : (offset.getD 0).toInt < (listing request.filter keys.toList).length
  · rw [if_pos inside]
    by_cases short : (offset.getD 0).toInt + (limit.getD .maxValue).toInt ≤
        (listing request.filter keys.toList).length
    · rw [if_pos short, mapM_getAt_longRange bounded offsetNonnegative (by omega), sum]
      simp only
      congr 2
      omega
    · rw [if_neg short, mapM_getAt_longRange bounded offsetNonnegative (by omega), size]
      simp only
      congr 2
      omega
  · rw [if_neg inside]
    congr 1
    apply Eq.symm
    apply page_eq_nil_iff.mpr
    omega

/-- Once the sum wraps around, the answer is empty. -/
theorem listRecords_of_wraps (denotes : request.Denotes parseLong offset limit)
    (offsetNonnegative : 0 ≤ (offset.getD 0).toInt)
    (wraps : 2 ^ 63 ≤ (offset.getD 0).toInt + (limit.getD .maxValue).toInt) :
    listRecords parseLong (.ok keys) request = answered [] := by
  have bounded := listing_bounded request.filter keys
  have negative := toInt_add_of_le wraps
  have size := toInt_size request.filter keys
  rw [listRecords_eq denotes]
  simp only
  split
  · have short : offset.getD 0 + limit.getD .maxValue ≤
        .ofNat (listing request.filter keys.toList).length := by
      rw [Int64.le_iff_toInt_le, size]
      omega
    rw [if_pos short, mapM_getAt_longRange bounded offsetNonnegative (by omega)]
    simp only
    rw [page_eq_nil_iff.mpr (Or.inl (by omega))]
  · rfl

/-- For every request with a nonnegative offset and limit there is one sorted
list of the keys with the filter in them; the answer is the part of it the
request asks for exactly when `offset + limit` stays below `2 ^ 63`, where an
absent limit counts as `2 ^ 63 - 1`, or no key is left after the offset. -/
theorem listRecords_exact_iff (parseLong : String → Option Int64) (keys : ArrayList String)
    (request : ListRequest) (offset limit : Option Int64)
    (denotes : request.Denotes parseLong offset limit)
    (offsetNonnegative : 0 ≤ (offset.getD 0).toInt)
    (limitNonnegative : 0 ≤ (limit.getD .maxValue).toInt) :
    ∃ sorted : List String,
      (sorted.Pairwise fun first second => compareToLe first second) ∧
        sorted.Perm (keys.toList.filter fun key => Selected request.filter key) ∧
        (listRecords parseLong (.ok keys) request = answered (pageOf offset limit sorted) ↔
          (offset.getD 0).toInt + (limit.getD .maxValue).toInt < 2 ^ 63 ∨
            (keys.toList.filter fun key => Selected request.filter key).length ≤
              (offset.getD 0).toInt) := by
  have bounded := listing_bounded request.filter keys
  refine ⟨listing request.filter keys.toList, listing_pairwise _ _, listing_perm _ _, ?_⟩
  rw [← (listing_perm request.filter keys.toList).length_eq]
  by_cases fits : (offset.getD 0).toInt + (limit.getD .maxValue).toInt < 2 ^ 63
  · exact iff_of_true (listRecords_of_fits denotes offsetNonnegative limitNonnegative fits)
      (Or.inl fits)
  · have wraps := not_lt.mp fits
    rw [listRecords_of_wraps denotes offsetNonnegative wraps, pageOf_eq offset limit bounded,
      answered_inj, eq_comm, page_eq_nil_iff]
    have limitPositive : (limit.getD .maxValue).toInt.toNat ≠ 0 := by
      have offsetBound := (offset.getD 0).toInt_lt
      omega
    constructor
    · rintro (zero | beyond)
      · exact absurd zero limitPositive
      · right
        omega
    · rintro (short | beyond)
      · exact absurd short fits
      · right
        omega

end Page

end PushCache.Java

namespace PushCache.Sample

/-- `Long::parseLong`, as far as the samples need it. -/
def parseDigit (text : String) : Option Int64 :=
  if text = "1" then some 1 else none

def twoKeys : Java.ArrayList String := ⟨["a", "b"], by decide⟩

theorem listRecords_exact_of_second :
    ∃ sorted : List String, sorted.Perm ["a", "b"] ∧
      Java.listRecords parseDigit (.ok twoKeys) ⟨none, some "1", some "1"⟩ =
        Java.answered (Java.pageOf (some 1) (some 1) sorted) := by
  rcases Java.listRecords_exact_iff parseDigit twoKeys ⟨none, some "1", some "1"⟩ (some 1)
    (some 1) ⟨rfl, rfl⟩ (by decide) (by decide) with ⟨sorted, _, perm, same⟩
  exact ⟨sorted, perm, same.mpr (Or.inl (by decide))⟩

/-- With an offset of one and no limit, the second of two keys is missing. -/
theorem listRecords_loses_rest :
    ¬∀ (parseLong : String → Option Int64) (keys : Java.ArrayList String)
        (request : Java.ListRequest) (offset limit : Option Int64),
      request.Denotes parseLong offset limit → 0 ≤ (offset.getD 0).toInt →
        0 ≤ (limit.getD .maxValue).toInt →
          ∃ sorted : List String,
            (sorted.Pairwise fun first second => Java.compareToLe first second) ∧
              sorted.Perm (keys.toList.filter fun key => Selected request.filter key) ∧
              Java.listRecords parseLong (.ok keys) request =
                Java.answered (Java.pageOf offset limit sorted) := by
  intro always
  have denotes : Java.ListRequest.Denotes parseDigit ⟨none, none, some "1"⟩ (some 1) none :=
    ⟨rfl, rfl⟩
  rcases always parseDigit twoKeys _ _ _ denotes (by decide) (by decide) with
    ⟨sorted, _, perm, same⟩
  rw [Java.listRecords_of_wraps denotes (by decide) (by decide), Java.answered_inj] at same
  have two : sorted.length = 2 := perm.length_eq
  have gone : (Java.pageOf (some 1) none sorted).length = 0 := by
    rw [← same, List.length_nil]
  rw [Java.pageOf, List.length_drop, two] at gone
  cases gone

end PushCache.Sample
