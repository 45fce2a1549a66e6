import PushCache.Log.Patch

/-!
# Interleavings of a family of logs

An interleaving of the logs `logs i` is one list of items, each tagged with the
log it comes from, that contains every log in its own order.  Two interleavings
of one family are permutations of each other, and a last-write-wins log whose
locations are each touched from one source only has the same outcome in both.
-/

namespace PushCache.Log

universe u v w x

variable {ι : Type u} {α : Type v} [DecidableEq ι]

/-- `merged` contains each log of the family in its own order and nothing
else. -/
def IsInterleaving (logs : ι → List α) (merged : List (ι × α)) : Prop :=
  ∀ source, (merged.filter fun tagged => tagged.1 = source).map Prod.snd = logs source

variable {logs : ι → List α}

omit [DecidableEq ι] in
private theorem map_snd_pair (source : ι) (tagged : List (ι × α))
    (same : ∀ item ∈ tagged, item.1 = source) :
    (tagged.map Prod.snd).map (Prod.mk source) = tagged := by
  rw [List.map_map]
  conv_rhs => rw [← List.map_id tagged]
  apply List.map_congr_left
  intro item member
  exact Prod.ext (same item member).symm rfl

/-- The items of one source, in the order in which they are merged. -/
theorem IsInterleaving.filter_eq {merged : List (ι × α)}
    (interleaving : IsInterleaving logs merged) (source : ι) :
    (merged.filter fun tagged => tagged.1 = source) =
      (logs source).map (Prod.mk source) := by
  rw [← interleaving source, map_snd_pair]
  intro item member
  simpa using (List.mem_filter.mp member).2

theorem IsInterleaving.mem_iff {merged : List (ι × α)}
    (interleaving : IsInterleaving logs merged) (source : ι) (item : α) :
    (source, item) ∈ merged ↔ item ∈ logs source := by
  have filtered := congrArg (fun items => (source, item) ∈ items)
    (interleaving.filter_eq source)
  simpa using filtered

/-- Two interleavings of one family deliver the same items. -/
theorem IsInterleaving.perm {first second : List (ι × α)}
    (firstMerge : IsInterleaving logs first)
    (secondMerge : IsInterleaving logs second) : first.Perm second := by
  classical
  rw [List.perm_iff_count]
  intro tagged
  have counted : ∀ merged : List (ι × α), IsInterleaving logs merged →
      merged.count tagged = ((logs tagged.1).map (Prod.mk tagged.1)).count tagged := by
    intro merged interleaving
    rw [← interleaving.filter_eq tagged.1, List.count_filter]
    simp
  rw [counted first firstMerge, counted second secondMerge]

/-- Where a location is touched from one source only, the last write to it does
not depend on how the sources are interleaved. -/
theorem IsInterleaving.latest_eq {K : Type w} {C : Type x}
    {first second : List (ι × α)} (firstMerge : IsInterleaving logs first)
    (secondMerge : IsInterleaving logs second) (patch : α → Patch K C) {location : K}
    (owned : ∀ source other, ∀ item ∈ logs source, ∀ foreign ∈ logs other,
      patch item location ≠ none → patch foreign location ≠ none → source = other) :
    Patch.latest (first.map fun tagged => patch tagged.2) location =
      Patch.latest (second.map fun tagged => patch tagged.2) location := by
  by_cases used : ∃ source, ∃ item ∈ logs source, patch item location ≠ none
  · rcases used with ⟨source, item, itemMem, touched⟩
    have decided : ∀ merged : List (ι × α), IsInterleaving logs merged →
        Patch.latest (merged.map fun tagged => patch tagged.2) location =
          ((logs source).filterMap fun item => patch item location).getLast? := by
      intro merged interleaving
      rw [Patch.latest_eq_getLast?_filterMap, List.filterMap_map,
        ← interleaving source, List.filterMap_map, List.filterMap_filter]
      congr 1
      apply List.filterMap_congr
      intro tagged member
      by_cases same : tagged.1 = source
      · simp [same]
      · have foreign := (interleaving.mem_iff tagged.1 tagged.2).mp member
        have untouched : patch tagged.2 location = none := by
          by_contra touchedToo
          exact same (owned source tagged.1 item itemMem tagged.2 foreign touched
            touchedToo).symm
        simp [same, untouched]
    rw [decided first firstMerge, decided second secondMerge]
  · have silent : ∀ merged : List (ι × α), IsInterleaving logs merged →
        Patch.latest (merged.map fun tagged => patch tagged.2) location = none := by
      intro merged interleaving
      apply Patch.latest_map_eq_none_iff.mpr
      intro tagged member
      by_contra touched
      exact used ⟨tagged.1, tagged.2, (interleaving.mem_iff _ _).mp member, touched⟩
    rw [silent first firstMerge, silent second secondMerge]

end PushCache.Log
