/-!
# Coverage of a stretch of a log

Of the offsets in a stretch some are needed, because a record stands there, and
some are done.  The stretch is covered when every needed offset is done.
-/

namespace PushCache.Log

/-- Every needed offset from `first` up to `last` is done. -/
def Covered (needed done : Nat → Prop) (first last : Nat) : Prop :=
  ∀ offset, first ≤ offset → offset < last → needed offset → done offset

namespace Covered

variable {needed done : Nat → Prop} {first middle last : Nat}

theorem of_le (empty : last ≤ first) : Covered needed done first last := by
  intro offset lower upper _
  omega

/-- More may be done, and less needed. -/
theorem mono {fewer more : Nat → Prop} (covered : Covered needed done first last)
    (less : ∀ offset, offset < last → fewer offset → needed offset)
    (grown : ∀ offset, done offset → more offset) : Covered fewer more first last :=
  fun offset lower upper need =>
    grown offset (covered offset lower upper (less offset upper need))

/-- More may be done. -/
theorem grow {more : Nat → Prop} (covered : Covered needed done first last)
    (grown : ∀ offset, done offset → more offset) : Covered needed more first last :=
  covered.mono (fun _ _ need => need) grown

/-- Two stretches one after the other. -/
theorem append (lower : Covered needed done first middle)
    (upper : Covered needed done middle last) : Covered needed done first last := by
  intro offset above below need
  by_cases early : offset < middle
  · exact lower offset above early need
  · exact upper offset (Nat.le_of_not_lt early) below need

/-- The next offset is done, if it is needed. -/
theorem succ (covered : Covered needed done first last)
    (next : needed last → done last) : Covered needed done first (last + 1) := by
  apply covered.append
  intro offset above below need
  obtain rfl : offset = last := by omega
  exact next need

/-- A shorter stretch. -/
theorem restrict {later earlier : Nat} (covered : Covered needed done first last)
    (lower : first ≤ later) (upper : earlier ≤ last) : Covered needed done later earlier :=
  fun offset above below need =>
    covered offset (Nat.le_trans lower above) (Nat.lt_of_lt_of_le below upper) need

end Covered

end PushCache.Log
