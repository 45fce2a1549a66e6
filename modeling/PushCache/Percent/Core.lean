import Mathlib.Tactic.TypeStar

/-!
# Percent-encoding

A character is kept when it is ASCII and not reserved; any other is written as the
hexadecimal escapes of its UTF-8 bytes.  A text is its own encoding exactly when
every character is kept.
-/

namespace PushCache.Percent

variable {reserved : Char → Bool}

/-- The hexadecimal digit of a number below 16. -/
def hexDigit (digit : Nat) : Char :=
  "0123456789ABCDEF".toList.getD digit '0'

/-- The escape of a byte. -/
def escapeByte (byte : UInt8) : List Char :=
  ['%', hexDigit (byte.toNat / 16), hexDigit (byte.toNat % 16)]

/-- The character is written as it is. -/
def kept (reserved : Char → Bool) (char : Char) : Bool :=
  char.toNat < 128 && !reserved char

def encodeChar (reserved : Char → Bool) (char : Char) : List Char :=
  if kept reserved char then [char] else (String.utf8EncodeChar char).flatMap escapeByte

/-- The encoding of a text. -/
def encode (reserved : Char → Bool) (text : String) : String :=
  String.ofList (text.toList.flatMap (encodeChar reserved))

/-- Every character of the text is kept. -/
def Plain (reserved : Char → Bool) (text : String) : Prop :=
  ∀ char ∈ text.toList, kept reserved char = true

instance (text : String) : Decidable (Plain reserved text) :=
  List.decidableBAll (fun char => kept reserved char = true) text.toList

theorem encodeChar_of_kept {char : Char} (keeps : kept reserved char = true) :
    encodeChar reserved char = [char] := by
  rw [encodeChar, if_pos keeps]

/-- An escaped character takes more than one. -/
theorem length_encodeChar_of_not_kept {char : Char} (escaped : ¬kept reserved char = true) :
    1 < (encodeChar reserved char).length := by
  have nonempty : 0 < (String.utf8EncodeChar char).length := by
    rw [String.length_utf8EncodeChar]
    exact char.utf8Size_pos
  have escapes : ∀ byte, (escapeByte byte).length = 3 := fun byte => rfl
  rw [encodeChar, if_neg escaped, List.length_flatMap]
  simp only [escapes, List.map_const', List.sum_replicate_nat]
  omega

theorem length_encodeChar_pos (reserved : Char → Bool) (char : Char) :
    0 < (encodeChar reserved char).length := by
  by_cases keeps : kept reserved char = true
  · rw [encodeChar_of_kept keeps]
    exact Nat.one_pos
  · exact Nat.lt_trans Nat.one_pos (length_encodeChar_of_not_kept keeps)

theorem length_le_length_flatMap (reserved : Char → Bool) (chars : List Char) :
    chars.length ≤ (chars.flatMap (encodeChar reserved)).length := by
  induction chars with
  | nil => exact Nat.le_refl 0
  | cons char chars ih =>
      have := length_encodeChar_pos reserved char
      rw [List.flatMap_cons, List.length_append, List.length_cons]
      omega

theorem flatMap_encodeChar_eq_self_iff (chars : List Char) :
    chars.flatMap (encodeChar reserved) = chars ↔ ∀ char ∈ chars, kept reserved char = true := by
  induction chars with
  | nil => simp
  | cons char chars ih =>
      rw [List.forall_mem_cons, ← ih, List.flatMap_cons]
      by_cases keeps : kept reserved char = true
      · rw [encodeChar_of_kept keeps, List.singleton_append, List.cons_inj_right,
          and_iff_right keeps]
      · apply iff_of_false _ fun both => keeps both.1
        intro same
        have longer := congrArg List.length same
        have := length_encodeChar_of_not_kept keeps
        have := length_le_length_flatMap reserved chars
        rw [List.length_append, List.length_cons] at longer
        omega

/-- A text is its own encoding exactly when it is plain. -/
theorem encode_eq_self_iff (text : String) :
    encode reserved text = text ↔ Plain reserved text := by
  rw [encode, ← String.toList_inj, String.toList_ofList, flatMap_encodeChar_eq_self_iff, Plain]

theorem encode_empty (reserved : Char → Bool) : encode reserved "" = "" :=
  rfl

end PushCache.Percent
