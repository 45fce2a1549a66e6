import Mathlib.Data.List.Basic
import Mathlib.Data.List.Infix

/-!
# Glob patterns over bytes

A pattern is read byte by byte: `*` stands for any text, `?` for any byte, a class
in brackets for one of its bytes, or with `^` for one of the others, and a
backslash takes the special meaning from the byte after it.  A class without a
closing bracket ends with the pattern.
-/

namespace PushCache.Glob

/-- The bytes of a class: those in one of the ranges, or those in none. -/
structure ByteClass where
  negated : Bool
  ranges : List (UInt8 × UInt8)
  deriving DecidableEq

/-- The bounds of a range may come in either order. -/
def ByteClass.accepts (cls : ByteClass) (byte : UInt8) : Bool :=
  cls.negated ^^ cls.ranges.any fun range =>
    decide (range.1 ≤ byte ∧ byte ≤ range.2 ∨ range.2 ≤ byte ∧ byte ≤ range.1)

/-- The class with one more range. -/
def ByteClass.add (cls : ByteClass) (first last : UInt8) : ByteClass :=
  ⟨cls.negated, cls.ranges ++ [(first, last)]⟩

/-- The class of a single byte. -/
def ByteClass.literal (byte : UInt8) : ByteClass :=
  ⟨false, [(byte, byte)]⟩

/-- What a pattern consists of. -/
inductive Token where
  | star
  | one (cls : ByteClass)
  deriving DecidableEq

/-- Read a pattern; the first argument is the class that is open, if one is.  The
special bytes are `*` (42), `-` (45), `?` (63), `[` (91), the backslash (92), `]`
(93) and `^` (94). -/
def parse : Option ByteClass → List UInt8 → List Token
  | none, [] => []
  | none, 42 :: rest => .star :: parse none rest
  | none, 63 :: rest => .one ⟨true, []⟩ :: parse none rest
  | none, 91 :: 94 :: rest => parse (some ⟨true, []⟩) rest
  | none, 91 :: rest => parse (some ⟨false, []⟩) rest
  | none, 92 :: byte :: rest => .one (.literal byte) :: parse none rest
  | none, byte :: rest => .one (.literal byte) :: parse none rest
  | some cls, [] => [.one cls]
  | some cls, 92 :: byte :: rest => parse (some (cls.add byte byte)) rest
  | some cls, 93 :: rest => .one cls :: parse none rest
  | some cls, first :: 45 :: last :: rest => parse (some (cls.add first last)) rest
  | some cls, byte :: rest => parse (some (cls.add byte byte)) rest

/-- The text consists of what the tokens stand for, one after the other. -/
def matchTokens : List Token → List UInt8 → Bool
  | [], text => text.isEmpty
  | .star :: tokens, text => text.tails.any (matchTokens tokens)
  | .one _ :: _, [] => false
  | .one cls :: tokens, byte :: text => cls.accepts byte && matchTokens tokens text

/-- The text matches the pattern. -/
def Matches (pattern text : List UInt8) : Prop :=
  matchTokens (parse none pattern) text = true

instance (pattern text : List UInt8) : Decidable (Matches pattern text) :=
  inferInstanceAs (Decidable (_ = true))

/-! ## Stars and literals -/

theorem matchTokens_star_iff {tokens : List Token} {text : List UInt8} :
    matchTokens (.star :: tokens) text = true ↔
      ∃ front back, front ++ back = text ∧ matchTokens tokens back = true := by
  simp only [matchTokens, List.any_eq_true, List.mem_tails]
  constructor
  · rintro ⟨back, ⟨front, split⟩, rest⟩
    exact ⟨front, back, split, rest⟩
  · rintro ⟨front, back, split, rest⟩
    exact ⟨back, ⟨front, split⟩, rest⟩

/-- `*` matches every text. -/
theorem matches_star (text : List UInt8) : Matches [42] text :=
  matchTokens_star_iff.mpr ⟨text, [], List.append_nil text, rfl⟩

@[simp]
theorem accepts_literal (byte other : UInt8) :
    (ByteClass.literal byte).accepts other = decide (other = byte) := by
  simp only [ByteClass.accepts, ByteClass.literal, List.any_cons, List.any_nil, Bool.or_false,
    Bool.false_xor, or_self, decide_eq_decide]
  constructor
  · rintro ⟨above, below⟩
    exact UInt8.le_antisymm below above
  · rintro rfl
    exact ⟨UInt8.le_refl _, UInt8.le_refl _⟩

/-- The byte stands for itself in a pattern. -/
def Plain (byte : UInt8) : Prop :=
  byte ≠ 42 ∧ byte ≠ 63 ∧ byte ≠ 91 ∧ byte ≠ 92

instance (byte : UInt8) : Decidable (Plain byte) :=
  inferInstanceAs (Decidable (_ ∧ _))

theorem parse_plain {byte : UInt8} (plain : Plain byte) (rest : List UInt8) :
    parse none (byte :: rest) = .one (.literal byte) :: parse none rest := by
  rcases plain with ⟨notStar, notAny, notOpen, notEscape⟩
  rw [parse] <;> simp_all

/-- Plain bytes at the start of a pattern are the start of the text. -/
theorem matches_plain_append_iff {literal rest text : List UInt8}
    (plain : ∀ byte ∈ literal, Plain byte) :
    Matches (literal ++ rest) text ↔ ∃ tail, literal ++ tail = text ∧ Matches rest tail := by
  induction literal generalizing text with
  | nil => simp
  | cons byte literal ih =>
      rcases List.forall_mem_cons.mp plain with ⟨first, others⟩
      rw [Matches, List.cons_append, parse_plain first]
      cases text with
      | nil => simp [matchTokens]
      | cons head text =>
          simp only [matchTokens, accepts_literal, Bool.and_eq_true, decide_eq_true_eq,
            List.cons_append, List.cons.injEq]
          rw [← Matches, ih others]
          constructor
          · rintro ⟨rfl, tail, split, rest⟩
            exact ⟨tail, ⟨rfl, split⟩, rest⟩
          · rintro ⟨tail, ⟨rfl, split⟩, rest⟩
            exact ⟨rfl, tail, split, rest⟩

/-- Plain bytes and a star match the texts that start with them. -/
theorem matches_plain_star_iff {literal text : List UInt8}
    (plain : ∀ byte ∈ literal, Plain byte) :
    Matches (literal ++ [42]) text ↔ literal <+: text := by
  rw [matches_plain_append_iff plain]
  constructor
  · rintro ⟨tail, split, _⟩
    exact ⟨tail, split⟩
  · rintro ⟨tail, split⟩
    exact ⟨tail, split, matches_star tail⟩

end PushCache.Glob
