import Mathlib.Tactic.TypeStar
import Mathlib.Tactic.Tauto
import Mathlib.Tactic.ByContra

/-!
# Pieces between separators

A path over any alphabet is read as the non-empty pieces between its separators.
The file says when the pieces of a concatenation are those of its parts, and what
a single pass that replaces pairs of separators does: it keeps the pieces, and it
leaves a pair exactly where there were three separators in a row.
-/

namespace PushCache.Paths

universe u

variable {α : Type u} {sep : α} {first second path : List α}

/-- Two separators in a row. -/
def HasPair (sep : α) (path : List α) : Prop :=
  [sep, sep] <:+: path

/-- Three separators in a row. -/
def HasTriple (sep : α) (path : List α) : Prop :=
  [sep, sep, sep] <:+: path

theorem hasPair_cons_iff (char : α) :
    HasPair sep (char :: path) ↔ (char = sep ∧ path.head? = some sep) ∨ HasPair sep path := by
  rw [HasPair, List.infix_cons_iff, List.cons_prefix_cons, List.singleton_prefix_iff_head?_eq_some,
    eq_comm (a := sep)]
  rfl

/-- Three separators in a row with more behind them than one separator. -/
def HasInnerTriple (sep : α) (path : List α) : Prop :=
  ∃ before after, path = before ++ sep :: sep :: sep :: after ∧ after ≠ [] ∧ after ≠ [sep]

theorem hasTriple_cons_iff (char : α) :
    HasTriple sep (char :: path) ↔
      (char = sep ∧ [sep, sep] <+: path) ∨ HasTriple sep path := by
  rw [HasTriple, List.infix_cons_iff, List.cons_prefix_cons, eq_comm (a := sep)]
  rfl

theorem hasInnerTriple_cons_iff (char : α) :
    HasInnerTriple sep (char :: path) ↔
      (char = sep ∧ ∃ after, path = sep :: sep :: after ∧ after ≠ [] ∧ after ≠ [sep]) ∨
        HasInnerTriple sep path := by
  constructor
  · rintro ⟨before, after, split, more⟩
    rcases before with _ | ⟨_, before⟩
    · cases split
      exact Or.inl ⟨rfl, after, rfl, more⟩
    · cases split
      exact Or.inr ⟨before, after, rfl, more⟩
  · rintro (⟨rfl, after, rfl, more⟩ | ⟨before, after, rfl, more⟩)
    · exact ⟨[], after, rfl, more⟩
    · exact ⟨char :: before, after, rfl, more⟩

theorem not_hasInnerTriple_nil : ¬HasInnerTriple sep [] := by
  rintro ⟨_ | _, after, split, _⟩ <;> cases split

theorem not_hasPair_nil : ¬HasPair sep [] := by
  simp [HasPair]

variable [DecidableEq α]

/-- The non-empty pieces between separators. -/
def pieces (sep : α) (path : List α) : List (List α) :=
  (path.splitOn sep).filter (· ≠ [])

/-- Replace every pair of separators by one, from left to right and once. -/
def replacePairs (sep : α) : List α → List α
  | [] => []
  | [char] => [char]
  | char :: next :: rest =>
      if char = sep ∧ next = sep then sep :: replacePairs sep rest
      else char :: replacePairs sep (next :: rest)

/-- A separator in front, unless there is one. -/
def ensureLeading (sep : α) (path : List α) : List α :=
  if path.head? = some sep then path else sep :: path

/-- One separator less at the end, if there is one. -/
def dropTrailing (sep : α) (path : List α) : List α :=
  if path.getLast? = some sep then path.dropLast else path

/-- One separator less at the end, unless that is the whole path. -/
def trimEnd (sep : α) (path : List α) : List α :=
  if 1 < path.length ∧ path.getLast? = some sep then path.dropLast else path

/-! ## Pieces -/

/-- Pieces split at a separator. -/
theorem pieces_append_sep (sep : α) (first second : List α) :
    pieces sep (first ++ sep :: second) = pieces sep first ++ pieces sep second := by
  rw [pieces, List.splitOn_append_cons_self, List.filter_append]
  rfl

@[simp]
theorem pieces_nil (sep : α) : pieces sep [] = [] :=
  rfl

theorem pieces_sep_cons (sep : α) (path : List α) : pieces sep (sep :: path) = pieces sep path :=
  pieces_append_sep sep [] path

theorem pieces_concat_sep (sep : α) (path : List α) :
    pieces sep (path ++ [sep]) = pieces sep path := by
  rw [pieces_append_sep, pieces_nil, List.append_nil]

/-- A path that is empty or starts with a separator. -/
def StartsClosed (sep : α) (path : List α) : Prop :=
  path = [] ∨ path.head? = some sep

/-- A path that is empty or ends with a separator. -/
def EndsClosed (sep : α) (path : List α) : Prop :=
  path = [] ∨ path.getLast? = some sep

theorem splitOn_cons_of_ne {char : α} (ne : char ≠ sep) (path : List α) :
    (char :: path).splitOn sep = (path.splitOn sep).modifyHead (char :: ·) := by
  rw [List.splitOn_cons_eq_if_modifyHead, if_neg (by simpa using ne)]

/-- In front of a closed start a character is a piece of its own. -/
theorem pieces_cons_of_closed {char : α} (ne : char ≠ sep) (closed : StartsClosed sep path) :
    pieces sep (char :: path) = [char] :: pieces sep path := by
  rw [pieces, splitOn_cons_of_ne ne]
  rcases path with _ | ⟨next, rest⟩
  · simp
  · rcases closed with empty | head
    · cases empty
    · obtain rfl : next = sep := Option.some.inj head
      rw [pieces, List.splitOn_cons_eq_if_modifyHead, if_pos (beq_self_eq_true next)]
      simp

/-- Otherwise it joins the first piece. -/
theorem pieces_cons_of_not_closed {char : α} (ne : char ≠ sep) (open_ : ¬StartsClosed sep path) :
    pieces sep (char :: path) = (pieces sep path).modifyHead (char :: ·) := by
  rcases path with _ | ⟨next, rest⟩
  · exact absurd (Or.inl rfl) open_
  · have other : next ≠ sep := fun same => open_ (Or.inr (congrArg some same))
    rw [pieces, splitOn_cons_of_ne ne, pieces, splitOn_cons_of_ne other]
    cases rest.splitOn sep with
    | nil => rfl
    | cons piece pieces => simp

/-- Pieces in front of a closed start, or behind a closed end, are not touched. -/
theorem pieces_append_of_closed (closed : EndsClosed sep first ∨ StartsClosed sep second) :
    pieces sep (first ++ second) = pieces sep first ++ pieces sep second := by
  rcases closed with (rfl | last) | (rfl | head)
  · rfl
  · obtain ⟨start, rfl⟩ := List.getLast?_eq_some_iff.mp last
    rw [List.append_assoc, List.singleton_append, pieces_append_sep, pieces_concat_sep]
  · rw [List.append_nil, pieces_nil, List.append_nil]
  · obtain ⟨rest, rfl⟩ := List.head?_eq_some_iff.mp head
    rw [pieces_append_sep, pieces_sep_cons]

/-- Otherwise two pieces become one. -/
theorem length_pieces_append (last : ¬EndsClosed sep first) (head : ¬StartsClosed sep second) :
    (pieces sep (first ++ second)).length + 1 =
      (pieces sep first).length + (pieces sep second).length := by
  induction first with
  | nil => exact absurd (Or.inl rfl) last
  | cons char first ih =>
      rcases first with _ | ⟨next, first⟩
      · have ne : char ≠ sep := fun same => last (Or.inr (congrArg some same))
        rw [List.singleton_append, pieces_cons_of_not_closed ne head,
          pieces_cons_of_closed ne (Or.inl rfl), List.length_modifyHead, pieces_nil,
          List.length_singleton, Nat.add_comm]
      · have rest := ih fun closed => last (Or.inr (by
          rcases closed with empty | closed
          · cases empty
          · rw [List.getLast?_cons_cons, closed]))
        by_cases same : char = sep
        · subst same
          rwa [List.cons_append, pieces_sep_cons, pieces_sep_cons]
        · by_cases closed : next = sep
          · have starts : ∀ others, StartsClosed sep (next :: others) :=
              fun others => Or.inr (congrArg some closed)
            rw [List.cons_append, List.cons_append, pieces_cons_of_closed same (starts _),
              pieces_cons_of_closed same (starts _), List.length_cons, List.length_cons,
              ← List.cons_append]
            omega
          · have starts : ∀ others, ¬StartsClosed sep (next :: others) := by
              rintro others (empty | head)
              · cases empty
              · exact closed (Option.some.inj head)
            rw [List.cons_append, List.cons_append, pieces_cons_of_not_closed same (starts _),
              pieces_cons_of_not_closed same (starts _), List.length_modifyHead,
              List.length_modifyHead, ← List.cons_append, rest]

/-- A concatenation has the pieces of its parts exactly when no piece of the first runs
into a piece of the second. -/
theorem pieces_append_iff :
    pieces sep (first ++ second) = pieces sep first ++ pieces sep second ↔
      EndsClosed sep first ∨ StartsClosed sep second := by
  constructor
  · intro equal
    by_contra open_
    rw [not_or] at open_
    have counted := length_pieces_append open_.1 open_.2
    rw [equal, List.length_append] at counted
    omega
  · exact pieces_append_of_closed

/-! ## Replacing pairs -/

theorem replacePairs_head? (sep : α) (path : List α) :
    (replacePairs sep path).head? = path.head? := by
  fun_cases replacePairs sep path with
  | case1 => rfl
  | case2 => rfl
  | case3 first next rest both => rw [both.1]; rfl
  | case4 => rfl

theorem replacePairs_eq_nil (sep : α) (path : List α) :
    replacePairs sep path = [] ↔ path = [] := by
  rw [← List.head?_eq_none_iff, replacePairs_head?, List.head?_eq_none_iff]

/-- Replacing pairs keeps the pieces. -/
theorem pieces_replacePairs (sep : α) (path : List α) :
    pieces sep (replacePairs sep path) = pieces sep path := by
  fun_induction replacePairs sep path with
  | case1 => rfl
  | case2 => rfl
  | case3 first next rest both ih =>
      rcases both with ⟨rfl, rfl⟩
      simp only [pieces_sep_cons, ih]
  | case4 first next rest both ih =>
      have closed : StartsClosed sep (replacePairs sep (next :: rest)) ↔
          StartsClosed sep (next :: rest) := by
        rw [StartsClosed, replacePairs_head?, replacePairs_eq_nil, StartsClosed]
      by_cases same : first = sep
      · subst same
        rw [pieces_sep_cons, pieces_sep_cons, ih]
      · by_cases starts : StartsClosed sep (next :: rest)
        · rw [pieces_cons_of_closed same starts, pieces_cons_of_closed same (closed.mpr starts), ih]
        · rw [pieces_cons_of_not_closed same starts,
            pieces_cons_of_not_closed same (mt closed.mp starts), ih]

/-- One pass leaves a pair exactly where there were three separators in a row. -/
theorem hasPair_replacePairs_iff (path : List α) :
    HasPair sep (replacePairs sep path) ↔ HasTriple sep path := by
  fun_induction replacePairs sep path with
  | case1 => exact iff_of_false (by simp [HasPair]) (by simp [HasTriple])
  | case2 char =>
      rw [hasPair_cons_iff, hasTriple_cons_iff]
      simp [HasPair, HasTriple]
  | case3 first next rest both ih =>
      rcases both with ⟨rfl, rfl⟩
      have head_of_prefix : [next, next] <+: rest → rest.head? = some next := by
        rintro ⟨others, rfl⟩
        rfl
      rw [hasPair_cons_iff, replacePairs_head?, ih, hasTriple_cons_iff, hasTriple_cons_iff,
        List.cons_prefix_cons, List.singleton_prefix_iff_head?_eq_some]
      tauto
  | case4 first next rest both ih =>
      have none_here : ¬(first = sep ∧ [sep, sep] <+: next :: rest) := by
        rintro ⟨same, others, starts⟩
        cases starts
        exact both ⟨same, rfl⟩
      rw [hasPair_cons_iff, replacePairs_head?, ih, hasTriple_cons_iff first,
        or_iff_right none_here, or_iff_right]
      rintro ⟨same, head⟩
      exact both ⟨same, Option.some.inj head⟩

/-! ## A separator more in front, one less at the end -/

theorem head?_ensureLeading (sep : α) (path : List α) :
    (ensureLeading sep path).head? = some sep := by
  rw [ensureLeading]
  split
  · assumption
  · rfl

theorem pieces_ensureLeading (sep : α) (path : List α) :
    pieces sep (ensureLeading sep path) = pieces sep path := by
  rw [ensureLeading]
  split
  · rfl
  · exact pieces_sep_cons sep path

theorem hasPair_ensureLeading_iff (path : List α) :
    HasPair sep (ensureLeading sep path) ↔ HasPair sep path := by
  rw [ensureLeading]
  split
  · rfl
  · next head => rw [hasPair_cons_iff, or_iff_right fun both => head both.2]

theorem pieces_dropLast (last : path.getLast? = some sep) :
    pieces sep path.dropLast = pieces sep path := by
  obtain ⟨start, rfl⟩ := List.getLast?_eq_some_iff.mp last
  rw [List.dropLast_concat, pieces_concat_sep]

theorem pieces_dropTrailing (sep : α) (path : List α) :
    pieces sep (dropTrailing sep path) = pieces sep path := by
  rw [dropTrailing]
  split
  · next last => exact pieces_dropLast last
  · rfl

theorem pieces_trimEnd (sep : α) (path : List α) :
    pieces sep (trimEnd sep path) = pieces sep path := by
  rw [trimEnd]
  split
  · next long => exact pieces_dropLast long.2
  · rfl

theorem head?_trimEnd (sep : α) (path : List α) : (trimEnd sep path).head? = path.head? := by
  rw [trimEnd]
  split
  · next long =>
      rcases path with _ | ⟨first, _ | ⟨second, rest⟩⟩
      · rfl
      · exact absurd long.1 (Nat.lt_irrefl 1)
      · rfl
  · rfl

/-- Keeping a lone separator makes no pair. -/
theorem hasPair_trimEnd_iff (path : List α) :
    HasPair sep (trimEnd sep path) ↔ HasPair sep (dropTrailing sep path) := by
  rcases path with _ | ⟨first, _ | ⟨second, rest⟩⟩
  · rfl
  · have short : ∀ char : α, ¬HasPair sep [char] := by
      intro char
      simp [hasPair_cons_iff, not_hasPair_nil]
    rw [trimEnd, if_neg fun long => Nat.lt_irrefl 1 long.1, dropTrailing]
    split
    · exact iff_of_false (short first) not_hasPair_nil
    · rfl
  · have long : 1 < (first :: second :: rest).length := by simp
    simp only [trimEnd, long, true_and, dropTrailing]

theorem dropTrailing_cons (first : α) (nonempty : path ≠ []) :
    dropTrailing sep (first :: path) = first :: dropTrailing sep path := by
  rw [dropTrailing, dropTrailing, List.getLast?_cons_of_ne_nil nonempty,
    List.dropLast_cons_of_ne_nil nonempty, apply_ite (first :: ·)]

/-- The result still starts with a separator when the path does and is longer than two. -/
theorem head?_dropTrailing_replacePairs_iff (path : List α) :
    (dropTrailing sep (replacePairs sep path)).head? = some sep ↔
      ∃ after, path = sep :: after ∧ after ≠ [] ∧ after ≠ [sep] := by
  fun_cases replacePairs sep path with
  | case1 => simp [dropTrailing]
  | case2 char =>
      by_cases same : char = sep <;> simp [dropTrailing, same]
  | case3 first next rest both =>
      rcases both with ⟨rfl, rfl⟩
      by_cases empty : rest = []
      · simp [dropTrailing, empty, replacePairs]
      · rw [dropTrailing_cons next (mt (replacePairs_eq_nil next rest).mp empty)]
        exact iff_of_true rfl ⟨next :: rest, rfl, List.cons_ne_nil next rest,
          fun same => empty (List.cons.inj same).2⟩
  | case4 first next rest both =>
      rw [dropTrailing_cons first (mt (replacePairs_eq_nil sep _).mp (List.cons_ne_nil next rest))]
      constructor
      · intro head
        obtain rfl : first = sep := Option.some.inj head
        exact ⟨next :: rest, rfl, List.cons_ne_nil next rest,
          fun same => both ⟨rfl, (List.cons.inj same).1⟩⟩
      · rintro ⟨after, same, _⟩
        exact congrArg some (List.cons.inj same).1

/-- With a separator dropped at the end, a pair is left exactly where three separators
in a row had more behind them than one separator. -/
theorem hasPair_dropTrailing_replacePairs_iff (path : List α) :
    HasPair sep (dropTrailing sep (replacePairs sep path)) ↔ HasInnerTriple sep path := by
  fun_induction replacePairs sep path with
  | case1 => exact iff_of_false not_hasPair_nil not_hasInnerTriple_nil
  | case2 char =>
      rw [hasInnerTriple_cons_iff, dropTrailing]
      by_cases same : char = sep <;>
        simp [same, hasPair_cons_iff, not_hasPair_nil, not_hasInnerTriple_nil]
  | case3 first next rest both ih =>
      rcases both with ⟨rfl, rfl⟩
      by_cases empty : rest = []
      · subst empty
        rw [replacePairs, dropTrailing, if_pos List.getLast?_singleton, hasInnerTriple_cons_iff,
          hasInnerTriple_cons_iff]
        simp [not_hasPair_nil, not_hasInnerTriple_nil]
      · rw [dropTrailing_cons next (mt (replacePairs_eq_nil next rest).mp empty),
          hasPair_cons_iff, head?_dropTrailing_replacePairs_iff, ih, hasInnerTriple_cons_iff,
          hasInnerTriple_cons_iff]
        have second_of_third :
            (∃ after, rest = next :: next :: after ∧ after ≠ [] ∧ after ≠ [next]) →
              ∃ after, rest = next :: after ∧ after ≠ [] ∧ after ≠ [next] := by
          rintro ⟨after, rfl, nonempty, _⟩
          exact ⟨next :: after, rfl, List.cons_ne_nil next after,
            fun same => nonempty (List.cons.inj same).2⟩
        simp only [List.cons.injEq, true_and]
        rw [← or_assoc, or_iff_left_of_imp second_of_third]
  | case4 first next rest both ih =>
      rw [dropTrailing_cons first (mt (replacePairs_eq_nil sep _).mp (List.cons_ne_nil next rest)),
        hasPair_cons_iff, head?_dropTrailing_replacePairs_iff, ih, hasInnerTriple_cons_iff first]
      constructor
      · rintro (⟨same, after, split, _⟩ | inner)
        · exact absurd ⟨same, (List.cons.inj split).1⟩ both
        · exact Or.inr inner
      · rintro (⟨same, after, split, _⟩ | inner)
        · exact absurd ⟨same, (List.cons.inj split).1⟩ both
        · exact Or.inr inner

/-- A separator in front makes no pair either. -/
theorem hasPair_dropTrailing_ensureLeading_iff (path : List α) :
    HasPair sep (dropTrailing sep (ensureLeading sep path)) ↔
      HasPair sep (dropTrailing sep path) := by
  rw [ensureLeading]
  split
  · rfl
  · next head =>
      rcases path with _ | ⟨first, rest⟩
      · rw [dropTrailing, if_pos List.getLast?_singleton]
        rfl
      · rw [dropTrailing_cons sep (List.cons_ne_nil first rest), hasPair_cons_iff, or_iff_right]
        rintro ⟨-, headDropped⟩
        apply head
        rw [dropTrailing] at headDropped
        split at headDropped
        · rcases rest with _ | ⟨second, rest⟩
          · cases headDropped
          · exact headDropped
        · exact headDropped

end PushCache.Paths
