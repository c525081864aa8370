/-!
# Lines — texts as lists of lines

- `splitOn`           : the pieces of a text between the occurrences of a separator; there is
  always at least one piece
- `join`              : the pieces put together again, with a text between them
- `lines`, `unlines`  : the same for line feeds
- `foldCrLf`          : carriage return and line feed become one line feed
- `foldLineEnds`      : so does a lone carriage return
-/

namespace ScriptDoc
namespace Text

/-- Put `c` at the front of the first piece. -/
def consFirst (c : Char) : List (List Char) → List (List Char)
  | [] => [[c]]
  | piece :: pieces => (c :: piece) :: pieces

def splitOn (sep : Char) : List Char → List (List Char)
  | [] => [[]]
  | c :: s => if c = sep then [] :: splitOn sep s else consFirst c (splitOn sep s)

def join (sep : List Char) : List (List Char) → List Char
  | [] => []
  | [piece] => piece
  | piece :: pieces => piece ++ sep ++ join sep pieces

def lines (s : List Char) : List (List Char) :=
  splitOn '\n' s

def unlines (ls : List (List Char)) : List Char :=
  join ['\n'] ls

def foldCrLf : List Char → List Char
  | '\r' :: '\n' :: s => '\n' :: foldCrLf s
  | c :: s => c :: foldCrLf s
  | [] => []

def foldLineEnds : List Char → List Char
  | '\r' :: '\n' :: s => '\n' :: foldLineEnds s
  | '\r' :: s => '\n' :: foldLineEnds s
  | c :: s => c :: foldLineEnds s
  | [] => []

/-! ## Cutting and joining -/

theorem splitOn_ne_nil (sep : Char) (s : List Char) : splitOn sep s ≠ [] := by
  induction s with
  | nil => simp [splitOn]
  | cons c s ih =>
    unfold splitOn
    split
    · simp
    · cases h : splitOn sep s with
      | nil => exact absurd h ih
      | cons piece pieces => simp [consFirst]

theorem not_mem_of_mem_splitOn {sep : Char} {s piece : List Char}
    (h : piece ∈ splitOn sep s) : sep ∉ piece := by
  induction s generalizing piece with
  | nil =>
    simp only [splitOn, List.mem_singleton] at h
    simp [h]
  | cons c s ih =>
    unfold splitOn at h
    split at h
    · rcases List.mem_cons.1 h with rfl | h
      · simp
      · exact ih h
    · next ne =>
      cases found : splitOn sep s with
      | nil => exact absurd found (splitOn_ne_nil sep s)
      | cons first others =>
        rw [found, consFirst] at h
        rcases List.mem_cons.1 h with rfl | h
        · have inner : sep ∉ first := ih (found ▸ List.mem_cons_self)
          simp [inner, Ne.symm ne]
        · exact ih (found ▸ List.mem_cons_of_mem first h)

theorem join_consFirst (sep : List Char) (c : Char) (pieces : List (List Char))
    (ne : pieces ≠ []) : join sep (consFirst c pieces) = c :: join sep pieces := by
  match pieces with
  | [] => exact absurd rfl ne
  | [piece] => rfl
  | piece :: next :: pieces => simp [consFirst, join]

theorem join_cons_of_ne_nil (sep piece : List Char) {pieces : List (List Char)}
    (ne : pieces ≠ []) : join sep (piece :: pieces) = piece ++ (sep ++ join sep pieces) := by
  match pieces with
  | [] => exact absurd rfl ne
  | next :: pieces => simp [join]

theorem join_splitOn (sep : Char) (s : List Char) : join [sep] (splitOn sep s) = s := by
  induction s with
  | nil => rfl
  | cons c s ih =>
    unfold splitOn
    split
    · next same => rw [join_cons_of_ne_nil _ _ (splitOn_ne_nil sep s), ih, same]; rfl
    · rw [join_consFirst _ _ _ (splitOn_ne_nil sep s), ih]

theorem mem_of_mem_join {sep : List Char} {pieces : List (List Char)} {c : Char}
    (h : c ∈ join sep pieces) : c ∈ sep ∨ ∃ piece ∈ pieces, c ∈ piece := by
  induction pieces with
  | nil => cases h
  | cons piece pieces ih =>
    by_cases last : pieces = []
    · rw [last] at h
      exact .inr ⟨piece, List.mem_cons_self, h⟩
    · rw [join_cons_of_ne_nil _ _ last, List.mem_append, List.mem_append] at h
      rcases h with here | between | there
      · exact .inr ⟨piece, List.mem_cons_self, here⟩
      · exact .inl between
      · exact (ih there).imp_right fun ⟨other, mem, found⟩ =>
          ⟨other, List.mem_cons_of_mem piece mem, found⟩

theorem infix_join (sep : List Char) {pieces : List (List Char)} {piece : List Char}
    (h : piece ∈ pieces) : piece <:+: join sep pieces := by
  induction pieces with
  | nil => cases h
  | cons first others ih =>
    by_cases last : others = []
    · rw [last] at h ⊢
      rw [List.mem_singleton.1 h]
      exact List.infix_rfl
    · rw [join_cons_of_ne_nil _ _ last]
      rcases List.mem_cons.1 h with rfl | there
      · exact (List.prefix_append _ _).isInfix
      · have later : join sep others <:+ first ++ (sep ++ join sep others) :=
          (List.suffix_append sep _).trans (List.suffix_append first _)
        exact (ih there).trans later.isInfix

theorem splitOn_of_not_mem {sep : Char} {s : List Char} (h : sep ∉ s) : splitOn sep s = [s] := by
  induction s with
  | nil => rfl
  | cons c s ih =>
    rw [List.mem_cons, not_or] at h
    simp [splitOn, Ne.symm h.1, ih h.2, consFirst]

theorem splitOn_append (sep : Char) (s t : List Char) :
    splitOn sep (s ++ sep :: t) = splitOn sep s ++ splitOn sep t := by
  induction s with
  | nil => simp [splitOn]
  | cons c s ih =>
    by_cases h : c = sep
    · simp only [List.cons_append, splitOn, if_pos h, ih]
    · simp only [List.cons_append, splitOn, if_neg h, ih]
      cases found : splitOn sep s with
      | nil => exact absurd found (splitOn_ne_nil sep s)
      | cons first others => rfl

theorem splitOn_join {sep : Char} {pieces : List (List Char)} (ne : pieces ≠ [])
    (h : ∀ piece ∈ pieces, sep ∉ piece) : splitOn sep (join [sep] pieces) = pieces := by
  induction pieces with
  | nil => exact absurd rfl ne
  | cons piece pieces ih =>
    rw [List.forall_mem_cons] at h
    by_cases last : pieces = []
    · rw [last]
      exact splitOn_of_not_mem h.1
    · rw [join_cons_of_ne_nil _ _ last, List.singleton_append, splitOn_append,
        splitOn_of_not_mem h.1, ih last h.2]
      rfl

theorem unlines_lines (s : List Char) : unlines (lines s) = s :=
  join_splitOn '\n' s

theorem lines_ne_nil (s : List Char) : lines s ≠ [] :=
  splitOn_ne_nil '\n' s

theorem newline_not_mem_of_mem_lines {s line : List Char} (h : line ∈ lines s) : '\n' ∉ line :=
  not_mem_of_mem_splitOn h

theorem lines_cons_newline (s : List Char) : lines ('\n' :: s) = [] :: lines s := by
  simp [lines, splitOn]

theorem lines_cons_of_ne {c : Char} (h : c ≠ '\n') (s : List Char) :
    lines (c :: s) = consFirst c (lines s) := by
  simp [lines, splitOn, h]

/-- Text without a line feed is at the start of the first line. -/
theorem lines_append_of_not_mem {start s line : List Char} {ls : List (List Char)}
    (h : '\n' ∉ start) (found : lines s = line :: ls) :
    lines (start ++ s) = (start ++ line) :: ls := by
  induction start with
  | nil => exact found
  | cons c start ih =>
    rw [List.mem_cons, not_or] at h
    rw [List.cons_append, lines_cons_of_ne (Ne.symm h.1), ih h.2]
    rfl

theorem lines_append_newline (s t : List Char) :
    lines (s ++ '\n' :: t) = lines s ++ lines t :=
  splitOn_append '\n' s t

theorem unlines_cons {line : List Char} {ls : List (List Char)} (ne : ls ≠ []) :
    unlines (line :: ls) = line ++ '\n' :: unlines ls :=
  join_cons_of_ne_nil ['\n'] line ne

theorem lines_unlines {ls : List (List Char)} (ne : ls ≠ []) (h : ∀ line ∈ ls, '\n' ∉ line) :
    lines (unlines ls) = ls :=
  splitOn_join ne h

/-- A character at the end of a text is at the end of its last line, or begins a new one. -/
theorem exists_lines_append (s : List Char) (c : Char) :
    ∃ before last, lines s = before ++ [last] ∧
      lines (s ++ [c]) = before ++ if c = '\n' then [last, []] else [last ++ [c]] := by
  induction s with
  | nil =>
    refine ⟨[], [], rfl, ?_⟩
    by_cases h : c = '\n'
    · simp [h, lines, splitOn]
    · simp [h, lines, splitOn, consFirst]
  | cons d s ih =>
    obtain ⟨before, last, found, longer⟩ := ih
    by_cases same : d = '\n'
    · refine ⟨[] :: before, last, ?_, ?_⟩
      · rw [same, lines_cons_newline, found, List.cons_append]
      · rw [same, List.cons_append, lines_cons_newline, longer, List.cons_append]
    · rw [List.cons_append, lines_cons_of_ne same, lines_cons_of_ne same, found, longer]
      cases before with
      | nil =>
        refine ⟨[], d :: last, rfl, ?_⟩
        split <;> rfl
      | cons first others => exact ⟨(d :: first) :: others, last, rfl, rfl⟩

end Text
end ScriptDoc
