import ScriptDoc.Comment.Body

/-!
# Block — the block comments of a source text

A block is `/*`, a mark if it has one, a body, and the first `*/` after these. The scan knows no
strings and no line comments, and takes the leftmost block each time.

- `Mark`            : none, a second star for documentation, or `!` for a block to be left out
- `Block`           : the mark, the body, the line and what follows the block
- `Block.scan`      : all blocks of a text in order
- `Comment.ofSource` : the comments they hold
-/

namespace ScriptDoc

inductive Mark where
  | plain
  | doc
  | ignored
  deriving DecidableEq, Repr

structure Block where
  mark : Mark
  body : List Char
  line : Nat
  rest : List Char
  deriving DecidableEq, Repr

namespace Block

open Text

/-- The text up to the first `*/` and the text after it. -/
def untilEnd : List Char → Option (List Char × List Char)
  | [] => none
  | '*' :: '/' :: rest => some ([], rest)
  | c :: s => (untilEnd s).map fun (body, rest) => (c :: body, rest)

/-- A block after its `/*`. A star there is a mark if the block can be closed after it, and
belongs to the closing `*/` otherwise. -/
def afterOpening (s : List Char) : Option (Mark × List Char × List Char) :=
  let unmarked := (untilEnd s).map fun (body, rest) => (Mark.plain, body, rest)
  match s with
  | '*' :: inside => ((untilEnd inside).map fun (body, rest) => (Mark.doc, body, rest)).or unmarked
  | '!' :: inside =>
      ((untilEnd inside).map fun (body, rest) => (Mark.ignored, body, rest)).or unmarked
  | _ => unmarked

theorem eq_of_untilEnd {s body rest : List Char} (h : untilEnd s = some (body, rest)) :
    s = body ++ '*' :: '/' :: rest := by
  fun_induction untilEnd s generalizing body rest with
  | case1 => simp at h
  | case2 tail =>
    simp only [Option.some.injEq, Prod.mk.injEq] at h
    obtain ⟨rfl, rfl⟩ := h
    rfl
  | case3 c s _ ih =>
    obtain ⟨⟨body', rest'⟩, found, same⟩ := Option.map_eq_some_iff.1 h
    simp only [Prod.mk.injEq] at same
    obtain ⟨rfl, rfl⟩ := same
    simp [← ih found]

theorem length_untilEnd {s body rest : List Char} (h : untilEnd s = some (body, rest)) :
    rest.length < s.length := by
  have whole := congrArg List.length (eq_of_untilEnd h)
  simp only [List.length_append, List.length_cons] at whole
  omega

theorem length_afterOpening {s body rest : List Char} {mark : Mark}
    (h : afterOpening s = some (mark, body, rest)) : rest.length < s.length := by
  have viaUnmarked : ∀ {m : Mark} {t : List Char},
      ((untilEnd t).map fun (body, rest) => (m, body, rest)) = some (mark, body, rest) →
        rest.length < t.length := by
    intro m t ht
    obtain ⟨⟨body', rest'⟩, found, same⟩ := Option.map_eq_some_iff.1 ht
    simp only [Prod.mk.injEq] at same
    obtain ⟨_, _, rfl⟩ := same
    exact length_untilEnd found
  unfold afterOpening at h
  split at h
  · rcases Option.or_eq_some_iff.1 h with h | ⟨_, h⟩
    · exact Nat.lt_succ_of_lt (viaUnmarked h)
    · exact viaUnmarked h
  · rcases Option.or_eq_some_iff.1 h with h | ⟨_, h⟩
    · exact Nat.lt_succ_of_lt (viaUnmarked h)
    · exact viaUnmarked h
  · exact viaUnmarked h

/-- The blocks of a text whose first line is number `line`. -/
def scanFrom (line : Nat) : List Char → List Block
  | [] => []
  | '/' :: '*' :: inside =>
      match _found : afterOpening inside with
      | some (mark, body, rest) =>
          ⟨mark, body, line, rest⟩ :: scanFrom (line + body.count '\n') rest
      | none => scanFrom line ('*' :: inside)
  | c :: s => scanFrom (if c = '\n' then line + 1 else line) s
termination_by s => s.length
decreasing_by
  · have shorter := length_afterOpening _found
    simp only [List.length_cons]
    omega
  · simp
  · simp

def scan (s : List Char) : List Block :=
  scanFrom 1 s

/-- The line of code after a block; a comment there is no code. -/
def code (b : Block) : List Char :=
  let line := trim ((trimStart b.rest).takeWhile (· != '\n'))
  if ['/', '*'].isPrefixOf line || ['/', '/'].isPrefixOf line then [] else line

end Block

/-! ## Comments of a source text -/

structure SourceOptions where
  raw : Bool := true
  skipSingleStar : Bool := true
  deriving DecidableEq, Repr

namespace Comment

/-- The body of an ignored block is not read. -/
def ofBlock (raw : Bool) (b : Block) : Except TagFault Comment :=
  match b.mark with
  | .ignored => .ok { isIgnored := true, line := b.line }
  | _ => parse raw b.line b.code b.body

/-- Unmarked blocks count as comments unless they are to be skipped. -/
def isWanted (options : SourceOptions) (b : Block) : Bool :=
  b.mark != .plain || !options.skipSingleStar

def ofSource (options : SourceOptions) (source : String) : Except TagFault (List Comment) :=
  let blocks := Block.scan (Text.foldCrLf source.toList)
  (blocks.filter (isWanted options)).mapM (ofBlock options.raw)

end Comment
end ScriptDoc
