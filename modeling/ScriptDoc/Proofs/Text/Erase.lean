import Mathlib.Data.List.Infix
import ScriptDoc.Text.Lines
import ScriptDoc.Text.Replace

/-!
# Erase — what erasing leaves of a text

Marks are erased in one pass over a text. What is left of it comes in pieces, which are free of marks,
but a mark may come about where pieces meet.

- `IsFree`                     : texts that no mark occurs in
- `eraseAll_eq_self_iff`       : these are the texts that erasing leaves as they are
- `leftovers`                  : the pieces of a text between the marks that are erased
- `Straddles`                  : a text that is put together of two or more pieces
- `isFree_eraseAll_iff`        : marks that are left straddle pieces
-/

namespace ScriptDoc
namespace Text

def IsFree (marks : List (List Char)) (s : List Char) : Prop :=
  ∀ mark ∈ marks, ¬ mark <:+: s

instance (marks : List (List Char)) (s : List Char) : Decidable (IsFree marks s) :=
  inferInstanceAs (Decidable (∀ mark ∈ marks, ¬ mark <:+: s))

section
variable {marks : List (List Char)} {s : List Char} {c : Char}

/-! ## Texts without marks -/

/-- No mark begins a text. -/
theorem find?_eq_none_iff :
    marks.find? (·.isPrefixOf s) = none ↔ ∀ mark ∈ marks, ¬ mark <+: s := by
  simp [List.find?_eq_none]

theorem isFree_cons_iff :
    IsFree marks (c :: s) ↔ (∀ mark ∈ marks, ¬ mark <+: c :: s) ∧ IsFree marks s := by
  unfold IsFree
  constructor
  · intro h
    refine ⟨fun mark hmark hbegin => h mark hmark hbegin.isInfix, fun mark hmark hinfix => ?_⟩
    exact h mark hmark (List.infix_cons hinfix)
  · rintro ⟨hbegin, hrest⟩ mark hmark hinfix
    rcases List.infix_cons_iff.1 hinfix with hprefix | hinfix
    · exact hbegin mark hmark hprefix
    · exact hrest mark hmark hinfix

theorem isFree_nil (h : [] ∉ marks) : IsFree marks [] := by
  intro mark hmark hinfix
  exact h (List.infix_nil.1 hinfix ▸ hmark)

theorem length_eraseFrom_le (marks : List (List Char)) (skip : Nat) (s : List Char) :
    (eraseFrom marks skip s).length ≤ s.length := by
  fun_induction eraseFrom marks skip s with
  | case1 => exact Nat.le_refl _
  | case2 skip c s ih => exact Nat.le_succ_of_le ih
  | case3 c s mark hfound ih => exact Nat.le_succ_of_le ih
  | case4 c s hnone ih => exact Nat.succ_le_succ ih

theorem eraseAll_eq_self_iff (h : [] ∉ marks) : eraseAll marks s = s ↔ IsFree marks s := by
  unfold eraseAll
  induction s with
  | nil =>
      exact iff_of_true rfl (isFree_nil h)
  | cons c s ih =>
      rw [isFree_cons_iff, ← find?_eq_none_iff]
      cases hfound : marks.find? (·.isPrefixOf (c :: s)) with
      | none =>
          simp [eraseFrom, hfound, ih]
      | some mark =>
          -- At least the first character is gone.
          have hshorter : (eraseFrom marks (mark.length - 1) s).length < (c :: s).length :=
            Nat.lt_succ_of_le (length_eraseFrom_le marks (mark.length - 1) s)
          have hne : eraseFrom marks 0 (c :: s) ≠ c :: s := by
            intro hsame
            rw [eraseFrom, hfound] at hsame
            exact absurd (congrArg List.length hsame) (Nat.ne_of_lt hshorter)
          simp [hne]

/-! ## Leftovers -/

def leftoversFrom (marks : List (List Char)) : Nat → List Char → List (List Char)
  | _, [] => [[]]
  | skip + 1, _ :: s => leftoversFrom marks skip s
  | 0, c :: s =>
      match marks.find? (·.isPrefixOf (c :: s)) with
      | some mark => [] :: leftoversFrom marks (mark.length - 1) s
      | none => consFirst c (leftoversFrom marks 0 s)

/-- What there is before, between and after the marks that are erased, empty pieces included. -/
def leftovers (marks : List (List Char)) (s : List Char) : List (List Char) :=
  leftoversFrom marks 0 s

theorem flatten_consFirst (c : Char) (pieces : List (List Char)) :
    (consFirst c pieces).flatten = c :: pieces.flatten := by
  cases pieces with
  | nil =>
      rfl
  | cons piece pieces =>
      rfl

theorem flatten_leftoversFrom (marks : List (List Char)) (skip : Nat) (s : List Char) :
    (leftoversFrom marks skip s).flatten = eraseFrom marks skip s := by
  fun_induction leftoversFrom marks skip s with
  | case1 => rfl
  | case2 skip c s ih => exact ih
  | case3 c s mark hfound ih => simp [eraseFrom, hfound, ih]
  | case4 c s hnone ih => simp [eraseFrom, hnone, flatten_consFirst, ih]

theorem flatten_leftovers (marks : List (List Char)) (s : List Char) :
    (leftovers marks s).flatten = eraseAll marks s :=
  flatten_leftoversFrom marks 0 s

/-- The first piece is what the text begins with. -/
theorem exists_first_leftover (marks : List (List Char)) (s : List Char) :
    ∃ piece pieces, leftoversFrom marks 0 s = piece :: pieces ∧ piece <+: s := by
  induction s with
  | nil =>
      exact ⟨[], [], rfl, List.nil_prefix⟩
  | cons c s ih =>
      rcases ih with ⟨piece, pieces, hpieces, hprefix⟩
      cases hfound : marks.find? (·.isPrefixOf (c :: s)) with
      | some mark =>
          refine ⟨[], leftoversFrom marks (mark.length - 1) s, ?_, List.nil_prefix⟩
          simp only [leftoversFrom, hfound]
      | none =>
          refine ⟨c :: piece, pieces, ?_, List.cons_prefix_cons.2 ⟨rfl, hprefix⟩⟩
          simp only [leftoversFrom, hfound, hpieces, consFirst]

theorem isFree_of_mem_leftoversFrom (h : [] ∉ marks) (skip : Nat) (s : List Char) :
    ∀ piece ∈ leftoversFrom marks skip s, IsFree marks piece := by
  fun_induction leftoversFrom marks skip s with
  | case1 => simpa using isFree_nil h
  | case2 skip c s ih => exact ih
  | case3 c s mark hfound ih => exact List.forall_mem_cons.2 ⟨isFree_nil h, ih⟩
  | case4 c s hnone ih =>
      rcases exists_first_leftover marks s with ⟨piece, pieces, hpieces, hprefix⟩
      rw [hpieces] at ih ⊢
      rcases List.forall_mem_cons.1 ih with ⟨hpiece, hothers⟩
      refine List.forall_mem_cons.2 ⟨isFree_cons_iff.2 ⟨?_, hpiece⟩, hothers⟩
      -- A mark at the start of the piece would have been found there.
      intro mark hmark hbegin
      have htext : c :: piece <+: c :: s := List.cons_prefix_cons.2 ⟨rfl, hprefix⟩
      exact find?_eq_none_iff.1 hnone mark hmark (hbegin.trans htext)

/-- Pieces with marks between them. -/
def rejoin : List (List Char) → List (List Char) → List Char
  | piece :: pieces, mark :: erased => piece ++ (mark ++ rejoin pieces erased)
  | pieces, _ => pieces.flatten

theorem rejoin_consFirst (c : Char) (pieces erased : List (List Char)) (ne : pieces ≠ []) :
    rejoin (consFirst c pieces) erased = c :: rejoin pieces erased := by
  cases pieces with
  | nil =>
      exact absurd rfl ne
  | cons piece pieces =>
      cases erased with
      | nil =>
          rfl
      | cons mark erased =>
          rfl

theorem exists_erasedFrom (h : [] ∉ marks) (skip : Nat) (s : List Char) :
    ∃ erased, (∀ mark ∈ erased, mark ∈ marks) ∧
      (leftoversFrom marks skip s).length = erased.length + 1 ∧
        rejoin (leftoversFrom marks skip s) erased = s.drop skip := by
  fun_induction leftoversFrom marks skip s with
  | case1 skip => exact ⟨[], by simp, rfl, by simp [rejoin]⟩
  | case2 skip c s ih => exact ih
  | case3 c s mark hfound ih =>
      rcases ih with ⟨erased, herased, hlength, hrejoin⟩
      have hmark : mark ∈ marks := List.mem_of_find?_eq_some hfound
      have hfits : mark.isPrefixOf (c :: s) = true := by
        simpa using List.find?_some hfound
      have hbegin : mark <+: c :: s := List.isPrefixOf_iff_prefix.1 hfits
      -- The mark is not empty, so the rest of it is what is still to be passed over.
      have hrest : s.drop (mark.length - 1) = (c :: s).drop mark.length := by
        cases mark with
        | nil => exact absurd hmark h
        | cons d mark => rfl
      have hwhole : mark ++ (c :: s).drop mark.length = c :: s := by
        rcases hbegin with ⟨t, ht⟩
        rw [← ht, List.drop_left]
      refine ⟨mark :: erased, List.forall_mem_cons.2 ⟨hmark, herased⟩, ?_, ?_⟩
      · simp [hlength]
      · rw [rejoin, List.nil_append, hrejoin, hrest, hwhole, List.drop_zero]
  | case4 c s hnone ih =>
      rcases ih with ⟨erased, herased, hlength, hrejoin⟩
      rcases exists_first_leftover marks s with ⟨piece, pieces, hpieces, -⟩
      refine ⟨erased, herased, ?_, ?_⟩
      · rw [hpieces] at hlength ⊢
        exact hlength
      · rw [rejoin_consFirst c _ erased (by simp [hpieces]), hrejoin]
        rfl

/-- A text is its pieces with marks between them, and these are gone from the pieces. -/
structure AreLeftovers (marks : List (List Char)) (s : List Char) (pieces : List (List Char)) :
    Prop where
  erased : ∃ erased, (∀ mark ∈ erased, mark ∈ marks) ∧ pieces.length = erased.length + 1 ∧
    rejoin pieces erased = s
  free : ∀ piece ∈ pieces, IsFree marks piece

theorem areLeftovers_leftovers (h : [] ∉ marks) (s : List Char) :
    AreLeftovers marks s (leftovers marks s) :=
  ⟨exists_erasedFrom h 0 s, isFree_of_mem_leftoversFrom h 0 s⟩

end

/-! ## Where pieces meet -/

/-- A text that begins at the end of one piece, goes through those between, and ends at the start of a
later one. -/
def Straddles (x : List Char) (pieces : List (List Char)) : Prop :=
  ∃ before left middle right after, pieces = before ++ left :: (middle ++ right :: after) ∧
    ∃ head tail, head ≠ [] ∧ tail ≠ [] ∧ head <:+ left ∧ tail <+: right ∧
      x = head ++ (middle.flatten ++ tail)

section
variable {x : List Char} {piece : List Char} {pieces : List (List Char)}

theorem Straddles.cons (h : Straddles x pieces) (piece : List Char) :
    Straddles x (piece :: pieces) := by
  rcases h with ⟨before, left, middle, right, after, rfl, hparts⟩
  exact ⟨piece :: before, left, middle, right, after, rfl, hparts⟩

theorem exists_of_prefix_flatten (ne : x ≠ []) (h : x <+: pieces.flatten) :
    ∃ middle right after tail, pieces = middle ++ right :: after ∧ tail ≠ [] ∧ tail <+: right ∧
      x = middle.flatten ++ tail := by
  induction pieces generalizing x with
  | nil =>
      exact absurd (List.prefix_nil.1 h) ne
  | cons piece pieces ih =>
      rcases h with ⟨rest, hrest⟩
      rw [List.flatten_cons, List.append_eq_append_iff] at hrest
      rcases hrest with ⟨more, rfl, -⟩ | ⟨tail, rfl, hlater⟩
      · exact ⟨[], x ++ more, pieces, x, rfl, ne, List.prefix_append x more, rfl⟩
      · by_cases hnil : tail = []
        · -- It ends where the piece does.
          subst hnil
          exact ⟨[], piece, pieces, piece, rfl, by simpa using ne, List.prefix_refl piece, by simp⟩
        · have htail : tail <+: pieces.flatten := ⟨rest, hlater.symm⟩
          rcases ih hnil htail with ⟨middle, right, after, last, rfl, hlast, hprefix, rfl⟩
          exact ⟨piece :: middle, right, after, last, rfl, hlast, hprefix, by simp⟩

theorem Straddles.infix_flatten (h : Straddles x pieces) : x <:+: pieces.flatten := by
  rcases h with ⟨before, left, middle, right, after, rfl, head, tail, -, -, ⟨front, rfl⟩,
    ⟨back, rfl⟩, rfl⟩
  exact ⟨before.flatten ++ front, back ++ after.flatten, by simp⟩

/-- Pieces put together hold a text where one of them does, or where it straddles them. -/
theorem infix_flatten_iff (ne : x ≠ []) :
    x <:+: pieces.flatten ↔ (∃ piece ∈ pieces, x <:+: piece) ∨ Straddles x pieces := by
  constructor
  · intro h
    induction pieces with
    | nil =>
        exact absurd (List.infix_nil.1 h) ne
    | cons piece pieces ih =>
        have hlater : x <:+: pieces.flatten →
            (∃ other ∈ piece :: pieces, x <:+: other) ∨ Straddles x (piece :: pieces) := by
          intro hinfix
          rcases ih hinfix with ⟨other, hother, hx⟩ | hstraddles
          · exact Or.inl ⟨other, List.mem_cons_of_mem piece hother, hx⟩
          · exact Or.inr (hstraddles.cons piece)
        rw [List.flatten_cons, List.infix_append_iff] at h
        rcases h with hhere | hthere | ⟨head, tail, rfl, hhead, htail⟩
        · exact Or.inl ⟨piece, List.mem_cons_self, hhere⟩
        · exact hlater hthere
        · -- Only if both parts are there does it go past the end of the piece.
          by_cases hnone : head = []
          · subst hnone
            exact hlater htail.isInfix
          · by_cases hall : tail = []
            · subst hall
              rw [List.append_nil]
              exact Or.inl ⟨piece, List.mem_cons_self, hhead.isInfix⟩
            · rcases exists_of_prefix_flatten hall htail with
                ⟨middle, right, after, last, rfl, hlast, hprefix, rfl⟩
              exact Or.inr ⟨[], piece, middle, right, after, rfl, head, last, hnone, hlast, hhead,
                hprefix, rfl⟩
  · rintro (⟨piece, hpiece, hx⟩ | hstraddles)
    · exact hx.trans (List.infix_of_mem_flatten hpiece)
    · exact hstraddles.infix_flatten

/-- No piece holds a mark, so one that is left comes about where pieces meet. -/
theorem isFree_eraseAll_iff {marks : List (List Char)} (h : [] ∉ marks) (s : List Char) :
    IsFree marks (eraseAll marks s) ↔ ∀ mark ∈ marks, ¬ Straddles mark (leftovers marks s) := by
  have hpieces := (areLeftovers_leftovers h s).free
  rw [← flatten_leftovers, IsFree]
  refine forall₂_congr fun mark hmark => not_congr ?_
  have hne : mark ≠ [] := fun hnil => h (hnil ▸ hmark)
  rw [infix_flatten_iff hne, or_iff_right]
  rintro ⟨piece, hpiece, hinfix⟩
  exact hpieces piece hpiece mark hmark hinfix

end

end Text
end ScriptDoc
