import Mathlib.Data.List.Infix
import ScriptDoc.Text.Lines
import ScriptDoc.Text.Nesting

/-!
# Nesting — depths of brackets, and what a bracket encloses

- `depth`                   : how many brackets a text leaves open, by the steps of its characters
- `IsNested`                : a text all of whose brackets are closed, each after it is opened
- `untilClose_eq_some_iff`  : a closing bracket is reached after such a text
- `untilClose_eq_none_iff`  : or else none is
- `IsEnclosed`, `IsUnclosed` : texts that their first bracket encloses, or fails to
-/

namespace ScriptDoc
namespace Text

/-! ## Depths -/

def depth (step : Char → Int) : List Char → Int
  | [] => 0
  | c :: s => step c + depth step s

/-- Brackets of one kind. -/
def stepOf (opening closing : Char) (c : Char) : Int :=
  if c = opening then 1 else if c = closing then -1 else 0

structure IsNested (step : Char → Int) (s : List Char) : Prop where
  nonneg : ∀ p, p <+: s → 0 ≤ depth step p
  closed : depth step s = 0

instance (step : Char → Int) (s : List Char) : Decidable (IsNested step s) :=
  decidable_of_iff ((∀ p ∈ s.inits, 0 ≤ depth step p) ∧ depth step s = 0)
    ⟨fun h => ⟨fun p hp => h.1 p ((List.mem_inits p s).2 hp), h.2⟩,
      fun h => ⟨fun p hp => h.nonneg p ((List.mem_inits p s).1 hp), h.closed⟩⟩

variable {step : Char → Int} {opening closing c : Char} {s t : List Char}

@[simp]
theorem depth_nil (step : Char → Int) : depth step [] = 0 :=
  rfl

@[simp]
theorem depth_cons (step : Char → Int) (c : Char) (s : List Char) :
    depth step (c :: s) = step c + depth step s :=
  rfl

@[simp]
theorem depth_append (step : Char → Int) (s t : List Char) :
    depth step (s ++ t) = depth step s + depth step t := by
  induction s with
  | nil =>
      simp
  | cons c s ih =>
      rw [List.cons_append, depth_cons, depth_cons, ih, Int.add_assoc]

theorem depth_eq_zero (h : ∀ c ∈ s, step c = 0) : depth step s = 0 := by
  induction s with
  | nil =>
      rfl
  | cons c s ih =>
      rcases List.forall_mem_cons.1 h with ⟨hc, hs⟩
      rw [depth_cons, hc, ih hs, Int.add_zero]

@[simp]
theorem stepOf_opening (opening closing : Char) : stepOf opening closing opening = 1 := by
  simp [stepOf]

theorem stepOf_closing (hne : opening ≠ closing) : stepOf opening closing closing = -1 := by
  simp [stepOf, Ne.symm hne]

theorem depth_stepOf (hne : opening ≠ closing) (s : List Char) :
    depth (stepOf opening closing) s = s.count opening - s.count closing := by
  induction s with
  | nil =>
      rfl
  | cons c s ih =>
      rw [depth_cons, ih, stepOf]
      by_cases hopening : c = opening
      · rw [if_pos hopening, hopening, List.count_cons_self, List.count_cons_of_ne hne]
        omega
      · by_cases hclosing : c = closing
        · rw [if_neg hopening, if_pos hclosing, hclosing, List.count_cons_self,
            List.count_cons_of_ne (Ne.symm hne)]
          omega
        · rw [if_neg hopening, if_neg hclosing, List.count_cons_of_ne hopening,
            List.count_cons_of_ne hclosing]
          omega

/-! ## Nested texts -/

namespace IsNested

theorem of_steps_zero (h : ∀ c ∈ s, step c = 0) : IsNested step s := by
  refine ⟨fun p hp => ?_, depth_eq_zero h⟩
  have hzero : depth step p = 0 := depth_eq_zero fun c hc => h c (hp.subset hc)
  exact Int.le_of_eq hzero.symm

theorem append (hs : IsNested step s) (ht : IsNested step t) : IsNested step (s ++ t) := by
  constructor
  · intro p hp
    rcases List.prefix_or_prefix_of_prefix hp (List.prefix_append s t) with hfirst | ⟨q, rfl⟩
    · exact hs.nonneg p hfirst
    · -- The first text is closed, so the rest of the prefix counts from zero again.
      have hq : q <+: t := (List.prefix_append_right_inj s).1 hp
      rw [depth_append, hs.closed, Int.zero_add]
      exact ht.nonneg q hq
  · rw [depth_append, hs.closed, ht.closed, Int.add_zero]

theorem join {sep : List Char} {pieces : List (List Char)} (hsep : IsNested step sep)
    (h : ∀ piece ∈ pieces, IsNested step piece) : IsNested step (join sep pieces) := by
  induction pieces with
  | nil =>
      exact of_steps_zero (by simp [Text.join])
  | cons piece pieces ih =>
      rcases List.forall_mem_cons.1 h with ⟨hpiece, hothers⟩
      cases pieces with
      | nil =>
          exact hpiece
      | cons next pieces =>
          exact (hpiece.append hsep).append (ih hothers)

end IsNested

/-! ## Reaching the closing bracket -/

/-- A text that closes `d` more brackets than it opens, none of them before it is opened. -/
structure IsNestedFrom (d : Int) (step : Char → Int) (s : List Char) : Prop where
  nonneg : ∀ p, p <+: s → 0 ≤ d + depth step p
  closed : d + depth step s = 0

theorem isNestedFrom_zero_iff : IsNestedFrom 0 step s ↔ IsNested step s := by
  constructor
  · intro h
    exact ⟨by simpa using h.nonneg, by simpa using h.closed⟩
  · intro h
    exact ⟨by simpa using h.nonneg, by simpa using h.closed⟩

theorem isNestedFrom_nil_iff {d : Int} : IsNestedFrom d step [] ↔ d = 0 := by
  constructor
  · intro h
    simpa using h.closed
  · rintro rfl
    exact ⟨by simp, by simp⟩

theorem isNestedFrom_cons_iff {d : Int} :
    IsNestedFrom d step (c :: s) ↔ 0 ≤ d ∧ IsNestedFrom (d + step c) step s := by
  constructor
  · intro h
    refine ⟨by simpa using h.nonneg [] List.nil_prefix, ?_, ?_⟩
    · intro p hp
      have hlonger := h.nonneg (c :: p) (List.cons_prefix_cons.2 ⟨rfl, hp⟩)
      rwa [depth_cons, ← Int.add_assoc] at hlonger
    · have hclosed := h.closed
      rwa [depth_cons, ← Int.add_assoc] at hclosed
  · rintro ⟨hd, h⟩
    refine ⟨?_, ?_⟩
    · intro p hp
      rcases List.prefix_cons_iff.1 hp with rfl | ⟨q, rfl, hq⟩
      · simpa using hd
      · rw [depth_cons, ← Int.add_assoc]
        exact h.nonneg q hq
    · rw [depth_cons, ← Int.add_assoc]
      exact h.closed

theorem untilCloseAt_closing (hne : opening ≠ closing) (s : List Char) :
    untilCloseAt opening closing 0 (closing :: s) = some ([], s) := by
  simp [untilCloseAt, Ne.symm hne]

/-- Any other character is passed over, and moves the depth by its step. -/
theorem untilCloseAt_cons {d d' : Nat} (hne : opening ≠ closing)
    (hstep : d + stepOf opening closing c = d') (s : List Char) :
    untilCloseAt opening closing d (c :: s) =
      (untilCloseAt opening closing d' s).map fun (inside, rest) => (c :: inside, rest) := by
  by_cases hopening : c = opening
  · have hup : d' = d + 1 := by
      rw [stepOf, if_pos hopening] at hstep
      omega
    simp [untilCloseAt, hopening, hup]
  · by_cases hclosing : c = closing
    · have hdown : d = d' + 1 := by
        rw [hclosing, stepOf_closing hne] at hstep
        omega
      simp [untilCloseAt, hclosing, Ne.symm hne, hdown]
    · have hsame : d' = d := by
        rw [stepOf, if_neg hopening, if_neg hclosing] at hstep
        omega
      simp [untilCloseAt, hopening, hclosing, hsame]

/-- The depth stays a number, unless the bracket looked for is there. -/
theorem exists_depth (c : Char) (d : Nat) :
    (c = closing ∧ d = 0) ∨ ∃ d' : Nat, d + stepOf opening closing c = d' := by
  by_cases hend : c = closing ∧ d = 0
  · exact Or.inl hend
  · refine Or.inr (Int.eq_ofNat_of_zero_le ?_)
    unfold stepOf
    split
    · omega
    · split
      · next hclosing =>
        have hd : d ≠ 0 := fun hzero => hend ⟨hclosing, hzero⟩
        omega
      · omega

theorem untilCloseAt_eq_none_iff {d : Nat} (hne : opening ≠ closing) :
    untilCloseAt opening closing d s = none ↔
      ∀ p, p <+: s → 0 ≤ d + depth (stepOf opening closing) p := by
  induction s generalizing d with
  | nil =>
      simp [untilCloseAt]
  | cons c s ih =>
      rcases @exists_depth opening closing c d with ⟨rfl, rfl⟩ | ⟨d', hstep⟩
      · rw [untilCloseAt_closing hne]
        constructor
        · intro hnone
          cases hnone
        · intro hopen
          have hfirst := hopen [c] (List.prefix_append [c] s)
          rw [depth_cons, stepOf_closing hne] at hfirst
          simp at hfirst
      · rw [untilCloseAt_cons hne hstep, Option.map_eq_none_iff, ih]
        constructor
        · intro hopen p hp
          rcases List.prefix_cons_iff.1 hp with rfl | ⟨q, rfl, hq⟩
          · simp
          · rw [depth_cons, ← Int.add_assoc, hstep]
            exact hopen q hq
        · intro hopen p hp
          have hlonger := hopen (c :: p) (List.cons_prefix_cons.2 ⟨rfl, hp⟩)
          rwa [depth_cons, ← Int.add_assoc, hstep] at hlonger

theorem untilCloseAt_eq_some_iff {d : Nat} {inside rest : List Char} (hne : opening ≠ closing) :
    untilCloseAt opening closing d s = some (inside, rest) ↔
      s = inside ++ closing :: rest ∧ IsNestedFrom d (stepOf opening closing) inside := by
  induction s generalizing d inside with
  | nil =>
      simp [untilCloseAt]
  | cons c s ih =>
      rcases @exists_depth opening closing c d with ⟨rfl, rfl⟩ | ⟨d', hstep⟩
      · rw [untilCloseAt_closing hne]
        constructor
        · intro h
          cases h
          exact ⟨rfl, isNestedFrom_nil_iff.2 rfl⟩
        · rintro ⟨hs, hinside⟩
          cases inside with
          | nil =>
              cases hs
              rfl
          | cons c' inside =>
              -- A text that begins with this bracket would close what it has not opened.
              cases hs
              have hlater := (isNestedFrom_cons_iff.1 hinside).2.nonneg [] List.nil_prefix
              rw [stepOf_closing hne] at hlater
              simp at hlater
      · rw [untilCloseAt_cons hne hstep, Option.map_eq_some_iff]
        constructor
        · rintro ⟨⟨inside', rest'⟩, hfound, hsame⟩
          cases hsame
          rcases ih.1 hfound with ⟨rfl, hinside⟩
          refine ⟨rfl, isNestedFrom_cons_iff.2 ⟨Int.natCast_nonneg d, ?_⟩⟩
          rwa [hstep]
        · rintro ⟨hs, hinside⟩
          cases inside with
          | nil =>
              cases hs
              rw [stepOf_closing hne, isNestedFrom_nil_iff.1 hinside] at hstep
              omega
          | cons c' inside =>
              cases hs
              have hlater := (isNestedFrom_cons_iff.1 hinside).2
              rw [hstep] at hlater
              exact ⟨(inside, rest), ih.2 ⟨rfl, hlater⟩, rfl⟩

theorem untilClose_eq_none_iff (hne : opening ≠ closing) :
    untilClose opening closing s = none ↔
      ∀ p, p <+: s → 0 ≤ depth (stepOf opening closing) p := by
  unfold untilClose
  simpa using @untilCloseAt_eq_none_iff opening closing s 0 hne

theorem untilClose_eq_some_iff {inside rest : List Char} (hne : opening ≠ closing) :
    untilClose opening closing s = some (inside, rest) ↔
      s = inside ++ closing :: rest ∧ IsNested (stepOf opening closing) inside := by
  rw [← isNestedFrom_zero_iff]
  exact @untilCloseAt_eq_some_iff opening closing s 0 inside rest hne

theorem untilClose_append {inside : List Char} (hne : opening ≠ closing)
    (h : IsNested (stepOf opening closing) inside) (rest : List Char) :
    untilClose opening closing (inside ++ closing :: rest) = some (inside, rest) :=
  (untilClose_eq_some_iff hne).2 ⟨rfl, h⟩

/-! ## Texts that a bracket begins -/

/-- The bracket that begins the text is closed by its last character. -/
structure IsEnclosed (opening closing : Char) (s : List Char) : Prop where
  opened : s.head? = some opening
  closed : depth (stepOf opening closing) s = 0
  first : ∀ p, p <+: s → p ≠ [] → p ≠ s → depth (stepOf opening closing) p ≠ 0

/-- The bracket that begins the text is never closed. -/
structure IsUnclosed (opening closing : Char) (s : List Char) : Prop where
  opened : s.head? = some opening
  never : ∀ p, p <+: s → p ≠ [] → p.count closing ≠ p.count opening

theorem isEnclosed_iff (hne : opening ≠ closing) :
    IsEnclosed opening closing s ↔
      ∃ inside, s = opening :: (inside ++ [closing]) ∧
        IsNested (stepOf opening closing) inside := by
  constructor
  · intro h
    rcases List.head?_eq_some_iff.1 h.opened with ⟨t, rfl⟩
    cases hcut : untilClose opening closing t with
    | none =>
        have hopen := (untilClose_eq_none_iff hne).1 hcut t List.prefix_rfl
        have hclosed := h.closed
        rw [depth_cons, stepOf_opening] at hclosed
        omega
    | some cut =>
        rcases cut with ⟨inside, rest⟩
        rcases (untilClose_eq_some_iff hne).1 hcut with ⟨rfl, hinside⟩
        have hdepth : depth (stepOf opening closing) (opening :: (inside ++ [closing])) = 0 := by
          simp [hinside.closed, stepOf_closing hne]
        -- So early a return to zero must be the one at the end.
        have hrest : rest = [] := by
          by_contra hrest
          refine h.first (opening :: (inside ++ [closing])) ⟨rest, by simp⟩ (by simp) ?_ hdepth
          simpa using hrest
        exact ⟨inside, by rw [hrest], hinside⟩
  · rintro ⟨inside, rfl, hinside⟩
    refine ⟨rfl, by simp [hinside.closed, stepOf_closing hne], ?_⟩
    intro p hp hfilled hproper hzero
    rcases List.prefix_cons_iff.1 hp with rfl | ⟨q, rfl, hq⟩
    · exact hfilled rfl
    · rcases List.prefix_concat_iff.1 hq with rfl | hq
      · exact hproper rfl
      · have hopen := hinside.nonneg q hq
        rw [depth_cons, stepOf_opening] at hzero
        omega

theorem isUnclosed_iff (hne : opening ≠ closing) :
    IsUnclosed opening closing s ↔
      ∃ t, s = opening :: t ∧ untilClose opening closing t = none := by
  constructor
  · intro h
    rcases List.head?_eq_some_iff.1 h.opened with ⟨t, rfl⟩
    refine ⟨t, rfl, ?_⟩
    cases hcut : untilClose opening closing t with
    | none =>
        rfl
    | some cut =>
        rcases cut with ⟨inside, rest⟩
        rcases (untilClose_eq_some_iff hne).1 hcut with ⟨rfl, hinside⟩
        refine absurd ?_ (h.never (opening :: (inside ++ [closing])) ⟨rest, by simp⟩ (by simp))
        have hclosed := hinside.closed
        rw [depth_stepOf hne] at hclosed
        simp [hne, Ne.symm hne]
        omega
  · rintro ⟨t, rfl, hnone⟩
    refine ⟨rfl, ?_⟩
    intro p hp hfilled hsame
    rcases List.prefix_cons_iff.1 hp with rfl | ⟨q, rfl, hq⟩
    · exact hfilled rfl
    · have hopen := (untilClose_eq_none_iff hne).1 hnone q hq
      rw [depth_stepOf hne] at hopen
      rw [List.count_cons_self, List.count_cons_of_ne hne] at hsame
      omega

end Text
end ScriptDoc
