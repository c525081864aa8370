import ScriptDoc.Proofs.Text.Nesting
import ScriptDoc.Proofs.Text.Trim
import ScriptDoc.Tag.TypeExpr

/-!
# Unions — types put together with bars, and taken apart again

- `TypeExpr.IsAlternative`      : a type that can stand as one alternative of a union
- `TypeExpr.pieces_join`        : such types are the pieces of their union
- `TypeExpr.alternatives_union` : and its alternatives, in parentheses or not
-/

namespace ScriptDoc
namespace TypeExpr

open Text

/-- No bar stands where all brackets are closed, when `d` of them are open before the text. -/
def IsUnbarredFrom (d : Int) (s : List Char) : Prop :=
  ∀ before after, s = before ++ '|' :: after → d + depth depthStep before ≠ 0

/-- Its brackets are closed, those of all kinds together and the round ones alone. -/
structure IsAlternative (t : List Char) : Prop where
  filled : t ≠ []
  trimmed : IsTrimmed t
  nested : IsNested depthStep t
  round : IsNested (stepOf '(' ')') t
  unbarred : IsUnbarredFrom 0 t

/-- A text with blanks around it. -/
def IsPadded (t padded : List Char) : Prop :=
  ∃ before after, (∀ c ∈ before, isBlank c = true) ∧ (∀ c ∈ after, isBlank c = true) ∧
    padded = before ++ (t ++ after)

variable {d : Int} {c : Char} {s t : List Char}

/-! ## Blanks -/

theorem depthStep_of_isBlank (h : isBlank c = true) : depthStep c = 0 := by
  -- A bracket is no blank.
  have hne : ∀ b ∈ ['<', '(', '{', '[', '>', ')', '}', ']'], c ≠ b := by
    rintro b hb rfl
    have hsolid : ['<', '(', '{', '[', '>', ')', '}', ']'].all (!isBlank ·) = true := by
      decide
    have hc := List.all_eq_true.1 hsolid c hb
    rw [h] at hc
    cases hc
  simp only [List.forall_mem_cons] at hne
  simp [depthStep, hne]

theorem stepOf_round_of_isBlank (h : isBlank c = true) : stepOf '(' ')' c = 0 := by
  unfold stepOf
  split
  · next hopening =>
    rw [hopening] at h
    cases h
  · split
    · next hclosing =>
      rw [hclosing] at h
      cases h
    · rfl

theorem bar_notMem (h : ∀ c ∈ s, isBlank c = true) : '|' ∉ s := by
  intro hbar
  have hblank := h '|' hbar
  cases hblank

namespace IsPadded

theorem trim_eq {padded : List Char} (h : IsPadded t padded) : trim padded = trim t := by
  rcases h with ⟨before, after, hbefore, hafter, rfl⟩
  rw [trim_blanks_append hbefore, trim_append_blanks hafter]

theorem nested {step : Char → Int} {padded : List Char} (h : IsPadded t padded)
    (hstep : ∀ c, isBlank c = true → step c = 0) (ht : IsNested step t) : IsNested step padded := by
  rcases h with ⟨before, after, hbefore, hafter, rfl⟩
  have hstart : IsNested step before := .of_steps_zero fun c hc => hstep c (hbefore c hc)
  have hend : IsNested step after := .of_steps_zero fun c hc => hstep c (hafter c hc)
  exact hstart.append (ht.append hend)

end IsPadded

/-! ## Bars -/

theorem isUnbarredFrom_cons_iff :
    IsUnbarredFrom d (c :: s) ↔ ¬(c = '|' ∧ d = 0) ∧ IsUnbarredFrom (d + depthStep c) s := by
  constructor
  · intro h
    refine ⟨?_, ?_⟩
    · rintro ⟨rfl, rfl⟩
      exact h [] s rfl rfl
    · rintro before after rfl
      have hlonger := h (c :: before) after rfl
      rwa [depth_cons, ← Int.add_assoc] at hlonger
  · rintro ⟨hfirst, hlater⟩ before after hs
    cases before with
    | nil =>
        cases hs
        simpa using hfirst
    | cons e before =>
        cases hs
        rw [depth_cons, ← Int.add_assoc]
        exact hlater before after rfl

instance decidableUnbarredFrom : (d : Int) → (s : List Char) → Decidable (IsUnbarredFrom d s)
  | _, [] => isTrue fun before after hs => by simp at hs
  | d, c :: s =>
      have := decidableUnbarredFrom (d + depthStep c) s
      decidable_of_iff _ isUnbarredFrom_cons_iff.symm

instance (t : List Char) : Decidable (IsAlternative t) :=
  decidable_of_iff (t ≠ [] ∧ IsTrimmed t ∧ IsNested depthStep t ∧ IsNested (stepOf '(' ')') t ∧
      IsUnbarredFrom 0 t)
    ⟨fun ⟨hfilled, htrimmed, hnested, hround, hunbarred⟩ =>
        ⟨hfilled, htrimmed, hnested, hround, hunbarred⟩,
      fun h => ⟨h.filled, h.trimmed, h.nested, h.round, h.unbarred⟩⟩

theorem isUnbarredFrom_of_notMem (h : '|' ∉ s) : IsUnbarredFrom d s := by
  rintro before after rfl
  exact absurd (by simp) h

theorem IsUnbarredFrom.append (hs : IsUnbarredFrom d s)
    (ht : IsUnbarredFrom (d + depth depthStep s) t) : IsUnbarredFrom d (s ++ t) := by
  induction s generalizing d with
  | nil =>
      simpa using ht
  | cons c s ih =>
      rcases isUnbarredFrom_cons_iff.1 hs with ⟨hfirst, hlater⟩
      rw [depth_cons, ← Int.add_assoc] at ht
      exact isUnbarredFrom_cons_iff.2 ⟨hfirst, ih hlater ht⟩

theorem IsAlternative.unbarred_padded {padded : List Char} (ht : IsAlternative t)
    (h : IsPadded t padded) : IsUnbarredFrom 0 padded := by
  rcases h with ⟨before, after, hbefore, hafter, rfl⟩
  have hzero : depth depthStep before = 0 :=
    depth_eq_zero fun c hc => depthStep_of_isBlank (hbefore c hc)
  refine (isUnbarredFrom_of_notMem (bar_notMem hbefore)).append ?_
  rw [hzero, Int.add_zero]
  exact ht.unbarred.append (isUnbarredFrom_of_notMem (bar_notMem hafter))

/-! ## Pieces -/

theorem pieces_ne_nil (d : Int) (s : List Char) : pieces d s ≠ [] := by
  cases s with
  | nil =>
      simp [pieces]
  | cons c s =>
      simp only [pieces]
      split
      · simp
      · cases pieces (d + depthStep c) s with
        | nil =>
            simp [consFirst]
        | cons first others =>
            simp [consFirst]

theorem pieces_cons (h : ¬(c = '|' ∧ d = 0)) (s : List Char) :
    pieces d (c :: s) = consFirst c (pieces (d + depthStep c) s) := by
  have hcut : ¬(c = '|' ∧ d + depthStep c = 0) := by
    rintro ⟨rfl, hzero⟩
    exact h ⟨rfl, by simpa [depthStep] using hzero⟩
  simp [pieces, hcut]

theorem pieces_bar (s : List Char) : pieces 0 ('|' :: s) = [] :: pieces 0 s := by
  simp [pieces, depthStep]

theorem pieces_of_unbarred (h : IsUnbarredFrom d s) : pieces d s = [s] := by
  induction s generalizing d with
  | nil =>
      rfl
  | cons c s ih =>
      rcases isUnbarredFrom_cons_iff.1 h with ⟨hfirst, hlater⟩
      rw [pieces_cons hfirst, ih hlater]
      rfl

theorem pieces_append_bar (h : IsUnbarredFrom d s) (hclosed : d + depth depthStep s = 0)
    (t : List Char) : pieces d (s ++ '|' :: t) = s :: pieces 0 t := by
  induction s generalizing d with
  | nil =>
      have hd : d = 0 := by simpa using hclosed
      rw [hd]
      exact pieces_bar t
  | cons c s ih =>
      rcases isUnbarredFrom_cons_iff.1 h with ⟨hfirst, hlater⟩
      rw [depth_cons, ← Int.add_assoc] at hclosed
      rw [List.cons_append, pieces_cons hfirst, ih hlater hclosed]
      rfl

/-- Texts that are closed and have no bar of their own are the pieces of what they make up. -/
theorem pieces_join {ps : List (List Char)} (ne : ps ≠ [])
    (h : ∀ p ∈ ps, IsUnbarredFrom 0 p ∧ depth depthStep p = 0) :
    pieces 0 (join ['|'] ps) = ps := by
  induction ps with
  | nil =>
      exact absurd rfl ne
  | cons p ps ih =>
      rcases List.forall_mem_cons.1 h with ⟨hp, hothers⟩
      cases ps with
      | nil =>
          exact pieces_of_unbarred hp.1
      | cons q ps =>
          have hjoin : join ['|'] (p :: q :: ps) = p ++ '|' :: join ['|'] (q :: ps) := by
            simp [join]
          rw [hjoin, pieces_append_bar hp.1 (by simpa using hp.2), ih (by simp) hothers]

/-! ## Pieces of trimmed texts -/

theorem map_trim_consFirst (h : isBlank c = true) {ps : List (List Char)} (ne : ps ≠ []) :
    (consFirst c ps).map trim = ps.map trim := by
  cases ps with
  | nil =>
      exact absurd rfl ne
  | cons p ps =>
      simp [consFirst, trim_cons_blank h]

theorem exists_pieces_append (h : isBlank c = true) (d : Int) (s : List Char) :
    ∃ before last, pieces d s = before ++ [last] ∧
      pieces d (s ++ [c]) = before ++ [last ++ [c]] := by
  have hbar : c ≠ '|' := by
    rintro rfl
    cases h
  induction s generalizing d with
  | nil =>
      refine ⟨[], [], rfl, ?_⟩
      rw [List.nil_append, pieces_cons (fun hboth => hbar hboth.1)]
      rfl
  | cons e s ih =>
      rcases ih (d + depthStep e) with ⟨before, last, hpieces, hlonger⟩
      by_cases hcut : e = '|' ∧ d = 0
      · rcases hcut with ⟨rfl, rfl⟩
        have hzero : (0 : Int) + depthStep '|' = 0 := rfl
        rw [hzero] at hpieces hlonger
        refine ⟨[] :: before, last, ?_, ?_⟩
        · rw [pieces_bar, hpieces, List.cons_append]
        · rw [List.cons_append, pieces_bar, hlonger, List.cons_append]
      · rw [List.cons_append, pieces_cons hcut, pieces_cons hcut, hpieces, hlonger]
        cases before with
        | nil =>
            exact ⟨[], e :: last, rfl, rfl⟩
        | cons first others =>
            exact ⟨(e :: first) :: others, last, rfl, rfl⟩

/-- Blanks around a text are blanks around its first and its last piece. -/
theorem map_trim_pieces_trim (s : List Char) :
    (pieces 0 (trim s)).map trim = (pieces 0 s).map trim := by
  apply trim_induction (motive := fun t => (pieces 0 t).map trim = (pieces 0 s).map trim)
  · intro c t hc h
    have hbar : ¬(c = '|' ∧ (0 : Int) = 0) := by
      rintro ⟨rfl, -⟩
      cases hc
    rw [pieces_cons hbar, depthStep_of_isBlank hc, map_trim_consFirst hc (pieces_ne_nil _ t)] at h
    exact h
  · intro t c hc h
    rcases exists_pieces_append hc 0 t with ⟨before, last, hpieces, hlonger⟩
    rw [hlonger, List.map_append, List.map_singleton, trim_append_blank hc] at h
    rw [hpieces, List.map_append, List.map_singleton]
    exact h
  · rfl

/-! ## Parentheses around a whole type -/

theorem unwrapped_parentheses {inside : List Char} (h : IsNested (stepOf '(' ')') inside) :
    unwrapped ('(' :: (inside ++ [')'])) = inside := by
  have hclose := untilClose_append (by decide) h []
  simp [unwrapped, hclose]

/-- A parenthesis that is closed before the end is not one around the whole type. -/
theorem unwrapped_eq_self (hstart : t <+: s) (hfilled : t ≠ []) (hmore : t ≠ s)
    (hclosed : depth (stepOf '(' ')') t = 0) : unwrapped s = s := by
  unfold unwrapped
  split
  · next inside =>
    split
    · next inner hclose =>
      rcases (untilClose_eq_some_iff (by decide)).1 hclose with ⟨rfl, hinner⟩
      have henclosed := (isEnclosed_iff (by decide)).2 ⟨inner, rfl, hinner⟩
      exact absurd hclosed (henclosed.first t hstart hfilled hmore)
    · rfl
  · rfl

/-- A union of two types or more begins with the first of them, and goes on after it. -/
theorem prefix_trim_of_bar (hfilled : t ≠ []) (htrimmed : IsTrimmed t) {padded : List Char}
    (h : IsPadded t padded) (more : List Char) :
    t <+: trim (padded ++ '|' :: more) ∧ t ≠ trim (padded ++ '|' :: more) := by
  rcases h with ⟨before, after, hbefore, -, rfl⟩
  rcases List.exists_cons_of_ne_nil hfilled with ⟨c, t, rfl⟩
  have hc : isBlank c = false := htrimmed.1
  have hend : trimEnd (after ++ '|' :: more) ≠ [] :=
    trimEnd_ne_nil (c := '|') (by simp) (by decide)
  have htrim : trim (before ++ (c :: t ++ after) ++ '|' :: more) =
      c :: t ++ trimEnd (after ++ '|' :: more) := by
    have hassoc : before ++ (c :: t ++ after) ++ '|' :: more =
        before ++ c :: (t ++ (after ++ '|' :: more)) := by
      simp
    rw [trim, hassoc, trimStart_blanks_append hbefore hc]
    exact trimEnd_append hend (c :: t)
  rw [htrim]
  exact ⟨List.prefix_append _ _, by simpa using hend⟩

/-! ## Alternatives -/

theorem filter_map_trim {ts ps : List (List Char)} (hts : ∀ t ∈ ts, IsAlternative t)
    (h : List.Forall₂ IsPadded ts ps) : (ps.map trim).filter (!·.isEmpty) = ts := by
  induction h with
  | nil =>
      rfl
  | @cons t p ts ps hp hothers ih =>
      rcases List.forall_mem_cons.1 hts with ⟨ht, hmore⟩
      have htrim : trim p = t := hp.trim_eq.trans (trim_eq_self ht.trimmed)
      rw [List.map_cons, htrim, List.filter_cons_of_pos (by simp [ht.filled]), ih hmore]

theorem forall_padded {ts ps : List (List Char)} (hts : ∀ t ∈ ts, IsAlternative t)
    (h : List.Forall₂ IsPadded ts ps) : ∀ p ∈ ps, ∃ t, IsAlternative t ∧ IsPadded t p := by
  induction h with
  | nil =>
      intro p hp
      cases hp
  | @cons t p ts ps hp hothers ih =>
      rcases List.forall_mem_cons.1 hts with ⟨ht, hmore⟩
      exact List.forall_mem_cons.2 ⟨⟨t, ht, hp⟩, ih hmore⟩

section Union

variable {ts ps : List (List Char)} {text : List Char}

theorem map_trim_pieces_union (ne : ts ≠ []) (hts : ∀ t ∈ ts, IsAlternative t)
    (hps : List.Forall₂ IsPadded ts ps) :
    ((pieces 0 (join ['|'] ps)).map trim).filter (!·.isEmpty) = ts := by
  have hfilled : ps ≠ [] := by
    rintro rfl
    cases hps
    exact ne rfl
  rw [pieces_join hfilled, filter_map_trim hts hps]
  intro p hp
  rcases forall_padded hts hps p hp with ⟨t, ht, hpadded⟩
  exact ⟨ht.unbarred_padded hpadded, (hpadded.nested (fun _ => depthStep_of_isBlank) ht.nested).closed⟩

theorem alternatives_parentheses (ne : ts ≠ []) (hts : ∀ t ∈ ts, IsAlternative t)
    (hps : List.Forall₂ IsPadded ts ps)
    (htext : IsPadded ('(' :: (join ['|'] ps ++ [')'])) text) : alternatives text = ts := by
  have htrimmed : IsTrimmed ('(' :: (join ['|'] ps ++ [')'])) := by
    refine ⟨rfl, ?_⟩
    rw [← List.cons_append, List.getLast?_append]
    rfl
  have hround : IsNested (stepOf '(' ')') (join ['|'] ps) := by
    refine .join (.of_steps_zero (List.forall_mem_singleton.2 rfl)) ?_
    intro p hp
    rcases forall_padded hts hps p hp with ⟨t, ht, hpadded⟩
    exact hpadded.nested (fun _ => stepOf_round_of_isBlank) ht.round
  unfold alternatives
  rw [htext.trim_eq, trim_eq_self htrimmed, unwrapped_parentheses hround]
  exact map_trim_pieces_union ne hts hps

theorem alternatives_bars (hmany : 2 ≤ ts.length) (hts : ∀ t ∈ ts, IsAlternative t)
    (hps : List.Forall₂ IsPadded ts ps) (htext : IsPadded (join ['|'] ps) text) :
    alternatives text = ts := by
  have ne : ts ≠ [] := by
    rintro rfl
    cases hmany
  -- The parentheses of the first type, if it begins with one, are closed within it.
  have hwhole : unwrapped (trim (join ['|'] ps)) = trim (join ['|'] ps) := by
    cases hps with
    | nil =>
        exact absurd rfl ne
    | @cons t p ts ps hp hothers =>
        cases hothers with
        | nil =>
            simp at hmany
        | @cons u q ts ps hq hothers =>
            have ht := hts t List.mem_cons_self
            have hjoin : join ['|'] (p :: q :: ps) = p ++ '|' :: join ['|'] (q :: ps) := by
              simp [join]
            rw [hjoin]
            rcases prefix_trim_of_bar ht.filled ht.trimmed hp (join ['|'] (q :: ps)) with
              ⟨hstart, hmore⟩
            exact unwrapped_eq_self hstart ht.filled hmore ht.round.closed
  unfold alternatives
  rw [htext.trim_eq, hwhole, map_trim_pieces_trim]
  exact map_trim_pieces_union ne hts hps

end Union

theorem filled_of_mem_alternatives {text t : List Char} (h : t ∈ alternatives text) :
    t ≠ [] ∧ IsTrimmed t := by
  rcases List.mem_filter.1 h with ⟨hmem, hfilled⟩
  rcases List.mem_map.1 hmem with ⟨p, -, rfl⟩
  exact ⟨by simpa using hfilled, isTrimmed_trim p⟩

/-- Types that are put together with bars are the alternatives of what they make up, in parentheses
or, when there are two of them or more, without. Whatever the text is, its alternatives are trimmed
and none of them is blank. -/
theorem alternatives_union :
    (∀ ts ps : List (List Char), ts ≠ [] → (∀ t ∈ ts, IsAlternative t) →
      List.Forall₂ IsPadded ts ps → ∀ text,
        (IsPadded ('(' :: (join ['|'] ps ++ [')'])) text → alternatives text = ts) ∧
          (2 ≤ ts.length → IsPadded (join ['|'] ps) text → alternatives text = ts)) ∧
      ∀ text, ∀ t ∈ alternatives text, t ≠ [] ∧ IsTrimmed t := by
  constructor
  · intro ts ps ne hts hps text
    exact ⟨fun htext => alternatives_parentheses ne hts hps htext,
      fun hmany htext => alternatives_bars hmany hts hps htext⟩
  · intro text t ht
    exact filled_of_mem_alternatives ht

/-- A type in parentheses at each end, and between them one with a union of its own. -/
def nestedTypes : List (List Char) :=
  ["(A)".toList, "Object.<string, (B|C)>".toList, "(D)".toList]

def nestedPieces : List (List Char) :=
  [" (A) ".toList, " Object.<string, (B|C)>".toList, "\t(D)\n".toList]

theorem alternatives_union_nested :
    (∀ t ∈ nestedTypes, IsAlternative t) ∧ List.Forall₂ IsPadded nestedTypes nestedPieces ∧
      alternatives "( (A) | Object.<string, (B|C)>|\t(D)\n) ".toList = nestedTypes ∧
        alternatives " (A) | Object.<string, (B|C)>|\t(D)\n".toList = nestedTypes := by
  have htypes : ∀ t ∈ nestedTypes, IsAlternative t := by
    decide
  have hpadded : ∀ before after : List Char, before.all isBlank = true →
      after.all isBlank = true → ∀ t, IsPadded t (before ++ (t ++ after)) :=
    fun before after hbefore hafter t =>
      ⟨before, after, List.all_eq_true.1 hbefore, List.all_eq_true.1 hafter, rfl⟩
  have hpieces : List.Forall₂ IsPadded nestedTypes nestedPieces :=
    .cons (hpadded [' '] [' '] (by decide) (by decide) _)
      (.cons (hpadded [' '] [] (by decide) (by decide) _)
        (.cons (hpadded ['\t'] ['\n'] (by decide) (by decide) _) .nil))
  refine ⟨htypes, hpieces, ?_, ?_⟩
  · exact (alternatives_union.1 _ _ (by decide) htypes hpieces _).1
      (hpadded [] [' '] (by decide) (by decide) _)
  · exact (alternatives_union.1 _ _ (by decide) htypes hpieces _).2 (by decide)
      (hpadded [] [] (by decide) (by decide) _)

end TypeExpr
end ScriptDoc
