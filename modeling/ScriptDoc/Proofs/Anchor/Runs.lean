import Mathlib.Data.List.Chain
import ScriptDoc.Anchor
import ScriptDoc.Proofs.Text.Lower
import ScriptDoc.Proofs.Text.Replace

/-!
# Runs — anchors as runs of letters

An anchor is determined by the runs of small letters, digits, underscores and dots of the lower-cased
text, each as long as it can be, and determines them.

- `Anchor.runs`          : these runs, in order
- `Anchor.slug_eq_join`  : an anchor is its runs with a hyphen between two of them
- `Anchor.runs_join`     : the runs can be read off an anchor
- `Anchor.IsTidy`        : the form that every anchor has
- `Anchor.ofText_runs`   : the anchors of texts, told by their runs
-/

namespace ScriptDoc
namespace Anchor

open Text

def isRunChar (c : Char) : Bool :=
  ('a' ≤ c && c ≤ 'z') || ('0' ≤ c && c ≤ '9') || c = '_' || c = '.'

def IsRun (r : List Char) : Prop :=
  r ≠ [] ∧ ∀ c ∈ r, isRunChar c = true

/-- The pieces between all other characters, without the empty ones. -/
def runs (s : List Char) : List (List Char) :=
  (s.splitOnP (!isRunChar ·)).filter (· ≠ [])

variable {c : Char} {r s : List Char} {rs : List (List Char)}

/-! ## Characters of a run -/

theorem isRunChar_iff :
    isRunChar c = true ↔
      97 ≤ c.toNat ∧ c.toNat ≤ 122 ∨ 48 ≤ c.toNat ∧ c.toNat ≤ 57 ∨ c = '_' ∨ c = '.' := by
  simp only [isRunChar, Bool.or_eq_true, Bool.and_eq_true, decide_eq_true_eq, Char.le_def,
    UInt32.le_iff_toNat_le, or_assoc]
  exact Iff.rfl

/-- But for capital letters, an anchor keeps the characters of runs. -/
theorem isAnchorChar_eq (h : c.isUpper = false) : isAnchorChar c = isRunChar c := by
  have hcapital : ('A' ≤ c && c ≤ 'Z') = false := by
    rw [Bool.eq_false_iff, Ne, isUpper_iff] at h
    simpa [Char.le_def, UInt32.le_iff_toNat_le] using h
  simp only [isAnchorChar, isRunChar, hcapital, Bool.or_false]

theorem isSmall_of_isRunChar (h : isRunChar c = true) : c.toNat < 128 ∧ c.isUpper = false := by
  rw [Bool.eq_false_iff, Ne, isUpper_iff]
  rcases isRunChar_iff.1 h with hletter | hdigit | rfl | rfl
  · omega
  · omega
  · decide
  · decide

theorem IsRun.hyphen_notMem (h : IsRun r) : '-' ∉ r := by
  intro hmem
  exact absurd (h.2 _ hmem) (by decide)

/-! ## Cutting a text -/

theorem runs_nil : runs [] = [] := by
  simp [runs]

theorem runs_of_isRun (h : IsRun r) : runs r = [r] := by
  have hsingle : r.splitOnP (!isRunChar ·) = [r] :=
    List.splitOnP_eq_singleton fun c hc => by simp [h.2 c hc]
  simp [runs, hsingle, h.1]

/-- A text is cut at every character that is in no run. -/
theorem runs_append_gap (hc : isRunChar c = false) (s t : List Char) :
    runs (s ++ c :: t) = runs s ++ runs t := by
  unfold runs
  rw [List.splitOnP_append_cons s t (by simp [hc]), List.filter_append]

theorem runs_cons_gap (hc : isRunChar c = false) (s : List Char) : runs (c :: s) = runs s := by
  have hcut := runs_append_gap hc [] s
  rwa [runs_nil] at hcut

theorem runs_run_gap (h : IsRun r) (hc : isRunChar c = false) (s : List Char) :
    runs (r ++ c :: s) = r :: runs s := by
  rw [runs_append_gap hc, runs_of_isRun h]
  rfl

/-- A text is empty, a run, or begins with a character in no run, before or after a first run. -/
theorem run_induction {motive : List Char → Prop} (nil : motive []) (run : ∀ r, IsRun r → motive r)
    (gap : ∀ c s, isRunChar c = false → motive s → motive (c :: s))
    (runGap : ∀ r c s, IsRun r → isRunChar c = false → motive s → motive (r ++ c :: s))
    (s : List Char) : motive s := by
  -- What was read of a run goes along in front of the rest.
  have hread : ∀ r : List Char, (∀ c ∈ r, isRunChar c = true) → motive (r ++ s) := by
    induction s with
    | nil =>
        intro r hr
        rw [List.append_nil]
        by_cases hnil : r = []
        · exact hnil ▸ nil
        · exact run r ⟨hnil, hr⟩
    | cons c s ih =>
        intro r hr
        cases hc : isRunChar c with
        | true =>
            rw [List.append_cons]
            refine ih (r ++ [c]) fun d hd => ?_
            rcases List.mem_append.1 hd with hd | hd
            · exact hr d hd
            · exact (List.mem_singleton.1 hd) ▸ hc
        | false =>
            have hrest : motive s := ih [] (by simp)
            by_cases hnil : r = []
            · subst hnil
              exact gap c s hc hrest
            · exact runGap r c s ⟨hnil, hr⟩ hc hrest
  exact hread [] (by simp)

theorem isRun_of_mem_runs (s : List Char) : ∀ r ∈ runs s, IsRun r := by
  induction s using run_induction with
  | nil =>
      simp [runs_nil]
  | run r hr =>
      simpa [runs_of_isRun hr] using hr
  | gap c s hc ih =>
      rwa [runs_cons_gap hc]
  | runGap r c s hr hc ih =>
      rw [runs_run_gap hr hc]
      exact List.forall_mem_cons.2 ⟨hr, ih⟩

/-! ## Joined runs -/

theorem join_cons_cons (r next : List Char) (rs : List (List Char)) :
    join ['-'] (r :: next :: rs) = r ++ '-' :: join ['-'] (next :: rs) := by
  simp [join]

theorem runs_join (h : ∀ r ∈ rs, IsRun r) : runs (join ['-'] rs) = rs := by
  induction rs with
  | nil =>
      exact runs_nil
  | cons r rs ih =>
      rcases List.forall_mem_cons.1 h with ⟨hr, hrs⟩
      cases rs with
      | nil =>
          exact runs_of_isRun hr
      | cons next rs =>
          rw [join_cons_cons, runs_run_gap hr (by decide), ih hrs]

/-! ## Hyphens -/

theorem hyphenate_run_append (h : IsRun r) (inGap : Bool) (s : List Char) :
    hyphenate inGap (r ++ s) = r ++ hyphenate false s := by
  have hread : ∀ t : List Char, (∀ c ∈ t, isRunChar c = true) → ∀ inGap : Bool, t ≠ [] ∨ inGap = false →
      hyphenate inGap (t ++ s) = t ++ hyphenate false s := by
    intro t ht
    induction t with
    | nil =>
        rintro inGap (hnil | rfl)
        · exact absurd rfl hnil
        · rfl
    | cons c t ih =>
        intro inGap _
        rcases List.forall_mem_cons.1 ht with ⟨hc, ht⟩
        have hkept : isAnchorChar c = true := by
          rw [isAnchorChar_eq (isSmall_of_isRunChar hc).2, hc]
        simp only [List.cons_append, hyphenate, hkept, if_true, ih ht false (Or.inr rfl)]
  exact hread r h.2 inGap (Or.inl h.1)

theorem hyphenate_run (h : IsRun r) (inGap : Bool) : hyphenate inGap r = r := by
  have hkept := hyphenate_run_append h inGap []
  rwa [hyphenate, List.append_nil] at hkept

theorem hyphenate_gap (hc : isAnchorChar c = false) (s : List Char) :
    hyphenate false (c :: s) = '-' :: hyphenate true s ∧
      hyphenate true (c :: s) = hyphenate true s := by
  simp [hyphenate, hc]

theorem dropHyphen_cons (hc : c ≠ '-') (s : List Char) : dropHyphen (c :: s) = c :: s := by
  unfold dropHyphen
  split
  · next hsame =>
    exact absurd (List.cons.inj hsame).1 hc
  · rfl

/-- A hyphen comes first only where a gap does. -/
theorem dropHyphen_hyphenate (s : List Char) :
    dropHyphen (hyphenate false s) = hyphenate true s := by
  cases s with
  | nil =>
      rfl
  | cons c s =>
      cases hc : isAnchorChar c with
      | true =>
          have hne : c ≠ '-' := by
            rintro rfl
            exact absurd hc (by decide)
          simp only [hyphenate, hc, if_true, dropHyphen_cons hne]
      | false =>
          rw [(hyphenate_gap hc s).1, (hyphenate_gap hc s).2, dropHyphen]

def dropLastHyphen (s : List Char) : List Char :=
  (dropHyphen s.reverse).reverse

theorem trimHyphens_hyphenate (s : List Char) :
    trimHyphens (hyphenate false s) = dropLastHyphen (hyphenate true s) := by
  rw [trimHyphens, dropHyphen_hyphenate, dropLastHyphen]

theorem dropLastHyphen_append {t : List Char} (ne : t ≠ []) (s : List Char) :
    dropLastHyphen (s ++ t) = s ++ dropLastHyphen t := by
  rcases List.eq_nil_or_concat t with rfl | ⟨front, c, rfl⟩
  · exact absurd rfl ne
  · rw [List.concat_eq_append]
    by_cases hc : c = '-'
    · simp [dropLastHyphen, dropHyphen, hc]
    · simp [dropLastHyphen, dropHyphen, hc]

theorem dropLastHyphen_run (h : IsRun r) : dropLastHyphen r = r := by
  cases hback : r.reverse with
  | nil =>
      exact absurd (List.reverse_eq_nil_iff.1 hback) h.1
  | cons c front =>
      have hc : c ≠ '-' := by
        rintro rfl
        exact h.hyphen_notMem (List.mem_reverse.1 (hback ▸ List.mem_cons_self))
      rw [dropLastHyphen, hback, dropHyphen_cons hc, ← hback, List.reverse_reverse]

/-- Hyphens are written for what is left of the runs only. -/
theorem hyphenate_eq_nil_iff (h : ∀ c ∈ s, c.isUpper = false) :
    hyphenate true s = [] ↔ runs s = [] := by
  induction s using run_induction with
  | nil =>
      simp [hyphenate, runs_nil]
  | run r hr =>
      simp [hyphenate_run hr, runs_of_isRun hr, hr.1]
  | gap c s hc ih =>
      rcases List.forall_mem_cons.1 h with ⟨hcapital, hrest⟩
      rw [(hyphenate_gap ((isAnchorChar_eq hcapital).trans hc) s).2, runs_cons_gap hc]
      exact ih hrest
  | runGap r c s hr hc ih =>
      simp [hyphenate_run_append hr, runs_run_gap hr hc, hr.1]

theorem dropLastHyphen_hyphenate (h : ∀ c ∈ s, c.isUpper = false) :
    dropLastHyphen (hyphenate true s) = join ['-'] (runs s) := by
  induction s using run_induction with
  | nil =>
      simp [hyphenate, runs_nil, dropLastHyphen, dropHyphen, join]
  | run r hr =>
      rw [hyphenate_run hr, dropLastHyphen_run hr, runs_of_isRun hr, join]
  | gap c s hc ih =>
      rcases List.forall_mem_cons.1 h with ⟨hcapital, hrest⟩
      rw [(hyphenate_gap ((isAnchorChar_eq hcapital).trans hc) s).2, runs_cons_gap hc]
      exact ih hrest
  | runGap r c s hr hc ih =>
      rcases List.forall_mem_cons.1 (List.forall_mem_append.1 h).2 with ⟨hcapital, hrest⟩
      have hgap : isAnchorChar c = false := (isAnchorChar_eq hcapital).trans hc
      rw [hyphenate_run_append hr, (hyphenate_gap hgap s).1, runs_run_gap hr hc]
      -- The hyphen stays if another run follows, and is dropped if this is the last.
      cases hruns : runs s with
      | nil =>
          rw [(hyphenate_eq_nil_iff hrest).2 hruns, dropLastHyphen_append (by simp), join]
          simp [dropLastHyphen, dropHyphen]
      | cons next others =>
          have hne : hyphenate true s ≠ [] := by
            rw [Ne, hyphenate_eq_nil_iff hrest, hruns]
            exact List.cons_ne_nil next others
          rw [List.append_cons, dropLastHyphen_append hne, ih hrest, hruns, join_cons_cons,
            List.append_assoc, List.singleton_append]

theorem slug_eq_join (s : List Char) : slug s = join ['-'] (runs (lower s)) := by
  rw [slug, trimHyphens_hyphenate, dropLastHyphen_hyphenate fun _ => isUpper_of_mem_lower]

/-! ## The form of an anchor -/

/-- Characters of runs and single hyphens between them. -/
structure IsTidy (a : List Char) : Prop where
  alphabet : ∀ c ∈ a, isRunChar c = true ∨ c = '-'
  start : a.head? ≠ some '-'
  finish : a.getLast? ≠ some '-'
  single : a.IsChain fun c next => ¬ (c = '-' ∧ next = '-')

theorem isTidy_nil : IsTidy [] :=
  ⟨by simp, by simp, by simp, List.isChain_nil⟩

theorem isTidy_run (h : IsRun r) : IsTidy r := by
  refine ⟨fun c hc => Or.inl (h.2 c hc), ?_, ?_, ?_⟩
  · intro hhead
    exact h.hyphen_notMem (List.mem_of_mem_head? hhead)
  · intro hlast
    exact h.hyphen_notMem (List.mem_of_mem_getLast? hlast)
  · refine List.Pairwise.isChain (List.pairwise_of_forall_mem_list ?_)
    rintro c hc next - ⟨rfl, -⟩
    exact h.hyphen_notMem hc

theorem isTidy_run_hyphen {a : List Char} (hr : IsRun r) (ha : IsTidy a) (ne : a ≠ []) :
    IsTidy (r ++ '-' :: a) := by
  have hrun : IsTidy r := isTidy_run hr
  refine ⟨?_, ?_, ?_, ?_⟩
  · intro c hc
    rcases List.mem_append.1 hc with hc | hc
    · exact hrun.alphabet c hc
    · rcases List.mem_cons.1 hc with rfl | hc
      · exact Or.inr rfl
      · exact ha.alphabet c hc
  · rw [List.head?_append_of_ne_nil r hr.1]
    exact hrun.start
  · rw [List.append_cons, List.getLast?_append_of_ne_nil _ ne]
    exact ha.finish
  · rw [List.isChain_append, List.isChain_cons]
    refine ⟨hrun.single, ⟨?_, ha.single⟩, ?_⟩
    · rintro next hnext ⟨-, rfl⟩
      exact ha.start hnext
    · rintro c hc next - ⟨rfl, -⟩
      exact hrun.finish hc

theorem join_ne_nil (hr : IsRun r) (rs : List (List Char)) : join ['-'] (r :: rs) ≠ [] := by
  rw [join_cons]
  simp [hr.1]

theorem isTidy_join (h : ∀ r ∈ rs, IsRun r) : IsTidy (join ['-'] rs) := by
  induction rs with
  | nil =>
      exact isTidy_nil
  | cons r rs ih =>
      rcases List.forall_mem_cons.1 h with ⟨hr, hrs⟩
      cases rs with
      | nil =>
          exact isTidy_run hr
      | cons next rs =>
          have hnext : IsRun next := hrs next List.mem_cons_self
          rw [join_cons_cons]
          exact isTidy_run_hyphen hr (ih hrs) (join_ne_nil hnext rs)

/-! ## Anchors of anchors and of joined texts -/

theorem isTidy_slug (s : List Char) : IsTidy (slug s) := by
  rw [slug_eq_join]
  exact isTidy_join (isRun_of_mem_runs (lower s))

theorem runs_slug (s : List Char) : runs (slug s) = runs (lower s) := by
  rw [slug_eq_join]
  exact runs_join (isRun_of_mem_runs (lower s))

/-- Anchors are small texts already. -/
theorem lower_slug (s : List Char) : lower (slug s) = slug s := by
  refine lower_eq_self fun c hc => ?_
  rcases (isTidy_slug s).alphabet c hc with hrun | rfl
  · exact isSmall_of_isRunChar hrun
  · decide

theorem slug_slug (s : List Char) : slug (slug s) = slug s := by
  rw [slug_eq_join (slug s), lower_slug, runs_slug, ← slug_eq_join]

theorem slug_eq_iff (s t : List Char) : slug s = slug t ↔ runs (lower s) = runs (lower t) := by
  constructor
  · intro hsame
    rw [← runs_slug s, ← runs_slug t, hsame]
  · intro hsame
    rw [slug_eq_join, slug_eq_join, hsame]

/-- The hyphen between two texts is no part of any letter's surroundings. -/
theorem runs_lower_hyphen (s t : List Char) :
    runs (lower (s ++ '-' :: t)) = runs (lower s) ++ runs (lower t) := by
  have hhyphen : lowerLetter '-' = '-' := by
    decide
  rw [lower_append_break isBreak_hyphen, hhyphen, runs_append_gap (by decide)]

theorem slug_eq_nil_iff (s : List Char) : slug s = [] ↔ runs (lower s) = [] := by
  constructor
  · intro hnil
    rw [← runs_slug, hnil, runs_nil]
  · intro hnil
    rw [slug_eq_join, hnil, join]

theorem slug_hyphen (s t : List Char) :
    slug (s ++ '-' :: t) = join ['-'] ([slug s, slug t].filter (· ≠ [])) := by
  have hwhole : slug (s ++ '-' :: t) = join ['-'] (runs (lower s) ++ runs (lower t)) := by
    rw [slug_eq_join, runs_lower_hyphen]
  by_cases hs : runs (lower s) = []
  · have hnil : slug s = [] := (slug_eq_nil_iff s).2 hs
    rw [hwhole, hs, List.nil_append, ← slug_eq_join, hnil]
    by_cases ht : slug t = []
    · simp [ht, join]
    · simp [ht, join]
  · have hfirst : slug s ≠ [] := fun hnil => hs ((slug_eq_nil_iff s).1 hnil)
    by_cases ht : runs (lower t) = []
    · have hnil : slug t = [] := (slug_eq_nil_iff t).2 ht
      rw [hwhole, ht, List.append_nil, ← slug_eq_join, hnil]
      simp [hfirst, join]
    · have hsecond : slug t ≠ [] := fun hnil => ht ((slug_eq_nil_iff t).1 hnil)
      rw [hwhole, join_append ['-'] hs, flatMap_append_eq_append_join ['-'] ht, ← slug_eq_join,
        ← slug_eq_join]
      simp [hfirst, hsecond, join]

/-- An anchor is the runs of the lower-cased text with single hyphens between them, and so is tidy and
its own anchor. Texts have one anchor if they have the same runs. Two texts with a hyphen between
them have the anchors of both. -/
theorem ofText_runs :
    (∀ s : String, (ofText s).toList = join ['-'] (runs (lower s.toList)) ∧
      IsTidy (ofText s).toList ∧ ofText (ofText s) = ofText s ∧
        ∀ t : String, ofText s = ofText t ↔ runs (lower s.toList) = runs (lower t.toList)) ∧
      ∀ filename name : String, (ofText (filename ++ "-" ++ name)).toList =
        join ['-'] ([(ofText filename).toList, (ofText name).toList].filter (· ≠ [])) := by
  have htoList : ∀ s : String, (ofText s).toList = slug s.toList := fun s => String.toList_ofList
  constructor
  · intro s
    refine ⟨?_, ?_, ?_, ?_⟩
    · rw [htoList, slug_eq_join]
    · rw [htoList]
      exact isTidy_slug s.toList
    · apply String.toList_injective
      rw [htoList, htoList, slug_slug]
    · intro t
      rw [← String.toList_inj, htoList, htoList]
      exact slug_eq_iff s.toList t.toList
  · intro filename name
    have hchars : (filename ++ "-" ++ name).toList = filename.toList ++ '-' :: name.toList := by
      simp [String.toList_append]
    rw [htoList, htoList, htoList, hchars, slug_hyphen]

end Anchor
end ScriptDoc
