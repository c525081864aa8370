import Mathlib.Data.List.Induction
import Mathlib.Data.List.TakeWhile
import ScriptDoc.Text.Blank
import ScriptDoc.Text.Word

/-!
# Trim — texts without blanks at their edges

- `isWord_eq_false_of_isBlank`       : no blank is a word character
- `takeWhile_run`                    : where a run of characters of one kind ends
- `IsTrimmed`                        : a text that neither begins nor ends with a blank
- `isTrimmed_trim`, `trim_eq_self`   : trimming gives such texts, and leaves them as they are
- `trim_induction`                   : what outlives the loss of one blank outlives trimming
- `trimStart_eq_iff`                 : only the blanks in front are taken off
- `exists_trimEnd_append`            : and at the other end only those at the end
- `trim_eq_nil_iff`                  : blanks are trimmed away, and nothing else is altogether
-/

namespace ScriptDoc
namespace Text

/-! ## Blanks -/

def blankCodes : List Nat :=
  [9, 10, 11, 12, 13, 28, 29, 30, 31, 32, 0x85, 0xA0, 0x1680, 0x2000, 0x2001, 0x2002, 0x2003,
    0x2004, 0x2005, 0x2006, 0x2007, 0x2008, 0x2009, 0x200A, 0x2028, 0x2029, 0x202F, 0x205F,
    0x3000]

theorem toNat_mem_blankCodes {c : Char} (h : isBlank c = true) : c.toNat ∈ blankCodes := by
  simp only [isBlank] at h
  simp only [blankCodes, List.mem_cons]
  split at h
  · simp only [Bool.or_eq_true, Bool.and_eq_true, beq_iff_eq, decide_eq_true_eq] at h
    omega
  · simp only [Bool.or_eq_true, Bool.and_eq_true, beq_iff_eq, decide_eq_true_eq] at h
    omega

theorem isWord_eq_false_of_isBlank {c : Char} (h : isBlank c = true) : isWord c = false := by
  -- There are few blanks, so each one can be looked up in the table of word characters.
  have hall : ∀ n ∈ blankCodes, isWord (Char.ofNat n) = false := by
    decide +kernel
  have hchar := hall c.toNat (toNat_mem_blankCodes h)
  rwa [Char.ofNat_toNat] at hchar

/-! ## Runs -/

theorem takeWhile_stop {p : Char → Bool} {s : List Char} (h : s.head?.any p = false) :
    s.takeWhile p = [] ∧ s.dropWhile p = s := by
  cases s with
  | nil =>
      exact ⟨rfl, rfl⟩
  | cons c s =>
      have hc : p c = false := h
      simp [hc]

/-- A run of such characters, and a rest that does not go on with it. -/
theorem takeWhile_run {p : Char → Bool} {run rest : List Char} (hrun : ∀ c ∈ run, p c = true)
    (hstop : rest.head?.any p = false) :
    (run ++ rest).takeWhile p = run ∧ (run ++ rest).dropWhile p = rest := by
  have hrest := takeWhile_stop hstop
  rw [List.takeWhile_append_of_pos hrun, List.dropWhile_append_of_pos hrun, hrest.1, hrest.2,
    List.append_nil]
  exact ⟨rfl, rfl⟩

theorem head?_dropWhile (p : Char → Bool) (s : List Char) :
    (s.dropWhile p).head?.any p = false := by
  have hstop := List.head?_dropWhile_not p s
  cases hhead : (s.dropWhile p).head? with
  | none =>
      rfl
  | some c =>
      rw [hhead] at hstop
      exact hstop

/-! ## One blank at an edge -/

theorem trimEnd_append_blank {c : Char} (h : isBlank c = true) (s : List Char) :
    trimEnd (s ++ [c]) = trimEnd s := by
  simp [trimEnd, h]

theorem trimEnd_append_of_not_blank {c : Char} (h : isBlank c = false) (s : List Char) :
    trimEnd (s ++ [c]) = s ++ [c] := by
  simp [trimEnd, h]

theorem trim_cons_blank {c : Char} (h : isBlank c = true) (s : List Char) :
    trim (c :: s) = trim s := by
  simp [trim, trimStart, h]

theorem trim_append_blank {c : Char} (h : isBlank c = true) (s : List Char) :
    trim (s ++ [c]) = trim s := by
  unfold trim trimStart
  rw [List.dropWhile_append]
  split
  · next hall =>
    -- All of the text is blank, so nothing is left of it either way.
    rw [List.isEmpty_iff.1 hall]
    simp [h]
  · exact trimEnd_append_blank h _

theorem trim_append_blanks {blanks : List Char} (h : ∀ c ∈ blanks, isBlank c = true)
    (s : List Char) : trim (s ++ blanks) = trim s := by
  induction blanks generalizing s with
  | nil =>
      rw [List.append_nil]
  | cons c blanks ih =>
      rw [List.forall_mem_cons] at h
      rw [List.append_cons, ih h.2, trim_append_blank h.1]

theorem trim_blanks_append {blanks : List Char} (h : ∀ c ∈ blanks, isBlank c = true)
    (s : List Char) : trim (blanks ++ s) = trim s := by
  induction blanks with
  | nil =>
      rfl
  | cons c blanks ih =>
      rw [List.forall_mem_cons] at h
      rw [List.cons_append, trim_cons_blank h.1, ih h.2]

theorem trimEnd_append_blanks {blanks : List Char} (h : ∀ c ∈ blanks, isBlank c = true)
    (s : List Char) : trimEnd (s ++ blanks) = trimEnd s := by
  induction blanks generalizing s with
  | nil =>
      rw [List.append_nil]
  | cons c blanks ih =>
      rw [List.forall_mem_cons] at h
      rw [List.append_cons, ih h.2, trimEnd_append_blank h.1]

/-- Blanks at the end are those of the second text, as long as it is not all blank. -/
theorem trimEnd_append {t : List Char} (h : trimEnd t ≠ []) (s : List Char) :
    trimEnd (s ++ t) = s ++ trimEnd t := by
  have hfilled : (t.reverse.dropWhile isBlank).isEmpty = false := by
    simpa [trimEnd] using h
  simp [trimEnd, List.dropWhile_append, hfilled]

theorem trimEnd_cons {c : Char} (h : isBlank c = false) (s : List Char) :
    trimEnd (c :: s) = c :: trimEnd s := by
  unfold trimEnd
  rw [List.reverse_cons, List.dropWhile_append]
  split
  · next hall =>
    rw [List.isEmpty_iff.1 hall]
    simp [h]
  · simp

/-- Up to a character that is no blank nothing is taken off. -/
theorem trimEnd_append_cons {c : Char} (h : isBlank c = false) (s t : List Char) :
    trimEnd (s ++ c :: t) = s ++ c :: trimEnd t := by
  have hfilled : trimEnd (c :: t) ≠ [] := by
    simp [trimEnd_cons h]
  rw [trimEnd_append hfilled, trimEnd_cons h]

theorem trimEnd_ne_nil {s : List Char} {c : Char} (hc : c ∈ s) (hsolid : isBlank c = false) :
    trimEnd s ≠ [] := by
  intro hnil
  have hall : s.reverse.dropWhile isBlank = [] := by
    simpa [trimEnd] using hnil
  have hblank := List.dropWhile_eq_nil_iff.1 hall c (List.mem_reverse.2 hc)
  rw [hsolid] at hblank
  cases hblank

theorem trimStart_blanks_append {blanks : List Char} {c : Char}
    (h : ∀ b ∈ blanks, isBlank b = true) (hc : isBlank c = false) (s : List Char) :
    trimStart (blanks ++ c :: s) = c :: s := by
  unfold trimStart
  rw [List.dropWhile_append_of_pos h]
  exact List.dropWhile_cons_of_neg (by simp [hc])

theorem trimStart_eq_iff {s rest : List Char} :
    trimStart s = rest ↔ ∃ blanks, s = blanks ++ rest ∧ (∀ c ∈ blanks, isBlank c = true) ∧
      rest.head?.any isBlank = false := by
  constructor
  · rintro rfl
    exact ⟨s.takeWhile isBlank, List.takeWhile_append_dropWhile.symm,
      fun _ => List.mem_takeWhile_imp, head?_dropWhile isBlank s⟩
  · rintro ⟨blanks, rfl, hblanks, hrest⟩
    cases rest with
    | nil =>
        rw [List.append_nil]
        exact List.dropWhile_eq_nil_iff.2 hblanks
    | cons c rest =>
        exact trimStart_blanks_append hblanks hrest rest

theorem trim_trimStart (s : List Char) : trim (trimStart s) = trim s := by
  rcases trimStart_eq_iff.1 (Eq.refl (trimStart s)) with ⟨blanks, hs, hblanks, -⟩
  calc
    trim (trimStart s) = trim (blanks ++ trimStart s) := (trim_blanks_append hblanks _).symm
    _ = trim s := by rw [← hs]

theorem exists_trimEnd_append (s : List Char) :
    ∃ blanks, (∀ c ∈ blanks, isBlank c = true) ∧ trimEnd s ++ blanks = s := by
  -- Read from its end, the text is blanks and then what is left.
  rcases trimStart_eq_iff.1 (Eq.refl (trimStart s.reverse)) with ⟨blanks, hs, hblanks, -⟩
  refine ⟨blanks.reverse, fun c hc => hblanks c (List.mem_reverse.1 hc), ?_⟩
  have hsame := congrArg List.reverse hs
  rw [List.reverse_reverse, List.reverse_append] at hsame
  exact hsame.symm

theorem trimEnd_isPrefix (s : List Char) : trimEnd s <+: s := by
  rcases exists_trimEnd_append s with ⟨blanks, -, hs⟩
  exact ⟨blanks, hs⟩

theorem head?_trimEnd {p : Char → Bool} {s : List Char} (h : s.head?.any p = false) :
    (trimEnd s).head?.any p = false := by
  rcases exists_trimEnd_append s with ⟨blanks, -, hs⟩
  cases hrest : trimEnd s with
  | nil =>
      rfl
  | cons c rest =>
      rw [← hs, hrest] at h
      exact h

theorem getLast?_trimEnd_eq_some_iff {s : List Char} {c : Char} (hc : isBlank c = false) :
    (trimEnd s).getLast? = some c ↔
      ∃ before blanks, s = before ++ c :: blanks ∧ ∀ b ∈ blanks, isBlank b = true := by
  constructor
  · intro h
    rcases exists_trimEnd_append s with ⟨blanks, hblanks, hs⟩
    rcases List.getLast?_eq_some_iff.1 h with ⟨before, hbefore⟩
    refine ⟨before, blanks, ?_, hblanks⟩
    rw [← hs, hbefore, List.append_assoc]
    rfl
  · rintro ⟨before, blanks, rfl, hblanks⟩
    rw [List.append_cons, trimEnd_append_blanks hblanks, trimEnd_append_of_not_blank hc]
    simp

/-- What outlives the loss of one blank at an edge outlives trimming. -/
theorem trim_induction {motive : List Char → Prop}
    (front : ∀ c s, isBlank c = true → motive (c :: s) → motive s)
    (back : ∀ s c, isBlank c = true → motive (s ++ [c]) → motive s)
    {s : List Char} (h : motive s) : motive (trim s) := by
  have hstart : motive (trimStart s) := by
    induction s with
    | nil =>
        exact h
    | cons c s ih =>
        cases hc : isBlank c with
        | true =>
            have hskip : trimStart (c :: s) = trimStart s := List.dropWhile_cons_of_pos hc
            rw [hskip]
            exact ih (front c s hc h)
        | false =>
            have hstay : trimStart (c :: s) = c :: s := by simp [trimStart, hc]
            rwa [hstay]
  unfold trim
  generalize trimStart s = t at hstart
  induction t using List.reverseRecOn with
  | nil =>
      exact hstart
  | append_singleton t c ih =>
      cases hc : isBlank c with
      | true =>
          rw [trimEnd_append_blank hc]
          exact ih (back t c hc hstart)
      | false =>
          rwa [trimEnd_append_of_not_blank hc]

/-- Of a text that does not begin with a blank only the blanks at its end are taken off. -/
theorem trim_append_cons {s t : List Char} {c : Char}
    (hstart : (s ++ c :: t).head?.any isBlank = false) (hc : isBlank c = false) :
    trim (s ++ c :: t) = s ++ c :: trimEnd t := by
  have hstay : trimStart (s ++ c :: t) = s ++ c :: t :=
    trimStart_eq_iff.2 ⟨[], rfl, by simp, hstart⟩
  rw [trim, hstay, trimEnd_append_cons hc]

theorem trim_isInfix (s : List Char) : trim s <:+: s :=
  (trimEnd_isPrefix _).isInfix.trans (List.dropWhile_suffix isBlank).isInfix

theorem mem_of_mem_trim {s : List Char} {c : Char} (h : c ∈ trim s) : c ∈ s :=
  (trim_isInfix s).subset h

/-- Nothing is left of blanks, and of other texts something is. -/
theorem trim_eq_nil_iff {s : List Char} : trim s = [] ↔ s.all isBlank = true := by
  constructor
  · intro hnil
    have hsame : (trim s).all isBlank = s.all isBlank := by
      refine trim_induction (motive := fun t => t.all isBlank = s.all isBlank) ?_ ?_ rfl
      · exact fun c t hc ht => by simpa [hc] using ht
      · exact fun t c hc ht => by simpa [hc] using ht
    rw [← hsame, hnil]
    rfl
  · intro hall
    exact trim_append_blanks (List.all_eq_true.1 hall) []

/-! ## Trimmed texts -/

def IsTrimmed (s : List Char) : Prop :=
  s.head?.any isBlank = false ∧ s.getLast?.any isBlank = false

instance (s : List Char) : Decidable (IsTrimmed s) :=
  inferInstanceAs (Decidable (_ ∧ _))

theorem trim_eq_self {s : List Char} (h : IsTrimmed s) : trim s = s := by
  cases s with
  | nil =>
      rfl
  | cons c s =>
      have hstart : trimStart (c :: s) = c :: s := by
        have hc : isBlank c = false := h.1
        simp [trimStart, hc]
      unfold trim
      rw [hstart]
      -- The last character stops the search for blanks from the end.
      rcases List.eq_nil_or_concat (c :: s) with hnil | ⟨t, d, hlast⟩
      · cases hnil
      · rw [List.concat_eq_append] at hlast
        have hd : isBlank d = false := by
          have hend := h.2
          rw [hlast] at hend
          simpa using hend
        rw [hlast]
        exact trimEnd_append_of_not_blank hd t

theorem isTrimmed_trim (s : List Char) : IsTrimmed (trim s) := by
  rcases trimStart_eq_iff.1 (Eq.refl (trimStart s)) with ⟨-, -, -, hstart⟩
  unfold trim
  generalize trimStart s = t at hstart
  induction t using List.reverseRecOn with
  | nil =>
      exact ⟨rfl, rfl⟩
  | append_singleton t c ih =>
      cases hc : isBlank c with
      | true =>
          rw [trimEnd_append_blank hc]
          apply ih
          cases t with
          | nil =>
              rfl
          | cons d t =>
              exact hstart
      | false =>
          rw [trimEnd_append_of_not_blank hc]
          exact ⟨hstart, by simp [hc]⟩

end Text
end ScriptDoc
