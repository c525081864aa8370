import ScriptDoc.Text.Lower

/-!
# Lower — what lower-casing leaves of a text

A small letter may depend on the characters around it, as far as the next one that has no case and is
not passed over. At such a character a text can be cut.

- `IsBreak`                 : characters that end the surroundings of a letter
- `lower_append_break`      : both sides of a break are lower-cased on their own
- `isUpper_of_mem_lower`  : no capital ASCII letter is left, nor does one come about
- `lower_eq_self`           : small ASCII texts stay as they are
-/

namespace ScriptDoc
namespace Text

/-! ## Surroundings of a letter -/

/-- Nothing past such a character has to do with the case of a letter before it, or the other way
round. -/
structure IsBreak (c : Char) : Prop where
  uncased : isCased c = false
  stops : isCaseIgnorable c = false
  single : c ≠ 'İ' ∧ c ≠ 'Σ'

theorem isBreak_hyphen : IsBreak '-' :=
  ⟨by decide +kernel, by decide +kernel, by decide⟩

variable {c : Char}

theorem meetsCased_append_break (h : IsBreak c) (s t : List Char) :
    meetsCased (s ++ c :: t) = meetsCased s := by
  induction s with
  | nil =>
      simp [meetsCased, h.stops, h.uncased]
  | cons d s ih =>
      simp only [List.cons_append, meetsCased, ih]

theorem lowerFrom_append_break (h : IsBreak c) (before s t : List Char) :
    lowerFrom before (s ++ c :: t) =
      lowerFrom before s ++ lowerFrom (s.reverse ++ before) (c :: t) := by
  induction s generalizing before with
  | nil =>
      rfl
  | cons d s ih =>
      have hahead : meetsCased (s ++ c :: t) = meetsCased s := meetsCased_append_break h s t
      have hrest := ih (d :: before)
      simp only [List.cons_append, lowerFrom, hahead, hrest, List.append_assoc, List.reverse_cons,
        List.nil_append]

/-- What was read before a break does not count. -/
theorem lowerFrom_past_break (h : IsBreak c) (before further s : List Char) :
    lowerFrom (before ++ c :: further) s = lowerFrom before s := by
  induction s generalizing before with
  | nil =>
      rfl
  | cons d s ih =>
      have hbehind : meetsCased (before ++ c :: further) = meetsCased before :=
        meetsCased_append_break h before further
      have hrest := ih (d :: before)
      rw [List.cons_append] at hrest
      simp only [lowerFrom, hbehind, hrest]

theorem lower_append_break (h : IsBreak c) (s t : List Char) :
    lower (s ++ c :: t) = lower s ++ lowerLetter c :: lower t := by
  have hafter : ∀ before, lowerFrom before (c :: t) = lowerLetter c :: lower t := by
    intro before
    have hpast : lowerFrom (c :: before) t = lowerFrom [] t := lowerFrom_past_break h [] before t
    simp only [lowerFrom, if_neg h.single.1, if_neg h.single.2, hpast, lower,
      List.singleton_append]
  unfold lower
  rw [lowerFrom_append_break h, hafter]
  rfl

/-! ## Capital letters -/

theorem isUpper_iff : c.isUpper = true ↔ 65 ≤ c.toNat ∧ c.toNat ≤ 90 := by
  have hrange : c.isUpper = decide (65 ≤ c.toNat ∧ c.toNat ≤ 90) := rfl
  rw [hrange, decide_eq_true_eq]

/-- Every shift leads past the capital ASCII letters. -/
theorem lt_shifted_of_mem {lo hi step : Nat} {shift : Int} (h : (lo, hi, step, shift) ∈ lowerShifts) :
    90 < (lo : Int) + shift := by
  have hall : lowerShifts.all (fun entry => decide (90 < (entry.1 : Int) + entry.2.2.2)) = true := by
    decide +kernel
  simpa using List.all_eq_true.1 hall _ h

theorem isUpper_ofNat {n : Nat} (h : 90 < n) : (Char.ofNat n).isUpper = false := by
  by_cases hvalid : n.isValidChar
  · have hchar : Char.ofNat n = Char.ofNatAux n hvalid := dif_pos hvalid
    have hnat : (Char.ofNatAux n hvalid).toNat = n := UInt32.toNat_ofNatLT
    rw [hchar, Bool.eq_false_iff, Ne, isUpper_iff, hnat]
    omega
  · -- What is no character goes for the first one of all.
    have hchar : Char.ofNat n = '\x00' := dif_neg hvalid
    rw [hchar]
    decide

theorem toLower_eq_self (h : c.isUpper = false) : c.toLower = c :=
  dif_neg (of_decide_eq_false h)

/-- A capital letter is moved past all of them. -/
theorem isUpper_toLower (c : Char) : c.toLower.isUpper = false := by
  cases hupper : c.isUpper with
  | false =>
      rw [toLower_eq_self hupper, hupper]
  | true =>
      have hrange := isUpper_iff.1 hupper
      have hlower : c.toLower.val = c.val + 32 :=
        congrArg Char.val (dif_pos (of_decide_eq_true hupper))
      have hmoved : c.toLower.toNat = c.toNat + 32 := by
        refine (congrArg UInt32.toNat hlower).trans ((UInt32.toNat_add _ _).trans ?_)
        refine Nat.mod_eq_of_lt ?_
        exact Nat.lt_trans (Nat.add_lt_add_right (Nat.lt_succ_of_le hrange.2) 32) (by decide)
      rw [Bool.eq_false_iff, Ne, isUpper_iff, hmoved]
      omega

theorem isUpper_lowerLetter (c : Char) : (lowerLetter c).isUpper = false := by
  unfold lowerLetter
  split
  · exact isUpper_toLower c
  · next hascii =>
    split
    · next lo hi step shift hfound =>
      have hrange := List.find?_some hfound
      have hshifted := lt_shifted_of_mem (List.mem_of_find?_eq_some hfound)
      have hlo : lo ≤ c.toNat := by
        simp only [Bool.and_eq_true, decide_eq_true_eq] at hrange
        exact hrange.1.1
      exact isUpper_ofNat (by omega)
    · rw [Bool.eq_false_iff, Ne, isUpper_iff]
      omega

theorem isUpper_of_mem_lowerFrom {before s : List Char} (h : c ∈ lowerFrom before s) :
    c.isUpper = false := by
  induction s generalizing before with
  | nil =>
      cases h
  | cons d s ih =>
      rw [lowerFrom, List.mem_append] at h
      rcases h with hsmall | hrest
      · split at hsmall
        · rcases List.mem_cons.1 hsmall with rfl | hdot
          · decide
          · rw [List.mem_singleton.1 hdot]
            decide
        · split at hsmall
          · rw [List.mem_singleton.1 hsmall]
            split <;> decide
          · rw [List.mem_singleton.1 hsmall]
            exact isUpper_lowerLetter d
      · exact ih hrest

theorem isUpper_of_mem_lower {s : List Char} (h : c ∈ lower s) : c.isUpper = false :=
  isUpper_of_mem_lowerFrom h

/-! ## Small texts -/

theorem lowerLetter_eq_self (hascii : c.toNat < 128) (hsmall : c.isUpper = false) :
    lowerLetter c = c := by
  rw [lowerLetter, if_pos hascii]
  exact toLower_eq_self hsmall

theorem lowerFrom_eq_self {s : List Char} (h : ∀ c ∈ s, c.toNat < 128 ∧ c.isUpper = false)
    (before : List Char) : lowerFrom before s = s := by
  induction s generalizing before with
  | nil =>
      rfl
  | cons c s ih =>
      rcases List.forall_mem_cons.1 h with ⟨⟨hascii, hsmall⟩, hrest⟩
      have hdot : c ≠ 'İ' := by
        rintro rfl
        exact absurd hascii (by decide)
      have hsigma : c ≠ 'Σ' := by
        rintro rfl
        exact absurd hascii (by decide)
      simp only [lowerFrom, if_neg hdot, if_neg hsigma, lowerLetter_eq_self hascii hsmall, ih hrest,
        List.singleton_append]

theorem lower_eq_self {s : List Char} (h : ∀ c ∈ s, c.toNat < 128 ∧ c.isUpper = false) :
    lower s = s :=
  lowerFrom_eq_self h []

end Text
end ScriptDoc
