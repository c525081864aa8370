import Mathlib.Data.List.Basic
import ScriptDoc.Proofs.Link.Markup

/-!
# References — escaped type names read back

A type name is a link, with the name as it is, or it is spelled with numeric references. The
references can be read back, also where the name itself looks as if it had some.

- `Link.dereference`          : references replaced by their characters, from left to right
- `Link.dereference_escaped`  : reading back undoes escaping
- `Link.Spells`               : what is expected of an escaped text
- `Link.resolve_linked_or_spelled` : a type name is linked or spelled, as the index says
-/

namespace ScriptDoc
namespace Link

/-! ## Reading back -/

/-- The digits of the reference that a text begins with. A number that no character has is no
reference. -/
def referred? : List Char → Option (List Char)
  | '&' :: '#' :: s =>
      match s.takeWhile Char.isDigit, s.dropWhile Char.isDigit with
      | d :: digits, ';' :: _ =>
          if (Nat.ofDigitChars 10 (d :: digits) 0).isValidChar then some (d :: digits) else none
      | _, _ => none
  | _ => none

/-- The characters of a reference that is already dealt with are counted down. -/
def dereferenceFrom : Nat → List Char → List Char
  | _, [] => []
  | skip + 1, _ :: s => dereferenceFrom skip s
  | 0, c :: s =>
      match referred? (c :: s) with
      | some digits =>
          Char.ofNat (Nat.ofDigitChars 10 digits 0) :: dereferenceFrom (digits.length + 2) s
      | none => c :: dereferenceFrom 0 s

def dereference (s : List Char) : List Char :=
  dereferenceFrom 0 s

theorem escapeChar_of_needs {c : Char} (h : needsReference c = true) : escapeChar c = reference c := by
  simp [escapeChar, h]

theorem escapeChar_of_plain {c : Char} (h : needsReference c = false) : escapeChar c = [c] := by
  simp [escapeChar, h]

/-- A character that stands for itself begins no reference. -/
theorem ne_ampersand_of_plain {c : Char} (h : needsReference c = false) : c ≠ '&' := by
  rintro rfl
  exact absurd h (by decide)

theorem referred?_reference (c : Char) (s : List Char) :
    referred? (reference c ++ s) = some (Nat.toDigits 10 c.toNat) := by
  have hdigits : ∀ d ∈ Nat.toDigits 10 c.toNat, d.isDigit = true := fun d hd =>
    Nat.isDigit_of_mem_toDigits (by decide) (by decide) hd
  have hvalue : Nat.ofDigitChars 10 (Nat.toDigits 10 c.toNat) 0 = c.toNat :=
    Nat.ofDigitChars_ten_toDigits
  have hvalid : c.toNat.isValidChar := c.valid
  have htake : (Nat.toDigits 10 c.toNat ++ ';' :: s).takeWhile Char.isDigit =
      Nat.toDigits 10 c.toNat := by
    rw [List.takeWhile_append_of_pos hdigits, List.takeWhile_cons_of_neg (by decide),
      List.append_nil]
  have hdrop : (Nat.toDigits 10 c.toNat ++ ';' :: s).dropWhile Char.isDigit = ';' :: s := by
    rw [List.dropWhile_append_of_pos hdigits, List.dropWhile_cons_of_neg (by decide)]
  cases hfirst : Nat.toDigits 10 c.toNat with
  | nil =>
      exact absurd hfirst Nat.toDigits_ne_nil
  | cons d digits =>
      rw [hfirst] at hvalue htake hdrop
      simp only [reference, hfirst, List.cons_append, List.append_assoc, List.nil_append] at htake hdrop ⊢
      simp only [referred?, htake, hdrop, hvalue, if_pos hvalid]

theorem referred?_cons {c : Char} (h : c ≠ '&') (s : List Char) : referred? (c :: s) = none := by
  unfold referred?
  split
  · next hsame =>
    exact absurd (List.cons.inj hsame).1 h
  · rfl

theorem dereferenceFrom_length_append (t s : List Char) :
    dereferenceFrom t.length (t ++ s) = dereference s := by
  induction t with
  | nil =>
      rfl
  | cons c t ih =>
      exact ih

theorem dereference_reference (c : Char) (s : List Char) :
    dereference (reference c ++ s) = c :: dereference s := by
  have hread := referred?_reference c s
  have hvalue : Nat.ofDigitChars 10 (Nat.toDigits 10 c.toNat) 0 = c.toNat :=
    Nat.ofDigitChars_ten_toDigits
  have hrest : dereferenceFrom ((Nat.toDigits 10 c.toNat).length + 2)
      ('#' :: (Nat.toDigits 10 c.toNat ++ [';'] ++ s)) = dereference s := by
    have hlength : (Nat.toDigits 10 c.toNat).length + 2 =
        ('#' :: (Nat.toDigits 10 c.toNat ++ [';'])).length := by
      simp
    rw [hlength]
    exact dereferenceFrom_length_append _ s
  rw [reference, List.cons_append, List.cons_append] at hread ⊢
  simp only [dereference, dereferenceFrom, hread, hvalue, Char.ofNat_toNat] at hrest ⊢
  rw [hrest]

theorem dereference_plain {c : Char} (h : c ≠ '&') (s : List Char) :
    dereference (c :: s) = c :: dereference s := by
  simp only [dereference, dereferenceFrom, referred?_cons h]

theorem dereference_escaped (s : List Char) : dereference (s.flatMap escapeChar) = s := by
  induction s with
  | nil =>
      rfl
  | cons c s ih =>
      rw [List.flatMap_cons]
      cases hneeds : needsReference c with
      | true =>
          rw [escapeChar_of_needs hneeds, dereference_reference, ih]
      | false =>
          have hc : c ≠ '&' := ne_ampersand_of_plain hneeds
          rw [escapeChar_of_plain hneeds, List.singleton_append, dereference_plain hc, ih]

/-- Only one pass is made: what it puts out is not read again. -/
example : dereference "&#38;#60;".toList = "&#60;".toList := by
  decide

/-! ## Characters of an escaped text -/

theorem mem_reference {c d : Char} (h : d ∈ reference c) :
    d = '&' ∨ d = '#' ∨ d.isDigit = true ∨ d = ';' := by
  simp only [reference, List.mem_cons, List.mem_append, List.not_mem_nil, or_false] at h
  rcases h with hamp | hhash | hdigit | hsemi
  · exact Or.inl hamp
  · exact Or.inr (Or.inl hhash)
  · have hdigit := Nat.isDigit_of_mem_toDigits (by decide) (by decide) hdigit
    exact Or.inr (Or.inr (Or.inl hdigit))
  · exact Or.inr (Or.inr (Or.inr hsemi))

/-- All that a reference is written with may stand in a page. -/
theorem not_needsReference_of_mem {c d : Char} (h : d ∈ escapeChar c) :
    d ≠ '<' ∧ d ≠ '>' ∧ ¬ (0xA0 ≤ d.toNat ∧ d.toNat ≤ 0x9999) := by
  cases hneeds : needsReference c with
  | true =>
      have hmem : d ∈ reference c := escapeChar_of_needs hneeds ▸ h
      rcases mem_reference hmem with rfl | rfl | hdigit | rfl
      · decide
      · decide
      · have hlast : ('9' : Char).toNat = 57 := rfl
        have hrange := Char.isDigit_iff_toNat.1 hdigit
        refine ⟨?_, ?_, by omega⟩
        · rintro rfl
          exact absurd hdigit (by decide)
        · rintro rfl
          exact absurd hdigit (by decide)
      · decide
  | false =>
      have hsame : d = c := List.mem_singleton.1 (escapeChar_of_plain hneeds ▸ h)
      subst hsame
      simp only [needsReference, Bool.or_eq_false_iff, Bool.and_eq_false_iff,
        decide_eq_false_iff_not] at hneeds
      refine ⟨hneeds.1.1.1, hneeds.1.1.2, ?_⟩
      rintro ⟨hlo, hhi⟩
      rcases hneeds.2 with hlo' | hhi'
      · exact hlo' hlo
      · exact hhi' hhi

theorem suffix_of_notMem {c : Char} {t s rest : List Char} (h : c ∉ t) (hsuffix : c :: rest <:+ t ++ s) :
    c :: rest <:+ s := by
  induction t with
  | nil =>
      exact hsuffix
  | cons d t ih =>
      rw [List.mem_cons, not_or] at h
      rw [List.cons_append, List.suffix_cons_iff] at hsuffix
      rcases hsuffix with hsame | hrest
      · exact absurd (List.cons.inj hsame).1 h.1
      · exact ih h.2 hrest

/-- Wherever an ampersand stands in an escaped text, a reference does. -/
theorem reference_of_suffix {s rest : List Char} (h : '&' :: rest <:+ s.flatMap escapeChar) :
    ∃ c more, '&' :: rest = reference c ++ more := by
  induction s with
  | nil =>
      simp at h
  | cons c s ih =>
      rw [List.flatMap_cons] at h
      cases hneeds : needsReference c with
      | true =>
          rw [escapeChar_of_needs hneeds, reference, List.cons_append, List.suffix_cons_iff] at h
          rcases h with hsame | hlater
          · exact ⟨c, s.flatMap escapeChar, hsame⟩
          · have hdigits : '&' ∉ '#' :: (Nat.toDigits 10 c.toNat ++ [';']) := by
              have hdigit : '&' ∉ Nat.toDigits 10 c.toNat := fun hmem =>
                absurd (Nat.isDigit_of_mem_toDigits (by decide) (by decide) hmem) (by decide)
              simp [hdigit]
            exact ih (suffix_of_notMem hdigits hlater)
      | false =>
          have hc : '&' ∉ [c] := by
            simpa using (ne_ampersand_of_plain hneeds).symm
          rw [escapeChar_of_plain hneeds] at h
          exact ih (suffix_of_notMem hc h)

/-! ## Links and escaped texts -/

/-- An escaped text: nothing in it has a meaning in a page but references, and with these replaced it
is the text again. -/
structure Spells (out text : List Char) : Prop where
  noMarkup : ∀ c ∈ out, c ≠ '<' ∧ c ≠ '>' ∧ ¬ (0xA0 ≤ c.toNat ∧ c.toNat ≤ 0x9999)
  references : ∀ rest, '&' :: rest <:+ out → ∃ digits more, digits ≠ [] ∧
    (∀ d ∈ digits, d.isDigit = true) ∧ rest = '#' :: (digits ++ ';' :: more)
  readBack : dereference out = text

theorem spells_escaped (s : String) : Spells (escaped s).toList s.toList := by
  rw [escaped, String.toList_ofList]
  refine ⟨?_, ?_, dereference_escaped s.toList⟩
  · intro c hc
    rcases List.mem_flatMap.1 hc with ⟨d, -, hd⟩
    exact not_needsReference_of_mem hd
  · intro rest hrest
    rcases reference_of_suffix hrest with ⟨c, more, hsame⟩
    refine ⟨Nat.toDigits 10 c.toNat, more, Nat.toDigits_ne_nil, ?_, ?_⟩
    · intro d hd
      exact Nat.isDigit_of_mem_toDigits (by decide) (by decide) hd
    · simpa [reference] using hsame

theorem resolve_of_none {index : Index} {typeName : String}
    (h : index.get? (Name.bare typeName) = none) :
    resolve index typeName = escaped (Name.bare typeName) := by
  simp only [resolve, h]

/-- A type name in the index is a link around the name as it is. Any other is spelled, is no link, and
can be told from all others that are spelled. -/
theorem resolve_linked_or_spelled (index : Index) (typeName : String) :
    match index.get? (Name.bare typeName) with
    | some uid =>
        resolve index typeName = "<a href=\"#" ++ uid ++ "\">" ++ Name.bare typeName ++ "</a>"
    | none =>
        Spells (resolve index typeName).toList (Name.bare typeName).toList ∧
          (∀ uid name, resolve index typeName ≠ anchored uid name) ∧
            ∀ (other : Index) (otherName : String), other.get? (Name.bare otherName) = none →
              resolve other otherName = resolve index typeName →
                Name.bare otherName = Name.bare typeName := by
  cases hget : index.get? (Name.bare typeName) with
  | some uid =>
      simp only [resolve, hget, anchored]
  | none =>
      have hspells := spells_escaped (Name.bare typeName)
      rw [resolve_of_none hget]
      refine ⟨hspells, escaped_ne_anchored (Name.bare typeName), ?_⟩
      intro other otherName hother hsame
      rw [resolve_of_none hother] at hsame
      -- Both are read back from the same text.
      have hback := (spells_escaped (Name.bare otherName)).readBack
      rw [hsame, hspells.readBack] at hback
      exact (String.toList_injective hback).symm

end Link
end ScriptDoc
