import ScriptDoc.Tag

/-!
# Parts — what a tag keeps of its word and its text

- `Tag.word_of_parse`, `Tag.text_of_parse` : the word that is stood for, and all of the text
- `Tag.name_ne_empty_of_parse`             : parameters and properties have names
- `Tag.parse_word`                         : a tag can be read again under the word it was given
-/

namespace ScriptDoc
namespace Tag

theorem canonical_canonical (word : String) : canonical (canonical word) = canonical word := by
  unfold canonical
  split
  · decide
  · split
    · decide
    · rfl

/-! ## Tags that were read -/

variable {word text : String} {tag : Tag}

theorem parts_of_parse (h : parse word text = .ok tag) :
    tag.word = canonical word ∧ tag.text = text ∧
      (isNamed (canonical word) = true → tag.name ≠ "") := by
  unfold parse at h
  split at h
  · cases h
  · simp only at h
    split at h
    · next hnamed =>
      -- The word stands for one with a name, so the text must have had one.
      split at h
      · cases h
      · cases h
      · next name description hsome _ =>
        cases h
        refine ⟨rfl, rfl, ?_⟩
        intro _ hempty
        exact hsome (String.ofList_eq_empty_iff.1 hempty)
    · next hother =>
      split at h
      · cases h
        exact ⟨rfl, rfl, fun hnamed => absurd hnamed hother⟩
      · split at h
        · cases h
          exact ⟨rfl, rfl, fun hnamed => absurd hnamed hother⟩
        · cases h
          exact ⟨rfl, rfl, fun hnamed => absurd hnamed hother⟩

theorem word_of_parse (h : parse word text = .ok tag) : tag.word = canonical word :=
  (parts_of_parse h).1

theorem text_of_parse (h : parse word text = .ok tag) : tag.text = text :=
  (parts_of_parse h).2.1

theorem name_ne_empty_of_parse (h : parse word text = .ok tag) (hnamed : isNamed tag.word = true) :
    tag.name ≠ "" := by
  rw [word_of_parse h] at hnamed
  exact (parts_of_parse h).2.2 hnamed

/-! ## Reading a tag again -/

/-- The word that is written matters only for what it stands for, once a tag can be read. -/
theorem parse_of_canonical_eq {other : String} (h : parse word text = .ok tag)
    (hsame : canonical other = canonical word) : parse other text = .ok tag := by
  unfold parse at h ⊢
  rw [hsame]
  cases htype : splitType text.toList with
  | none =>
      rw [htype] at h
      cases h
  | some parts =>
      rcases parts with ⟨typeText, rest⟩
      rw [htype] at h
      simp only at h ⊢
      split at h
      · next hnamed =>
        rw [if_pos hnamed]
        split at h
        · cases h
        · cases h
        · exact h
      · next hother =>
        rw [if_neg hother]
        exact h

theorem parse_word (h : parse word text = .ok tag) : parse tag.word tag.text = .ok tag := by
  rw [word_of_parse h, text_of_parse h]
  exact parse_of_canonical_eq h (canonical_canonical word)

end Tag
end ScriptDoc
