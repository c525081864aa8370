import ScriptDoc.Proofs.Text.Nesting
import ScriptDoc.Proofs.Text.Trim
import ScriptDoc.Tag

/-!
# Faults — the tags that cannot be read

- `Tag.TypeCut`            : where the type at the start of a tag's text ends
- `Tag.HasFault`           : what is wrong with a tag
- `Tag.parse_eq_error_iff` : a tag is refused for a fault that it has, and for no other reason
-/

namespace ScriptDoc
namespace Tag

open Text

/-! ## Types -/

/-- A type in braces and the blanks after it are cut off, together with the braces. -/
inductive TypeCut : List Char → List Char → List Char → Prop where
  | untyped {s : List Char} (hstart : s.head? ≠ some '{') : TypeCut s [] s
  | typed {inside blanks rest : List Char} (hinside : IsNested (stepOf '{' '}') inside)
      (hblanks : ∀ c ∈ blanks, isBlank c = true) (hrest : rest.head?.any isBlank = false) :
      TypeCut ('{' :: (inside ++ '}' :: (blanks ++ rest))) inside rest

theorem splitType_of_head_ne {s : List Char} (h : s.head? ≠ some '{') :
    splitType s = some ([], s) := by
  unfold splitType
  split
  · exact absurd rfl h
  · rfl

theorem splitType_brace (s : List Char) :
    splitType ('{' :: s) =
      (untilClose '{' '}' s).map fun (inside, rest) => (inside, trimStart rest) :=
  rfl

theorem splitType_eq_none_iff {s : List Char} :
    splitType s = none ↔ IsUnclosed '{' '}' s := by
  rw [isUnclosed_iff (by decide)]
  constructor
  · intro h
    by_cases hstart : s.head? = some '{'
    · rcases List.head?_eq_some_iff.1 hstart with ⟨t, rfl⟩
      rw [splitType_brace, Option.map_eq_none_iff] at h
      exact ⟨t, rfl, h⟩
    · rw [splitType_of_head_ne hstart] at h
      cases h
  · rintro ⟨t, rfl, hnone⟩
    rw [splitType_brace, hnone]
    rfl

theorem splitType_eq_some_iff {s typeText rest : List Char} :
    splitType s = some (typeText, rest) ↔ TypeCut s typeText rest := by
  constructor
  · intro h
    by_cases hstart : s.head? = some '{'
    · rcases List.head?_eq_some_iff.1 hstart with ⟨t, rfl⟩
      rw [splitType_brace] at h
      rcases Option.map_eq_some_iff.1 h with ⟨⟨inside, after⟩, hclose, hsame⟩
      rcases Prod.mk.inj hsame with ⟨rfl, hafter⟩
      rcases (untilClose_eq_some_iff (by decide)).1 hclose with ⟨rfl, hinside⟩
      rcases trimStart_eq_iff.1 hafter with ⟨blanks, rfl, hblanks, hrest⟩
      exact .typed hinside hblanks hrest
    · rw [splitType_of_head_ne hstart] at h
      cases h
      exact .untyped hstart
  · intro h
    cases h with
    | untyped hstart =>
        exact splitType_of_head_ne hstart
    | @typed _ blanks _ hinside hblanks hrest =>
        have hclose := untilClose_append (by decide) hinside (blanks ++ rest)
        have hrest := trimStart_eq_iff.2 ⟨blanks, rfl, hblanks, hrest⟩
        simp only [splitType_brace, hclose, Option.map_some, hrest]

/-! ## Names -/

theorem splitName_of_head_ne {s : List Char} (h : s.head? ≠ some '[') :
    splitName s = some (firstWord s) := by
  unfold splitName
  split
  · exact absurd rfl h
  · rfl

theorem splitName_bracket (s : List Char) :
    splitName ('[' :: s) =
      (untilClose '[' ']' s).map fun (inside, rest) => ('[' :: (inside ++ [']']), rest) :=
  rfl

theorem splitName_eq_none_iff {s : List Char} :
    splitName s = none ↔ IsUnclosed '[' ']' s := by
  rw [isUnclosed_iff (by decide)]
  constructor
  · intro h
    by_cases hstart : s.head? = some '['
    · rcases List.head?_eq_some_iff.1 hstart with ⟨t, rfl⟩
      rw [splitName_bracket, Option.map_eq_none_iff] at h
      exact ⟨t, rfl, h⟩
    · rw [splitName_of_head_ne hstart] at h
      cases h
  · rintro ⟨t, rfl, hnone⟩
    rw [splitName_bracket, hnone]
    rfl

theorem firstWord_eq_nil_iff {s : List Char} :
    (firstWord s).1 = [] ↔ ∀ c ∈ s, isBlank c = true := by
  rw [← List.dropWhile_eq_nil_iff]
  change (trimStart s).takeWhile (!isBlank ·) = [] ↔ trimStart s = []
  rcases trimStart_eq_iff.1 (Eq.refl (trimStart s)) with ⟨-, -, -, hstart⟩
  cases hrest : trimStart s with
  | nil =>
      simp
  | cons c rest =>
      -- The word has at least the character that is not blank.
      rw [hrest] at hstart
      have hc : isBlank c = false := hstart
      simp [hc]

theorem exists_splitName_nil_iff {s : List Char} :
    (∃ description, splitName s = some ([], description)) ↔ ∀ c ∈ s, isBlank c = true := by
  by_cases hstart : s.head? = some '['
  · rcases List.head?_eq_some_iff.1 hstart with ⟨t, rfl⟩
    constructor
    · rintro ⟨description, hname⟩
      rw [splitName_bracket] at hname
      rcases Option.map_eq_some_iff.1 hname with ⟨cut, -, hsame⟩
      cases hsame
    · intro hblank
      have hbracket := hblank '[' List.mem_cons_self
      cases hbracket
  · rw [splitName_of_head_ne hstart, ← firstWord_eq_nil_iff]
    constructor
    · rintro ⟨description, hname⟩
      exact congrArg Prod.fst (Option.some.inj hname)
    · intro hword
      exact ⟨(firstWord s).2, by rw [← hword]⟩

/-! ## Faults -/

/-- A type that is not closed, and of a tag with a name one that is not closed or missing. -/
inductive HasFault (word text : String) : TagFault → Prop where
  | unclosedType (htype : IsUnclosed '{' '}' text.toList) :
      HasFault word text (.unclosedType word text)
  | unclosedName {typeText rest : List Char} (hnamed : isNamed (canonical word) = true)
      (hcut : TypeCut text.toList typeText rest) (hname : IsUnclosed '[' ']' rest) :
      HasFault word text (.unclosedName word text)
  | noName {typeText rest : List Char} (hnamed : isNamed (canonical word) = true)
      (hcut : TypeCut text.toList typeText rest) (hblank : ∀ c ∈ rest, isBlank c = true) :
      HasFault word text (.noName word text)

variable {word text : String} {fault : TagFault}

theorem hasFault_of_parse (h : parse word text = .error fault) : HasFault word text fault := by
  unfold parse at h
  split at h
  · next htype =>
    cases h
    exact .unclosedType (splitType_eq_none_iff.1 htype)
  · next typeText rest htype =>
    have hcut := splitType_eq_some_iff.1 htype
    simp only at h
    split at h
    · next hnamed =>
      split at h
      · next hname =>
        cases h
        exact .unclosedName hnamed hcut (splitName_eq_none_iff.1 hname)
      · next description hname =>
        cases h
        exact .noName hnamed hcut (exists_splitName_nil_iff.1 ⟨description, hname⟩)
      · cases h
    · -- A tag without a name has nothing more that could be missing.
      split at h
      · cases h
      · split at h
        · cases h
        · cases h

theorem parse_of_hasFault (h : HasFault word text fault) : parse word text = .error fault := by
  cases h with
  | unclosedType htype =>
      simp [parse, splitType_eq_none_iff.2 htype]
  | unclosedName hnamed hcut hname =>
      simp [parse, splitType_eq_some_iff.2 hcut, hnamed, splitName_eq_none_iff.2 hname]
  | noName hnamed hcut hblank =>
      rcases exists_splitName_nil_iff.2 hblank with ⟨description, hname⟩
      simp [parse, splitType_eq_some_iff.2 hcut, hnamed, hname]

theorem parse_eq_error_iff : parse word text = .error fault ↔ HasFault word text fault :=
  ⟨hasFault_of_parse, parse_of_hasFault⟩

end Tag
end ScriptDoc
