import ScriptDoc.Proofs.Context.Shorthand

/-!
# Beginnings — what the beginning of a line excludes

The forms of declaration begin alike, with words that may be there and with names that may be words
themselves. How a line begins decides which of them cannot apply.

- `functionDeclaration?_eq_none_of`, `classDeclaration?_eq_none_of` : nothing is found whatever is
  passed over
- `LeadsToSign` : lines with a name and a sign after it
- `Opened`      : lines with the word of a class or of a variable
- `Begins`      : lines whose first word is known
-/

namespace ScriptDoc
namespace Context

open Text Lexeme

/-! ## Words that may be there -/

def ledIf (present : Bool) (word : String) (s : List Char) : List Char :=
  led (if present then some word else none) s

theorem ledIf_append (present : Bool) (word : String) (s t : List Char) :
    ledIf present word (s ++ t) = ledIf present word s ++ t :=
  led_append _ s t

/-! ## The forms with a keyword -/

/-- The words that may stand before the word of a function. -/
def functionLeads : List String :=
  ["export", "default", "async"]

/-- If nothing is a function whatever is passed over, there is no function. -/
theorem functionDeclaration?_eq_none_of {P : List Char → Prop} {s : List Char}
    (hhead : ∀ t, P t → functionHead? t = none)
    (hpart : ∀ word ∈ functionLeads, ∀ s t, P s → keyword? word s = some t → P t)
    (hs : P s) : functionDeclaration? s = none := by
  have hasync : ∀ t, P t → optionally (keyword? "async") functionHead? t = none :=
    fun t ht => optionally_eq_none hhead ht (hpart "async" (by decide) t · ht)
  have hdefault : ∀ t, P t →
      optionally (keyword? "default") (optionally (keyword? "async") functionHead?) t = none :=
    fun t ht => optionally_eq_none hasync ht (hpart "default" (by decide) t · ht)
  exact optionally_eq_none hdefault hs (hpart "export" (by decide) s · hs)

theorem classDeclaration?_eq_none_of {P : List Char → Prop} {s : List Char}
    (hhead : ∀ t, P t → classHead? t = none)
    (hpart : ∀ word ∈ functionLeads, ∀ s t, P s → keyword? word s = some t → P t)
    (hs : P s) : classDeclaration? s = none := by
  have hdefault : ∀ t, P t → optionally (keyword? "default") classHead? t = none :=
    fun t ht => optionally_eq_none hhead ht (hpart "default" (by decide) t · ht)
  exact optionally_eq_none hdefault hs (hpart "export" (by decide) s · hs)

theorem isIdentifier_functionLead : ∀ word ∈ functionLeads, IsIdentifier word.toList := by
  decide +kernel

/-! ## Lines that lead to a sign -/

/-- The signs that follow a name that is assigned to, given a value or followed by a member. -/
def isSign (c : Char) : Bool :=
  c == '.' || c == ':' || c == '='

theorem eq_of_isSign {c : Char} (h : isSign c = true) : c = '.' ∨ c = ':' ∨ c = '=' := by
  simpa [isSign, or_assoc] using h

theorem isIdent_of_isSign {c : Char} (h : isSign c = true) : isIdent c = false := by
  rcases eq_of_isSign h with rfl | rfl | rfl
  · rfl
  · rfl
  · rfl

/-- A sign is no parenthesis, no star and no name. -/
theorem read_sign {c : Char} (h : isSign c = true) (t : List Char) :
    word? "(" (c :: t) = none ∧ word? "*" (c :: t) = none ∧ identifier? (c :: t) = none := by
  have hname : identifier? (c :: t) = none := identifier?_eq_none (isIdent_of_isSign h)
  rcases eq_of_isSign h with rfl | rfl | rfl
  · exact ⟨rfl, rfl, hname⟩
  · exact ⟨rfl, rfl, hname⟩
  · exact ⟨rfl, rfl, hname⟩

theorem isSign_of_trimStart_run {run rest t : List Char} {c : Char} (hrun : IsIdentifier run)
    (h : trimStart (run ++ rest) = c :: t) : isSign c = false := by
  rw [trimStart_run hrun] at h
  rcases List.exists_cons_of_ne_nil hrun.1 with ⟨d, others, rfl⟩
  obtain rfl : d = c := (List.cons.inj h).1
  cases hsign : isSign d with
  | false =>
      rfl
  | true =>
      have hident : isIdent d = true := hrun.2 d List.mem_cons_self
      rw [isIdent_of_isSign hsign] at hident
      cases hident

/-- Texts with nothing but an identifier, or not even that, before a sign. -/
inductive LeadsToSign : List Char → Prop where
  | named {run rest t : List Char} {c : Char} (hrun : IsIdentifier run)
      (hstop : rest.head?.any isIdent = false) (hrest : trimStart rest = c :: t)
      (hsign : isSign c = true) : LeadsToSign (run ++ rest)
  | sign {s t : List Char} {c : Char} (hs : trimStart s = c :: t) (hsign : isSign c = true) :
      LeadsToSign s

namespace LeadsToSign

variable {c : Char} {s t : List Char} {word : String}

theorem of_isSign (h : isSign c = true) (t : List Char) : LeadsToSign (c :: t) := by
  refine .sign (c := c) (t := t) ?_ h
  rcases eq_of_isSign h with rfl | rfl | rfl
  · rfl
  · rfl
  · rfl

theorem trimStart (h : LeadsToSign s) : LeadsToSign (trimStart s) := by
  cases h with
  | named hrun hstop hrest hsign =>
      rw [trimStart_run hrun]
      exact .named hrun hstop hrest hsign
  | sign hs hsign =>
      rw [hs]
      exact of_isSign hsign _

/-- What follows a keyword is the sign. -/
theorem of_keyword? (h : LeadsToSign s) (hword : IsIdentifier word.toList)
    (hread : keyword? word s = some t) : ∃ c u, t = c :: u ∧ isSign c = true := by
  cases h with
  | @named run rest u c hrun hstop hrest hsign =>
      rw [keyword?_run hword.2 hrun.2 hstop] at hread
      split at hread
      · exact ⟨c, u, (trimStart_of_blanks? hread).symm.trans hrest, hsign⟩
      · cases hread
  | sign hs hsign =>
      -- The word would be where the sign is.
      rcases keyword?_eq_some_iff.1 hread with ⟨blanks, -, -, rfl, -⟩
      rw [isSign_of_trimStart_run hword hs] at hsign
      cases hsign

theorem of_functionLead : ∀ word ∈ functionLeads, ∀ s t, LeadsToSign s →
    keyword? word s = some t → LeadsToSign t := by
  intro word hword s t hs hread
  rcases hs.of_keyword? (isIdentifier_functionLead word hword) hread with ⟨c, u, rfl, hsign⟩
  exact of_isSign hsign u

theorem namedFunction?_eq_none (h : LeadsToSign s) : namedFunction? s = none := by
  unfold namedFunction?
  cases h with
  | named hrun hstop hrest hsign =>
      rw [trimStart_run hrun, identifier?_run hrun hstop]
      simp [hrest, (read_sign hsign _).1]
  | sign hs hsign =>
      rw [hs, (read_sign hsign _).2.2]
      rfl

theorem word?_star_eq_none (h : LeadsToSign s) : word? "*" (Text.trimStart s) = none := by
  cases h with
  | named hrun hstop hrest hsign =>
      rw [trimStart_run hrun]
      exact word?_star_run hrun
  | sign hs hsign =>
      rw [hs]
      exact (read_sign hsign _).2.1

/-- What is left of a name that goes on after the word of a function leads to the sign too. -/
theorem of_functionWord (h : LeadsToSign s) (hread : word? "function" s = some t) :
    LeadsToSign t := by
  cases h with
  | @named run rest u c hrun hstop hrest hsign =>
      rw [word?_run isIdentifier_functionWord.2 hstop] at hread
      rcases Option.map_eq_some_iff.1 hread with ⟨own, hown, rfl⟩
      by_cases hnil : own = []
      · rw [hnil]
        exact .sign hrest hsign
      · refine .named ⟨hnil, fun c hc => hrun.2 c ?_⟩ hstop hrest hsign
        rw [after?_eq_some_iff.1 hown]
        exact List.mem_append_right _ hc
  | sign hs hsign =>
      rw [word?_eq_some_iff.1 hread] at hs
      rw [isSign_of_trimStart_run isIdentifier_functionWord hs] at hsign
      cases hsign

theorem functionHead?_eq_none (h : LeadsToSign s) : functionHead? s = none := by
  rw [functionHead?]
  cases hread : word? "function" s with
  | none =>
      rfl
  | some rest =>
      have hrest := h.of_functionWord hread
      rw [Option.bind_eq_bind, Option.bind_some, optionally_of_eq_none hrest.word?_star_eq_none]
      exact hrest.trimStart.namedFunction?_eq_none

theorem functionDeclaration?_eq_none (h : LeadsToSign s) : functionDeclaration? s = none :=
  functionDeclaration?_eq_none_of (fun _ => functionHead?_eq_none) of_functionLead h

/-- A sign is no name. -/
theorem bind_identifier?_eq_none {α : Type} {part : List Char → Option (List Char)}
    (hpart : ∀ t, part s = some t → ∃ c u, t = c :: u ∧ isSign c = true)
    (next : List Char × List Char → Option α) :
    (part s).bind (fun rest => (identifier? rest).bind next) = none := by
  cases hread : part s with
  | none =>
      rfl
  | some rest =>
      rcases hpart rest hread with ⟨c, u, rfl, hsign⟩
      rw [Option.bind_some, (read_sign hsign u).2.2]
      rfl

theorem classDeclaration?_eq_none (h : LeadsToSign s) : classDeclaration? s = none := by
  have hclass := isIdentifier_openingWord "class" (by decide)
  exact classDeclaration?_eq_none_of
    (fun _ ht => bind_identifier?_eq_none (fun _ => ht.of_keyword? hclass) _) of_functionLead h

theorem of_variableKeyword? (h : LeadsToSign s) (hread : variableKeyword? s = some t) :
    ∃ c u, t = c :: u ∧ isSign c = true := by
  rcases Option.or_eq_some_iff.1 hread with hvar | ⟨-, hother⟩
  · exact h.of_keyword? (isIdentifier_openingWord "var" (by decide)) hvar
  · rcases Option.or_eq_some_iff.1 hother with hlet | ⟨-, hconst⟩
    · exact h.of_keyword? (isIdentifier_openingWord "let" (by decide)) hlet
    · exact h.of_keyword? (isIdentifier_openingWord "const" (by decide)) hconst

theorem variableDeclaration?_eq_none (h : LeadsToSign s) : variableDeclaration? s = none := by
  rw [variableDeclaration?]
  exact optionally_eq_none
    (fun _ ht => bind_identifier?_eq_none (fun _ => ht.of_variableKeyword?) _) h
    (of_functionLead "export" (by decide) s · h)

end LeadsToSign

/-! ## Lines that open with a keyword -/

/-- The words of the forms other than functions. -/
def declaringWords : List String :=
  ["class", "var", "let", "const"]

/-- Texts that open with one of the words, with nothing but words of an export before it. -/
inductive Opened (words : List String) : List Char → Prop where
  | word {word : String} (hmem : word ∈ words) (s : List Char) :
      Opened words (word.toList ++ ' ' :: s)
  | exported {word : String} {s : List Char} (hmem : word ∈ ["export", "default"])
      (h : Opened words s) : Opened words (word.toList ++ ' ' :: s)

namespace Opened

variable {words : List String} {s t : List Char} {word : String}

/-- The first word is one of those that open a line, whichever of the two it is. -/
theorem exists_word (h : Opened words s) (hwords : words ⊆ declaringWords) :
    ∃ word t, s = word.toList ++ ' ' :: t ∧ word ∈ openingWords ∧
      (word ∈ words ∨ word ∈ ["export", "default"] ∧ Opened words t) := by
  have hdeclaring : declaringWords ⊆ openingWords := by
    decide
  have hexporting : ["export", "default"] ⊆ openingWords := by
    decide
  cases h with
  | word hmem s =>
      exact ⟨_, s, rfl, hdeclaring (hwords hmem), .inl hmem⟩
  | exported hmem h =>
      exact ⟨_, _, rfl, hexporting hmem, .inr ⟨hmem, h⟩⟩

theorem trimStart_eq (h : Opened words s) (hwords : words ⊆ declaringWords) :
    trimStart s = s := by
  rcases h.exists_word hwords with ⟨word, t, rfl, hopening, -⟩
  exact trimStart_run (isIdentifier_openingWord word hopening) _

theorem keyword?_eq (hopening : word ∈ openingWords) {other : String}
    (hother : IsIdentifier other.toList) (t : List Char) :
    keyword? other (word.toList ++ ' ' :: t) =
      if word = other then some (trimStart t) else none := by
  rw [keyword?_run hother.2 (isIdentifier_openingWord word hopening).2 rfl]
  simp only [String.toList_inj]
  rfl

theorem of_functionLead (hwords : words ⊆ declaringWords) :
    ∀ word ∈ functionLeads, ∀ s t, Opened words s → keyword? word s = some t →
      Opened words t := by
  have hdisjoint : ∀ word ∈ functionLeads, word ∉ declaringWords := by
    decide
  intro word hword s t hs hread
  rcases hs.exists_word hwords with ⟨first, u, rfl, hopening, hfirst⟩
  rw [keyword?_eq hopening (isIdentifier_functionLead word hword)] at hread
  split at hread
  · next hsame =>
    rcases hfirst with hmem | ⟨-, hu⟩
    · exact absurd (hwords hmem) (hsame ▸ hdisjoint word hword)
    · cases hread
      rwa [hu.trimStart_eq hwords]
  · cases hread

theorem functionHead?_eq_none (h : Opened words s) (hwords : words ⊆ declaringWords) :
    functionHead? s = none := by
  have hafter : ∀ word ∈ openingWords, after? "function".toList word.toList = none := by
    decide
  rcases h.exists_word hwords with ⟨word, t, rfl, hopening, -⟩
  rw [functionHead?, word?_run isIdentifier_functionWord.2 rfl, hafter word hopening]
  rfl

theorem functionDeclaration?_eq_none (h : Opened words s) (hwords : words ⊆ declaringWords) :
    functionDeclaration? s = none :=
  functionDeclaration?_eq_none_of (fun _ ht => ht.functionHead?_eq_none hwords)
    (of_functionLead hwords) h

theorem classHead?_eq_none (h : Opened words s) (hwords : words ⊆ declaringWords)
    (hclass : "class" ∉ words) : classHead? s = none := by
  rcases h.exists_word hwords with ⟨word, t, rfl, hopening, hfirst⟩
  have hne : word ≠ "class" := by
    rintro rfl
    rcases hfirst with hmem | ⟨hmem, -⟩
    · exact hclass hmem
    · exact absurd hmem (by decide)
  rw [classHead?, keyword?_eq hopening (isIdentifier_openingWord "class" (by decide)),
    if_neg hne]
  rfl

theorem classDeclaration?_eq_none (h : Opened words s) (hwords : words ⊆ declaringWords)
    (hclass : "class" ∉ words) : classDeclaration? s = none :=
  classDeclaration?_eq_none_of (fun _ ht => ht.classHead?_eq_none hwords hclass)
    (of_functionLead hwords) h

theorem memberAssignment?_eq_none (h : Opened words s) (hwords : words ⊆ declaringWords) :
    memberAssignment? s = none := by
  rcases h.exists_word hwords with ⟨word, t, rfl, hopening, -⟩
  rw [memberAssignment?, path?_run (isIdentifier_openingWord word hopening) rfl]
  rfl

theorem ledIf (h : Opened words s) (hmem : word ∈ ["export", "default"]) (present : Bool) :
    Opened words (ledIf present word s) := by
  cases present with
  | false =>
      exact h
  | true =>
      exact .exported hmem h

end Opened

/-! ## Words that are there -/

/-- Texts whose first run of characters is one of the words. -/
def Begins (words : List String) (s : List Char) : Prop :=
  ∃ word ∈ words, ∃ rest, s = word.toList ++ rest ∧ IsIdentifier word.toList ∧
    rest.head?.any isIdent = false

namespace Begins

variable {words : List String} {s : List Char} {word : String}

theorem trimStart_eq (h : Begins words s) : trimStart s = s := by
  rcases h with ⟨first, -, rest, rfl, hfirst, -⟩
  exact trimStart_run hfirst rest

theorem head? (h : Begins words s) : s.head?.any isBlank = false := by
  rw [← h.trimStart_eq]
  exact head?_dropWhile isBlank s

theorem keyword?_eq_none (h : Begins words s) (hword : IsIdentifier word.toList)
    (hmem : word ∉ words) : keyword? word s = none := by
  rcases h with ⟨first, hfirst, rest, rfl, hchars, hstop⟩
  have hne : first.toList ≠ word.toList := by
    intro hsame
    exact hmem (String.toList_inj.1 hsame ▸ hfirst)
  rw [keyword?_run hword.2 hchars.2 hstop, if_neg hne]

theorem ledIf (h : Begins words s) (hword : IsIdentifier word.toList) (present : Bool) :
    Begins (word :: words) (ledIf present word s) := by
  cases present with
  | false =>
      rcases h with ⟨first, hfirst, rest, hs⟩
      exact ⟨first, List.mem_cons_of_mem word hfirst, rest, hs⟩
  | true =>
      exact ⟨word, List.mem_cons_self, ' ' :: s, rfl, hword, rfl⟩

/-- What is read after a word is read after a word that may be there. -/
theorem optionally_ledIf {α : Type} {next : List Char → Option α} {a : α} (h : Begins words s)
    (hword : IsIdentifier word.toList) (hmem : word ∉ words) (hnext : next s = some a)
    (present : Bool) :
    optionally (keyword? word) next (Context.ledIf present word s) = some a := by
  cases present with
  | false =>
      exact (optionally_of_eq_none (h.keyword?_eq_none hword hmem)).trans hnext
  | true =>
      have htaken : keyword? word (word.toList ++ ' ' :: s) = some s :=
        keyword?_self hword.2 h.trimStart_eq
      refine (optionally_of_eq_some htaken).trans ?_
      rw [hnext]
      rfl

end Begins

end Context
end ScriptDoc
