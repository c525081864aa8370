import ScriptDoc.Context.Reader
import ScriptDoc.Proofs.Context.Lexemes

/-!
# Shorthand — the line of a method that has no keyword of its own

Such a line is a name with parameters and a brace, with a few modifiers before the name. Its form
is the last one to be tried, so no other form may apply to it.

- `Shorthand`, `Shorthand.line` : the lines of that form
- `LeadsToCall`                 : what such a line and its parts look like to the other forms
- `shorthandName?_line`         : the name is read off the line in whole
- `ofCode?_line_iff`            : the line is that of a method of its name, unless the name goes on
  after the word `function`
-/

namespace ScriptDoc
namespace Context

open Text Lexeme

/-! ## Lines -/

inductive Accessor where
  | get
  | set
  deriving DecidableEq, Repr

def Accessor.word : Accessor → String
  | .get => "get"
  | .set => "set"

structure Modifiers where
  isStatic : Bool
  isAsync : Bool
  accessor : Option Accessor
  isGenerator : Bool
  deriving DecidableEq, Repr

/-- A text with a word before it, if there is one. -/
def led : Option String → List Char → List Char
  | some word, s => word.toList ++ ' ' :: s
  | none, s => s

namespace Modifiers

def starred (m : Modifiers) (s : List Char) : List Char :=
  if m.isGenerator then '*' :: s else s

def accessed (m : Modifiers) (s : List Char) : List Char :=
  led (m.accessor.map Accessor.word) (m.starred s)

def asynchronous (m : Modifiers) (s : List Char) : List Char :=
  led (if m.isAsync then some "async" else none) (m.accessed s)

/-- A text with all of the modifiers before it. -/
def before (m : Modifiers) (s : List Char) : List Char :=
  led (if m.isStatic then some "static" else none) (m.asynchronous s)

end Modifiers

structure Shorthand where
  modifiers : Modifiers
  name : List Char
  parameters : List Char
  isIdentifier : IsIdentifier name
  closes : ')' ∉ parameters

def Shorthand.call (l : Shorthand) (tail : List Char) : List Char :=
  l.name ++ '(' :: (l.parameters ++ ')' :: ' ' :: '{' :: tail)

def Shorthand.line (l : Shorthand) (tail : List Char) : List Char :=
  l.modifiers.before (l.call tail)

theorem led_append (word : Option String) (s t : List Char) :
    led word (s ++ t) = led word s ++ t := by
  cases word with
  | none =>
      rfl
  | some word =>
      simp [led]

theorem Modifiers.before_append (m : Modifiers) (s t : List Char) :
    m.before (s ++ t) = m.before s ++ t := by
  have hstarred : m.starred (s ++ t) = m.starred s ++ t := by
    unfold starred
    split <;> rfl
  simp only [before, asynchronous, accessed, hstarred, led_append]

/-! ## What leads to a call -/

/-- Texts with nothing but some of these words, and a star, before a name that is called. -/
inductive LeadsToCall (words : List String) : List Char → Prop where
  | call {name : List Char} (hname : IsIdentifier name) (s : List Char) :
      LeadsToCall words (name ++ '(' :: s)
  | generator (s : List Char) : LeadsToCall words ('*' :: s)
  | modified {word : String} {s : List Char} (hmem : word ∈ words)
      (hword : IsIdentifier word.toList) (h : LeadsToCall words s) :
      LeadsToCall words (word.toList ++ ' ' :: s)

namespace LeadsToCall

variable {words others : List String} {word : String} {s t name rest : List Char}

theorem mono (h : LeadsToCall words s) (hsub : words ⊆ others) : LeadsToCall others s := by
  induction h with
  | call hname s =>
      exact .call hname s
  | generator s =>
      exact .generator s
  | modified hmem hword _ ih =>
      exact .modified (hsub hmem) hword ih

/-- A name, a star or a word is at the start. -/
theorem exists_cons (h : LeadsToCall words s) :
    ∃ c rest, s = c :: rest ∧ (c = '*' ∨ isIdent c = true) := by
  have hrun : ∀ {run rest : List Char}, IsIdentifier run →
      ∃ c others, run ++ rest = c :: others ∧ (c = '*' ∨ isIdent c = true) := by
    intro run rest hrun
    rcases List.exists_cons_of_ne_nil hrun.1 with ⟨c, others, rfl⟩
    exact ⟨c, others ++ rest, rfl, .inr (hrun.2 c List.mem_cons_self)⟩
  cases h with
  | call hname s =>
      exact hrun hname
  | generator s =>
      exact ⟨'*', s, rfl, .inl rfl⟩
  | modified _ hword _ =>
      exact hrun hword

theorem trimStart_eq (h : LeadsToCall words s) : trimStart s = s := by
  rcases h.exists_cons with ⟨c, rest, rfl, rfl | hc⟩
  · rfl
  · exact trimStart_of_isIdent hc rest

/-- A keyword is one of the words, and what follows it leads to the call still. -/
theorem of_keyword? (h : LeadsToCall words s) (hchars : IsIdentifier word.toList)
    (hread : keyword? word s = some t) : word ∈ words ∧ LeadsToCall words t := by
  cases h with
  | call hname s =>
      -- A parenthesis or a star comes where the blank after a keyword would be.
      rw [keyword?_run hchars.2 hname.2 rfl] at hread
      split at hread <;> cases hread
  | generator s =>
      rw [← List.nil_append ('*' :: s), keyword?_run hchars.2 (by simp) rfl] at hread
      split at hread <;> cases hread
  | @modified first s hmem hword h =>
      rw [keyword?_run hchars.2 hword.2 rfl] at hread
      split at hread
      · next hsame =>
        have ht : trimStart s = t := Option.some.inj hread
        rw [← ht, h.trimStart_eq, ← String.toList_inj.1 hsame]
        exact ⟨hmem, h⟩
      · cases hread

theorem keyword?_eq_none (h : LeadsToCall words s) (hchars : IsIdentifier word.toList)
    (hmem : word ∉ words) : keyword? word s = none := by
  cases hread : keyword? word s with
  | none =>
      rfl
  | some t =>
      exact absurd (h.of_keyword? hchars hread).1 hmem

theorem keyword?_word (h : LeadsToCall words s) (hchars : IsIdentifier word.toList) :
    keyword? word (word.toList ++ ' ' :: s) = some s :=
  keyword?_self hchars.2 h.trimStart_eq

/-- Neither a colon nor an equals sign follows what is read as a name. -/
theorem rest_of_identifier? (h : LeadsToCall words s)
    (hread : identifier? s = some (name, rest)) :
    ∃ c t, trimStart rest = c :: t ∧ c ≠ ':' ∧ c ≠ '=' := by
  have hrest : trimStart rest = rest ∧ (∃ t, rest = '(' :: t) ∨
      ∃ t, LeadsToCall words t ∧ trimStart rest = t := by
    cases h with
    | call hname s =>
        rw [identifier?_run hname rfl] at hread
        cases hread
        exact .inl ⟨rfl, s, rfl⟩
    | generator s =>
        rw [identifier?_eq_none rfl] at hread
        cases hread
    | modified _ hword h =>
        rw [identifier?_run hword rfl] at hread
        cases hread
        exact .inr ⟨_, h, h.trimStart_eq⟩
  rcases hrest with ⟨htrim, t, rfl⟩ | ⟨t, ht, htrim⟩
  · exact ⟨'(', t, htrim, by decide, by decide⟩
  · rcases ht.exists_cons with ⟨c, others, rfl, hc⟩
    refine ⟨c, others, htrim, ?_, ?_⟩
    · rintro rfl
      rcases hc with hc | hc <;> cases hc
    · rintro rfl
      rcases hc with hc | hc <;> cases hc

end LeadsToCall

/-! ## Words -/

/-- The words that may stand before the name of a method. -/
def modifierWords : List String :=
  ["static", "async", "get", "set"]

/-- The words that other forms begin with. -/
def openingWords : List String :=
  ["export", "default", "class", "var", "let", "const"]

theorem isIdentifier_modifierWord : ∀ word ∈ modifierWords, IsIdentifier word.toList := by
  decide +kernel

theorem isIdentifier_openingWord : ∀ word ∈ openingWords, IsIdentifier word.toList := by
  decide +kernel

theorem isIdentifier_functionWord : IsIdentifier "function".toList := by
  decide +kernel

/-! ## Forms that do not apply -/

section

variable {words : List String} {s : List Char}

theorem memberAssignment?_eq_none (h : LeadsToCall words s) : memberAssignment? s = none := by
  cases h with
  | call hname s =>
      rw [memberAssignment?, path?_run hname rfl]
      rfl
  | generator s =>
      rw [memberAssignment?, path?_eq_none rfl]
      rfl
  | modified _ hword h =>
      rw [memberAssignment?, path?_run hword rfl]
      rfl

theorem functionAssignment?_eq_none (h : LeadsToCall words s) :
    functionAssignment? s = none := by
  unfold functionAssignment?
  cases hread : identifier? s with
  | none =>
      rfl
  | some read =>
      rcases h.rest_of_identifier? hread with ⟨c, t, hrest, -, hc⟩
      have hassigns : assignsFunction read.2 = false := by
        simp [assignsFunction, assigned?, hrest, word?, after?, Ne.symm hc]
      simp [hassigns]

theorem property?_eq_none (h : LeadsToCall words s) : property? s = none := by
  unfold property?
  cases hread : identifier? s with
  | none =>
      rfl
  | some read =>
      rcases h.rest_of_identifier? hread with ⟨c, t, hrest, hc, -⟩
      simp [hrest, word?, after?, Ne.symm hc]

/-- A word before a text that leads to a call is passed over. -/
theorem propertyFunction?_eq_none (h : LeadsToCall words s) : propertyFunction? s = none := by
  have hasync := isIdentifier_modifierWord "async" (by decide)
  refine optionally_eq_none ?_ h fun t ht => (h.of_keyword? hasync ht).2
  intro t ht
  cases hread : identifier? t with
  | none =>
      rfl
  | some read =>
      rcases ht.rest_of_identifier? hread with ⟨c, others, hrest, hc, -⟩
      simp [hrest, word?, after?, Ne.symm hc]

end

section

variable {s : List Char}

theorem keyword?_openingWord (h : LeadsToCall modifierWords s) :
    ∀ word ∈ openingWords, keyword? word s = none := by
  have hdisjoint : ∀ word ∈ openingWords, word ∉ modifierWords := by
    decide
  intro word hword
  exact h.keyword?_eq_none (isIdentifier_openingWord word hword) (hdisjoint word hword)

theorem classDeclaration?_eq_none (h : LeadsToCall modifierWords s) :
    classDeclaration? s = none := by
  have hnone := keyword?_openingWord h
  rw [classDeclaration?, optionally_of_eq_none (hnone "export" (by decide)),
    optionally_of_eq_none (hnone "default" (by decide)), classHead?, hnone "class" (by decide)]
  rfl

theorem variableDeclaration?_eq_none (h : LeadsToCall modifierWords s) :
    variableDeclaration? s = none := by
  have hnone := keyword?_openingWord h
  rw [variableDeclaration?, optionally_of_eq_none (hnone "export" (by decide)), variableHead?,
    variableKeyword?, hnone "var" (by decide), hnone "let" (by decide), hnone "const" (by decide)]
  rfl

/-! ## The form of functions -/

theorem functionDeclaration?_eq (h : LeadsToCall modifierWords s) :
    functionDeclaration? s = optionally (keyword? "async") functionHead? s := by
  have hnone := keyword?_openingWord h
  rw [functionDeclaration?, optionally_of_eq_none (hnone "export" (by decide)),
    optionally_of_eq_none (hnone "default" (by decide))]

theorem functionHead?_generator (s : List Char) : functionHead? ('*' :: s) = none :=
  rfl

theorem functionHead?_modified {word : String} (hmem : word ∈ modifierWords) :
    functionHead? (word.toList ++ ' ' :: s) = none := by
  have hafter : ∀ word ∈ modifierWords, after? "function".toList word.toList = none := by
    decide
  rw [functionHead?, word?_run isIdentifier_functionWord.2 rfl, hafter word hmem]
  rfl

/-- The word is read off the start of a name, and the rest is taken for the name. -/
theorem functionHead?_call {own : List Char} (hown : IsIdentifier own) (s : List Char) :
    functionHead? ("function".toList ++ own ++ '(' :: s) = some (called "function" own) := by
  have hword : word? "function" ("function".toList ++ own ++ '(' :: s) =
      some (own ++ '(' :: s) := by
    rw [List.append_assoc]
    exact after?_eq_some_iff.2 rfl
  have hlead : LeadsToCall [] (own ++ '(' :: s) := .call hown s
  rw [functionHead?, hword, Option.bind_eq_bind, Option.bind_some, hlead.trimStart_eq,
    optionally_of_eq_none (word?_star_run hown), namedFunction?, hlead.trimStart_eq,
    identifier?_run hown rfl]
  rfl

theorem functionHead?_call_eq_none {name : List Char}
    (hother : ∀ own, own ≠ [] → name ≠ "function".toList ++ own) (s : List Char) :
    functionHead? (name ++ '(' :: s) = none := by
  rw [functionHead?, word?_run isIdentifier_functionWord.2 rfl]
  cases hafter : after? "function".toList name with
  | none =>
      rfl
  | some own =>
      have hsame := after?_eq_some_iff.1 hafter
      cases own with
      | nil =>
          -- The word is the whole name, and a parenthesis is no name.
          rfl
      | cons c own =>
          exact absurd hsame (hother (c :: own) (List.cons_ne_nil c own))

end

/-! ## The modifiers of a line -/

section

variable {words : List String} {word : Option String} {s : List Char}

theorem LeadsToCall.led (h : LeadsToCall words s)
    (hword : ∀ w ∈ word, w ∈ words ∧ IsIdentifier w.toList) :
    LeadsToCall words (led word s) := by
  cases word with
  | none =>
      exact h
  | some w =>
      exact .modified (hword w rfl).1 (hword w rfl).2 h

/-- Reading on after a word that is there, or without one that is not. -/
theorem optionally_led {α : Type} {part : List Char → Option (List Char)}
    {next : List Char → Option α} (hword : ∀ w ∈ word, part (w.toList ++ ' ' :: s) = some s)
    (hnone : part s = none) :
    optionally part next (led word s) = (next s).or (next (led word s)) := by
  cases word with
  | none =>
      rw [led, optionally_of_eq_none hnone, Option.or_self]
  | some w =>
      exact optionally_of_eq_some (hword w rfl)

end

namespace Modifiers

variable {α : Type} {s : List Char} {next : List Char → Option α} (m : Modifiers)

theorem starred_leadsToCall (h : LeadsToCall [] s) : LeadsToCall [] (m.starred s) := by
  unfold starred
  split
  · exact .generator s
  · exact h

theorem accessed_leadsToCall (h : LeadsToCall [] s) :
    LeadsToCall ["get", "set"] (m.accessed s) := by
  refine ((m.starred_leadsToCall h).mono (List.nil_subset _)).led ?_
  intro w hw
  rcases Option.map_eq_some_iff.1 hw with ⟨accessor, -, rfl⟩
  cases accessor with
  | get =>
      exact ⟨by decide, isIdentifier_modifierWord "get" (by decide)⟩
  | set =>
      exact ⟨by decide, isIdentifier_modifierWord "set" (by decide)⟩

theorem asynchronous_leadsToCall (h : LeadsToCall [] s) :
    LeadsToCall ["async", "get", "set"] (m.asynchronous s) := by
  refine ((m.accessed_leadsToCall h).mono (List.subset_cons_self _ _)).led ?_
  intro w hw
  split at hw <;> cases hw
  exact ⟨by decide, isIdentifier_modifierWord _ (by decide)⟩

theorem before_leadsToCall (h : LeadsToCall [] s) :
    LeadsToCall modifierWords (m.before s) := by
  refine ((m.asynchronous_leadsToCall h).mono (List.subset_cons_self _ _)).led ?_
  intro w hw
  split at hw <;> cases hw
  exact ⟨by decide, isIdentifier_modifierWord _ (by decide)⟩

theorem optionally_starred (hstar : word? "*" s = none) :
    optionally (word? "*") next (m.starred s) = (next s).or (next (m.starred s)) := by
  unfold starred
  split
  · exact optionally_of_eq_some rfl
  · rw [optionally_of_eq_none hstar, Option.or_self]

theorem optionally_accessed (h : LeadsToCall [] s) :
    optionally (fun s => (keyword? "get" s).or (keyword? "set" s)) next (m.accessed s) =
      (next (m.starred s)).or (next (m.accessed s)) := by
  have hlead := m.starred_leadsToCall h
  have hget := isIdentifier_modifierWord "get" (by decide)
  have hset := isIdentifier_modifierWord "set" (by decide)
  apply optionally_led
  · intro w hw
    rcases Option.map_eq_some_iff.1 hw with ⟨accessor, -, rfl⟩
    cases accessor with
    | get =>
        have htaken : keyword? "get" ("get".toList ++ ' ' :: m.starred s) = some (m.starred s) :=
          hlead.keyword?_word hget
        rw [Accessor.word, htaken]
        rfl
    | set =>
        have htaken : keyword? "set" ("set".toList ++ ' ' :: m.starred s) = some (m.starred s) :=
          hlead.keyword?_word hset
        have hother : keyword? "get" ("set".toList ++ ' ' :: m.starred s) = none := by
          rw [keyword?_run hget.2 hset.2 rfl]
          rfl
        rw [Accessor.word, htaken, hother]
        rfl
  · rw [hlead.keyword?_eq_none hget List.not_mem_nil, hlead.keyword?_eq_none hset List.not_mem_nil]
    rfl

theorem optionally_asynchronous (h : LeadsToCall [] s) :
    optionally (keyword? "async") next (m.asynchronous s) =
      (next (m.accessed s)).or (next (m.asynchronous s)) := by
  have hlead := m.accessed_leadsToCall h
  have hasync := isIdentifier_modifierWord "async" (by decide)
  apply optionally_led
  · intro w hw
    split at hw <;> cases hw
    exact hlead.keyword?_word hasync
  · exact hlead.keyword?_eq_none hasync (by decide)

theorem optionally_before (h : LeadsToCall [] s) :
    optionally (keyword? "static") next (m.before s) =
      (next (m.asynchronous s)).or (next (m.before s)) := by
  have hlead := m.asynchronous_leadsToCall h
  have hstatic := isIdentifier_modifierWord "static" (by decide)
  apply optionally_led
  · intro w hw
    split at hw <;> cases hw
    exact hlead.keyword?_word hstatic
  · exact hlead.keyword?_eq_none hstatic (by decide)

end Modifiers

/-! ## The form of methods -/

theorem shorthandHead?_call (l : Shorthand) (tail : List Char) :
    shorthandHead? (l.call tail) = some l.name := by
  have hname : identifier? (l.call tail) =
      some (l.name, '(' :: (l.parameters ++ ')' :: ' ' :: '{' :: tail)) :=
    identifier?_run l.isIdentifier rfl
  have hparameters :
      parameters? (trimStart ('(' :: (l.parameters ++ ')' :: ' ' :: '{' :: tail))) =
        some (' ' :: '{' :: tail) :=
    parameters?_append l.closes
  simp only [shorthandHead?, hname, Option.bind_eq_bind, Option.bind_some, hparameters]
  rfl

theorem Shorthand.call_leadsToCall (l : Shorthand) (tail : List Char) :
    LeadsToCall [] (l.call tail) :=
  .call l.isIdentifier _

theorem Shorthand.line_leadsToCall (l : Shorthand) (tail : List Char) :
    LeadsToCall modifierWords (l.line tail) :=
  l.modifiers.before_leadsToCall (l.call_leadsToCall tail)

/-- Modifiers are passed over one after the other, and the name is read whole. -/
theorem shorthandName?_line (l : Shorthand) (tail : List Char) :
    shorthandName? (l.line tail) = some l.name := by
  have hcall := l.call_leadsToCall tail
  have hstar : word? "*" (l.call tail) = none :=
    word?_star_run l.isIdentifier
  have hstarred : starredName? (l.modifiers.starred (l.call tail)) = some l.name := by
    rw [starredName?, l.modifiers.optionally_starred hstar, shorthandHead?_call]
    rfl
  have haccessed : accessedName? (l.modifiers.accessed (l.call tail)) = some l.name := by
    rw [accessedName?, l.modifiers.optionally_accessed hcall, hstarred]
    rfl
  have hasynchronous : asynchronousName? (l.modifiers.asynchronous (l.call tail)) =
      some l.name := by
    rw [asynchronousName?, l.modifiers.optionally_asynchronous hcall, haccessed]
    rfl
  calc
    shorthandName? (l.line tail)
      = optionally (keyword? "static") asynchronousName? (l.line tail) := rfl
    _ = (asynchronousName? (l.modifiers.asynchronous (l.call tail))).or
          (asynchronousName? (l.line tail)) := l.modifiers.optionally_before hcall
    _ = some l.name := by
      rw [hasynchronous]
      rfl

theorem shorthand?_line (l : Shorthand) (tail : List Char) :
    shorthand? (l.line tail) = if controlWords.contains (String.ofList l.name) then none
      else some (called "method" l.name) := by
  rw [shorthand?, shorthandName?_line]
  rfl

/-! ## All forms -/

/-- Without a modifier but `async`, a name that goes on after the word of a function. -/
structure Shorthand.ReadsAsFunction (l : Shorthand) (own : List Char) : Prop where
  notStatic : l.modifiers.isStatic = false
  noAccessor : l.modifiers.accessor = none
  noGenerator : l.modifiers.isGenerator = false
  name_eq : l.name = "function".toList ++ own
  filled : own ≠ []

theorem functionDeclaration?_line_eq_some {l : Shorthand} {own : List Char}
    (h : l.ReadsAsFunction own) (tail : List Char) :
    functionDeclaration? (l.line tail) = some (called "function" own) := by
  have hcall := l.call_leadsToCall tail
  have hown : IsIdentifier own := by
    refine ⟨h.filled, fun c hc => l.isIdentifier.2 c ?_⟩
    rw [h.name_eq]
    exact List.mem_append_right _ hc
  have hhead : functionHead? (l.call tail) = some (called "function" own) := by
    rw [Shorthand.call, h.name_eq]
    exact functionHead?_call hown _
  have haccessed : l.modifiers.accessed (l.call tail) = l.call tail := by
    simp [Modifiers.accessed, Modifiers.starred, h.noAccessor, h.noGenerator, led]
  have hline : l.line tail = l.modifiers.asynchronous (l.call tail) := by
    simp [Shorthand.line, Modifiers.before, h.notStatic, led]
  rw [functionDeclaration?_eq (l.line_leadsToCall tail), hline,
    l.modifiers.optionally_asynchronous hcall, haccessed, hhead]
  rfl

theorem functionHead?_accessed_eq_none {l : Shorthand} (hstatic : l.modifiers.isStatic = false)
    (h : ∀ own, ¬ l.ReadsAsFunction own) (tail : List Char) :
    functionHead? (l.modifiers.accessed (l.call tail)) = none := by
  cases haccessor : l.modifiers.accessor with
  | some accessor =>
      have hword : accessor.word ∈ modifierWords := by
        cases accessor <;> decide
      rw [Modifiers.accessed, haccessor]
      exact functionHead?_modified hword
  | none =>
      rw [Modifiers.accessed, haccessor, Option.map_none, led]
      cases hgenerator : l.modifiers.isGenerator with
      | true =>
          rw [Modifiers.starred, if_pos hgenerator]
          exact functionHead?_generator _
      | false =>
          have hother : ∀ own, own ≠ [] → l.name ≠ "function".toList ++ own :=
            fun own hfilled hname => h own ⟨hstatic, haccessor, hgenerator, hname, hfilled⟩
          rw [Modifiers.starred, if_neg (by simp [hgenerator])]
          exact functionHead?_call_eq_none hother _

theorem functionDeclaration?_line_eq_none {l : Shorthand} (h : ∀ own, ¬ l.ReadsAsFunction own)
    (tail : List Char) : functionDeclaration? (l.line tail) = none := by
  rw [functionDeclaration?_eq (l.line_leadsToCall tail)]
  cases hstatic : l.modifiers.isStatic with
  | true =>
      -- No function is static, so nothing is passed over and the word is not at the start.
      have hline : l.line tail =
          "static".toList ++ ' ' :: l.modifiers.asynchronous (l.call tail) := by
        simp [Shorthand.line, Modifiers.before, hstatic, led]
      have hasync : keyword? "async" (l.line tail) = none := by
        rw [hline, keyword?_run (isIdentifier_modifierWord "async" (by decide)).2
          (isIdentifier_modifierWord "static" (by decide)).2 rfl]
        rfl
      rw [optionally_of_eq_none hasync, hline]
      exact functionHead?_modified (by decide)
  | false =>
      have hline : l.line tail = l.modifiers.asynchronous (l.call tail) := by
        simp [Shorthand.line, Modifiers.before, hstatic, led]
      have haccessed := functionHead?_accessed_eq_none hstatic h tail
      have hasynchronous : functionHead? (l.modifiers.asynchronous (l.call tail)) = none := by
        unfold Modifiers.asynchronous
        split
        · exact functionHead?_modified (by decide)
        · exact haccessed
      rw [hline, l.modifiers.optionally_asynchronous (l.call_leadsToCall tail), haccessed,
        hasynchronous]
      rfl

/-- Blanks at the end of a line are behind its brace. -/
theorem trim_line (l : Shorthand) (tail : List Char) :
    trim (l.line tail) = l.line (trimEnd tail) := by
  have hcut : ∀ tail, l.line tail =
      l.modifiers.before (l.name ++ '(' :: (l.parameters ++ [')', ' '])) ++ '{' :: tail := by
    intro tail
    rw [← Modifiers.before_append]
    simp [Shorthand.line, Shorthand.call]
  calc
    trim (l.line tail) = trimEnd (l.line tail) := by
      rw [trim, (l.line_leadsToCall tail).trimStart_eq]
    _ = l.line (trimEnd tail) := by
      rw [hcut, trimEnd_append_cons (by decide), ← hcut]

/-- Only two of the forms can apply. -/
theorem ofCode?_line (l : Shorthand) (tail : List Char) :
    ofCode? (l.line tail) = (functionDeclaration? (l.line (trimEnd tail))).or
      (shorthand? (l.line (trimEnd tail))) := by
  have hlead := l.line_leadsToCall (trimEnd tail)
  rw [ofCode?, trim_line]
  cases hfunction : functionDeclaration? (l.line (trimEnd tail)) with
  | some context =>
      simp [forms, hfunction]
  | none =>
      simp [forms, hfunction, classDeclaration?_eq_none hlead, memberAssignment?_eq_none hlead,
        variableDeclaration?_eq_none hlead, functionAssignment?_eq_none hlead,
        propertyFunction?_eq_none hlead, property?_eq_none hlead]

theorem ofCode?_line_of_readsAsFunction {l : Shorthand} {own : List Char}
    (h : l.ReadsAsFunction own) (tail : List Char) :
    ofCode? (l.line tail) = some (called "function" own) := by
  rw [ofCode?_line, functionDeclaration?_line_eq_some h]
  rfl

theorem ofCode?_line_of_not_readsAsFunction {l : Shorthand} (h : ∀ own, ¬ l.ReadsAsFunction own)
    (tail : List Char) :
    ofCode? (l.line tail) = if controlWords.contains (String.ofList l.name) then none
      else some (called "method" l.name) := by
  rw [ofCode?_line, functionDeclaration?_line_eq_none h, shorthand?_line]
  rfl

theorem not_readsAsFunction_of_controlWord {l : Shorthand}
    (h : controlWords.contains (String.ofList l.name) = true) (own : List Char) :
    ¬ l.ReadsAsFunction own := by
  -- The one control word that begins with the word of a function is that word itself.
  have hafter : ∀ word ∈ controlWords, (after? "function".toList word.toList).getD [] = [] := by
    decide
  intro hreads
  have hown := hafter _ (List.contains_iff_mem.1 h)
  rw [String.toList_ofList (l := l.name), after?_eq_some_iff.2 hreads.name_eq] at hown
  exact hreads.filled hown

/-- A line is that of a method of its name as long as it does not read as that of a function, and
control words give no context. -/
theorem ofCode?_line_iff (l : Shorthand) (tail : List Char) :
    (controlWords.contains (String.ofList l.name) = true → ofCode? (l.line tail) = none) ∧
      (controlWords.contains (String.ofList l.name) = false →
        (ofCode? (l.line tail) = some (called "method" l.name) ↔
          ∀ own, ¬ l.ReadsAsFunction own) ∧
        ∀ own, l.ReadsAsFunction own → ofCode? (l.line tail) = some (called "function" own)) := by
  refine ⟨?_, fun hname => ⟨⟨?_, ?_⟩, fun own hreads => ofCode?_line_of_readsAsFunction hreads tail⟩⟩
  · intro hcontrol
    rw [ofCode?_line_of_not_readsAsFunction (not_readsAsFunction_of_controlWord hcontrol),
      if_pos hcontrol]
  · intro hmethod own hreads
    rw [ofCode?_line_of_readsAsFunction hreads] at hmethod
    have hkind : "function" = "method" := congrArg Context.kind (Option.some.inj hmethod)
    exact absurd hkind (by decide)
  · intro hother
    rw [ofCode?_line_of_not_readsAsFunction hother, hname]
    rfl

def functionFoo : Shorthand where
  modifiers := ⟨false, false, none, false⟩
  name := "functionFoo".toList
  parameters := ['a']
  isIdentifier := by decide +kernel
  closes := by decide

def staticFunctionFoo : Shorthand :=
  { functionFoo with modifiers := ⟨true, false, none, false⟩ }

def whileLoop : Shorthand where
  modifiers := ⟨false, false, none, false⟩
  name := "while".toList
  parameters := ['a']
  isIdentifier := by decide +kernel
  closes := by decide

theorem ofCode?_line_iff_functionFoo :
    ofCode? (whileLoop.line [' ']) = none ∧
      ofCode? (staticFunctionFoo.line [' ']) = some (called "method" "functionFoo".toList) ∧
      ofCode? (functionFoo.line [' ']) = some (called "function" "Foo".toList) := by
  refine ⟨(ofCode?_line_iff whileLoop [' ']).1 (by decide), ?_, ?_⟩
  · refine ((ofCode?_line_iff staticFunctionFoo [' ']).2 (by decide)).1.2 ?_
    intro own hreads
    cases hreads.notStatic
  · exact ((ofCode?_line_iff functionFoo [' ']).2 (by decide)).2 _
      ⟨rfl, rfl, rfl, by decide, by decide⟩

/-- The word is taken off a name that only begins with it. -/
theorem functionFoo_not_method :
    functionFoo.line [] = "functionFoo(a) \x7b".toList ∧
      controlWords.contains (String.ofList functionFoo.name) = false ∧
      ofCode? (functionFoo.line []) ≠ some (called "method" functionFoo.name) := by
  decide +kernel

end Context
end ScriptDoc
