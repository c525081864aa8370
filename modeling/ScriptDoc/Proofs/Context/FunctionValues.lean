import ScriptDoc.Proofs.Context.Lexemes

/-!
# FunctionValues — expressions that begin like a function

- `BeginsArrow`, `BeginsFunction` : what an arrow and a function begin with
- `IsFunctionValue`               : a function, with the word `async` before it or without
- `isFunctionValue_iff`           : these are the expressions that are taken for functions
- `isFunctionValue_trimEnd`       : blanks at the end of an expression make no difference
-/

namespace ScriptDoc
namespace Lexeme

open Text

variable {s rest : List Char}

/-- An arrow, with blanks before it or without. -/
def BeginsArrow (s : List Char) : Prop :=
  ∃ blanks rest, (∀ c ∈ blanks, isBlank c = true) ∧ s = blanks ++ '=' :: '>' :: rest

inductive BeginsFunction : List Char → Prop where
  | word {rest : List Char} (h : rest.head?.any isWord = false) :
      BeginsFunction ("function".toList ++ rest)
  | parameters {inside rest : List Char} (hinside : ')' ∉ inside) (h : BeginsArrow rest) :
      BeginsFunction ('(' :: (inside ++ ')' :: rest))
  | parameter {name rest : List Char} (hname : IsIdentifier name) (h : BeginsArrow rest) :
      BeginsFunction (name ++ rest)

inductive IsFunctionValue : List Char → Prop where
  | plain {s : List Char} (h : BeginsFunction s) : IsFunctionValue s
  | async {blanks s : List Char} (hne : blanks ≠ []) (hblanks : ∀ c ∈ blanks, isBlank c = true)
      (h : BeginsFunction s) : IsFunctionValue ("async".toList ++ (blanks ++ s))

/-! ## What is taken for a function -/

theorem isArrow_iff : isArrow s = true ↔ BeginsArrow s := by
  unfold isArrow
  rw [Option.isSome_iff_exists]
  constructor
  · rintro ⟨rest, hrest⟩
    have htrim : trimStart s = '=' :: '>' :: rest := word?_eq_some_iff.1 hrest
    rcases trimStart_eq_iff.1 htrim with ⟨blanks, hs, hblanks, -⟩
    exact ⟨blanks, rest, hblanks, hs⟩
  · rintro ⟨blanks, rest, hblanks, rfl⟩
    rw [trimStart_blanks_append hblanks (by decide)]
    exact ⟨rest, word?_eq_some_iff.2 rfl⟩

/-- No identifier goes on with what an arrow begins with. -/
theorem BeginsArrow.head? (h : BeginsArrow s) : s.head?.any isIdent = false := by
  rcases h with ⟨blanks, rest, hblanks, rfl⟩
  cases blanks with
  | nil =>
      rfl
  | cons c blanks =>
      exact isIdent_of_isBlank (List.forall_mem_cons.1 hblanks).1

theorem isFunctionWord_iff : isFunctionWord s = true ↔
    ∃ rest, s = "function".toList ++ rest ∧ rest.head?.any isWord = false := by
  unfold isFunctionWord
  constructor
  · intro h
    split at h
    · next c rest hword =>
      exact ⟨c :: rest, word?_eq_some_iff.1 hword, by simpa using h⟩
    · next hword =>
      exact ⟨[], word?_eq_some_iff.1 hword, rfl⟩
    · cases h
  · rintro ⟨rest, rfl, hrest⟩
    rw [word?_eq_some_iff.2 rfl]
    cases rest with
    | nil =>
        rfl
    | cons c rest =>
        simpa using hrest

theorem isPlainFunctionValue_iff : isPlainFunctionValue s = true ↔ BeginsFunction s := by
  simp only [isPlainFunctionValue, Bool.or_eq_true]
  constructor
  · rintro ((hword | hparameters) | hparameter)
    · rcases isFunctionWord_iff.1 hword with ⟨rest, rfl, hrest⟩
      exact .word hrest
    · split at hparameters
      · next rest hread =>
        rcases parameters?_eq_some_iff.1 hread with ⟨inside, hinside, rfl⟩
        exact .parameters hinside (isArrow_iff.1 hparameters)
      · cases hparameters
    · split at hparameter
      · next name rest hread =>
        rcases identifier?_eq_some_iff.1 hread with ⟨hname, rfl, -⟩
        exact .parameter hname (isArrow_iff.1 hparameter)
      · cases hparameter
  · intro h
    cases h with
    | word hrest =>
        exact .inl (.inl (isFunctionWord_iff.2 ⟨_, rfl, hrest⟩))
    | parameters hinside harrow =>
        rw [parameters?_append hinside]
        exact .inl (.inr (isArrow_iff.2 harrow))
    | parameter hname harrow =>
        rw [identifier?_run hname harrow.head?]
        exact .inr (isArrow_iff.2 harrow)

theorem BeginsFunction.head? (h : BeginsFunction s) : s.head?.any isBlank = false := by
  cases h with
  | word hrest =>
      rfl
  | parameters hinside harrow =>
      rfl
  | parameter hname harrow =>
      rcases List.exists_cons_of_ne_nil hname.1 with ⟨c, others, rfl⟩
      exact isBlank_of_isIdent (hname.2 c List.mem_cons_self)

theorem IsFunctionValue.head? (h : IsFunctionValue s) : s.head?.any isBlank = false := by
  cases h with
  | plain h =>
      exact h.head?
  | async hne hblanks h =>
      rfl

/-- An expression is taken for a function exactly if it begins like one. -/
theorem isFunctionValue_iff : isFunctionValue s = true ↔ IsFunctionValue s := by
  simp only [isFunctionValue, Bool.or_eq_true]
  constructor
  · rintro (hasync | hplain)
    · split at hasync
      · next rest hread =>
        rcases keyword?_eq_some_iff.1 hread with ⟨blanks, hne, hblanks, rfl, -⟩
        exact .async hne hblanks (isPlainFunctionValue_iff.1 hasync)
      · cases hasync
    · exact .plain (isPlainFunctionValue_iff.1 hplain)
  · intro h
    cases h with
    | plain h =>
        exact .inr (isPlainFunctionValue_iff.2 h)
    | @async blanks s hne hblanks h =>
        have hread : keyword? "async" ("async".toList ++ (blanks ++ s)) = some s :=
          keyword?_eq_some_iff.2 ⟨blanks, hne, hblanks, rfl, h.head?⟩
        rw [hread]
        exact .inl (isPlainFunctionValue_iff.2 h)

instance (s : List Char) : Decidable (IsFunctionValue s) :=
  decidable_of_iff _ isFunctionValue_iff

/-! ## Blanks at the end -/

section

variable {blanks : List Char}

theorem BeginsArrow.append (h : BeginsArrow s) (more : List Char) : BeginsArrow (s ++ more) := by
  rcases h with ⟨own, rest, hown, rfl⟩
  exact ⟨own, rest ++ more, hown, by simp⟩

theorem BeginsFunction.append_blanks (h : BeginsFunction s)
    (hblanks : ∀ c ∈ blanks, isBlank c = true) : BeginsFunction (s ++ blanks) := by
  cases h with
  | @word rest hrest =>
      rw [List.append_assoc]
      refine .word ?_
      cases rest with
      | nil =>
          cases blanks with
          | nil =>
              rfl
          | cons c blanks =>
              exact isWord_eq_false_of_isBlank (List.forall_mem_cons.1 hblanks).1
      | cons c rest =>
          exact hrest
  | @parameters inside rest hinside harrow =>
      have hsame : '(' :: (inside ++ ')' :: rest) ++ blanks =
          '(' :: (inside ++ ')' :: (rest ++ blanks)) := by simp
      rw [hsame]
      exact .parameters hinside (harrow.append blanks)
  | parameter hname harrow =>
      rw [List.append_assoc]
      exact .parameter hname (harrow.append blanks)

theorem IsFunctionValue.append_blanks (h : IsFunctionValue s)
    (hblanks : ∀ c ∈ blanks, isBlank c = true) : IsFunctionValue (s ++ blanks) := by
  cases h with
  | plain h =>
      exact .plain (h.append_blanks hblanks)
  | async hne hown h =>
      rw [List.append_assoc, List.append_assoc]
      exact .async hne hown (h.append_blanks hblanks)

end

theorem BeginsArrow.trimEnd (h : BeginsArrow s) : BeginsArrow (trimEnd s) := by
  rcases h with ⟨blanks, rest, hblanks, rfl⟩
  refine ⟨blanks, Text.trimEnd rest, hblanks, ?_⟩
  rw [trimEnd_append_cons (by decide), trimEnd_cons (by decide)]

theorem BeginsArrow.ne_nil (h : BeginsArrow s) : s ≠ [] := by
  rcases h with ⟨blanks, rest, -, rfl⟩
  simp

theorem BeginsFunction.trimEnd (h : BeginsFunction s) : BeginsFunction (trimEnd s) := by
  cases h with
  | @word rest hrest =>
      have hword : Text.trimEnd ("function".toList ++ rest) =
          "function".toList ++ Text.trimEnd rest :=
        trimEnd_append_cons (by decide) "functio".toList rest
      rw [hword]
      exact .word (head?_trimEnd hrest)
  | @parameters inside rest hinside harrow =>
      have hclosed : Text.trimEnd ('(' :: (inside ++ ')' :: rest)) =
          '(' :: (inside ++ ')' :: Text.trimEnd rest) :=
        trimEnd_append_cons (by decide) ('(' :: inside) rest
      rw [hclosed]
      exact .parameters hinside harrow.trimEnd
  | parameter hname harrow =>
      rw [trimEnd_append harrow.trimEnd.ne_nil]
      exact .parameter hname harrow.trimEnd

theorem BeginsFunction.ne_nil (h : BeginsFunction s) : s ≠ [] := by
  cases h with
  | word hrest =>
      simp
  | parameters hinside harrow =>
      simp
  | parameter hname harrow =>
      simp [hname.1]

theorem IsFunctionValue.trimEnd (h : IsFunctionValue s) : IsFunctionValue (trimEnd s) := by
  cases h with
  | plain h =>
      exact .plain h.trimEnd
  | async hne hblanks h =>
      rw [← List.append_assoc, trimEnd_append h.trimEnd.ne_nil, List.append_assoc]
      exact .async hne hblanks h.trimEnd

theorem isFunctionValue_trimEnd (s : List Char) :
    isFunctionValue (trimEnd s) = isFunctionValue s := by
  rw [Bool.eq_iff_iff, isFunctionValue_iff, isFunctionValue_iff]
  constructor
  · intro h
    rcases exists_trimEnd_append s with ⟨blanks, hblanks, hs⟩
    rw [← hs]
    exact h.append_blanks hblanks
  · exact IsFunctionValue.trimEnd

end Lexeme
end ScriptDoc
