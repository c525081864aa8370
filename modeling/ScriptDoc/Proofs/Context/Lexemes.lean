import ScriptDoc.Context.Lexeme
import ScriptDoc.Proofs.Text.Trim

/-!
# Lexemes — what the readers take off the start of a line

A line begins with a run of identifier characters, which may be empty, and a rest that does not go
on with one.

- `identifier?_run` : the run is the identifier that is read
- `word?_run`       : a word is read where it begins the run
- `keyword?_run`    : a keyword is read where it is all of the run, and blanks follow
- `path?_join`      : identifiers with dots between them are a path, a run alone among them
- `keyword?_eq_some_iff`, `identifier?_eq_some_iff`, `of_path?_eq_some` : what has been read, and
  what is left
- `optionally_of_eq_none`, `optionally_of_eq_some`, `optionally_eq_none` : reading on after an
  optional part
-/

namespace ScriptDoc
namespace Lexeme

open Text

variable {α : Type} {c : Char} {run rest s t : List Char} {word : String}

def IsIdentifier (name : List Char) : Prop :=
  name ≠ [] ∧ ∀ c ∈ name, isIdent c = true

instance (name : List Char) : Decidable (IsIdentifier name) :=
  decidable_of_iff (name ≠ [] ∧ name.all isIdent = true) (and_congr_right' List.all_eq_true)

/-! ## Characters -/

theorem isIdent_of_isBlank (h : isBlank c = true) : isIdent c = false := by
  have hdollar : c ≠ '$' := by
    rintro rfl
    cases h
  simp [isIdent, isWord_eq_false_of_isBlank h, hdollar]

theorem isBlank_of_isIdent (h : isIdent c = true) : isBlank c = false := by
  cases hblank : isBlank c with
  | false =>
      rfl
  | true =>
      rw [isIdent_of_isBlank hblank] at h
      cases h

theorem trimStart_of_isIdent (h : isIdent c = true) (s : List Char) :
    trimStart (c :: s) = c :: s :=
  trimStart_eq_iff.2 ⟨[], rfl, by simp, isBlank_of_isIdent h⟩

theorem trimStart_run (hname : IsIdentifier run) (rest : List Char) :
    trimStart (run ++ rest) = run ++ rest := by
  rcases List.exists_cons_of_ne_nil hname.1 with ⟨c, others, rfl⟩
  exact trimStart_of_isIdent (hname.2 c List.mem_cons_self) _

/-! ## Runs -/

theorem identifier?_run (hname : IsIdentifier run) (hstop : rest.head?.any isIdent = false) :
    identifier? (run ++ rest) = some (run, rest) := by
  have hsplit := takeWhile_run hname.2 hstop
  unfold identifier?
  rw [hsplit.1, hsplit.2]
  rcases List.exists_cons_of_ne_nil hname.1 with ⟨c, others, rfl⟩
  rfl

theorem identifier?_eq_none (hstop : s.head?.any isIdent = false) : identifier? s = none := by
  simp [identifier?, takeWhile_stop hstop]

theorem after?_self (s : List Char) : after? s s = some [] :=
  after?_eq_some_iff.2 (List.append_nil s).symm

/-- What follows a word is there whatever comes after the run. -/
theorem word?_run (hword : ∀ c ∈ word.toList, isIdent c = true)
    (hstop : rest.head?.any isIdent = false) :
    word? word (run ++ rest) = (after? word.toList run).map (· ++ rest) := by
  unfold word?
  cases hafter : after? word.toList run with
  | some own =>
      rw [after?_eq_some_iff.1 hafter, List.append_assoc]
      exact after?_eq_some_iff.2 rfl
  | none =>
      cases hwhole : after? word.toList (run ++ rest) with
      | none =>
          rfl
      | some t =>
          exfalso
          rcases List.append_eq_append_iff.1 (after?_eq_some_iff.1 hwhole) with
            ⟨own, hsame, hrest⟩ | ⟨own, hsame, -⟩
          · cases own with
            | nil =>
                rw [List.append_nil] at hsame
                rw [hsame, after?_self] at hafter
                cases hafter
            | cons c own =>
                -- The word would go on with the rest, which does not go on with it.
                have hc : isIdent c = true := hword c (by simp [hsame])
                rw [hrest] at hstop
                have hc' : isIdent c = false := hstop
                rw [hc] at hc'
                cases hc'
          · rw [after?_eq_some_iff.2 hsame] at hafter
            cases hafter

theorem keyword?_run (hword : ∀ c ∈ word.toList, isIdent c = true)
    (hrun : ∀ c ∈ run, isIdent c = true) (hstop : rest.head?.any isIdent = false) :
    keyword? word (run ++ rest) = if run = word.toList then blanks? rest else none := by
  rw [keyword?, word?_run hword hstop]
  cases hafter : after? word.toList run with
  | none =>
      have hne : run ≠ word.toList := by
        rintro rfl
        rw [after?_self] at hafter
        cases hafter
      rw [if_neg hne]
      rfl
  | some own =>
      have hsame := after?_eq_some_iff.1 hafter
      cases own with
      | nil =>
          rw [if_pos (hsame.trans (List.append_nil _))]
          rfl
      | cons c own =>
          have hne : run ≠ word.toList := by
            rw [hsame]
            simp
          have hc : isBlank c = false := isBlank_of_isIdent (hrun c (by simp [hsame]))
          rw [if_neg hne]
          simp [blanks?, hc]

theorem keyword?_self (hword : ∀ c ∈ word.toList, isIdent c = true) (hs : trimStart s = s) :
    keyword? word (word.toList ++ ' ' :: s) = some s := by
  rw [keyword?_run hword hword rfl, if_pos rfl]
  exact congrArg some hs

theorem word?_star_run (hname : IsIdentifier run) : word? "*" (run ++ rest) = none := by
  rcases List.exists_cons_of_ne_nil hname.1 with ⟨c, others, rfl⟩
  have hstar : c ≠ '*' := by
    rintro rfl
    cases hname.2 '*' List.mem_cons_self
  simp [word?, after?, Ne.symm hstar]

theorem isPathChar_of_isIdent (h : isIdent c = true) : isPathChar c = true := by
  simp [isPathChar, h]

theorem dot_not_mem {name : List Char} (h : IsIdentifier name) : '.' ∉ name := by
  intro hmem
  cases h.2 '.' hmem

/-- Names with dots between them are read as long as the path does not go on. -/
theorem path?_join {names : List (List Char)} (hne : names ≠ [])
    (hnames : ∀ name ∈ names, IsIdentifier name) (hstop : rest.head?.any isPathChar = false) :
    path? (join ['.'] names ++ rest) = some (names, rest) := by
  have hpath : ∀ c ∈ join ['.'] names, isPathChar c = true := by
    intro c hc
    rcases mem_of_mem_join hc with hdot | ⟨name, hname, hc⟩
    · rw [List.mem_singleton.1 hdot]
      rfl
    · exact isPathChar_of_isIdent ((hnames name hname).2 c hc)
  have hsplit := takeWhile_run hpath hstop
  have hpieces : splitOn '.' (join ['.'] names) = names :=
    splitOn_join hne fun name hname => dot_not_mem (hnames name hname)
  have hfilled : names.any (·.isEmpty) = false := by
    rw [List.any_eq_false]
    intro name hname
    simpa using (hnames name hname).1
  simp [path?, hsplit.1, hsplit.2, hpieces, hfilled]

/-- Without a dot there is one name in a path. -/
theorem path?_run (hname : IsIdentifier run) (hstop : rest.head?.any isPathChar = false) :
    path? (run ++ rest) = some ([run], rest) :=
  path?_join (List.cons_ne_nil run []) (by simpa using hname) hstop

theorem of_path?_eq_some {names : List (List Char)} (h : path? s = some (names, rest)) :
    names ≠ [] ∧ (∀ name ∈ names, IsIdentifier name) ∧ s = join ['.'] names ++ rest := by
  simp only [path?] at h
  split at h
  · cases h
  · next hfilled =>
    cases h
    refine ⟨splitOn_ne_nil _ _, fun name hname => ⟨?_, fun c hc => ?_⟩, ?_⟩
    · rintro rfl
      exact hfilled (List.any_eq_true.2 ⟨[], hname, rfl⟩)
    · -- The characters of a path are those of its names and dots, and no name has a dot.
      have hmem : c ∈ s.takeWhile isPathChar := by
        have hc' := (infix_join ['.'] hname).subset hc
        rwa [join_splitOn] at hc'
      have hdot : c ≠ '.' := ne_of_mem_of_not_mem hc (not_mem_of_mem_splitOn hname)
      simpa [isPathChar, hdot] using List.mem_takeWhile_imp hmem
    · rw [join_splitOn, List.takeWhile_append_dropWhile]

theorem path?_eq_none (hstop : s.head?.any isPathChar = false) : path? s = none := by
  simp [path?, takeWhile_stop hstop, splitOn]

/-- Parentheses are read up to the first one that closes. -/
theorem parameters?_append (h : ')' ∉ s) : parameters? ('(' :: (s ++ ')' :: rest)) = some rest := by
  have hinside : ∀ c ∈ s, (c != ')') = true := by
    intro c hc
    have hne : c ≠ ')' := ne_of_mem_of_not_mem hc h
    simpa using hne
  have hrest : (s ++ ')' :: rest).dropWhile (· != ')') = ')' :: rest :=
    (takeWhile_run hinside rfl).2
  simp [parameters?, hrest]

/-! ## What is read -/

theorem word?_eq_some_iff : word? word s = some rest ↔ s = word.toList ++ rest :=
  after?_eq_some_iff

theorem blanks?_eq_some_iff :
    blanks? s = some rest ↔ ∃ blanks, blanks ≠ [] ∧ (∀ c ∈ blanks, isBlank c = true) ∧
      s = blanks ++ rest ∧ rest.head?.any isBlank = false := by
  constructor
  · intro h
    unfold blanks? at h
    split at h
    · next c s =>
      split at h
      · next hc =>
        rcases trimStart_eq_iff.1 (Option.some.inj h) with ⟨blanks, rfl, hblanks, hrest⟩
        exact ⟨c :: blanks, List.cons_ne_nil c blanks, List.forall_mem_cons.2 ⟨hc, hblanks⟩,
          rfl, hrest⟩
      · cases h
    · cases h
  · rintro ⟨blanks, hne, hblanks, rfl, hrest⟩
    rcases List.exists_cons_of_ne_nil hne with ⟨c, blanks, rfl⟩
    rw [List.forall_mem_cons] at hblanks
    have htrim : trimStart (blanks ++ rest) = rest :=
      trimStart_eq_iff.2 ⟨blanks, rfl, hblanks.2, hrest⟩
    simp [blanks?, hblanks.1, htrim]

theorem trimStart_of_blanks? (h : blanks? s = some rest) : trimStart s = rest := by
  rcases blanks?_eq_some_iff.1 h with ⟨blanks, -, hblanks, hs, hrest⟩
  exact trimStart_eq_iff.2 ⟨blanks, hs, hblanks, hrest⟩

theorem keyword?_eq_some_iff :
    keyword? word s = some rest ↔ ∃ blanks, blanks ≠ [] ∧ (∀ c ∈ blanks, isBlank c = true) ∧
      s = word.toList ++ (blanks ++ rest) ∧ rest.head?.any isBlank = false := by
  constructor
  · intro h
    rcases Option.bind_eq_some_iff.1 h with ⟨t, hword, ht⟩
    rcases blanks?_eq_some_iff.1 ht with ⟨blanks, hne, hblanks, rfl, hrest⟩
    exact ⟨blanks, hne, hblanks, word?_eq_some_iff.1 hword, hrest⟩
  · rintro ⟨blanks, hne, hblanks, rfl, hrest⟩
    refine Option.bind_eq_some_iff.2 ⟨blanks ++ rest, word?_eq_some_iff.2 rfl, ?_⟩
    exact blanks?_eq_some_iff.2 ⟨blanks, hne, hblanks, rfl, hrest⟩

/-- The identifier that is read is all of the run that the text begins with. -/
theorem identifier?_eq_some_iff {name : List Char} :
    identifier? s = some (name, rest) ↔
      IsIdentifier name ∧ s = name ++ rest ∧ rest.head?.any isIdent = false := by
  constructor
  · intro h
    unfold identifier? at h
    split at h
    · cases h
    · next hname =>
      cases h
      exact ⟨⟨hname, fun _ => List.mem_takeWhile_imp⟩, List.takeWhile_append_dropWhile.symm,
        head?_dropWhile isIdent s⟩
  · rintro ⟨hname, rfl, hstop⟩
    exact identifier?_run hname hstop

theorem parameters?_eq_some_iff :
    parameters? s = some rest ↔ ∃ inside, ')' ∉ inside ∧ s = '(' :: (inside ++ ')' :: rest) := by
  constructor
  · intro h
    unfold parameters? at h
    split at h
    · next s =>
      split at h
      · next hclose =>
        cases h
        refine ⟨s.takeWhile (· != ')'), fun hmem => ?_, ?_⟩
        · simpa using List.mem_takeWhile_imp hmem
        · rw [← hclose, List.takeWhile_append_dropWhile]
      · cases h
    · cases h
  · rintro ⟨inside, hinside, rfl⟩
    exact parameters?_append hinside

/-! ## Optional parts -/

variable {part : List Char → Option (List Char)} {next : List Char → Option α} {a : α}

theorem optionally_of_eq_none (h : part s = none) : optionally part next s = next s := by
  simp [optionally, h]

theorem optionally_of_eq_some (h : part s = some t) :
    optionally part next s = (next t).or (next s) := by
  simp [optionally, h]

theorem optionally_eq_none {P : List Char → Prop} (hnext : ∀ t, P t → next t = none) (hs : P s)
    (hpart : ∀ t, part s = some t → P t) : optionally part next s = none := by
  cases htaken : part s with
  | none =>
      rw [optionally_of_eq_none htaken, hnext s hs]
  | some t =>
      rw [optionally_of_eq_some htaken, hnext t (hpart t htaken), hnext s hs]
      rfl

end Lexeme
end ScriptDoc
