import ScriptDoc.Context.Reader
import ScriptDoc.Proofs.Context.Lexemes

/-!
# Naming — what the names of contexts are made of

- `Lexeme.Skips`                      : a reader that leaves the end of a text
- `Lexeme.Reads`                      : a reader all of whose results stand in a relation to the text
- `Context.Spells`                    : a context whose name is spelled in a text
- `Context.exists_spells_of_ofCode?`  : every context that is read is such a one
- `Context.name_ne_empty_of_ofCode?`  : none of them is without a name
-/

namespace ScriptDoc

open Text Lexeme

/-! ## Parts of a line -/

namespace Lexeme

variable {α : Type} {part other : List Char → Option (List Char)} {s t name rest : List Char}

/-- What such a reader leaves is the end of what it is given. -/
def Skips (part : List Char → Option (List Char)) : Prop :=
  ∀ s t, part s = some t → t <:+ s

theorem skips_word? (word : String) : Skips (word? word) := by
  intro s t h
  rw [word?_eq_some_iff.1 h]
  exact List.suffix_append _ t

theorem skips_keyword? (word : String) : Skips (keyword? word) := by
  intro s t h
  rcases keyword?_eq_some_iff.1 h with ⟨blanks, -, -, rfl, -⟩
  exact (List.suffix_append blanks t).trans (List.suffix_append _ _)

theorem Skips.or (h : Skips part) (h' : Skips other) :
    Skips fun s => (part s).or (other s) := by
  intro s t hread
  rcases Option.or_eq_some_iff.1 hread with hfirst | ⟨-, hsecond⟩
  · exact h s t hfirst
  · exact h' s t hsecond

theorem trimStart_suffix (s : List Char) : trimStart s <:+ s :=
  List.dropWhile_suffix isBlank

theorem infix_of_identifier? (h : identifier? s = some (name, rest)) : name <:+: s := by
  rw [(identifier?_eq_some_iff.1 h).2.1]
  exact (List.prefix_append name rest).isInfix

def Reads (P : List Char → α → Prop) (read : List Char → Option α) : Prop :=
  ∀ s a, read s = some a → P s a

/-- An optional part in front does not matter to what holds of the end of a text as well. -/
theorem Reads.optionally {P : List Char → α → Prop} {read : List Char → Option α}
    (h : Reads P read) (hpart : Skips part) (hsuffix : ∀ s t a, t <:+ s → P t a → P s a) :
    Reads P (optionally part read) := by
  intro s a hread
  rcases Option.or_eq_some_iff.1 hread with htaken | ⟨-, hskipped⟩
  · rcases Option.bind_eq_some_iff.1 htaken with ⟨t, ht, ha⟩
    exact hsuffix s t a (hpart s t ht) (h t a ha)
  · exact h s a hskipped

end Lexeme

/-! ## Names that are spelled -/

namespace Context

/-- Whether it is the context of something that is called. -/
def isCalled (context : Context) : Bool :=
  context.kind == "function" || context.kind == "method"

/-- The name of a context is made of identifiers with dots between them, as they stand in the text,
and of a pair of parentheses after them if it is that of something called. -/
structure Spells (s : List Char) (context : Context) (names : List (List Char)) : Prop where
  filled : names ≠ []
  identifiers : ∀ name ∈ names, IsIdentifier name
  name_eq : context.name.toList =
    join ['.'] names ++ if context.isCalled then ['(', ')'] else []
  occurs : join ['.'] names <:+: s

def IsSpelled (s : List Char) (context : Context) : Prop :=
  ∃ names, Spells s context names

variable {s t name : List Char} {names : List (List Char)} {context : Context} {kind : String}

theorem IsSpelled.of_isInfix (h : IsSpelled s context) (hwithin : s <:+: t) :
    IsSpelled t context := by
  rcases h with ⟨names, hnames⟩
  exact ⟨names, { hnames with occurs := hnames.occurs.trans hwithin }⟩

theorem toList_name_called (kind : String) (name : List Char) :
    (called kind name).name.toList = name ++ ['(', ')'] :=
  String.toList_ofList

theorem toList_name_plain (kind : String) (name : List Char) :
    (plain kind name).name.toList = name :=
  String.toList_ofList

theorem isSpelled_called (hfilled : names ≠ []) (hnames : ∀ name ∈ names, IsIdentifier name)
    (hs : join ['.'] names <:+: s) (hkind : (called kind []).isCalled = true) :
    IsSpelled s (called kind (join ['.'] names)) := by
  have hcalled : (called kind (join ['.'] names)).isCalled = true := hkind
  refine ⟨names, hfilled, hnames, ?_, hs⟩
  rw [toList_name_called, if_pos hcalled]

theorem isSpelled_plain (hfilled : names ≠ []) (hnames : ∀ name ∈ names, IsIdentifier name)
    (hs : join ['.'] names <:+: s) (hkind : (plain kind []).isCalled = false) :
    IsSpelled s (plain kind (join ['.'] names)) := by
  have hcalled : (plain kind (join ['.'] names)).isCalled = false := hkind
  refine ⟨names, hfilled, hnames, ?_, hs⟩
  rw [toList_name_plain, hcalled]
  exact (List.append_nil _).symm

theorem isSpelled_called_name (hname : IsIdentifier name) (hs : name <:+: s)
    (hkind : (called kind []).isCalled = true) : IsSpelled s (called kind name) :=
  isSpelled_called (List.cons_ne_nil name []) (by simpa using hname) hs hkind

theorem isSpelled_plain_name (hname : IsIdentifier name) (hs : name <:+: s)
    (hkind : (plain kind []).isCalled = false) : IsSpelled s (plain kind name) :=
  isSpelled_plain (List.cons_ne_nil name []) (by simpa using hname) hs hkind

theorem reads_isSpelled_optionally {read : List Char → Option Context}
    {part : List Char → Option (List Char)} (h : Reads IsSpelled read) (hpart : Skips part) :
    Reads IsSpelled (optionally part read) :=
  h.optionally hpart fun _ _ _ hsuffix hspelled => hspelled.of_isInfix hsuffix.isInfix

/-! ## Declarations with a keyword -/

theorem reads_functionDeclaration? : Reads IsSpelled functionDeclaration? := by
  unfold functionDeclaration?
  refine reads_isSpelled_optionally (reads_isSpelled_optionally
    (reads_isSpelled_optionally ?_ (skips_keyword? _)) (skips_keyword? _)) (skips_keyword? _)
  intro s context h
  rcases Option.bind_eq_some_iff.1 h with ⟨rest, hword, hstar⟩
  have hrest : trimStart rest <:+ s := (trimStart_suffix rest).trans (skips_word? _ _ _ hword)
  refine IsSpelled.of_isInfix ?_ hrest.isInfix
  refine reads_isSpelled_optionally ?_ (skips_word? _) _ _ hstar
  intro t context h
  rcases Option.bind_eq_some_iff.1 h with ⟨⟨name, after⟩, hname, hopen⟩
  rcases Option.bind_eq_some_iff.1 hopen with ⟨_, -, hcontext⟩
  cases hcontext
  have hwithin := (infix_of_identifier? hname).trans (trimStart_suffix t).isInfix
  exact isSpelled_called_name (identifier?_eq_some_iff.1 hname).1 hwithin rfl

theorem reads_classDeclaration? : Reads IsSpelled classDeclaration? := by
  unfold classDeclaration?
  refine reads_isSpelled_optionally (reads_isSpelled_optionally ?_ (skips_keyword? _))
    (skips_keyword? _)
  intro s context h
  rcases Option.bind_eq_some_iff.1 h with ⟨rest, hword, hafter⟩
  rcases Option.bind_eq_some_iff.1 hafter with ⟨⟨name, after⟩, hname, hcontext⟩
  cases hcontext
  have hwithin := (infix_of_identifier? hname).trans (skips_keyword? _ _ _ hword).isInfix
  exact isSpelled_plain_name (identifier?_eq_some_iff.1 hname).1 hwithin rfl

theorem reads_variableDeclaration? : Reads IsSpelled variableDeclaration? := by
  unfold variableDeclaration?
  refine reads_isSpelled_optionally ?_ (skips_keyword? _)
  intro s context h
  rcases Option.bind_eq_some_iff.1 h with ⟨rest, hword, hafter⟩
  rcases Option.bind_eq_some_iff.1 hafter with ⟨⟨name, after⟩, hname, hcontext⟩
  have hskips := (skips_keyword? "var").or ((skips_keyword? "let").or (skips_keyword? "const"))
  have hwithin := (infix_of_identifier? hname).trans (hskips _ _ hword).isInfix
  have hidentifier := (identifier?_eq_some_iff.1 hname).1
  cases hcontext
  split
  · exact isSpelled_called_name hidentifier hwithin rfl
  · exact isSpelled_plain_name hidentifier hwithin rfl

/-! ## Assignments -/

theorem isSpelled_of_member? {rest : List Char} (hfilled : names ≠ [])
    (hnames : ∀ name ∈ names, IsIdentifier name) (hs : join ['.'] names <:+: s)
    (h : member? (join ['.'] names) rest = some context) : IsSpelled s context := by
  unfold member? at h
  split at h
  · cases h
    exact isSpelled_called hfilled hnames hs rfl
  · split at h
    · cases h
      exact isSpelled_plain hfilled hnames hs rfl
    · cases h

theorem reads_memberAssignment? : Reads IsSpelled memberAssignment? := by
  intro s context h
  rcases Option.bind_eq_some_iff.1 h with ⟨⟨names, rest⟩, hpath, hmember⟩
  rcases of_path?_eq_some hpath with ⟨hfilled, hnames, hs⟩
  have hwithin : join ['.'] names <:+: s := hs ▸ (List.prefix_append _ rest).isInfix
  simp only at hmember
  split at hmember
  · cases hmember
  · split at hmember
    · cases hmember
      exact isSpelled_plain hfilled hnames hwithin rfl
    · exact isSpelled_of_member? hfilled hnames hwithin hmember
  · exact isSpelled_of_member? hfilled hnames hwithin hmember

theorem reads_functionAssignment? : Reads IsSpelled functionAssignment? := by
  intro s context h
  rcases Option.bind_eq_some_iff.1 h with ⟨⟨name, rest⟩, hname, hcontext⟩
  simp only at hcontext
  split at hcontext
  · cases hcontext
    exact isSpelled_called_name (identifier?_eq_some_iff.1 hname).1 (infix_of_identifier? hname) rfl
  · cases hcontext

/-! ## Members of an object or a class -/

theorem reads_propertyFunction? : Reads IsSpelled propertyFunction? := by
  unfold propertyFunction?
  refine reads_isSpelled_optionally ?_ (skips_keyword? _)
  intro s context h
  rcases Option.bind_eq_some_iff.1 h with ⟨⟨name, rest⟩, hname, hcolon⟩
  rcases Option.bind_eq_some_iff.1 hcolon with ⟨value, -, hcontext⟩
  split at hcontext
  · cases hcontext
    exact isSpelled_called_name (identifier?_eq_some_iff.1 hname).1 (infix_of_identifier? hname) rfl
  · cases hcontext

theorem reads_property? : Reads IsSpelled property? := by
  intro s context h
  rcases Option.bind_eq_some_iff.1 h with ⟨⟨name, rest⟩, hname, hcolon⟩
  rcases Option.bind_eq_some_iff.1 hcolon with ⟨_, -, hcontext⟩
  cases hcontext
  exact isSpelled_plain_name (identifier?_eq_some_iff.1 hname).1 (infix_of_identifier? hname) rfl

theorem reads_shorthandName? :
    Reads (fun s name => IsIdentifier name ∧ name <:+: s) shorthandName? := by
  have hsuffix : ∀ s t name : List Char, t <:+ s → IsIdentifier name ∧ name <:+: t →
      IsIdentifier name ∧ name <:+: s :=
    fun _ _ _ hsuffix h => ⟨h.1, h.2.trans hsuffix.isInfix⟩
  have haccessor := (skips_keyword? "get").or (skips_keyword? "set")
  unfold shorthandName?
  refine Reads.optionally (Reads.optionally (Reads.optionally (Reads.optionally ?_
    (skips_word? _) hsuffix) haccessor hsuffix) (skips_keyword? _) hsuffix)
    (skips_keyword? _) hsuffix
  intro s name h
  rcases Option.bind_eq_some_iff.1 h with ⟨⟨own, rest⟩, hown, hparameters⟩
  rcases Option.bind_eq_some_iff.1 hparameters with ⟨_, -, hbrace⟩
  rcases Option.bind_eq_some_iff.1 hbrace with ⟨_, -, hname⟩
  cases hname
  exact ⟨(identifier?_eq_some_iff.1 hown).1, infix_of_identifier? hown⟩

theorem reads_shorthand? : Reads IsSpelled shorthand? := by
  intro s context h
  rcases Option.bind_eq_some_iff.1 h with ⟨name, hname, hcontext⟩
  rcases reads_shorthandName? s name hname with ⟨hidentifier, hwithin⟩
  split at hcontext
  · cases hcontext
  · cases hcontext
    exact isSpelled_called_name hidentifier hwithin rfl

/-! ## All forms -/

theorem reads_of_mem_forms {read : List Char → Option Context} (h : read ∈ forms) :
    Reads IsSpelled read := by
  unfold forms at h
  simp only [List.mem_cons, List.not_mem_nil, or_false] at h
  rcases h with rfl | rfl | rfl | rfl | rfl | rfl | rfl | rfl
  · exact reads_functionDeclaration?
  · exact reads_classDeclaration?
  · exact reads_memberAssignment?
  · exact reads_variableDeclaration?
  · exact reads_functionAssignment?
  · exact reads_propertyFunction?
  · exact reads_property?
  · exact reads_shorthand?

theorem isSpelled_of_ofCode? {code : List Char} (h : ofCode? code = some context) :
    IsSpelled code context := by
  rcases List.exists_of_findSome?_eq_some h with ⟨read, hread, hcontext⟩
  exact (reads_of_mem_forms hread _ _ hcontext).of_isInfix (trim_isInfix code)

theorem IsSpelled.name_ne_empty (h : IsSpelled s context) : context.name ≠ "" := by
  rcases h with ⟨names, hnames⟩
  intro hempty
  have hnone := hnames.name_eq
  rw [hempty] at hnone
  rcases List.exists_mem_of_ne_nil names hnames.filled with ⟨name, hname⟩
  have hpath : join ['.'] names = [] := (List.append_eq_nil_iff.1 hnone.symm).1
  have hwithin : name <:+: [] := hpath ▸ infix_join ['.'] hname
  exact (hnames.identifiers name hname).1 (List.infix_nil.1 hwithin)

theorem name_ne_empty_of_ofCode? {code : List Char} (h : ofCode? code = some context) :
    context.name ≠ "" :=
  (isSpelled_of_ofCode? h).name_ne_empty

/-! ## Order of names -/

/-- The names stand in the text one after the other. -/
def OccurInOrder : List (List Char) → List Char → Prop
  | [], _ => True
  | name :: names, s =>
      ∃ before rest, s = before ++ (name ++ rest) ∧ OccurInOrder names rest

theorem occurInOrder_of_isInfix (h : join ['.'] names <:+: s) : OccurInOrder names s := by
  induction names generalizing s with
  | nil =>
      trivial
  | cons name names ih =>
      rcases h with ⟨before, after, rfl⟩
      by_cases hlast : names = []
      · refine ⟨before, after, ?_, by rw [hlast]; trivial⟩
        rw [hlast, List.append_assoc]
        rfl
      · refine ⟨before, '.' :: (join ['.'] names ++ after), ?_, ih ⟨['.'], after, rfl⟩⟩
        rw [join_cons_of_ne_nil _ _ hlast]
        simp

theorem Spells.call_suffix_iff (h : Spells s context names) :
    ['(', ')'] <:+ context.name.toList ↔ context.isCalled = true := by
  rw [h.name_eq]
  cases hcalled : context.isCalled with
  | true =>
      simp
  | false =>
      -- There is no parenthesis in an identifier, and none between two of them.
      have hnone : ')' ∉ join ['.'] names := by
        intro hmem
        rcases mem_of_mem_join hmem with hdot | ⟨name, hname, hc⟩
        · exact absurd (List.mem_singleton.1 hdot) (by decide)
        · cases (h.identifiers name hname).2 ')' hc
      refine ⟨fun hsuffix => ?_, fun h => by cases h⟩
      have hmem : ')' ∈ join ['.'] names ++ [] := hsuffix.subset (by simp)
      exact absurd hmem (by simpa using hnone)

/-- The name of every context that is read is made of identifiers that stand in the code in their
order, with dots between them, and of parentheses after them exactly if it is that of a function or
a method. -/
theorem ofCode?_spells {code : List Char} (h : ofCode? code = some context) :
    ∃ names, Spells code context names ∧ OccurInOrder names code ∧
      (['(', ')'] <:+ context.name.toList ↔
        context.kind = "function" ∨ context.kind = "method") := by
  rcases isSpelled_of_ofCode? h with ⟨names, hnames⟩
  have hkind : context.isCalled = true ↔ context.kind = "function" ∨ context.kind = "method" := by
    simp [isCalled]
  exact ⟨names, hnames, occurInOrder_of_isInfix hnames.occurs, hnames.call_suffix_iff.trans hkind⟩

theorem ofCode?_spells_methods :
    let assigned := "  a.$b.prototype.c = async (x) => x".toList
    let shortened := "static functionFoo(a) \x7b".toList
    ofCode? assigned = some (called "method" "a.$b.prototype.c".toList) ∧
      ofCode? shortened = some (called "method" "functionFoo".toList) ∧
        (∃ names, Spells assigned (called "method" "a.$b.prototype.c".toList) names ∧
          OccurInOrder names assigned) ∧
        ∃ names, Spells shortened (called "method" "functionFoo".toList) names ∧
          OccurInOrder names shortened := by
  intro assigned shortened
  have hassigned : ofCode? assigned = some (called "method" "a.$b.prototype.c".toList) := by
    decide +kernel
  have hshortened : ofCode? shortened = some (called "method" "functionFoo".toList) := by
    decide +kernel
  rcases ofCode?_spells hassigned with ⟨names, hnames, hordered, -⟩
  rcases ofCode?_spells hshortened with ⟨own, hown, hownOrdered, -⟩
  exact ⟨hassigned, hshortened, ⟨names, hnames, hordered⟩, ⟨own, hown, hownOrdered⟩⟩

end Context
end ScriptDoc
