import ScriptDoc.Proofs.Context.Beginnings
import ScriptDoc.Proofs.Context.FunctionValues

/-!
# Declarations — lines that declare something or assign it

- `Declaration`, `Declaration.line`   : the lines, up to the part that is free
- `Declaration.Fits`                  : what may stand in that part
- `Declaration.context`               : what is declared
- `ofCode?_functionNamed`, `ofCode?_classNamed`, `ofCode?_variableNamed`, `ofCode?_member`,
  `ofCode?_assigned`, `ofCode?_property` : what is read from each kind of line
- `ofCode?_declaration`               : each line is read as what it declares
-/

namespace ScriptDoc
namespace Context

open Text Lexeme

/-! ## Lines -/

abbrev Identifier := { name : List Char // IsIdentifier name }

/-- What has members: an identifier, or several with dots between them. -/
structure Receiver where
  first : Identifier
  others : List Identifier

def Receiver.names (r : Receiver) : List (List Char) :=
  (r.first :: r.others).map (·.1)

inductive VariableWord where
  | functionWide
  | blockWide
  | constant
  deriving DecidableEq, Repr

def VariableWord.word : VariableWord → String
  | .functionWide => "var"
  | .blockWide => "let"
  | .constant => "const"

inductive Declaration where
  | functionNamed (isExported isDefault isAsync isGenerator : Bool) (name : Identifier)
  | classNamed (isExported isDefault : Bool) (name : Identifier)
  | prototypeMember (receiver : Receiver) (name : Identifier)
  | member (receiver : Receiver) (name : Identifier)
      (isPlain : "prototype".toList ∉ receiver.names ++ [name.1])
  | variableNamed (isExported : Bool) (word : VariableWord) (name : Identifier)
  | assigned (name : Identifier)
  | property (name : Identifier)

def star (present : Bool) : List Char :=
  if present then ['*'] else []

def functionLine (isGenerator : Bool) (name rest : List Char) : List Char :=
  "function".toList ++ (star isGenerator ++ ' ' :: (name ++ '(' :: rest))

def classLine (name rest : List Char) : List Char :=
  "class".toList ++ ' ' :: (name ++ rest)

def assignment (target value : List Char) : List Char :=
  target ++ ' ' :: '=' :: value

def variableLine (word : VariableWord) (name value : List Char) : List Char :=
  word.word.toList ++ ' ' :: assignment name value

namespace Declaration

/-- The names of a member, from the receiver on. -/
def path : Declaration → List (List Char)
  | functionNamed _ _ _ _ name | classNamed _ _ name | variableNamed _ _ name | assigned name
  | property name => [name.1]
  | prototypeMember receiver name => receiver.names ++ ["prototype".toList, name.1]
  | member receiver name _ => receiver.names ++ [name.1]

/-- The line with the rest that follows the name, or with the value that is given to it. -/
def line : Declaration → List Char → List Char
  | functionNamed isExported isDefault isAsync isGenerator name, rest =>
      ledIf isExported "export" (ledIf isDefault "default" (ledIf isAsync "async"
        (functionLine isGenerator name.1 rest)))
  | classNamed isExported isDefault name, rest =>
      ledIf isExported "export" (ledIf isDefault "default" (classLine name.1 rest))
  | variableNamed isExported word name, value =>
      ledIf isExported "export" (variableLine word name.1 (' ' :: value))
  | property name, value => name.1 ++ ':' :: ' ' :: value
  | d, value => assignment (join ['.'] d.path) (' ' :: value)

/-- The name of a class ends where the rest begins, and a value begins where it is read. To assign
to a name that is no member declares functions only. -/
def Fits : Declaration → List Char → Prop
  | functionNamed .., _ => True
  | classNamed .., rest => rest.head?.any isIdent = false
  | assigned _, value => IsFunctionValue value
  | _, value => value.head?.any isBlank = false

def memberContext (path value : List Char) : Context :=
  if IsFunctionValue value then called "method" path else plain "property" path

def context (d : Declaration) (value : List Char) : Context :=
  let name := join ['.'] d.path
  match d with
  | functionNamed .. | assigned _ => called "function" name
  | classNamed .. => plain "class" name
  | variableNamed .. =>
      if IsFunctionValue value then called "function" name else plain "declaration" name
  | prototypeMember .. | member .. | property _ => memberContext name value

end Declaration

/-! ## Values -/

section

variable {value : List Char}

/-- The value of a line whose end has been trimmed. -/
theorem trimStart_trimEnd_value (h : value.head?.any isBlank = false) :
    trimStart (trimEnd (' ' :: value)) = trimEnd value := by
  cases value with
  | nil =>
      rfl
  | cons c value =>
      have hc : isBlank c = false := h
      have htrim : trimEnd (' ' :: c :: value) = ' ' :: c :: trimEnd value :=
        trimEnd_append_cons hc [' '] value
      rw [htrim, trimEnd_cons hc]
      exact trimStart_eq_iff.2 ⟨[' '], rfl, List.forall_mem_singleton.2 rfl, h⟩

theorem assigned?_sign (value : List Char) : assigned? (' ' :: '=' :: value) = some value :=
  rfl

theorem assignsFunction_value (h : value.head?.any isBlank = false) :
    assignsFunction (' ' :: '=' :: trimEnd (' ' :: value)) = isFunctionValue value := by
  rw [assignsFunction, assigned?_sign]
  simp only [trimStart_trimEnd_value h, isFunctionValue_trimEnd]

/-- A sign that a blank or nothing follows is no comparison. -/
theorem assignsValue_value (value : List Char) :
    assignsValue (' ' :: '=' :: trimEnd (' ' :: value)) = true := by
  have hhead : (trimEnd (' ' :: value)).head?.any (· == '=') = false := head?_trimEnd rfl
  rw [assignsValue, assigned?_sign]
  cases hvalue : trimEnd (' ' :: value) with
  | nil =>
      rfl
  | cons c rest =>
      rw [hvalue] at hhead
      have hc : c ≠ '=' := by simpa using hhead
      simpa using hc

theorem member?_value (h : value.head?.any isBlank = false) (path : List Char) :
    member? path (' ' :: '=' :: trimEnd (' ' :: value)) =
      some (Declaration.memberContext path value) := by
  rw [member?, assignsFunction_value h, assignsValue_value, Declaration.memberContext]
  simp only [isFunctionValue_iff, if_true]
  split
  · rfl
  · rfl

end

/-! ## What the lines lead to -/

theorem leadsToSign_assignment {name : List Char} (hname : IsIdentifier name)
    (value : List Char) : LeadsToSign (assignment name value) :=
  .named hname rfl (c := '=') rfl rfl

theorem leadsToSign_property {name : List Char} (hname : IsIdentifier name)
    (value : List Char) : LeadsToSign (name ++ ':' :: value) :=
  .named hname rfl (c := ':') rfl rfl

/-- A path of several names has a dot after the first one. -/
theorem leadsToSign_member {names : List (List Char)} (hlong : 2 ≤ names.length)
    (hnames : ∀ name ∈ names, IsIdentifier name) (rest : List Char) :
    LeadsToSign (join ['.'] names ++ rest) := by
  cases names with
  | nil =>
      simp at hlong
  | cons name names =>
      have hothers : names ≠ [] := by
        rintro rfl
        simp at hlong
      have hdot : join ['.'] (name :: names) ++ rest =
          name ++ '.' :: (join ['.'] names ++ rest) := by
        rw [join_cons_of_ne_nil _ _ hothers]
        simp
      rw [hdot]
      exact .named (hnames name List.mem_cons_self) rfl (c := '.') rfl rfl

/-! ## Functions -/

section

variable {name : List Char}

theorem begins_functionLine (isGenerator : Bool) (name rest : List Char) :
    Begins ["function"] (functionLine isGenerator name rest) := by
  refine ⟨"function", List.mem_cons_self,
    star isGenerator ++ ' ' :: (name ++ '(' :: rest), rfl, isIdentifier_functionWord, ?_⟩
  cases isGenerator with
  | false =>
      rfl
  | true =>
      rfl

theorem namedFunction?_name {s rest : List Char} (hname : IsIdentifier name)
    (hs : trimStart s = name ++ '(' :: rest) :
    namedFunction? s = some (called "function" name) := by
  rw [namedFunction?, hs, identifier?_run hname rfl]
  rfl

theorem functionHead?_line (isGenerator : Bool) (hname : IsIdentifier name) (rest : List Char) :
    functionHead? (functionLine isGenerator name rest) = some (called "function" name) := by
  have htrim : trimStart (name ++ '(' :: rest) = name ++ '(' :: rest := trimStart_run hname _
  have hspace : trimStart (' ' :: (name ++ '(' :: rest)) = name ++ '(' :: rest := htrim
  have hword : ∀ t, word? "function" ("function".toList ++ t) = some t :=
    fun _ => word?_eq_some_iff.2 rfl
  rw [functionHead?]
  unfold functionLine
  rw [hword, Option.bind_eq_bind, Option.bind_some]
  cases isGenerator with
  | false =>
      have hplain : trimStart (star false ++ ' ' :: (name ++ '(' :: rest)) =
          name ++ '(' :: rest := hspace
      rw [hplain, optionally_of_eq_none (word?_star_run hname), namedFunction?_name hname htrim]
  | true =>
      have hstar : word? "*" (trimStart (star true ++ ' ' :: (name ++ '(' :: rest))) =
          some (' ' :: (name ++ '(' :: rest)) := rfl
      rw [optionally_of_eq_some hstar, namedFunction?_name hname hspace]
      rfl

theorem begins_function (isExported isDefault isAsync isGenerator : Bool)
    (name rest : List Char) :
    Begins ["export", "default", "async", "function"]
      (ledIf isExported "export" (ledIf isDefault "default" (ledIf isAsync "async"
        (functionLine isGenerator name rest)))) :=
  (((begins_functionLine isGenerator name rest).ledIf
    (isIdentifier_functionLead "async" (by decide)) isAsync).ledIf
    (isIdentifier_functionLead "default" (by decide)) isDefault).ledIf
    (isIdentifier_functionLead "export" (by decide)) isExported

theorem functionDeclaration?_line (isExported isDefault isAsync isGenerator : Bool)
    (hname : IsIdentifier name) (rest : List Char) :
    functionDeclaration? (ledIf isExported "export" (ledIf isDefault "default"
      (ledIf isAsync "async" (functionLine isGenerator name rest)))) =
        some (called "function" name) := by
  have hasync := isIdentifier_functionLead "async" (by decide)
  have hdefault := isIdentifier_functionLead "default" (by decide)
  have hexport := isIdentifier_functionLead "export" (by decide)
  have hline := begins_functionLine isGenerator name rest
  have hhead := functionHead?_line isGenerator hname rest
  have hfirst := hline.optionally_ledIf hasync (by decide) hhead isAsync
  have hsecond := (hline.ledIf hasync isAsync).optionally_ledIf hdefault (by decide) hfirst isDefault
  exact ((hline.ledIf hasync isAsync).ledIf hdefault isDefault).optionally_ledIf hexport
    (by decide) hsecond isExported

end

/-! ## Classes -/

section

variable {name : List Char}

theorem begins_classLine (name rest : List Char) : Begins ["class"] (classLine name rest) :=
  ⟨"class", List.mem_cons_self, ' ' :: (name ++ rest), rfl,
    isIdentifier_openingWord "class" (by decide), rfl⟩

theorem opened_classLine (name rest : List Char) : Opened ["class"] (classLine name rest) :=
  .word List.mem_cons_self _

theorem classHead?_line {rest : List Char} (hname : IsIdentifier name)
    (hrest : rest.head?.any isIdent = false) :
    classHead? (classLine name rest) = some (plain "class" name) := by
  have hclass := isIdentifier_openingWord "class" (by decide)
  have hword : keyword? "class" (classLine name rest) = some (name ++ rest) :=
    keyword?_self hclass.2 (trimStart_run hname rest)
  rw [classHead?, hword, Option.bind_eq_bind, Option.bind_some, identifier?_run hname hrest]
  rfl

theorem classDeclaration?_line (isExported isDefault : Bool) {rest : List Char}
    (hname : IsIdentifier name) (hrest : rest.head?.any isIdent = false) :
    classDeclaration? (ledIf isExported "export" (ledIf isDefault "default"
      (classLine name rest))) = some (plain "class" name) := by
  have hdefault := isIdentifier_functionLead "default" (by decide)
  have hexport := isIdentifier_functionLead "export" (by decide)
  have hline := begins_classLine name rest
  have hfirst := hline.optionally_ledIf hdefault (by decide) (classHead?_line hname hrest) isDefault
  exact (hline.ledIf hdefault isDefault).optionally_ledIf hexport (by decide) hfirst isExported

end

/-! ## Variables -/

section

variable {name value : List Char}

/-- What holds of the three words holds of each. -/
theorem VariableWord.of_words {P : String → Prop} (h : ∀ word ∈ ["var", "let", "const"], P word)
    (word : VariableWord) : P word.word := by
  refine h _ ?_
  cases word with
  | functionWide => decide
  | blockWide => decide
  | constant => decide

theorem VariableWord.mem_declaringWords (word : VariableWord) : word.word ∈ declaringWords :=
  of_words (by decide) word

theorem begins_variableLine (word : VariableWord) (name value : List Char) :
    Begins [word.word] (variableLine word name value) := by
  have hopening : word.word ∈ openingWords := VariableWord.of_words (by decide) word
  have hword : IsIdentifier word.word.toList := isIdentifier_openingWord word.word hopening
  exact ⟨word.word, List.mem_cons_self, ' ' :: assignment name value, rfl, hword, rfl⟩

theorem variableKeyword?_line (word : VariableWord) (hname : IsIdentifier name)
    (value : List Char) :
    variableKeyword? (variableLine word name value) = some (assignment name value) := by
  have htrim : trimStart (assignment name value) = assignment name value :=
    trimStart_run hname _
  have hvar := isIdentifier_openingWord "var" (by decide)
  have hlet := isIdentifier_openingWord "let" (by decide)
  have hconst := isIdentifier_openingWord "const" (by decide)
  have hbegins := begins_variableLine word name value
  cases word with
  | functionWide =>
      have hword : keyword? "var" (variableLine .functionWide name value) =
          some (assignment name value) := keyword?_self hvar.2 htrim
      rw [variableKeyword?, hword]
      rfl
  | blockWide =>
      have hword : keyword? "let" (variableLine .blockWide name value) =
          some (assignment name value) := keyword?_self hlet.2 htrim
      rw [variableKeyword?, hbegins.keyword?_eq_none hvar (by decide), hword]
      rfl
  | constant =>
      have hword : keyword? "const" (variableLine .constant name value) =
          some (assignment name value) := keyword?_self hconst.2 htrim
      rw [variableKeyword?, hbegins.keyword?_eq_none hvar (by decide),
        hbegins.keyword?_eq_none hlet (by decide), hword]
      rfl

theorem variableHead?_line (word : VariableWord) (hname : IsIdentifier name)
    (hvalue : value.head?.any isBlank = false) :
    variableHead? (variableLine word name (trimEnd (' ' :: value))) =
      some (if IsFunctionValue value then called "function" name
        else plain "declaration" name) := by
  have hread : identifier? (assignment name (trimEnd (' ' :: value))) =
      some (name, ' ' :: '=' :: trimEnd (' ' :: value)) := identifier?_run hname rfl
  rw [variableHead?, variableKeyword?_line word hname, Option.bind_eq_bind, Option.bind_some,
    hread]
  simp [assignsFunction_value hvalue, isFunctionValue_iff]

theorem variableDeclaration?_line (isExported : Bool) (word : VariableWord)
    (hname : IsIdentifier name) (hvalue : value.head?.any isBlank = false) :
    variableDeclaration? (ledIf isExported "export"
      (variableLine word name (trimEnd (' ' :: value)))) =
        some (if IsFunctionValue value then called "function" name
          else plain "declaration" name) := by
  have hexport := isIdentifier_functionLead "export" (by decide)
  have hother : "export" ∉ [word.word] :=
    @VariableWord.of_words (fun word => "export" ∉ [word]) (by decide) word
  rw [variableDeclaration?]
  exact (begins_variableLine word name _).optionally_ledIf hexport hother
    (variableHead?_line word hname hvalue) isExported

end

/-! ## Members -/

section

variable {names : List (List Char)} {value : List Char}

/-- To assign to a path of several names is to assign to a member, unless it is a prototype. -/
theorem memberAssignment?_path (hlong : 2 ≤ names.length)
    (hnames : ∀ name ∈ names, IsIdentifier name)
    (hplain : names.length = 2 → "prototype".toList ∉ names) (value : List Char) :
    memberAssignment? (assignment (join ['.'] names) value) =
      member? (join ['.'] names) (' ' :: '=' :: value) := by
  have hne : names ≠ [] := by
    rintro rfl
    simp at hlong
  have hpath : path? (assignment (join ['.'] names) value) =
      some (names, ' ' :: '=' :: value) := path?_join hne hnames rfl
  rw [memberAssignment?, hpath, Option.bind_eq_bind, Option.bind_some]
  rcases names with _ | ⟨first, _ | ⟨last, _ | ⟨third, more⟩⟩⟩
  · exact absurd rfl hne
  · simp at hlong
  · have hlast : last ≠ "prototype".toList := by
      rintro rfl
      exact hplain rfl (by simp)
    have htest : (decide (last = "prototype".toList) &&
        assignsValue (' ' :: '=' :: value)) = false := by
      rw [decide_eq_false hlast, Bool.false_and]
    exact if_neg (Bool.eq_false_iff.1 htest)
  · rfl

end

/-! ## Names that are assigned to -/

section

variable {name value : List Char}

theorem memberAssignment?_run {rest : List Char} (hname : IsIdentifier name)
    (hstop : rest.head?.any isPathChar = false) : memberAssignment? (name ++ rest) = none := by
  rw [memberAssignment?, path?_run hname hstop]
  rfl

theorem functionAssignment?_line (hname : IsIdentifier name) (hvalue : IsFunctionValue value) :
    functionAssignment? (assignment name (trimEnd (' ' :: value))) =
      some (called "function" name) := by
  have hread : identifier? (assignment name (trimEnd (' ' :: value))) =
      some (name, ' ' :: '=' :: trimEnd (' ' :: value)) := identifier?_run hname rfl
  rw [functionAssignment?, hread, Option.bind_eq_bind, Option.bind_some]
  simp [assignsFunction_value hvalue.head?, isFunctionValue_iff.2 hvalue]

theorem functionAssignment?_property (hname : IsIdentifier name) (value : List Char) :
    functionAssignment? (name ++ ':' :: value) = none := by
  rw [functionAssignment?, identifier?_run hname rfl]
  rfl

theorem propertyFunction?_line (hname : IsIdentifier name)
    (hvalue : value.head?.any isBlank = false) :
    propertyFunction? (name ++ ':' :: trimEnd (' ' :: value)) =
      if IsFunctionValue value then some (called "method" name) else none := by
  have hasync : keyword? "async" (name ++ ':' :: trimEnd (' ' :: value)) = none := by
    rw [keyword?_run (isIdentifier_functionLead "async" (by decide)).2 hname.2 rfl]
    split
    · rfl
    · rfl
  have hcolon : word? ":" (trimStart (':' :: trimEnd (' ' :: value))) =
      some (trimEnd (' ' :: value)) := rfl
  have hfunction : isFunctionValue (trimStart (trimEnd (' ' :: value))) = true ↔
      IsFunctionValue value := by
    rw [trimStart_trimEnd_value hvalue, isFunctionValue_trimEnd, isFunctionValue_iff]
  rw [propertyFunction?, optionally_of_eq_none hasync, identifier?_run hname rfl]
  simp only [Option.bind_eq_bind, Option.bind_some, hcolon, hfunction]
  rfl

theorem property?_line (hname : IsIdentifier name) (value : List Char) :
    property? (name ++ ':' :: value) = some (plain "property" name) := by
  rw [property?, identifier?_run hname rfl]
  rfl

end

/-! ## All forms -/

section

variable {name value rest : List Char} {s : List Char} {context : Context}

/-- A line that begins with an identifier begins with no blank. -/
theorem head?_run (hname : IsIdentifier name) (rest : List Char) :
    (name ++ rest).head?.any isBlank = false := by
  rw [← trimStart_run hname rest]
  exact head?_dropWhile isBlank _

theorem functionLine_eq (isGenerator : Bool) (name rest : List Char) :
    functionLine isGenerator name rest =
      ("function".toList ++ (star isGenerator ++ ' ' :: name)) ++ '(' :: rest := by
  unfold functionLine
  simp only [List.append_assoc, List.cons_append]

theorem ofCode?_functionNamed (isExported isDefault isAsync isGenerator : Bool)
    (hname : IsIdentifier name) (rest : List Char) :
    ofCode? (ledIf isExported "export" (ledIf isDefault "default" (ledIf isAsync "async"
      (functionLine isGenerator name rest)))) = some (called "function" name) := by
  have htrim : trim (ledIf isExported "export" (ledIf isDefault "default" (ledIf isAsync "async"
      (functionLine isGenerator name rest)))) =
        ledIf isExported "export" (ledIf isDefault "default" (ledIf isAsync "async"
          (functionLine isGenerator name (trimEnd rest)))) := by
    have hstart := (begins_function isExported isDefault isAsync isGenerator name rest).head?
    simp only [functionLine_eq, ledIf_append] at hstart ⊢
    exact trim_append_cons hstart (by decide)
  have hread := functionDeclaration?_line isExported isDefault isAsync isGenerator hname
    (trimEnd rest)
  rw [ofCode?, htrim, forms, List.findSome?_cons, hread]

theorem trim_classLine (isExported isDefault : Bool) (hname : IsIdentifier name)
    (rest : List Char) :
    trim (ledIf isExported "export" (ledIf isDefault "default" (classLine name rest))) =
      ledIf isExported "export" (ledIf isDefault "default" (classLine name (trimEnd rest))) := by
  rcases List.eq_nil_or_concat name with hnil | ⟨before, c, hlast⟩
  · exact absurd hnil hname.1
  · have hfront : ∀ rest, classLine name rest = classLine before [] ++ c :: rest := by
      intro rest
      unfold classLine
      simp [hlast]
    have hc : isBlank c = false := isBlank_of_isIdent (hname.2 c (by simp [hlast]))
    have hstart := (((begins_classLine name rest).ledIf
      (isIdentifier_functionLead "default" (by decide)) isDefault).ledIf
      (isIdentifier_functionLead "export" (by decide)) isExported).head?
    simp only [hfront, ledIf_append] at hstart ⊢
    exact trim_append_cons hstart hc

theorem ofCode?_classNamed (isExported isDefault : Bool) (hname : IsIdentifier name)
    (hrest : rest.head?.any isIdent = false) :
    ofCode? (ledIf isExported "export" (ledIf isDefault "default" (classLine name rest))) =
      some (plain "class" name) := by
  have hopened : Opened ["class"] (ledIf isExported "export" (ledIf isDefault "default"
      (classLine name (trimEnd rest)))) :=
    ((opened_classLine name _).ledIf (by decide) isDefault).ledIf (by decide) isExported
  have hread := classDeclaration?_line isExported isDefault hname (head?_trimEnd hrest)
  rw [ofCode?, trim_classLine isExported isDefault hname, forms]
  simp only [List.findSome?_cons, hopened.functionDeclaration?_eq_none (by decide), hread]

theorem ofCode?_variableNamed (isExported : Bool) (word : VariableWord)
    (hname : IsIdentifier name) (hvalue : value.head?.any isBlank = false) :
    ofCode? (ledIf isExported "export" (variableLine word name (' ' :: value))) =
      some (if IsFunctionValue value then called "function" name
        else plain "declaration" name) := by
  have htrim : trim (ledIf isExported "export" (variableLine word name (' ' :: value))) =
      ledIf isExported "export" (variableLine word name (trimEnd (' ' :: value))) := by
    have hfront : ∀ value, variableLine word name value =
        (word.word.toList ++ ' ' :: (name ++ [' '])) ++ '=' :: value := by
      intro value
      simp [variableLine, assignment]
    have hstart := ((begins_variableLine word name (' ' :: value)).ledIf
      (isIdentifier_functionLead "export" (by decide)) isExported).head?
    simp only [hfront, ledIf_append] at hstart ⊢
    exact trim_append_cons hstart (by decide)
  have hopened : Opened [word.word] (ledIf isExported "export"
      (variableLine word name (trimEnd (' ' :: value)))) :=
    (Opened.word List.mem_cons_self _).ledIf (by decide) isExported
  have hwords : [word.word] ⊆ declaringWords :=
    List.cons_subset.2 ⟨word.mem_declaringWords, List.nil_subset _⟩
  have hclass : "class" ∉ [word.word] :=
    @VariableWord.of_words (fun word => "class" ∉ [word]) (by decide) word
  have hread := variableDeclaration?_line isExported word hname hvalue
  rw [ofCode?, htrim, forms]
  simp only [List.findSome?_cons, hopened.functionDeclaration?_eq_none hwords,
    hopened.classDeclaration?_eq_none hwords hclass, hopened.memberAssignment?_eq_none hwords,
    hread]

theorem trim_assignment {target : List Char}
    (hstart : ∀ rest, (target ++ rest).head?.any isBlank = false) (value : List Char) :
    trim (assignment target value) = assignment target (trimEnd value) := by
  have hfront : ∀ value, assignment target value = (target ++ [' ']) ++ '=' :: value := by
    intro value
    simp [assignment]
  have hwhole := hstart (' ' :: '=' :: value)
  rw [← assignment, hfront] at hwhole
  rw [hfront, hfront]
  exact trim_append_cons hwhole (by decide)

theorem head?_join {names : List (List Char)} (hne : names ≠ [])
    (hnames : ∀ name ∈ names, IsIdentifier name) (rest : List Char) :
    (join ['.'] names ++ rest).head?.any isBlank = false := by
  cases names with
  | nil =>
      exact absurd rfl hne
  | cons first others =>
      have hfirst := hnames first List.mem_cons_self
      by_cases hlast : others = []
      · rw [hlast]
        exact head?_run hfirst rest
      · rw [join_cons_of_ne_nil _ _ hlast, List.append_assoc]
        exact head?_run hfirst _

theorem ofCode?_member {names : List (List Char)} (hlong : 2 ≤ names.length)
    (hnames : ∀ name ∈ names, IsIdentifier name)
    (hplain : names.length = 2 → "prototype".toList ∉ names)
    (hvalue : value.head?.any isBlank = false) :
    ofCode? (assignment (join ['.'] names) (' ' :: value)) =
      some (Declaration.memberContext (join ['.'] names) value) := by
  have hne : names ≠ [] := by
    rintro rfl
    simp at hlong
  have hlead : LeadsToSign (assignment (join ['.'] names) (trimEnd (' ' :: value))) :=
    leadsToSign_member hlong hnames _
  have hread := memberAssignment?_path hlong hnames hplain (trimEnd (' ' :: value))
  rw [member?_value hvalue] at hread
  rw [ofCode?, trim_assignment (head?_join hne hnames), forms]
  simp only [List.findSome?_cons, hlead.functionDeclaration?_eq_none,
    hlead.classDeclaration?_eq_none, hread]

theorem ofCode?_assigned (hname : IsIdentifier name) (hvalue : IsFunctionValue value) :
    ofCode? (assignment name (' ' :: value)) = some (called "function" name) := by
  have hlead := leadsToSign_assignment hname (trimEnd (' ' :: value))
  have hmember : memberAssignment? (assignment name (trimEnd (' ' :: value))) = none :=
    memberAssignment?_run hname rfl
  rw [ofCode?, trim_assignment (head?_run hname), forms]
  simp only [List.findSome?_cons, hlead.functionDeclaration?_eq_none,
    hlead.classDeclaration?_eq_none, hmember, hlead.variableDeclaration?_eq_none,
    functionAssignment?_line hname hvalue]

theorem ofCode?_property (hname : IsIdentifier name) (hvalue : value.head?.any isBlank = false) :
    ofCode? (name ++ ':' :: ' ' :: value) = some (Declaration.memberContext name value) := by
  have htrim : trim (name ++ ':' :: ' ' :: value) = name ++ ':' :: trimEnd (' ' :: value) :=
    trim_append_cons (head?_run hname _) (by decide)
  have hlead := leadsToSign_property hname (trimEnd (' ' :: value))
  have hmember : memberAssignment? (name ++ ':' :: trimEnd (' ' :: value)) = none :=
    memberAssignment?_run hname rfl
  rw [ofCode?, htrim, forms]
  simp only [List.findSome?_cons, hlead.functionDeclaration?_eq_none,
    hlead.classDeclaration?_eq_none, hmember, hlead.variableDeclaration?_eq_none,
    functionAssignment?_property hname, propertyFunction?_line hname hvalue,
    property?_line hname, Declaration.memberContext]
  by_cases hfunction : IsFunctionValue value
  · simp only [hfunction, if_true]
  · simp only [hfunction, if_false]

end

theorem isIdentifier_prototype : IsIdentifier "prototype".toList := by
  decide +kernel

theorem Receiver.isIdentifier_of_mem_names {r : Receiver} {name : List Char}
    (h : name ∈ r.names) : IsIdentifier name := by
  rcases List.mem_map.1 h with ⟨own, -, rfl⟩
  exact own.2

/-- Each line is read as what it declares, whatever stands in the part of it that is free. -/
theorem ofCode?_declaration (d : Declaration) {value : List Char} (h : d.Fits value) :
    ofCode? (d.line value) = some (d.context value) := by
  cases d with
  | functionNamed isExported isDefault isAsync isGenerator name =>
      exact ofCode?_functionNamed isExported isDefault isAsync isGenerator name.2 value
  | classNamed isExported isDefault name =>
      exact ofCode?_classNamed isExported isDefault name.2 h
  | prototypeMember receiver name =>
      have hlong : 2 < (receiver.names ++ ["prototype".toList, name.1]).length := by
        simp [Receiver.names]
      refine ofCode?_member hlong.le ?_ (fun hshort => absurd hshort hlong.ne') h
      intro own hown
      rcases List.mem_append.1 hown with hreceiver | hlast
      · exact Receiver.isIdentifier_of_mem_names hreceiver
      · simp only [List.mem_cons, List.not_mem_nil, or_false] at hlast
        rcases hlast with rfl | rfl
        · exact isIdentifier_prototype
        · exact name.2
  | member receiver name isPlain =>
      have hlong : 2 ≤ (receiver.names ++ [name.1]).length := by
        simp [Receiver.names]
      refine ofCode?_member hlong ?_ (fun _ => isPlain) h
      intro own hown
      rcases List.mem_append.1 hown with hreceiver | hlast
      · exact Receiver.isIdentifier_of_mem_names hreceiver
      · rw [List.mem_singleton.1 hlast]
        exact name.2
  | variableNamed isExported word name =>
      exact ofCode?_variableNamed isExported word name.2 h
  | assigned name =>
      exact ofCode?_assigned name.2 h
  | property name =>
      exact ofCode?_property name.2 h

def asyncName : Identifier :=
  ⟨"async".toList, isIdentifier_functionLead "async" (by decide)⟩

def functionName : Identifier :=
  ⟨"function".toList, isIdentifier_functionWord⟩

/-- Names that are words themselves, and a variable whose value only begins like a function. -/
theorem ofCode?_declaration_wordNames :
    let method : Declaration := .prototypeMember ⟨functionName, [asyncName]⟩ functionName
    let declared : Declaration := .variableNamed true .constant asyncName
    let entry : Declaration := .property functionName
    (method.line "async x => x;".toList =
        "function.async.prototype.function = async x => x;".toList ∧
      method.Fits "async x => x;".toList ∧
        ofCode? (method.line "async x => x;".toList) =
          some (called "method" "function.async.prototype.function".toList)) ∧
      (declared.line "functional  ".toList = "export const async = functional  ".toList ∧
        declared.Fits "functional  ".toList ∧
          ofCode? (declared.line "functional  ".toList) =
            some (plain "declaration" "async".toList)) ∧
        (entry.line "= (x) => x".toList = "function: = (x) => x".toList ∧
          entry.Fits "= (x) => x".toList ∧
            ofCode? (entry.line "= (x) => x".toList) =
              some (plain "property" "function".toList)) := by
  intro method declared entry
  have hmethod : method.Fits "async x => x;".toList := rfl
  have hdeclared : declared.Fits "functional  ".toList := rfl
  have hentry : entry.Fits "= (x) => x".toList := rfl
  have hasync : method.context "async x => x;".toList =
      called "method" "function.async.prototype.function".toList := by
    decide +kernel
  have hplain : declared.context "functional  ".toList =
      plain "declaration" "async".toList := by
    decide +kernel
  have hproperty : entry.context "= (x) => x".toList =
      plain "property" "function".toList := by
    decide +kernel
  refine ⟨⟨by decide +kernel, hmethod, ?_⟩, ⟨by decide +kernel, hdeclared, ?_⟩,
    by decide +kernel, hentry, ?_⟩
  · exact (ofCode?_declaration method hmethod).trans (congrArg some hasync)
  · exact (ofCode?_declaration declared hdeclared).trans (congrArg some hplain)
  · exact (ofCode?_declaration entry hentry).trans (congrArg some hproperty)

end Context
end ScriptDoc
