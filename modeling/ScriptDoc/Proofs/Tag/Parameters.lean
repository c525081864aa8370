import ScriptDoc.Proofs.Tag.Faults

/-!
# Parameters — tags with a name, written out and read back

- `Tag.IsName`          : a word, or a text in square brackets
- `Tag.Parameter`       : the parts of such a tag that can be told apart when they are written
- `Tag.parse_parameter` : they are read back as they were, under each word for such a tag
-/

namespace ScriptDoc
namespace Tag

open Text

/-! ## Parts -/

inductive IsName : List Char → Prop where
  | word {name : List Char} (hfilled : name ≠ []) (hsolid : ∀ c ∈ name, isBlank c = false)
      (hstart : name.head? ≠ some '[') : IsName name
  | bracketed {name : List Char} (hclosed : IsEnclosed '[' ']' name) : IsName name

/-- The type is written in braces in front of the name, if there is one. A name that begins with a
brace would be taken for it if there is none. -/
structure Parameter where
  typeText : Option (List Char)
  name : List Char
  description : List Char
  nested : ∀ e ∈ typeText, IsNested (stepOf '{' '}') e
  named : IsName name
  untyped : typeText = none → name.head? ≠ some '{'
  trimmed : IsTrimmed description
  undashed : ∀ c rest, description = '-' :: c :: rest → isBlank c = false

namespace Parameter

def typePart (p : Parameter) : List Char :=
  match p.typeText with
  | some e => '{' :: (e ++ ['}', ' '])
  | none => []

end Parameter

/-- What sets the description off from the name. -/
inductive Separator where
  | nothing
  | blank
  | dash
  deriving DecidableEq

namespace Separator

def chars : Separator → List Char
  | .nothing => []
  | .blank => [' ']
  | .dash => [' ', '-', ' ']

/-- Without a description there is nothing to be set off by a dash. -/
def Fits (description : List Char) : Separator → Prop
  | .nothing => description = []
  | .blank => True
  | .dash => description ≠ []

end Separator

def Parameter.text (p : Parameter) (separator : Separator) : List Char :=
  p.typePart ++ (p.name ++ (separator.chars ++ p.description))

/-- The words for a tag with a name, and what they stand for. -/
def parameterWords : List (String × String) :=
  [("param", "param"), ("arg", "param"), ("argument", "param"), ("property", "property"),
    ("prop", "property")]

/-! ## Names -/

theorem IsName.exists_cons {name : List Char} (h : IsName name) :
    ∃ c rest, name = c :: rest ∧ isBlank c = false := by
  cases h with
  | word hfilled hsolid hstart =>
      rcases List.exists_cons_of_ne_nil hfilled with ⟨c, rest, rfl⟩
      exact ⟨c, rest, rfl, hsolid c List.mem_cons_self⟩
  | bracketed hclosed =>
      rcases List.head?_eq_some_iff.1 hclosed.opened with ⟨rest, rfl⟩
      exact ⟨'[', rest, rfl, by decide⟩

theorem firstWord_append {name rest : List Char} (hfilled : name ≠ [])
    (hsolid : ∀ c ∈ name, isBlank c = false) (hend : rest.head?.all isBlank = true) :
    firstWord (name ++ rest) = (name, trimStart rest) := by
  have hstart : trimStart (name ++ rest) = name ++ rest := by
    rcases List.exists_cons_of_ne_nil hfilled with ⟨c, others, rfl⟩
    exact trimStart_eq_iff.2 ⟨[], rfl, by simp, hsolid c List.mem_cons_self⟩
  have hword : ∀ c ∈ name, (!isBlank c) = true := by
    simpa using hsolid
  have hstop : rest.head?.any (!isBlank ·) = false := by
    cases rest with
    | nil =>
        rfl
    | cons c rest =>
        have hc : isBlank c = true := hend
        simp [hc]
  have hsplit := takeWhile_run hword hstop
  simp only [firstWord, hstart, hsplit]

/-- A name reaches to the blank or the bracket that ends it. -/
theorem splitName_append {name rest : List Char} (h : IsName name)
    (hend : rest.head?.all isBlank = true) :
    ∃ description, splitName (name ++ rest) = some (name, description) ∧
      trim description = trim rest := by
  cases h with
  | word hfilled hsolid hstart =>
      refine ⟨trimStart rest, ?_, trim_trimStart rest⟩
      have hhead : (name ++ rest).head? ≠ some '[' := by
        rcases List.exists_cons_of_ne_nil hfilled with ⟨c, others, rfl⟩
        exact hstart
      rw [splitName_of_head_ne hhead, firstWord_append hfilled hsolid hend]
  | bracketed hclosed =>
      rcases (isEnclosed_iff (by decide)).1 hclosed with ⟨inside, rfl, hinside⟩
      refine ⟨rest, ?_, rfl⟩
      have hclose := untilClose_append (by decide) hinside rest
      rw [List.cons_append, List.append_assoc, splitName_bracket, List.singleton_append, hclose]
      rfl

/-! ## Descriptions -/

theorem dropDash_of_undashed {description : List Char}
    (h : ∀ c rest, description = '-' :: c :: rest → isBlank c = false) :
    dropDash description = description := by
  unfold dropDash
  split
  · next c rest =>
    rw [if_neg (by simp [h c rest rfl])]
  · rfl

theorem dropDash_dashed {description : List Char} (h : IsTrimmed description) :
    dropDash ('-' :: ' ' :: description) = description := by
  have hstart : trimStart description = description :=
    trimStart_eq_iff.2 ⟨[], rfl, by simp, h.1⟩
  simp [dropDash, isBlank, hstart]

/-- The description that is read off what stands behind a name. -/
theorem dropDash_trim {separator : Separator} {description : List Char}
    (htrimmed : IsTrimmed description)
    (hundashed : ∀ c rest, description = '-' :: c :: rest → isBlank c = false)
    (hfits : separator.Fits description) :
    dropDash (trim (separator.chars ++ description)) = description := by
  cases separator with
  | nothing =>
      have hempty : description = [] := hfits
      rw [hempty]
      rfl
  | blank =>
      have htrim : trim (' ' :: description) = description :=
        (trim_cons_blank (by decide) _).trans (trim_eq_self htrimmed)
      have hchars : Separator.blank.chars ++ description = ' ' :: description := rfl
      rw [hchars, htrim]
      exact dropDash_of_undashed hundashed
  | dash =>
      -- The description is not empty, so the blank after the dash is none at the end.
      have hwhole : IsTrimmed ('-' :: ' ' :: description) := by
        refine ⟨rfl, ?_⟩
        rcases List.exists_cons_of_ne_nil hfits with ⟨c, rest, rfl⟩
        exact htrimmed.2
      have htrim : trim (' ' :: '-' :: ' ' :: description) = '-' :: ' ' :: description :=
        (trim_cons_blank (by decide) _).trans (trim_eq_self hwhole)
      have hchars : Separator.dash.chars ++ description = ' ' :: '-' :: ' ' :: description := rfl
      rw [hchars, htrim]
      exact dropDash_dashed htrimmed

/-! ## Types -/

namespace Parameter

theorem typeCut_text (p : Parameter) (separator : Separator) :
    TypeCut (p.text separator) (p.typeText.getD [])
      (p.name ++ (separator.chars ++ p.description)) := by
  rcases p.named.exists_cons with ⟨c, rest, hname, hc⟩
  cases htype : p.typeText with
  | none =>
      have hstart := p.untyped htype
      simp only [text, typePart, htype, Option.getD_none, List.nil_append]
      apply TypeCut.untyped
      rw [hname] at hstart ⊢
      exact hstart
  | some e =>
      have hnested := p.nested e htype
      have hrest : (p.name ++ (separator.chars ++ p.description)).head?.any isBlank = false := by
        rw [hname]
        exact hc
      have hcut := @TypeCut.typed e [' '] _ hnested (List.forall_mem_singleton.2 rfl) hrest
      simpa [text, typePart, htype] using hcut

end Parameter

theorem marksOptional_iff {typeText name : List Char} :
    marksOptional typeText name = true ↔ name.head? = some '[' ∨
      ∃ before blanks, typeText = before ++ '=' :: blanks ∧ ∀ c ∈ blanks, isBlank c = true := by
  rw [← getLast?_trimEnd_eq_some_iff (by decide)]
  simp [marksOptional]

/-! ## Reading -/

theorem canonical_of_mem {word kind : String} (h : (word, kind) ∈ parameterWords) :
    canonical word = kind ∧ isNamed kind = true := by
  have hall : ∀ entry ∈ parameterWords, canonical entry.1 = entry.2 ∧ isNamed entry.2 = true := by
    decide
  exact hall (word, kind) h

theorem parse_of_cuts {word text : String} {typeText rest name description : List Char}
    (hnamed : isNamed (canonical word) = true) (htype : splitType text.toList = some (typeText, rest))
    (hname : splitName rest = some (name, description)) (hfilled : name ≠ []) :
    parse word text =
      .ok
        { word := canonical word
          text := text
          name := String.ofList name
          isOptional := marksOptional typeText name
          types := (TypeExpr.alternatives typeText).map String.ofList
          description := String.ofList (dropDash (trim description)) } := by
  rcases List.exists_cons_of_ne_nil hfilled with ⟨c, others, rfl⟩
  simp [parse, htype, hnamed, hname]

/-- A tag with a name is read back from its parts, with a dash before a description or without. It
is optional if its name is in brackets, or its type ends in an equals sign. -/
theorem parse_parameter (word kind : String) (hword : (word, kind) ∈ parameterWords)
    (p : Parameter) (separator : Separator) (hfits : separator.Fits p.description) :
    ∃ isOptional,
      parse word (String.ofList (p.text separator)) =
        .ok
          { word := kind
            text := String.ofList (p.text separator)
            name := String.ofList p.name
            isOptional := isOptional
            types := (p.typeText.elim [] TypeExpr.alternatives).map String.ofList
            description := String.ofList p.description } ∧
      (isOptional = true ↔ p.name.head? = some '[' ∨
        ∃ e ∈ p.typeText, ∃ before blanks, e = before ++ '=' :: blanks ∧
          ∀ c ∈ blanks, isBlank c = true) := by
  rcases canonical_of_mem hword with ⟨rfl, hnamed⟩
  have htype := splitType_eq_some_iff.2 (p.typeCut_text separator)
  rw [← String.toList_ofList (l := p.text separator)] at htype
  have hend : (separator.chars ++ p.description).head?.all isBlank = true := by
    cases separator with
    | nothing =>
        have hempty : p.description = [] := hfits
        rw [hempty]
        rfl
    | blank =>
        rfl
    | dash =>
        rfl
  rcases splitName_append p.named hend with ⟨description, hname, hdescription⟩
  have hshown : dropDash (trim description) = p.description := by
    rw [hdescription]
    exact dropDash_trim p.trimmed p.undashed hfits
  have hfilled : p.name ≠ [] := by
    rcases p.named.exists_cons with ⟨c, others, hcons, -⟩
    simp [hcons]
  have hparse := parse_of_cuts hnamed htype hname hfilled
  rw [hshown] at hparse
  refine ⟨marksOptional (p.typeText.getD []) p.name, ?_, ?_⟩
  · rw [hparse]
    cases p.typeText with
    | none =>
        rfl
    | some e =>
        rfl
  · rw [marksOptional_iff]
    cases p.typeText with
    | none =>
        simp
    | some e =>
        simp

/-- A record type that may be missing, a default value with brackets and blanks of its own, and a
description that begins with a dash. -/
def recordParameter : Parameter where
  typeText := some "\x7ba: \x7bb: c\x7d\x7d|null= ".toList
  name := "[o=[1, [2]]]".toList
  description := "-x or\n- y".toList
  nested := by decide
  named := .bracketed ((isEnclosed_iff (by decide)).2 ⟨"o=[1, [2]]".toList, by decide, by decide⟩)
  untyped := by decide
  trimmed := by decide
  undashed := by
    intro c rest hsame
    cases hsame
    rfl

theorem parse_parameter_record :
    ("arg", "param") ∈ parameterWords ∧ recordParameter.description ≠ [] ∧
      parse "arg" (String.ofList (recordParameter.text .dash)) =
        .ok
          { word := "param"
            text := String.ofList (recordParameter.text .dash)
            name := "[o=[1, [2]]]"
            isOptional := true
            types := ["\x7ba: \x7bb: c\x7d\x7d", "null="]
            description := "-x or\n- y" } := by
  have hword : ("arg", "param") ∈ parameterWords := by
    decide
  have hdescription : recordParameter.description ≠ [] := by
    decide
  rcases parse_parameter "arg" "param" hword recordParameter .dash hdescription with
    ⟨isOptional, hparse, hoptional⟩
  have hbracket : isOptional = true := hoptional.2 (Or.inl (by decide))
  have hname : String.ofList recordParameter.name = "[o=[1, [2]]]" := by
    decide +kernel
  have htypes : (recordParameter.typeText.elim [] TypeExpr.alternatives).map String.ofList =
      ["\x7ba: \x7bb: c\x7d\x7d", "null="] := by
    decide +kernel
  have hshown : String.ofList recordParameter.description = "-x or\n- y" := by
    decide +kernel
  rw [hbracket, hname, htypes, hshown] at hparse
  exact ⟨hword, hdescription, hparse⟩

end Tag
end ScriptDoc
