import ScriptDoc.Proofs.Comment.Escaping
import ScriptDoc.Proofs.Listing.Acceptance
import ScriptDoc.Proofs.Text.Trim

/-!
# Documents — comments written as documents, and read back

A comment can be handed over as it is or as a document of fields. Empty texts, empty lists, zero and
`false` are written like all others, though a reader takes them for missing.

- `Comment.toValue`              : a comment as a document, in either form of the description
- `Comment.ofValue_toValue`      : it is read back as the comment it was written from
- `Comment.isTrimmed_of_ofSource` : descriptions in a source have no blanks at their edges
- `Record.StandsFor`             : the records that hand over a comment
- `Listing.ofRecords_of_documents` : a file has one listing, whichever of them it is made of
-/

namespace ScriptDoc

open Text

/-! ## Fields -/

section Fields

variable {fields : Keyed Value} {key : String}

/-- An empty text is missing, and what is missing is shown as the empty text. -/
theorem shownField_of_text {s : String} (h : fields.get? key = some (.text s)) :
    shownField fields key = s := by
  by_cases hempty : s.isEmpty = true
  · have hs : s = "" := by simpa using hempty
    simp [shownField, Value.shownOrBlank, Value.isEmpty, h, hs]
  · simp [shownField, Value.shownOrBlank, Value.isEmpty, Value.shown, h, hempty]

theorem filled_of_get? {v : Value} (h : fields.get? key = some v) :
    filled fields key = if v.isEmpty then none else some v := by
  cases hempty : v.isEmpty with
  | false =>
      simp [filled, h, hempty, Option.filter_some]
  | true =>
      simp [filled, h, hempty, Option.filter_some]

theorem flag_of_bool {b : Bool} (h : fields.get? key = some (.bool b)) :
    flag fields key = b := by
  cases b with
  | false =>
      simp [flag, filled_of_get? h, Value.isEmpty]
  | true =>
      simp [flag, filled_of_get? h, Value.isEmpty]

/-- An empty list is missing too, and the empty list takes its place. -/
theorem filled_of_list {items : List Value} (h : fields.get? key = some (.list items)) :
    (filled fields key).getD (.list []) = .list items := by
  cases items with
  | nil =>
      simp [filled_of_get? h, Value.isEmpty]
  | cons item items =>
      simp [filled_of_get? h, Value.isEmpty]

end Fields

/-! ## Tags and contexts -/

namespace Tag

def toFields (tag : Tag) : Keyed Value :=
  [("type", .text tag.word), ("string", .text tag.text), ("name", .text tag.name),
    ("optional", .bool tag.isOptional), ("types", .list (tag.types.map .text)),
    ("description", .text tag.description), ("visibility", .text tag.visibility)]

def toValue (tag : Tag) : Value :=
  .object tag.toFields

theorem ofValue_toValue (tag : Tag) : ofValue tag.toValue = .ok tag := by
  have hword : Keyed.get? "type" tag.toFields = some (.text tag.word) := rfl
  have htypes : (filled tag.toFields "types").getD (.list []) = .list (tag.types.map .text) :=
    filled_of_list rfl
  have hshown : (tag.types.map Value.text).map Value.shown = tag.types := by
    have hsame : Value.shown ∘ Value.text = id := rfl
    simp only [List.map_map, hsame, List.map_id]
  have htext : shownField tag.toFields "string" = tag.text := shownField_of_text rfl
  have hname : shownField tag.toFields "name" = tag.name := shownField_of_text rfl
  have hoptional : flag tag.toFields "optional" = tag.isOptional := flag_of_bool rfl
  have hdescription : shownField tag.toFields "description" = tag.description :=
    shownField_of_text rfl
  have hvisibility : shownField tag.toFields "visibility" = tag.visibility :=
    shownField_of_text rfl
  simp only [ofValue, toValue, hword, htypes, hshown, htext, hname, hoptional, hdescription,
    hvisibility]

theorem mapM_ofValue_toValue (tags : List Tag) : (tags.map toValue).mapM ofValue = .ok tags := by
  have hpointwise : List.Forall₂ (fun v tag => ofValue v = .ok tag) (tags.map toValue) tags :=
    List.forall₂_map_left_iff.2 (List.forall₂_same.2 fun tag _ => ofValue_toValue tag)
  exact Outcome.mapM_eq_ok_iff.2 hpointwise

end Tag

namespace Context

def toValue (context : Context) : Value :=
  .object [("type", .text context.kind), ("string", .text context.name)]

theorem ofValue_toValue (context : Context) : ofValue context.toValue = .ok context :=
  rfl

end Context

/-! ## Comments -/

/-- A document has the description as a text, or as a mapping with the text under `full`. -/
inductive DescriptionForm where
  | mapping
  | text
  deriving DecidableEq, Repr

namespace DescriptionForm

def write (form : DescriptionForm) (description : String) : Value :=
  match form with
  | .mapping => .object [("full", .text description)]
  | .text => .text description

/-- Blanks at the edges of a text are lost, but not in a mapping. -/
def Keeps (form : DescriptionForm) (description : String) : Prop :=
  form = .text → IsTrimmed description.toList

end DescriptionForm

namespace Comment

def toFields (form : DescriptionForm) (c : Comment) : Keyed Value :=
  [("description", form.write c.description), ("tags", .list (c.tags.map Tag.toValue)),
    ("ctx", (c.context.map Context.toValue).getD .null), ("isPrivate", .bool c.isPrivate),
    ("ignore", .bool c.isIgnored), ("line", .int c.line)]

def toValue (form : DescriptionForm) (c : Comment) : Value :=
  .object (c.toFields form)

variable {form : DescriptionForm} {c : Comment}

theorem descriptionOf_toFields (h : form.Keeps c.description) :
    descriptionOf (c.toFields form) = .ok c.description := by
  cases form with
  | mapping =>
      have hfull : shownField [("full", .text c.description)] "full" = c.description :=
        shownField_of_text rfl
      exact congrArg Except.ok hfull
  | text =>
      have hkept : String.ofList (trim c.description.toList) = c.description := by
        simp only [trim_eq_self (h rfl), String.ofList_toList]
      exact congrArg Except.ok hkept

theorem tagsOf_toFields (form : DescriptionForm) (c : Comment) :
    tagsOf (c.toFields form) = .ok c.tags :=
  Tag.mapM_ofValue_toValue c.tags

theorem contextOf_toFields (form : DescriptionForm) (c : Comment) :
    contextOf (c.toFields form) = .ok c.context := by
  have hget : Keyed.get? "ctx" (c.toFields form) =
      some ((c.context.map Context.toValue).getD .null) := rfl
  cases hcontext : c.context with
  | none =>
      simp [contextOf, filled_of_get? hget, hcontext, Value.isEmpty]
  | some context =>
      -- A mapping with both fields is not empty, whatever the texts in it are.
      have hfilled : context.toValue.isEmpty = false := rfl
      have hread := Context.ofValue_toValue context
      simp [contextOf, filled_of_get? hget, hcontext, hfilled, hread, Except.map]

theorem ofFields_toFields (h : form.Keeps c.description) :
    ofFields (c.toFields form) = .ok c := by
  have hline : lineOfValue (Keyed.get? "line" (c.toFields form)) = .ok c.line := rfl
  have hprivate : flag (c.toFields form) "isPrivate" = c.isPrivate := flag_of_bool rfl
  have hignored : flag (c.toFields form) "ignore" = c.isIgnored := flag_of_bool rfl
  simp only [ofFields, descriptionOf_toFields h, tagsOf_toFields, contextOf_toFields, hline,
    hprivate, hignored]
  rfl

theorem ofValue_toValue (h : form.Keeps c.description) : ofValue (c.toValue form) = .ok c :=
  ofFields_toFields h

/-! ## Descriptions in a source -/

/-- A reference to a character begins with `&` and ends with `;`. -/
theorem isTrimmed_escapeMarkupChar {c : Char} (h : isBlank c = false) :
    IsTrimmed (Body.escapeMarkupChar c) := by
  unfold Body.escapeMarkupChar
  split
  · decide
  · split
    · decide
    · split
      · decide
      · exact ⟨h, h⟩

theorem escapeMarkupChar_ne_nil (c : Char) : Body.escapeMarkupChar c ≠ [] := by
  unfold Body.escapeMarkupChar
  split
  · simp
  · split
    · simp
    · split
      · simp
      · simp

theorem isTrimmed_escapeMarkup {s : List Char} (h : IsTrimmed s) :
    IsTrimmed (Body.escapeMarkup s) := by
  constructor
  · cases s with
    | nil =>
        rfl
    | cons c s =>
        have hfirst := isTrimmed_escapeMarkupChar (c := c) h.1
        have hwhole : Body.escapeMarkup (c :: s) =
            Body.escapeMarkupChar c ++ Body.escapeMarkup s := List.flatMap_cons
        simpa only [hwhole, List.head?_append_of_ne_nil _ (escapeMarkupChar_ne_nil c)] using
          hfirst.1
  · rcases List.eq_nil_or_concat s with rfl | ⟨t, c, rfl⟩
    · rfl
    · have hc : isBlank c = false := by simpa using h.2
      have hlast := isTrimmed_escapeMarkupChar hc
      have hwhole : Body.escapeMarkup (t.concat c) =
          Body.escapeMarkup t ++ Body.escapeMarkupChar c := by
        simp [Body.escapeMarkup]
      simpa only [hwhole, List.getLast?_append_of_ne_nil _ (escapeMarkupChar_ne_nil c)] using
        hlast.2

theorem isTrimmed_of_parse {raw : Bool} {line : Int} {code body : List Char}
    (h : parse raw line code body = .ok c) : IsTrimmed c.description.toList := by
  have hplain : IsTrimmed (Body.split body).1 := isTrimmed_trim _
  simp only [parse] at h
  split at h
  · cases h
  · cases h
    cases raw with
    | true =>
        simpa using hplain
    | false =>
        simpa using isTrimmed_escapeMarkup hplain

theorem isTrimmed_of_ofBlock {raw : Bool} {b : Block} (h : ofBlock raw b = .ok c) :
    IsTrimmed c.description.toList := by
  unfold ofBlock at h
  split at h
  · -- The text of an ignored comment is not read, and its description is empty.
    cases h
    exact ⟨rfl, rfl⟩
  · exact isTrimmed_of_parse h

theorem isTrimmed_of_ofSource {options : SourceOptions} {source : String} {all : List Comment}
    (h : ofSource options source = .ok all) : ∀ c ∈ all, IsTrimmed c.description.toList := by
  intro c hc
  rcases Outcome.exists_of_mem_mapM h hc with ⟨b, -, hb⟩
  exact isTrimmed_of_ofBlock hb

end Comment

/-! ## Records -/

namespace Record

/-- A comment is handed over as it is, or as a document in either form. -/
inductive StandsFor (c : Comment) : Record → Prop where
  | itself : StandsFor c (ofComment c)
  | document (form : DescriptionForm) : StandsFor c (.value (c.toValue form))

variable {c : Comment} {r : Record}

theorem StandsFor.isIgnored (h : StandsFor c r) : r.isIgnored = c.isIgnored := by
  cases h with
  | itself =>
      rfl
  | document form =>
      exact flag_of_bool rfl

theorem StandsFor.read (h : StandsFor c r) (hkept : IsTrimmed c.description.toList) :
    r.read = (ofComment c).read := by
  cases h with
  | itself =>
      rfl
  | document form =>
      have hfields : Comment.ofFields (c.toFields form) = .ok c :=
        Comment.ofFields_toFields fun _ => hkept
      simp only [Comment.toValue, Record.read, hfields]
      rfl

/-- Each comment is left out or read the same, whatever stands for it. -/
theorem readAll_of_standsFor {all : List Comment} {records : List Record}
    (h : List.Forall₂ StandsFor all records)
    (hkept : ∀ c ∈ all, IsTrimmed c.description.toList) :
    readAll records = readAll (all.map ofComment) := by
  unfold readAll
  induction h with
  | nil =>
      rfl
  | @cons c r all records hfirst hrest ih =>
      have hothers := ih fun other hother => hkept other (List.mem_cons_of_mem _ hother)
      have hread := hfirst.read (hkept c List.mem_cons_self)
      have hsame : (ofComment c).isIgnored = c.isIgnored := rfl
      cases hignored : c.isIgnored with
      | true =>
          simpa [hfirst.isIgnored, hsame, hignored] using hothers
      | false =>
          simp [hfirst.isIgnored, hsame, hignored, hread, hothers]

end Record

/-! ## Listings -/

namespace Listing

/-- A document is read as the comment that it was written from, and to list the comments of a source
it does not matter how each of them is handed over. -/
theorem ofRecords_of_documents :
    (∀ c : Comment, Comment.ofValue (c.toValue .mapping) = .ok c) ∧
      (∀ c : Comment, IsTrimmed c.description.toList →
        Comment.ofValue (c.toValue .text) = .ok c) ∧
      ∀ (options : SourceOptions) (filename source : String) (all : List Comment),
        Comment.ofSource options source = .ok all →
          ∃ listing, ofRecords filename (all.map Record.ofComment) = .ok listing ∧
            ∀ records, List.Forall₂ Record.StandsFor all records →
              ofRecords filename records = .ok listing := by
  refine ⟨fun c => Comment.ofValue_toValue (by simp [DescriptionForm.Keeps]),
    fun c h => Comment.ofValue_toValue fun _ => h, ?_⟩
  intro options filename source all hall
  have hread := Record.readAll_ofComment (Comment.isSound_of_ofSource hall)
  have hlisting : ofRecords filename (all.map Record.ofComment) =
      .ok (ofComments filename (all.filter (!·.isIgnored))) := by
    simp only [ofRecords, hread, Except.map]
  refine ⟨_, hlisting, fun records hrecords => ?_⟩
  have hsame := Record.readAll_of_standsFor hrecords (Comment.isTrimmed_of_ofSource hall)
  simpa only [ofRecords, hsame] using hlisting

/-- Escaped markup at both edges of a description, and a comment with neither a description nor a
context. -/
def edgedSource : String :=
  "/** <b> & c> */\nfunction f() \x7b\x7d\n/**\n * @api private\n */\n"

def edgedFirst : Comment :=
  { description := "&lt;b&gt; &amp; c&gt;", context := some ⟨"function", "f()"⟩, line := 1 }

def edgedSecond : Comment :=
  { tags := [{ word := "api", text := "private", visibility := "private" }]
    isPrivate := true
    line := 3 }

/-- One comment is a document with its description as a text, the other one a document with it in a
mapping. -/
def edgedRecords : List Record :=
  [.value (edgedFirst.toValue .text), .value (edgedSecond.toValue .mapping)]

theorem ofRecords_of_documents_edged :
    IsTrimmed edgedFirst.description.toList ∧
      Comment.ofValue (edgedFirst.toValue .text) = .ok edgedFirst ∧
        Comment.ofSource ⟨false, true⟩ edgedSource = .ok [edgedFirst, edgedSecond] ∧
          List.Forall₂ Record.StandsFor [edgedFirst, edgedSecond] edgedRecords ∧
            ∃ listing,
              ofRecords "f.js" ([edgedFirst, edgedSecond].map Record.ofComment) = .ok listing ∧
                ofRecords "f.js" edgedRecords = .ok listing := by
  have htrimmed : IsTrimmed edgedFirst.description.toList := by
    decide +kernel
  have hsource : Comment.ofSource ⟨false, true⟩ edgedSource = .ok [edgedFirst, edgedSecond] := by
    decide +kernel
  have hrecords : List.Forall₂ Record.StandsFor [edgedFirst, edgedSecond] edgedRecords :=
    .cons (.document .text) (.cons (.document .mapping) .nil)
  rcases ofRecords_of_documents with ⟨-, hread, hlisted⟩
  rcases hlisted ⟨false, true⟩ "f.js" edgedSource _ hsource with ⟨listing, hlisting, hall⟩
  exact ⟨htrimmed, hread edgedFirst htrimmed, hsource, hrecords, listing, hlisting,
    hall edgedRecords hrecords⟩

end Listing
end ScriptDoc
