import ScriptDoc.Proofs.Number.Numerals
import ScriptDoc.Proofs.Record.Documents

/-!
# Shapes — which documents are comments

A document can be faulty in several places. They are looked at in a fixed order, the first one that
is faulty decides, and the line is read only after all of them.

- `Tag.Malformed`, `Context.Malformed`  : why a value is no tag, and when it is no context
- `Comment.Place`                       : where a document can be faulty, and what is looked at first
- `Comment.HasFault`                    : the faults of a document, each at its place
- `Comment.FirstFault`                  : the one that is reported
- `Comment.tagsOf_eq_error_iff`         : among the tags it is that of the first one
- `Comment.ofValue_eq_shape_iff`        : among all places too
- `Comment.ReadsAs`                     : what is read of a document without a fault
- `Comment.ofValue_read_or_refused`     : all that can become of a value
-/

namespace ScriptDoc

/-! ## Values and fields -/

namespace Value

def IsText (v : Value) : Prop :=
  ∃ s, v = .text s

def IsList (v : Value) : Prop :=
  ∃ items, v = .list items

def IsMapping (v : Value) : Prop :=
  ∃ fields, v = .object fields

end Value

/-- The value is under the key, and it does not count as missing. -/
def HoldsFilled (fields : Keyed Value) (key : String) (v : Value) : Prop :=
  fields.get? key = some v ∧ v.isEmpty = false

theorem filled_eq_some_iff {fields : Keyed Value} {key : String} {v : Value} :
    filled fields key = some v ↔ HoldsFilled fields key v := by
  simp [filled, HoldsFilled, Option.filter_eq_some_iff]

/-! ## Tags -/

namespace Tag

/-- A tag has a text for its type, and its types, if there are any, are a list. -/
inductive Malformed : Value → ShapeFault → Prop where
  | untyped {v : Value} :
      (∀ fields word, v = .object fields → Keyed.get? "type" fields ≠ some (.text word)) →
        Malformed v (.tag v)
  | types {fields : Keyed Value} {word : String} {found : Value} :
      Keyed.get? "type" fields = some (.text word) → HoldsFilled fields "types" found →
        ¬found.IsList → Malformed (.object fields) (.tagTypes word found)

/-- The word of the tag is the text for its type, and its types are shown as texts. -/
def ReadsAs (v : Value) (tag : Tag) : Prop :=
  ∃ fields, v = .object fields ∧ Keyed.get? "type" fields = some (.text tag.word) ∧
    ∀ items, Keyed.get? "types" fields = some (.list items) → tag.types = items.map Value.shown

variable {v : Value} {fields : Keyed Value} {fault : ShapeFault} {tag : Tag} {word : String}

theorem ofValue_of_untyped
    (h : ∀ fields word, v = .object fields → Keyed.get? "type" fields ≠ some (.text word)) :
    ofValue v = .error (.tag v) := by
  unfold ofValue
  split
  · next fields =>
    split
    · next word hword => exact absurd hword (h fields word rfl)
    · rfl
  · rfl

theorem ofValue_of_types {found : Value} (hword : Keyed.get? "type" fields = some (.text word))
    (htypes : (filled fields "types").getD (.list []) = found) (hlist : ¬found.IsList) :
    ofValue (.object fields) = .error (.tagTypes word found) := by
  simp only [ofValue, hword, htypes]
  split
  · next types => exact absurd ⟨types, rfl⟩ hlist
  · rfl

theorem ofValue_of_list {types : List Value}
    (hword : Keyed.get? "type" fields = some (.text word))
    (htypes : (filled fields "types").getD (.list []) = .list types) :
    ∃ tag, ofValue (.object fields) = .ok tag ∧ tag.word = word ∧
      tag.types = types.map Value.shown := by
  simp only [ofValue, hword, htypes]
  exact ⟨_, rfl, rfl, rfl⟩

theorem untyped_or_typed (v : Value) :
    (∀ fields word, v = .object fields → Keyed.get? "type" fields ≠ some (.text word)) ∨
      ∃ fields word, v = .object fields ∧ Keyed.get? "type" fields = some (.text word) := by
  by_cases htyped : ∃ fields word, v = .object fields ∧ Keyed.get? "type" fields = some (.text word)
  · exact Or.inr htyped
  · exact Or.inl fun fields word hv hword => htyped ⟨fields, word, hv, hword⟩

theorem ofValue_eq_error_iff : ofValue v = .error fault ↔ Malformed v fault := by
  constructor
  · intro h
    rcases untyped_or_typed v with huntyped | ⟨fields, word, rfl, hword⟩
    · rw [ofValue_of_untyped huntyped] at h
      cases h
      exact .untyped huntyped
    · by_cases hlist : ((filled fields "types").getD (.list [])).IsList
      · rcases hlist with ⟨types, htypes⟩
        rcases ofValue_of_list hword htypes with ⟨tag, htag, -⟩
        cases htag.symm.trans h
      · rw [ofValue_of_types hword rfl hlist] at h
        cases h
        -- What takes the place of missing types is a list, so these are not missing.
        cases hfilled : filled fields "types" with
        | none => exact absurd ⟨[], by simp [hfilled]⟩ hlist
        | some found =>
            rw [hfilled] at hlist
            exact .types hword (filled_eq_some_iff.1 hfilled) hlist
  · intro h
    cases h with
    | untyped huntyped =>
        exact ofValue_of_untyped huntyped
    | types hword htypes hlist =>
        exact ofValue_of_types hword (by simp [filled_eq_some_iff.2 htypes]) hlist

theorem readsAs_of_ofValue (h : ofValue v = .ok tag) : ReadsAs v tag := by
  rcases untyped_or_typed v with huntyped | ⟨fields, word, rfl, hword⟩
  · rw [ofValue_of_untyped huntyped] at h
    cases h
  · by_cases hlist : ((filled fields "types").getD (.list [])).IsList
    · rcases hlist with ⟨types, htypes⟩
      rcases ofValue_of_list hword htypes with ⟨own, hown, rfl, hshown⟩
      cases hown.symm.trans h
      refine ⟨fields, rfl, hword, fun items hitems => ?_⟩
      rw [filled_of_list hitems] at htypes
      cases htypes
      exact hshown
    · rw [ofValue_of_types hword rfl hlist] at h
      cases h

end Tag

/-! ## Contexts -/

namespace Context

/-- A context is a mapping with both of its fields. -/
def Malformed (v : Value) : Prop :=
  ∀ fields, v = .object fields → Keyed.get? "type" fields = none ∨ Keyed.get? "string" fields = none

theorem ofValue_eq_error_iff {v : Value} {fault : ShapeFault} :
    ofValue v = .error fault ↔ Malformed v ∧ fault = .context v := by
  cases v with
  | object fields =>
      cases hkind : Keyed.get? "type" fields with
      | none => simp [ofValue, Malformed, hkind, eq_comm]
      | some kind =>
          cases hname : Keyed.get? "string" fields with
          | none => simp [ofValue, Malformed, hkind, hname, eq_comm]
          | some name => simp [ofValue, Malformed, hkind, hname]
  | _ =>
      simp [ofValue, Malformed, eq_comm]

end Context

/-! ## Places -/

namespace Comment

/-- Where a document can be faulty. -/
inductive Place where
  | whole
  | description
  | tagList
  | tag (index : Nat)
  | context
  deriving DecidableEq, Repr

namespace Place

def stage : Place → Nat
  | whole => 0
  | description => 1
  | tagList => 2
  | tag _ => 3
  | context => 4

def index : Place → Nat
  | tag index => index
  | _ => 0

/-- The place is looked at before the other one; the tags are in order. -/
def Precedes (place other : Place) : Prop :=
  place.stage < other.stage ∨ place.stage = other.stage ∧ place.index < other.index

variable {place : Place}

theorem not_precedes_whole : ¬place.Precedes .whole := by
  simp [Precedes, stage, index]

theorem precedes_description_iff : place.Precedes .description ↔ place = .whole := by
  cases place <;> simp [Precedes, stage, index]

theorem precedes_tagList_iff :
    place.Precedes .tagList ↔ place = .whole ∨ place = .description := by
  cases place <;> simp [Precedes, stage, index]

theorem precedes_tag_iff {n : Nat} :
    place.Precedes (.tag n) ↔
      place = .whole ∨ place = .description ∨ place = .tagList ∨ ∃ m < n, place = .tag m := by
  cases place <;> simp [Precedes, stage, index]

theorem precedes_context_iff :
    place.Precedes .context ↔
      place = .whole ∨ place = .description ∨ place = .tagList ∨ ∃ m, place = .tag m := by
  cases place <;> simp [Precedes, stage, index]

end Place

/-- The faults of a document, each at its place. -/
inductive HasFault : Value → Place → ShapeFault → Prop where
  | whole {v : Value} : ¬v.IsMapping → HasFault v .whole (.comment v)
  | description {fields : Keyed Value} {found : Value} :
      fields.get? "description" = some found → ¬found.IsText → ¬found.IsMapping →
        HasFault (.object fields) .description (.description found)
  | tagList {fields : Keyed Value} {found : Value} :
      fields.get? "tags" = some found → ¬found.IsList →
        HasFault (.object fields) .tagList (.tags found)
  | tag {fields : Keyed Value} {items : List Value} {index : Nat} {item : Value}
      {fault : ShapeFault} :
      fields.get? "tags" = some (.list items) → items[index]? = some item →
        Tag.Malformed item fault → HasFault (.object fields) (.tag index) fault
  | context {fields : Keyed Value} {found : Value} :
      HoldsFilled fields "ctx" found → Context.Malformed found →
        HasFault (.object fields) .context (.context found)

def IsMalformed (v : Value) : Prop :=
  ∃ place fault, HasFault v place fault

/-- Whatever else is faulty, no place before this one is. -/
def FirstFault (v : Value) (fault : ShapeFault) : Prop :=
  ∃ place, HasFault v place fault ∧
    ∀ earlier, earlier.Precedes place → ∀ other, ¬HasFault v earlier other

variable {v : Value} {fields : Keyed Value} {fault : ShapeFault} {index : Nat} {c : Comment}

theorem not_hasFault_whole : ¬HasFault (.object fields) .whole fault := by
  rintro ⟨hmapping⟩
  exact hmapping ⟨fields, rfl⟩

/-- Where the tags are no list, there is no first one. -/
theorem HasFault.not_tagList {other : ShapeFault}
    (h : HasFault (.object fields) (.tag index) fault) :
    ¬HasFault (.object fields) .tagList other := by
  intro hother
  cases h with
  | tag hitems hitem hmalformed =>
      cases hother with
      | tagList hfound hlist =>
          cases hfound.symm.trans hitems
          exact hlist ⟨_, rfl⟩

/-! ## Parts -/

theorem descriptionOf_eq_error_iff :
    descriptionOf fields = .error fault ↔ HasFault (.object fields) .description fault := by
  constructor
  · intro h
    cases hget : fields.get? "description" with
    | none =>
        simp [descriptionOf, hget] at h
    | some found =>
        simp only [descriptionOf, hget, Option.getD_some] at h
        split at h
        · cases h
        · cases h
        · next hmapping htext =>
          cases h
          exact .description hget (fun ⟨s, hs⟩ => htext s hs) fun ⟨parts, hparts⟩ =>
            hmapping parts hparts
  · intro h
    cases h with
    | description hget htext hmapping =>
        simp only [descriptionOf, hget, Option.getD_some]
        split
        · exact absurd ⟨_, rfl⟩ hmapping
        · exact absurd ⟨_, rfl⟩ htext
        · rfl

theorem exists_descriptionOf_iff :
    (∃ description, descriptionOf fields = .ok description) ↔
      ∀ fault, ¬HasFault (.object fields) .description fault := by
  simp only [Outcome.exists_ok_iff, ne_eq, descriptionOf_eq_error_iff]

theorem tagsOf_of_list {items : List Value} (h : fields.get? "tags" = some (.list items)) :
    tagsOf fields = items.mapM Tag.ofValue := by
  simp only [tagsOf, h, Option.getD_some]

/-- All tags are read up to the first one with a fault. -/
theorem mapM_ofValue_eq_error_iff {items : List Value} :
    items.mapM Tag.ofValue = .error fault ↔
      ∃ n item, items[n]? = some item ∧ Tag.Malformed item fault ∧
        ∀ (m : Nat) (other : Value), m < n → items[m]? = some other →
          ∀ fault, ¬Tag.Malformed other fault := by
  simp only [Outcome.mapM_eq_error_iff_getElem?, Outcome.exists_ok_iff, ne_eq,
    Tag.ofValue_eq_error_iff]

theorem tagsOf_eq_error_iff :
    tagsOf fields = .error fault ↔ HasFault (.object fields) .tagList fault ∨
      ∃ n, HasFault (.object fields) (.tag n) fault ∧
        ∀ m < n, ∀ other, ¬HasFault (.object fields) (.tag m) other := by
  constructor
  · intro h
    cases hget : fields.get? "tags" with
    | none =>
        simp [tagsOf, hget, pure, Except.pure] at h
    | some found =>
        by_cases hlist : found.IsList
        · rcases hlist with ⟨items, rfl⟩
          rw [tagsOf_of_list hget] at h
          rcases mapM_ofValue_eq_error_iff.1 h with ⟨n, item, hitem, hfault, hearlier⟩
          refine Or.inr ⟨n, .tag hget hitem hfault, ?_⟩
          intro m hm other hother
          cases hother with
          | tag hitems hitem hmalformed =>
              cases hget.symm.trans hitems
              exact hearlier m _ hm hitem other hmalformed
        · simp only [tagsOf, hget, Option.getD_some] at h
          split at h
          · exact absurd ⟨_, rfl⟩ hlist
          · cases h
            exact Or.inl (.tagList hget hlist)
  · rintro (hlist | ⟨n, hfault, hearlier⟩)
    · cases hlist with
      | tagList hget hlist =>
          simp only [tagsOf, hget, Option.getD_some]
          split
          · exact absurd ⟨_, rfl⟩ hlist
          · rfl
    · cases hfault with
      | tag hget hitem hmalformed =>
          rw [tagsOf_of_list hget]
          refine mapM_ofValue_eq_error_iff.2 ⟨n, _, hitem, hmalformed, ?_⟩
          intro m other hm hother fault' hfault'
          exact hearlier m hm fault' (.tag hget hother hfault')

/-- Tags without a fault are all read: the first fault would be reported. -/
theorem exists_tagsOf_iff :
    (∃ tags, tagsOf fields = .ok tags) ↔
      (∀ fault, ¬HasFault (.object fields) .tagList fault) ∧
        ∀ n fault, ¬HasFault (.object fields) (.tag n) fault := by
  simp only [Outcome.exists_ok_iff, ne_eq, tagsOf_eq_error_iff, not_or, forall_and]
  refine and_congr_right fun _ => ?_
  constructor
  · intro h n
    induction n using Nat.strong_induction_on with
    | _ n ih =>
        exact fun fault hfault => h fault ⟨n, hfault, ih⟩
  · rintro h fault ⟨n, hfault, -⟩
    exact h n fault hfault

theorem contextOf_eq_error_iff :
    contextOf fields = .error fault ↔ HasFault (.object fields) .context fault := by
  constructor
  · intro h
    cases hfilled : filled fields "ctx" with
    | none =>
        simp [contextOf, hfilled] at h
    | some found =>
        simp only [contextOf, hfilled] at h
        rcases Context.ofValue_eq_error_iff.1 (Outcome.map_eq_error_iff.1 h) with ⟨hfound, rfl⟩
        exact .context (filled_eq_some_iff.1 hfilled) hfound
  · intro h
    cases h with
    | context hfilled hfound =>
        simp only [contextOf, filled_eq_some_iff.2 hfilled]
        exact Outcome.map_eq_error_iff.2 (Context.ofValue_eq_error_iff.2 ⟨hfound, rfl⟩)

theorem exists_contextOf_iff :
    (∃ context, contextOf fields = .ok context) ↔
      ∀ fault, ¬HasFault (.object fields) .context fault := by
  simp only [Outcome.exists_ok_iff, ne_eq, contextOf_eq_error_iff]

/-! ## Lines -/

/-- The line is a list or a mapping, and not an empty one. -/
def LineHasParts (fields : Keyed Value) (found : Value) : Prop :=
  HoldsFilled fields "line" found ∧ (found.IsList ∨ found.IsMapping)

/-- The line is a text, not an empty one and not a number. -/
def LineIsOtherText (fields : Keyed Value) (s : String) : Prop :=
  fields.get? "line" = some (.text s) ∧ s ≠ "" ∧ ∀ n, ¬Integer.IsWritten s.toList n

theorem lineOfValue_ne_shape {line : Option Value} : lineOfValue line ≠ .error (.shape fault) := by
  unfold lineOfValue
  repeat' split
  all_goals simp

theorem lineOfValue_eq_lineKind_iff {held found : Value} :
    lineOfValue (some held) = .error (@RecordFault.lineKind found) ↔
      held = found ∧ held.isEmpty = false ∧ (held.IsList ∨ held.IsMapping) := by
  cases held with
  | text s =>
      have hne : lineOfValue (some (.text s)) ≠ .error (@RecordFault.lineKind found) := by
        simp only [lineOfValue]
        split
        · simp
        · split
          · simp
          · simp
      simp [hne, Value.IsList, Value.IsMapping]
  | list items =>
      cases items with
      | nil => simp [lineOfValue, Value.isEmpty]
      | cons item items => simp [lineOfValue, Value.isEmpty, Value.IsList]
  | object parts =>
      cases parts with
      | nil => simp [lineOfValue, Value.isEmpty]
      | cons part parts => simp [lineOfValue, Value.isEmpty, Value.IsMapping]
  | _ =>
      simp [lineOfValue, Value.IsList, Value.IsMapping]

/-- A text that is not empty is read as the number that it is, if it is one. -/
theorem lineOfValue_of_text {s : String} (h : s ≠ "") :
    lineOfValue (some (.text s)) =
      match Integer.ofText? s.toList with
      | some n => .ok n
      | none => .error (@RecordFault.lineText s) := by
  have hempty : s.isEmpty = false := by simpa using h
  simp only [lineOfValue, hempty]
  rfl

theorem lineOfValue_eq_lineText_iff {held : Value} {s : String} :
    lineOfValue (some held) = .error (@RecordFault.lineText s) ↔
      held = .text s ∧ s ≠ "" ∧ ∀ n, ¬Integer.IsWritten s.toList n := by
  cases held with
  | text own =>
      by_cases hempty : own = ""
      · subst hempty
        constructor
        · rintro ⟨⟩
        · rintro ⟨⟨⟩, hne, -⟩
          exact absurd rfl hne
      · rw [lineOfValue_of_text hempty]
        cases hread : Integer.ofText? own.toList with
        | none =>
            have hnone := Integer.ofText?_eq_none_iff.1 hread
            constructor
            · rintro ⟨⟩
              exact ⟨rfl, hempty, hnone⟩
            · rintro ⟨⟨⟩, -⟩
              rfl
        | some n =>
            have hwritten := Integer.ofText?_eq_some_iff.1 hread
            constructor
            · rintro ⟨⟩
            · rintro ⟨⟨⟩, -, hnone⟩
              exact absurd hwritten (hnone n)
  | list items =>
      cases items with
      | nil => simp [lineOfValue]
      | cons item items => simp [lineOfValue]
  | object parts =>
      cases parts with
      | nil => simp [lineOfValue]
      | cons part parts => simp [lineOfValue]
  | _ =>
      simp [lineOfValue]

theorem lineHasParts_iff {found : Value} :
    lineOfValue (fields.get? "line") = .error (@RecordFault.lineKind found) ↔
      LineHasParts fields found := by
  cases hget : fields.get? "line" with
  | none => simp [lineOfValue, LineHasParts, HoldsFilled, hget]
  | some held =>
      rw [lineOfValue_eq_lineKind_iff]
      constructor
      · rintro ⟨rfl, hfilled, hkind⟩
        exact ⟨⟨hget, hfilled⟩, hkind⟩
      · rintro ⟨⟨hfound, hfilled⟩, hkind⟩
        cases hget.symm.trans hfound
        exact ⟨rfl, hfilled, hkind⟩

theorem lineIsOtherText_iff {s : String} :
    lineOfValue (fields.get? "line") = .error (@RecordFault.lineText s) ↔
      LineIsOtherText fields s := by
  cases hget : fields.get? "line" with
  | none => simp [lineOfValue, LineIsOtherText, hget]
  | some held =>
      rw [lineOfValue_eq_lineText_iff]
      simp [LineIsOtherText, hget]

/-! ## Whole documents -/

/-- What is read of a document: its description, trimmed if it is a text of its own, a tag for each of
its tags, its context, and the number that its line is. A missing description is an empty text, and
missing tags are none. -/
structure ReadsAs (fields : Keyed Value) (c : Comment) : Prop where
  text : ∀ s, (fields.get? "description").getD (.text "") = .text s →
    c.description = String.ofList (Text.trim s.toList)
  full : ∀ parts, fields.get? "description" = some (.object parts) →
    c.description = shownField parts "full"
  tags : ∀ items, (fields.get? "tags").getD (.list []) = .list items →
    List.Forall₂ Tag.ReadsAs items c.tags
  context : ∀ parts kind name, fields.get? "ctx" = some (.object parts) →
    Keyed.get? "type" parts = some kind → Keyed.get? "string" parts = some name →
      c.context = some ⟨kind.shown, name.shown⟩
  line : lineOfValue (fields.get? "line") = .ok c.line
  number : ∀ s, fields.get? "line" = some (.text s) → s ≠ "" → Integer.IsWritten s.toList c.line

theorem readsAs_of_parts (hdescription : descriptionOf fields = .ok c.description)
    (htags : tagsOf fields = .ok c.tags) (hcontext : contextOf fields = .ok c.context)
    (hline : lineOfValue (fields.get? "line") = .ok c.line) : ReadsAs fields c where
  text s hs := by
    simpa [descriptionOf, hs, eq_comm] using hdescription
  full parts hparts := by
    simpa [descriptionOf, hparts, eq_comm] using hdescription
  tags items hitems := by
    simp only [tagsOf, hitems] at htags
    exact (Outcome.mapM_eq_ok_iff.1 htags).imp fun _ _ h => Tag.readsAs_of_ofValue h
  context parts kind name hparts hkind hname := by
    -- A mapping with two fields is not empty.
    have hfilled : (Value.object parts).isEmpty = false := by
      cases parts with
      | nil => cases hkind
      | cons part parts => rfl
    simpa [contextOf, filled_of_get? hparts, hfilled, Context.ofValue, hkind, hname, Except.map,
      eq_comm] using hcontext
  line := hline
  number s hs hne := by
    rw [hs, lineOfValue_of_text hne] at hline
    cases hread : Integer.ofText? s.toList with
    | none => simp [hread] at hline
    | some n =>
        simp only [hread, Except.ok.injEq] at hline
        exact hline ▸ Integer.ofText?_eq_some_iff.1 hread

theorem mapError_shape_eq_iff {α : Type} {outcome : Except ShapeFault α} :
    outcome.mapError RecordFault.shape = .error (.shape fault) ↔ outcome = .error fault := by
  rw [Outcome.mapError_eq_error_iff]
  simp

/-- The first part that cannot be read decides, and the line comes last. -/
theorem ofFields_eq_shape_iff :
    ofFields fields = .error (.shape fault) ↔
      descriptionOf fields = .error fault ∨ (∃ description, descriptionOf fields = .ok description) ∧
        (tagsOf fields = .error fault ∨ (∃ tags, tagsOf fields = .ok tags) ∧
          contextOf fields = .error fault) := by
  simp only [ofFields, Outcome.bind_eq_error_iff, Outcome.mapError_eq_ok_iff, mapError_shape_eq_iff,
    lineOfValue_ne_shape]
  simp [pure, Except.pure]

/-- With all other parts read, all comes down to the line. -/
theorem ofFields_of_parts {description : String} {tags : List Tag} {context : Option Context}
    (hdescription : descriptionOf fields = .ok description) (htags : tagsOf fields = .ok tags)
    (hcontext : contextOf fields = .ok context) :
    ofFields fields = (lineOfValue (fields.get? "line")).map fun line =>
      { description := description
        tags := tags
        context := context
        isPrivate := flag fields "isPrivate"
        isIgnored := flag fields "ignore"
        line := line } := by
  simp only [ofFields, hdescription, htags, hcontext]
  rfl

/-- For each part that can decide, the places before it are without a fault. -/
theorem ofFields_eq_firstFault_iff :
    ofFields fields = .error (.shape fault) ↔ FirstFault (.object fields) fault := by
  rw [ofFields_eq_shape_iff, descriptionOf_eq_error_iff, exists_descriptionOf_iff,
    tagsOf_eq_error_iff, exists_tagsOf_iff, contextOf_eq_error_iff]
  constructor
  · rintro (hfault | ⟨hdescription, (hfault | ⟨n, hfault, htags⟩) | ⟨⟨hlist, htags⟩, hfault⟩⟩)
    · refine ⟨.description, hfault, fun earlier h other => ?_⟩
      rw [Place.precedes_description_iff.1 h]
      exact not_hasFault_whole
    · refine ⟨.tagList, hfault, fun earlier h other => ?_⟩
      rcases Place.precedes_tagList_iff.1 h with rfl | rfl
      · exact not_hasFault_whole
      · exact hdescription other
    · refine ⟨.tag n, hfault, fun earlier h other => ?_⟩
      rcases Place.precedes_tag_iff.1 h with rfl | rfl | rfl | ⟨m, hm, rfl⟩
      · exact not_hasFault_whole
      · exact hdescription other
      · exact hfault.not_tagList
      · exact htags m hm other
    · refine ⟨.context, hfault, fun earlier h other => ?_⟩
      rcases Place.precedes_context_iff.1 h with rfl | rfl | rfl | ⟨m, rfl⟩
      · exact not_hasFault_whole
      · exact hdescription other
      · exact hlist other
      · exact htags m other
  · rintro ⟨place, hfault, hearlier⟩
    cases place with
    | whole =>
        exact absurd hfault not_hasFault_whole
    | description =>
        exact Or.inl hfault
    | tagList =>
        have hdescription := hearlier .description (Place.precedes_tagList_iff.2 (by simp))
        exact Or.inr ⟨hdescription, .inl (.inl hfault)⟩
    | tag n =>
        have hdescription := hearlier .description (Place.precedes_tag_iff.2 (by simp))
        have htags : ∀ m < n, ∀ other, ¬HasFault (.object fields) (.tag m) other :=
          fun m hm => hearlier (.tag m) (Place.precedes_tag_iff.2 (by simp [hm]))
        exact Or.inr ⟨hdescription, .inl (.inr ⟨n, hfault, htags⟩)⟩
    | context =>
        have hdescription := hearlier .description (Place.precedes_context_iff.2 (by simp))
        have hlist := hearlier .tagList (Place.precedes_context_iff.2 (by simp))
        have htags : ∀ n other, ¬HasFault (.object fields) (.tag n) other :=
          fun n => hearlier (.tag n) (Place.precedes_context_iff.2 (by simp))
        exact Or.inr ⟨hdescription, .inr ⟨⟨hlist, htags⟩, hfault⟩⟩

theorem not_isMalformed_iff :
    ¬IsMalformed (.object fields) ↔ (∃ description, descriptionOf fields = .ok description) ∧
      (∃ tags, tagsOf fields = .ok tags) ∧ ∃ context, contextOf fields = .ok context := by
  rw [exists_descriptionOf_iff, exists_tagsOf_iff, exists_contextOf_iff]
  constructor
  · intro h
    have hnone : ∀ place fault, ¬HasFault (.object fields) place fault :=
      fun place fault hfault => h ⟨place, fault, hfault⟩
    exact ⟨hnone .description, ⟨hnone .tagList, fun n => hnone (.tag n)⟩, hnone .context⟩
  · rintro ⟨hdescription, ⟨hlist, htags⟩, hcontext⟩ ⟨place, fault, hfault⟩
    cases place with
    | whole => exact not_hasFault_whole hfault
    | description => exact hdescription fault hfault
    | tagList => exact hlist fault hfault
    | tag n => exact htags n fault hfault
    | context => exact hcontext fault hfault

/-- A fault at any place is enough, since then some place is the first. -/
theorem exists_ofFields_eq_shape_iff :
    (∃ fault, ofFields fields = .error (.shape fault)) ↔ IsMalformed (.object fields) := by
  rw [← not_iff_not, not_isMalformed_iff]
  constructor
  · intro h
    have hnone : ∀ fault, ¬(ofFields fields = .error (.shape fault)) := not_exists.1 h
    simp only [ofFields_eq_shape_iff, not_or, not_and] at hnone
    have hdescription := Outcome.exists_ok_iff.2 fun fault => (hnone fault).1
    have htags := Outcome.exists_ok_iff.2 fun fault => ((hnone fault).2 hdescription).1
    have hcontext := Outcome.exists_ok_iff.2 fun fault => ((hnone fault).2 hdescription).2 htags
    exact ⟨hdescription, htags, hcontext⟩
  · rintro ⟨⟨description, hdescription⟩, ⟨tags, htags⟩, context, hcontext⟩ ⟨fault, hfault⟩
    rw [ofFields_of_parts hdescription htags hcontext] at hfault
    exact lineOfValue_ne_shape (Outcome.map_eq_error_iff.1 hfault)

/-! ## Values -/

theorem ofValue_of_not_isMapping (h : ¬v.IsMapping) : ofValue v = .error (.shape (.comment v)) := by
  unfold ofValue
  split
  · next fields => exact absurd ⟨fields, rfl⟩ h
  · rfl

theorem HasFault.eq_whole {place : Place} (h : HasFault v place fault) (hmapping : ¬v.IsMapping) :
    place = .whole ∧ fault = .comment v := by
  cases h with
  | whole _ => exact ⟨rfl, rfl⟩
  | _ => exact absurd ⟨_, rfl⟩ hmapping

theorem ofValue_eq_shape_iff : ofValue v = .error (.shape fault) ↔ FirstFault v fault := by
  by_cases hmapping : v.IsMapping
  · rcases hmapping with ⟨fields, rfl⟩
    exact ofFields_eq_firstFault_iff
  · rw [ofValue_of_not_isMapping hmapping]
    constructor
    · intro h
      cases h
      exact ⟨.whole, .whole hmapping, fun earlier h => absurd h Place.not_precedes_whole⟩
    · rintro ⟨place, hfault, -⟩
      rw [(hfault.eq_whole hmapping).2]

theorem exists_ofValue_eq_shape_iff :
    (∃ fault, ofValue v = .error (.shape fault)) ↔ IsMalformed v := by
  by_cases hmapping : v.IsMapping
  · rcases hmapping with ⟨fields, rfl⟩
    exact exists_ofFields_eq_shape_iff
  · exact ⟨fun _ => ⟨.whole, _, .whole hmapping⟩, fun _ => ⟨_, ofValue_of_not_isMapping hmapping⟩⟩

/-- The second tag is faulty, the third one too, and so are the context and the line. -/
def faultyDocument : Value :=
  .object [("line", .text "x"), ("ctx", .int 2), ("tags",
    .list [.object [("type", .text "see"), ("types", .bool false)], .int 1, .null])]

/-- A document without a fault but for its line, if that is one. -/
def lineDocument (line : String) : Keyed Value :=
  [("description", .text " D "), ("tags", .list [.object [("type", .text "see")]]),
    ("line", .text line)]

end Comment
end ScriptDoc
