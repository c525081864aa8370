import ScriptDoc.Comment
import ScriptDoc.Number.Integer
import ScriptDoc.Record.Fault

/-!
# Document — comments as documents of fields

Other tools write comments as nested mappings with the fields `description`, `tags`, `ctx`,
`isPrivate`, `ignore` and `line`. Missing and empty fields have defaults; the first fault in the
order description, tags, context, line decides.

- `Tag.ofValue`, `Context.ofValue`, `Comment.ofValue` : the three readers
- `lineOfValue`                                       : the number of a line
-/

namespace ScriptDoc

/-- What an optional field holds, unless it is empty. -/
def filled (fields : Keyed Value) (key : String) : Option Value :=
  (fields.get? key).filter (!·.isEmpty)

def flag (fields : Keyed Value) (key : String) : Bool :=
  (filled fields key).isSome

def shownField (fields : Keyed Value) (key : String) : String :=
  Value.shownOrBlank (fields.get? key)

namespace Tag

def ofValue (value : Value) : Except ShapeFault Tag :=
  match value with
  | .object fields =>
      match Keyed.get? "type" fields with
      | some (.text word) =>
          match (filled fields "types").getD (.list []) with
          | .list types =>
              .ok
                { word := word
                  text := shownField fields "string"
                  name := shownField fields "name"
                  isOptional := flag fields "optional"
                  types := types.map Value.shown
                  description := shownField fields "description"
                  visibility := shownField fields "visibility" }
          | found => .error (.tagTypes word found)
      | _ => .error (.tag value)
  | _ => .error (.tag value)

end Tag

namespace Context

def ofValue (value : Value) : Except ShapeFault Context :=
  match value with
  | .object fields =>
      match Keyed.get? "type" fields, Keyed.get? "string" fields with
      | some kind, some name => .ok ⟨kind.shown, name.shown⟩
      | _, _ => .error (.context value)
  | _ => .error (.context value)

end Context

/-- Numbers are cut at the point, and truth values count as `0` and `1`. -/
def lineOfValue : Option Value → Except RecordFault Int
  | none => .ok 0
  | some .null => .ok 0
  | some (.bool b) => .ok (if b then 1 else 0)
  | some (.int n) => .ok n
  | some (.real x) => .ok x.truncate
  | some (.text s) =>
      if s.isEmpty then .ok 0
      else
        match Integer.ofText? s.toList with
        | some n => .ok n
        | none => .error (@RecordFault.lineText s)
  | some (.list items) =>
      if items.isEmpty then .ok 0 else .error (@RecordFault.lineKind (.list items))
  | some (.object fields) =>
      if fields.isEmpty then .ok 0 else .error (@RecordFault.lineKind (.object fields))

namespace Comment

/-- A description is text, which is trimmed, or a mapping with the text under `full`. -/
def descriptionOf (fields : Keyed Value) : Except ShapeFault String :=
  match (fields.get? "description").getD (.text "") with
  | .object parts => .ok (shownField parts "full")
  | .text s => .ok (String.ofList (Text.trim s.toList))
  | found => .error (.description found)

def tagsOf (fields : Keyed Value) : Except ShapeFault (List Tag) :=
  match (fields.get? "tags").getD (.list []) with
  | .list items => items.mapM Tag.ofValue
  | found => .error (.tags found)

def contextOf (fields : Keyed Value) : Except ShapeFault (Option Context) :=
  match filled fields "ctx" with
  | none => .ok none
  | some value => (Context.ofValue value).map some

def ofFields (fields : Keyed Value) : Except RecordFault Comment := do
  let description ← (descriptionOf fields).mapError RecordFault.shape
  let tags ← (tagsOf fields).mapError RecordFault.shape
  let context ← (contextOf fields).mapError RecordFault.shape
  let line ← lineOfValue (fields.get? "line")
  pure
    { description := description
      tags := tags
      context := context
      isPrivate := flag fields "isPrivate"
      isIgnored := flag fields "ignore"
      line := line }

def ofValue (value : Value) : Except RecordFault Comment :=
  match value with
  | .object fields => ofFields fields
  | _ => .error (.shape (.comment value))

end Comment
end ScriptDoc
