import ScriptDoc.Record.Document

/-!
# Record — comments as they are handed over

- `Draft`          : a comment whose parts need not be of the right kind; a part that is not is
  absent
- `Draft.check`    : a draft with all its parts, every parameter and property named
- `Record`         : a draft, or any value that should be a document of fields
- `Record.read`    : the comment that a record stands for
- `Record.readAll` : the comments of all records that are not ignored, or the first fault
-/

namespace ScriptDoc

/-! ## Drafts -/

structure DraftTag where
  word : String
  text : String := ""
  name : String := ""
  isOptional : Bool := false
  types : Option (List String) := some []
  description : String := ""
  visibility : String := ""
  deriving DecidableEq, Repr

structure DraftContext where
  kind : String
  name : Option String
  deriving DecidableEq, Repr

structure Draft where
  description : Option String := some ""
  tags : Option (List DraftTag) := some []
  context : Option DraftContext := none
  isPrivate : Bool := false
  isIgnored : Bool := false
  line : Int := 0
  deriving DecidableEq, Repr

namespace DraftTag

def ofTag (tag : Tag) : DraftTag :=
  { word := tag.word
    text := tag.text
    name := tag.name
    isOptional := tag.isOptional
    types := some tag.types
    description := tag.description
    visibility := tag.visibility }

def check (line : Int) (tag : DraftTag) : Except ShapeFault Tag :=
  match tag.types with
  | none => .error (.noTypeList line tag.word)
  | some types =>
      if Tag.isNamed tag.word && tag.name.isEmpty then .error (.noName line tag.word)
      else
        .ok
          { word := tag.word
            text := tag.text
            name := tag.name
            isOptional := tag.isOptional
            types := types
            description := tag.description
            visibility := tag.visibility }

end DraftTag

namespace DraftContext

def ofContext (context : Context) : DraftContext :=
  ⟨context.kind, some context.name⟩

def check (line : Int) (context : DraftContext) : Except ShapeFault Context :=
  match context.name with
  | none => .error (.noContextName line)
  | some name => if name.isEmpty then .error (.noContextName line) else .ok ⟨context.kind, name⟩

end DraftContext

namespace Draft

def ofComment (c : Comment) : Draft :=
  { description := some c.description
    tags := some (c.tags.map DraftTag.ofTag)
    context := c.context.map DraftContext.ofContext
    isPrivate := c.isPrivate
    isIgnored := c.isIgnored
    line := c.line }

def checkContext (d : Draft) : Except ShapeFault (Option Context) :=
  match d.context with
  | none => .ok none
  | some context => (context.check d.line).map some

/-- Faults are looked for in the order description, tags, context. -/
def check (d : Draft) : Except ShapeFault Comment :=
  match d.description, d.tags with
  | none, _ => .error (.noDescription d.line)
  | some _, none => .error (.noTagList d.line)
  | some description, some tags => do
      let tags ← tags.mapM (DraftTag.check d.line)
      let context ← d.checkContext
      pure
        { description := description
          tags := tags
          context := context
          isPrivate := d.isPrivate
          isIgnored := d.isIgnored
          line := d.line }

end Draft

/-! ## Records -/

inductive Record where
  | draft (d : Draft)
  | value (v : Value)

namespace Record

def ofComment (c : Comment) : Record :=
  .draft (Draft.ofComment c)

/-- Whether a record is marked to be left out; nothing else in it is looked at. -/
def isIgnored : Record → Bool
  | .draft d => d.isIgnored
  | .value (.object fields) => flag fields "ignore"
  | .value _ => false

/-- A record that must be a draft already. -/
def check : Record → Except ShapeFault Comment
  | .draft d => d.check
  | .value v => .error (.foreign v.kindName)

/-- A record that may also be a document of fields. -/
def read : Record → Except RecordFault Comment
  | .draft d => d.check.mapError RecordFault.shape
  | .value (.object fields) => do
      let c ← Comment.ofFields fields
      (Draft.ofComment c).check.mapError RecordFault.shape
  | .value v => .error (.shape (.foreign v.kindName))

def readAll (records : List Record) : Except RecordFault (List Comment) :=
  (records.filter (!·.isIgnored)).mapM read

end Record
end ScriptDoc
