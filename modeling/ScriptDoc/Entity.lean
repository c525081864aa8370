import ScriptDoc.Anchor
import ScriptDoc.Comment
import ScriptDoc.Entity.Signature
import ScriptDoc.Link
import ScriptDoc.Value

/-!
# Entity — what a page shows of one comment

- `Entity`            : the shown parts, with types linked or escaped
- `Comment.kind`      : an ordinary declaration, a linkable one, or nothing to show
- `Entity.ofComment?` : the entity of a comment, if there is something to show
- `Entity.toValue`    : an entity as fields for page metadata
-/

namespace ScriptDoc

structure ParamDoc where
  name : String
  isOptional : Bool
  types : List String
  description : String
  deriving DecidableEq, Repr

structure ReturnDoc where
  types : List String
  description : String
  deriving DecidableEq, Repr

structure EntityTags where
  examples : List String := []
  params : List ParamDoc := []
  properties : List ParamDoc := []
  returns : List ReturnDoc := []
  deriving DecidableEq, Repr

structure Entity where
  uid : String := ""
  name : String
  kind : String
  description : String := ""
  isPrivate : Bool := false
  line : Int := 0
  params : String := ""
  notFunction : Bool := false
  toBottom : Bool := false
  tags : EntityTags := {}
  deriving DecidableEq, Repr

/-! ## Tags -/

namespace ParamDoc

def ofTag (index : Link.Index) (tag : Tag) : ParamDoc :=
  { name := Name.bare tag.name
    isOptional := tag.isOptional
    types := tag.types.map (Link.resolve index)
    description := tag.description }

end ParamDoc

namespace ReturnDoc

def ofTag (index : Link.Index) (tag : Tag) : ReturnDoc :=
  { types := tag.types.map (Link.resolve index)
    description := tag.description }

end ReturnDoc

namespace EntityTags

def ofTags (index : Link.Index) (tags : List Tag) : EntityTags :=
  { examples := (tags.filter (·.word = "example")).map Tag.text
    params := (tags.filter (·.word = "param")).map (ParamDoc.ofTag index)
    properties := (tags.filter (·.word = "property")).map (ParamDoc.ofTag index)
    returns := (tags.filter (Tag.isReturn ·.word)).map (ReturnDoc.ofTag index) }

end EntityTags

/-! ## Comments -/

inductive EntityKind where
  | ordinary
  | linkable
  | empty
  deriving DecidableEq, Repr

namespace Comment

/-- A context makes a declaration ordinary, whatever its tags are. -/
def kind (c : Comment) : EntityKind :=
  match c.context with
  | some _ => .ordinary
  | none => if c.isLinkable then .linkable else .empty

/-- The name of a declaration, as a member of what a leading `memberof` tag names. -/
def memberName (context : Context) (tags : List Tag) : String :=
  match tags with
  | tag :: _ =>
      if tag.word = "memberof" then
        let owner := Text.replaceFirst ['#'] [] tag.text.toList
        String.ofList owner ++ "." ++ context.name
      else context.name
  | [] => context.name

end Comment

namespace Entity

def ofDeclaration (filename : String) (index : Link.Index) (c : Comment) (context : Context) :
    Entity :=
  { uid := Anchor.within filename context.name
    name := Name.display "" (Comment.memberName context c.tags)
    kind := context.kind
    description := c.description
    isPrivate := c.isPrivate
    line := c.line
    params := Signature.ofTags c.tags
    notFunction := context.kind = "declaration"
    toBottom := false
    tags := EntityTags.ofTags index c.tags }

/-- Type definitions have no signature. -/
def ofLinkable (filename : String) (index : Link.Index) (c : Comment) (tag : Tag) : Entity :=
  { uid := Anchor.within filename tag.text
    name := Name.display tag.word tag.text
    kind := tag.word
    description := c.description
    isPrivate := c.isPrivate
    line := c.line
    params := if tag.word = "typedef" then "" else Signature.ofTags c.tags
    notFunction := tag.word = "typedef"
    toBottom := true
    tags := EntityTags.ofTags index c.tags }

def ofComment? (filename : String) (index : Link.Index) (c : Comment) : Option Entity :=
  if c.description.isEmpty && c.tags.isEmpty then none
  else
    match c.context with
    | some context => some (ofDeclaration filename index c context)
    | none => c.declaring?.map (ofLinkable filename index c)

end Entity

/-! ## Fields -/

def ParamDoc.toValue (p : ParamDoc) : Value :=
  .object
    [("name", .text p.name), ("isOptional", .bool p.isOptional),
      ("types", .list (p.types.map .text)), ("description", .text p.description)]

def ReturnDoc.toValue (r : ReturnDoc) : Value :=
  .object [("types", .list (r.types.map .text)), ("description", .text r.description)]

def EntityTags.toValue (t : EntityTags) : Value :=
  .object
    [("example", .list (t.examples.map .text)), ("param", .list (t.params.map ParamDoc.toValue)),
      ("property", .list (t.properties.map ParamDoc.toValue)),
      ("return", .list (t.returns.map ReturnDoc.toValue))]

def Entity.toValue (e : Entity) : Value :=
  .object
    [("uid", .text e.uid), ("name", .text e.name), ("type", .text e.kind),
      ("description", .text e.description), ("isPrivate", .bool e.isPrivate),
      ("line", .int e.line), ("params", .text e.params), ("notFunction", .bool e.notFunction),
      ("toBottom", .bool e.toBottom), ("tags", e.tags.toValue)]

end ScriptDoc
