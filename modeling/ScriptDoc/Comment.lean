import ScriptDoc.Context
import ScriptDoc.Tag

/-!
# Comment — a doc comment that has been read

- `Comment`            : description, tags and what the comment stands before
- `Comment.isLinkable` : whether it declares a type that others can link to
-/

namespace ScriptDoc

structure Comment where
  description : String := ""
  tags : List Tag := []
  context : Option Context := none
  isPrivate : Bool := false
  isIgnored : Bool := false
  line : Int := 0
  deriving DecidableEq, Repr

namespace Comment

/-- Callbacks and type definitions are declared by the first tag of a comment. -/
def linkableWords : List String :=
  ["typedef", "callback"]

/-- The tag that declares a callback or a type definition. -/
def declaring? (c : Comment) : Option Tag :=
  match c.tags with
  | tag :: _ => if linkableWords.contains tag.word then some tag else none
  | [] => none

def isLinkable (c : Comment) : Bool :=
  c.declaring?.isSome

end Comment
end ScriptDoc
