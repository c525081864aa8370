import ScriptDoc.Name
import ScriptDoc.Tag
import ScriptDoc.Text.Lines

/-!
# Signature — parameter lists in one line

Optional parameters stand in brackets, neighbours in one pair. The first optional parameter
after a required one has its comma inside the brackets.

- `Signature.shownName` : how a parameter stands in the list
- `Signature.ofTags`    : the list of all parameters that are not members of others
-/

namespace ScriptDoc
namespace Signature

def isShown (tag : Tag) : Bool :=
  tag.word = "param" && !tag.name.toList.contains '.'

def shownName (tag : Tag) : List Char :=
  let name := (Name.bare tag.name).toList
  if tag.isOptional then '[' :: (name ++ [']']) else name

def layout (names : List (List Char)) : List Char :=
  let listed := Text.join [',', ' '] names
  let merged := Text.replaceAll "], [".toList [',', ' '] listed
  Text.replaceFirst ", [".toList "[, ".toList merged

def ofTags (tags : List Tag) : String :=
  String.ofList (layout ((tags.filter isShown).map shownName))

end Signature
end ScriptDoc
