import ScriptDoc.Value

/-!
# Fault — why a comment record is refused

- `ShapeFault`  : a record or a part of it is not of the shape that is asked for
- `RecordFault` : the same, or a line number that cannot be read
-/

namespace ScriptDoc

inductive ShapeFault where
  | comment (found : Value)
  | description (found : Value)
  | tags (found : Value)
  | tag (found : Value)
  | tagTypes (word : String) (found : Value)
  | context (found : Value)
  | foreign (kindName : String)
  | noDescription (line : Int)
  | noTagList (line : Int)
  | noTypeList (line : Int) (word : String)
  | noName (line : Int) (word : String)
  | noContextName (line : Int)

namespace ShapeFault

def atLine (line : Int) : String :=
  "comment at line " ++ toString line

def message : ShapeFault → String
  | .comment found => "comment must be a mapping: " ++ found.literal
  | .description found => "description must be text or a mapping: " ++ found.literal
  | .tags found => "tags must be a list: " ++ found.literal
  | .tag found => "tag must be a mapping with a 'type': " ++ found.literal
  | .tagTypes word found => "@" ++ word ++ " types must be a list: " ++ found.literal
  | .context found => "ctx must have 'type' and 'string': " ++ found.literal
  | .foreign kindName => "expected ParsedComment, got " ++ kindName
  | .noDescription line => atLine line ++ " has no description"
  | .noTagList line => atLine line ++ ": tags must be a list"
  | .noTypeList line word => atLine line ++ ": @" ++ word ++ " types must be a list"
  | .noName line word => atLine line ++ ": @" ++ word ++ " has no name"
  | .noContextName line => atLine line ++ ": empty ctx string"

end ShapeFault

/-- A line is refused for the text it is, or for being a value of another kind. -/
inductive RecordFault where
  | shape (fault : ShapeFault)
  | lineText {text : String}
  | lineKind {found : Value}

end ScriptDoc
