import ScriptDoc.Text.Quoted
import ScriptDoc.Tag.TypeExpr

/-!
# Tag — the tags of a doc comment

- `Tag`           : a tag with what its text says
- `TagFault`      : why a tag's text cannot be read
- `Tag.canonical` : the word that a tag word stands for
- `Tag.parse`     : a tag word and its text read as a tag
-/

namespace ScriptDoc

structure Tag where
  word : String
  text : String := ""
  name : String := ""
  isOptional : Bool := false
  types : List String := []
  description : String := ""
  visibility : String := ""
  deriving DecidableEq, Repr

/-- The word is the one written, not the one it stands for. -/
inductive TagFault where
  | unclosedType (word text : String)
  | unclosedName (word text : String)
  | noName (word text : String)
  deriving DecidableEq, Repr

namespace TagFault

def message : TagFault → String
  | .unclosedType word text => "unbalanced braces in @" ++ word ++ " " ++ Text.quote text
  | .unclosedName word text => "unbalanced brackets in @" ++ word ++ " " ++ Text.quote text
  | .noName word text => "@" ++ word ++ " without a name: " ++ Text.quote text

end TagFault

namespace Tag

open Text

def canonical (word : String) : String :=
  if word = "arg" || word = "argument" then "param"
  else if word = "prop" then "property"
  else word

/-- Parameters and properties have names. -/
def isNamed (word : String) : Bool :=
  word = "param" || word = "property"

def isReturn (word : String) : Bool :=
  word = "return" || word = "returns"

/-! ## Parts of a tag's text -/

/-- The type in braces at the start, if there is one, and what follows it. -/
def splitType : List Char → Option (List Char × List Char)
  | '{' :: s => (untilClose '{' '}' s).map fun (inside, rest) => (inside, trimStart rest)
  | s => some ([], s)

/-- A name reaches to its closing bracket if it starts with an opening one, and to the first
blank otherwise. -/
def splitName : List Char → Option (List Char × List Char)
  | '[' :: s => (untilClose '[' ']' s).map fun (inside, rest) => ('[' :: (inside ++ [']']), rest)
  | s => some (firstWord s)

/-- A description without the dash that sets it off from the name. -/
def dropDash (s : List Char) : List Char :=
  match s with
  | '-' :: c :: rest => if isBlank c then trimStart rest else s
  | _ => s

def marksOptional (typeText name : List Char) : Bool :=
  name.head? == some '[' || (trimEnd typeText).getLast? == some '='

/-! ## Reading -/

def parse (word text : String) : Except TagFault Tag :=
  match splitType text.toList with
  | none => .error (.unclosedType word text)
  | some (typeText, rest) =>
      let kind := canonical word
      let tag : Tag :=
        { word := kind
          text := text
          types := (TypeExpr.alternatives typeText).map String.ofList }
      if isNamed kind then
        match splitName rest with
        | none => .error (.unclosedName word text)
        | some ([], _) => .error (.noName word text)
        | some (name, description) =>
            .ok { tag with
              name := String.ofList name
              description := String.ofList (dropDash (trim description))
              isOptional := marksOptional typeText name }
      else if isReturn kind then
        .ok { tag with description := String.ofList (trim rest) }
      else if kind = "api" then
        .ok { tag with visibility := String.ofList (firstWord rest).1 }
      else
        .ok tag

/-- A tag that keeps what it documents out of the public documentation. -/
def hides (tag : Tag) : Bool :=
  tag.word = "private" || (tag.word = "api" && tag.visibility = "private")

end Tag
end ScriptDoc
