/-!
# Nesting — brackets inside brackets

- `untilClose` : a text cut at the bracket that closes one opened just before it
- `depthStep`  : how a character changes the depth over all kinds of brackets
-/

namespace ScriptDoc
namespace Text

/-- The part up to the closing bracket and the part after it. `depth` counts the brackets opened
in between and still open. -/
def untilCloseAt (opening closing : Char) : Nat → List Char → Option (List Char × List Char)
  | _, [] => none
  | depth, c :: s =>
      if c = opening then
        (untilCloseAt opening closing (depth + 1) s).map fun (inside, rest) => (c :: inside, rest)
      else if c = closing then
        match depth with
        | 0 => some ([], s)
        | depth + 1 =>
            (untilCloseAt opening closing depth s).map fun (inside, rest) => (c :: inside, rest)
      else
        (untilCloseAt opening closing depth s).map fun (inside, rest) => (c :: inside, rest)

def untilClose (opening closing : Char) (s : List Char) : Option (List Char × List Char) :=
  untilCloseAt opening closing 0 s

/-- Every opening bracket is one level down and every closing one, whatever its kind, one up. -/
def depthStep (c : Char) : Int :=
  if c = '<' || c = '(' || c = '{' || c = '[' then 1
  else if c = '>' || c = ')' || c = '}' || c = ']' then -1
  else 0

end Text
end ScriptDoc
