import ScriptDoc.Text.Replace

/-!
# Name — names as a reader sees them

- `Name.display`       : a declared name without the parts that only place it in a module; a
  callback is shown as a value of function type
- `Name.withoutMarker` : a name without a leading type marker such as `{Object} `
- `Name.bare`          : a parameter name or type without square brackets
-/

namespace ScriptDoc
namespace Name

/-- Parts of a declared name that say where it is kept or that it is called. -/
def placements : List (List Char) :=
  ["module.exports.".toList, ".prototype".toList, "()".toList]

def functionMarker : String := "\x7bFunction\x7d "

def plain (s : List Char) : List Char :=
  Text.eraseAll placements s

def display (word name : String) : String :=
  let shown := String.ofList (plain name.toList)
  if word = "callback" then functionMarker ++ shown else shown

/-! ## Type markers -/

/-- The letters `a` to `z` in either case, with the four further characters that some change of
case takes to one of them. -/
def isMarkerLetter (c : Char) : Bool :=
  ('a' ≤ c && c ≤ 'z') || ('A' ≤ c && c ≤ 'Z') ||
    c = '\u0130' || c = '\u0131' || c = '\u017f' || c = '\u212a'

def dropMarker (s : List Char) : List Char :=
  match s with
  | '{' :: inside =>
      match inside.dropWhile isMarkerLetter with
      | '}' :: ' ' :: rest => rest
      | _ => s
  | _ => s

def withoutMarker (name : String) : String :=
  String.ofList (dropMarker name.toList)

/-! ## Brackets -/

def isBracket (c : Char) : Bool :=
  c = '[' || c = ']'

def bare (name : String) : String :=
  String.ofList (name.toList.filter (!isBracket ·))

end Name
end ScriptDoc
