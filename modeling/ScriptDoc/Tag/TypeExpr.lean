import ScriptDoc.Text.Blank
import ScriptDoc.Text.Lines
import ScriptDoc.Text.Nesting

/-!
# TypeExpr — the alternatives of a union type

- `TypeExpr.unwrapped`    : a type without one pair of parentheses around all of it
- `TypeExpr.pieces`       : a type cut at the bars that no bracket encloses
- `TypeExpr.alternatives` : those pieces, trimmed, blank ones left out
-/

namespace ScriptDoc
namespace TypeExpr

open Text

def unwrapped (s : List Char) : List Char :=
  match s with
  | '(' :: inside =>
      match untilClose '(' ')' inside with
      | some (inner, []) => inner
      | _ => s
  | _ => s

/-- A closing bracket too many makes the depth negative, and then no bar counts until it is
zero again. -/
def pieces (depth : Int) : List Char → List (List Char)
  | [] => [[]]
  | c :: s =>
      let depth := depth + depthStep c
      if c = '|' && depth = 0 then [] :: pieces depth s else consFirst c (pieces depth s)

def alternatives (s : List Char) : List (List Char) :=
  ((pieces 0 (unwrapped (trim s))).map trim).filter (!·.isEmpty)

end TypeExpr
end ScriptDoc
