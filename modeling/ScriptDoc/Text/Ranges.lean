/-!
# Ranges — tables of code points

A table lists closed ranges of code points in increasing order, as `lo, hi, lo, hi, …`.

- `inRanges` : membership, decided at the first range that does not lie below the number
-/

namespace ScriptDoc
namespace Text

def inRanges : List Nat → Nat → Bool
  | lo :: hi :: rest, n => if n < lo then false else n ≤ hi || inRanges rest n
  | _, _ => false

end Text
end ScriptDoc
