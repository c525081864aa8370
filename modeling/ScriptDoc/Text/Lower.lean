import ScriptDoc.Text.Case
import ScriptDoc.Text.Ranges

/-!
# Lower — lower-casing

Each capital letter becomes its small letter. Two letters need more than a table: `İ` becomes
an `i` and a combining dot, and `Σ` at the end of a word becomes `ς`.

- `lowerLetter` : the small letter of a single character
- `lower`       : a text in small letters
-/

namespace ScriptDoc
namespace Text

def lowerLetter (c : Char) : Char :=
  if c.toNat < 128 then c.toLower
  else
    match lowerShifts.find? fun (lo, hi, step, _) =>
        lo ≤ c.toNat && c.toNat ≤ hi && (c.toNat - lo) % step == 0 with
    | some (_, _, _, shift) => Char.ofNat (c.toNat + shift).toNat
    | none => c

def isCased (c : Char) : Bool :=
  inRanges casedRanges c.toNat

def isCaseIgnorable (c : Char) : Bool :=
  inRanges caseIgnorableRanges c.toNat

/-- Whether the next character that is not passed over has case. -/
def meetsCased : List Char → Bool
  | [] => false
  | c :: s => if isCaseIgnorable c then meetsCased s else isCased c

/-- `before` holds the characters already read, the last one first. -/
def lowerFrom (before : List Char) : List Char → List Char
  | [] => []
  | c :: s =>
      let small :=
        if c = 'İ' then ['i', '\u0307']
        else if c = 'Σ' then [if meetsCased before && !meetsCased s then 'ς' else 'σ']
        else [lowerLetter c]
      small ++ lowerFrom (c :: before) s

def lower (s : List Char) : List Char :=
  lowerFrom [] s

end Text
end ScriptDoc
