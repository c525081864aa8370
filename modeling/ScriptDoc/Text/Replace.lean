/-!
# Replace — searching a text for fixed texts

Occurrences are taken from left to right and do not overlap. The scans count down the
characters of an occurrence that is already dealt with.

- `after?`        : what follows a text at the start of another
- `replaceAll`    : every occurrence replaced
- `replaceFirst`  : the first occurrence replaced
- `eraseAll`      : every occurrence of any of several texts erased
-/

namespace ScriptDoc
namespace Text

def after? : List Char → List Char → Option (List Char)
  | [], s => some s
  | _ :: _, [] => none
  | p :: ps, c :: s => if p = c then after? ps s else none

theorem after?_eq_some_iff {p s rest : List Char} : after? p s = some rest ↔ s = p ++ rest := by
  induction p generalizing s with
  | nil => simp [after?]
  | cons c p ih =>
    cases s with
    | nil => simp [after?]
    | cons d s =>
      by_cases h : c = d
      · simp [after?, h, ih]
      · simp [after?, h, Ne.symm h]

def replaceFrom (old new : List Char) : Nat → List Char → List Char
  | _, [] => []
  | skip + 1, _ :: s => replaceFrom old new skip s
  | 0, c :: s =>
      if old.isPrefixOf (c :: s) then new ++ replaceFrom old new (old.length - 1) s
      else c :: replaceFrom old new 0 s

/-- The text `old` must not be empty for its occurrences to be found. -/
def replaceAll (old new s : List Char) : List Char :=
  replaceFrom old new 0 s

def replaceFirst (old new : List Char) : List Char → List Char
  | [] => []
  | c :: s =>
      match after? old (c :: s) with
      | some rest => new ++ rest
      | none => c :: replaceFirst old new s

def eraseFrom (marks : List (List Char)) : Nat → List Char → List Char
  | _, [] => []
  | skip + 1, _ :: s => eraseFrom marks skip s
  | 0, c :: s =>
      match marks.find? (·.isPrefixOf (c :: s)) with
      | some mark => eraseFrom marks (mark.length - 1) s
      | none => c :: eraseFrom marks 0 s

/-- Of several texts that occur at one place the first in the list counts. -/
def eraseAll (marks : List (List Char)) (s : List Char) : List Char :=
  eraseFrom marks 0 s

end Text
end ScriptDoc
