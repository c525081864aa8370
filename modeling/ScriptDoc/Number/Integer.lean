import ScriptDoc.Text.Blank
import ScriptDoc.Text.Digit

/-!
# Integer — whole numbers read from text

A written integer is a sign, if any, and decimal digits of any script, with single underscores
between digits allowed. White space around it does not count, but the information separators are
no white space here.

- `Integer.digits?` : the digits, most significant first
- `Integer.ofText?` : the number
-/

namespace ScriptDoc
namespace Integer

open Text

/-- Longer digit sequences are refused. -/
def maxDigits : Nat := 4300

def isMargin (c : Char) : Bool :=
  isBlank c && !(28 ≤ c.toNat && c.toNat ≤ 31)

/-- Digits with single underscores between them. -/
def digits? : List Char → Option (List Nat)
  | [] => none
  | [c] => (digit? c).map ([·])
  | c :: '_' :: s => do
      let d ← digit? c
      let ds ← digits? s
      pure (d :: ds)
  | c :: s => do
      let d ← digit? c
      let ds ← digits? s
      pure (d :: ds)

def ofDigits (ds : List Nat) : Nat :=
  ds.foldl (fun n d => 10 * n + d) 0

def natural? (s : List Char) : Option Nat := do
  let ds ← digits? s
  if ds.length ≤ maxDigits then some (ofDigits ds) else none

def ofText? (s : List Char) : Option Int :=
  let inner := (s.dropWhile isMargin).reverse.dropWhile isMargin |>.reverse
  match inner with
  | '-' :: ds => (natural? ds).map fun n => -(n : Int)
  | '+' :: ds => (natural? ds).map fun n => (n : Int)
  | ds => (natural? ds).map fun n => (n : Int)

end Integer
end ScriptDoc
