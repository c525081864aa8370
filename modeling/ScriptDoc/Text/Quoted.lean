import ScriptDoc.Text.Printable

/-!
# Quoted — a text written as a literal

- `quoteMark`       : single quotes, or double ones for a text with single quotes and no double
  ones
- `quoted`, `quote` : the literal, with escapes for the backslash, for the mark in use and for
  characters that cannot be shown
-/

namespace ScriptDoc
namespace Text

def singleMark : Char := '\x27'
def doubleMark : Char := '\x22'
def backslash : Char := '\x5c'

/-- The last `width` hexadecimal digits of `n`. -/
def hexDigits : Nat → Nat → List Char
  | 0, _ => []
  | width + 1, n => hexDigits width (n / 16) ++ [Nat.digitChar (n % 16)]

def quoteMark (s : List Char) : Char :=
  if s.contains singleMark && !s.contains doubleMark then doubleMark else singleMark

def escape (mark c : Char) : List Char :=
  if c = mark || c = backslash then [backslash, c]
  else if c = '\n' then [backslash, 'n']
  else if c = '\r' then [backslash, 'r']
  else if c = '\t' then [backslash, 't']
  else if isPrintable c then [c]
  else if c.toNat < 0x100 then backslash :: 'x' :: hexDigits 2 c.toNat
  else if c.toNat < 0x10000 then backslash :: 'u' :: hexDigits 4 c.toNat
  else backslash :: 'U' :: hexDigits 8 c.toNat

def quoted (s : List Char) : List Char :=
  quoteMark s :: (s.flatMap (escape (quoteMark s)) ++ [quoteMark s])

def quote (s : String) : String :=
  String.ofList (quoted s.toList)

end Text
end ScriptDoc
