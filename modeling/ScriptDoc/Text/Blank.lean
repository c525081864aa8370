/-!
# Blank — white space at the edges of a text

- `isBlank`                       : the white-space characters of Unicode, and the four
  information separators `U+001C` to `U+001F`
- `trimStart`, `trimEnd`, `trim`  : a text without blanks at an edge
- `firstWord`                     : the first run without blanks, and what follows it
-/

namespace ScriptDoc
namespace Text

def isBlank (c : Char) : Bool :=
  let n := c.toNat
  if n < 128 then
    n == 32 || (9 ≤ n && n ≤ 13) || (28 ≤ n && n ≤ 31)
  else
    n == 0x85 || n == 0xA0 || n == 0x1680 || (0x2000 ≤ n && n ≤ 0x200A) ||
      n == 0x2028 || n == 0x2029 || n == 0x202F || n == 0x205F || n == 0x3000

/-- Spaces and tabs indent; other blanks do not. -/
def isIndent (c : Char) : Bool :=
  c == ' ' || c == '\t'

def trimStart (s : List Char) : List Char :=
  s.dropWhile isBlank

def trimEnd (s : List Char) : List Char :=
  (s.reverse.dropWhile isBlank).reverse

def trim (s : List Char) : List Char :=
  trimEnd (trimStart s)

def firstWord (s : List Char) : List Char × List Char :=
  let start := trimStart s
  (start.takeWhile (!isBlank ·), trimStart (start.dropWhile (!isBlank ·)))

end Text
end ScriptDoc
