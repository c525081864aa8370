import ScriptDoc.Text.Lower

/-!
# Anchor — identifiers that a page can be linked at

An anchor is written in small ASCII letters, digits, underscores and dots. Everything between
two runs of these becomes one hyphen.

- `Anchor.ofText` : the anchor of any text
- `Anchor.within` : the anchor of a name declared in a file
-/

namespace ScriptDoc
namespace Anchor

def isAnchorChar (c : Char) : Bool :=
  ('a' ≤ c && c ≤ 'z') || ('A' ≤ c && c ≤ 'Z') || ('0' ≤ c && c ≤ '9') || c = '_' || c = '.'

/-- One hyphen for each run of other characters; `inGap` says that such a run is under way. -/
def hyphenate (inGap : Bool) : List Char → List Char
  | [] => []
  | c :: s =>
      if isAnchorChar c then c :: hyphenate false s
      else if inGap then hyphenate true s
      else '-' :: hyphenate true s

def dropHyphen : List Char → List Char
  | '-' :: s => s
  | s => s

/-- A text without a hyphen at its start and without one at its end. -/
def trimHyphens (s : List Char) : List Char :=
  (dropHyphen (dropHyphen s).reverse).reverse

def slug (s : List Char) : List Char :=
  trimHyphens (hyphenate false (Text.lower s))

def ofText (s : String) : String :=
  String.ofList (slug s.toList)

def within (filename name : String) : String :=
  ofText (filename ++ "-" ++ name)

end Anchor
end ScriptDoc
