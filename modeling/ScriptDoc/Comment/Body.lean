import ScriptDoc.Comment
import ScriptDoc.Context.Reader
import ScriptDoc.Text.Lines
import ScriptDoc.Text.Word

/-!
# Body — the text between the marks of a doc comment

Lines may begin with a decorating star. A line that begins with `@` and a word opens a tag, which
goes on up to the next one; what comes before the first tag is the description.

- `Body.undecorate` : the lines without their stars
- `Body.sections`   : the lines of the description, and the tags with theirs
- `Body.split`      : the same as trimmed texts
- `Comment.parse`   : a body, and the code after it, read as a comment
-/

namespace ScriptDoc
namespace Body

open Text

/-- A star with spaces or tabs before it and at most one after it. -/
def undecorateLine (line : List Char) : List Char :=
  match line.dropWhile isIndent with
  | '*' :: c :: rest => if isIndent c then rest else c :: rest
  | ['*'] => []
  | _ => line

def undecorate (body : List Char) : List Char :=
  trim (unlines ((lines body).map undecorateLine))

/-- The word of a tag and what its first line says, less one blank between them. -/
def tagLine? (line : List Char) : Option (List Char × List Char) :=
  match trimStart line with
  | '@' :: s =>
      match s.takeWhile isWord, s.dropWhile isWord with
      | [], _ => none
      | word, c :: rest => some (word, if isBlank c then rest else c :: rest)
      | word, [] => some (word, [])
  | _ => none

/-- The lines before the first tag, and for each tag its word and its lines. -/
def sections : List (List Char) →
    List (List Char) × List (List Char × List (List Char))
  | [] => ([], [])
  | line :: more =>
      let (lead, tags) := sections more
      match tagLine? line with
      | some (word, first) => ([], (word, first :: lead) :: tags)
      | none => (line :: lead, tags)

/-- The description and, for each tag, its word and its text. -/
def split (body : List Char) : List Char × List (List Char × List Char) :=
  let (lead, tags) := sections (lines (undecorate body))
  (trim (unlines lead), tags.map fun (word, own) => (word, trim (unlines own)))

/-! ## Descriptions as markup -/

def escapeMarkupChar (c : Char) : List Char :=
  if c = '&' then "&amp;".toList
  else if c = '<' then "&lt;".toList
  else if c = '>' then "&gt;".toList
  else [c]

def escapeMarkup (s : List Char) : List Char :=
  s.flatMap escapeMarkupChar

end Body

namespace Comment

/-- A raw description is kept as written, any other is escaped. -/
def parse (raw : Bool) (line : Int) (code body : List Char) : Except TagFault Comment :=
  let (description, tags) := Body.split body
  let shown := if raw then description else Body.escapeMarkup description
  match tags.mapM fun (word, text) => Tag.parse (String.ofList word) (String.ofList text) with
  | .error fault => .error fault
  | .ok tags =>
      .ok
        { description := String.ofList shown
          tags := tags
          context := Context.ofCode? code
          isPrivate := tags.any Tag.hides
          line := line }

end Comment
end ScriptDoc
