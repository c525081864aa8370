import ScriptDoc.Keyed
import ScriptDoc.Text.Blank
import ScriptDoc.Text.Lines
import ScriptDoc.Text.Replace
import ScriptDoc.Text.Word

/-!
# Directive — requests for documentation in the text of a page

A directive is a line `::: js:autodoc`, blank lines if there are any, and option lines
`:name: value` that are indented further than it. All its lines end in a line feed.

- `OptionLine`     : a line with an option
- `Segment`        : a line of the page as it is, or a directive
- `Segment.ofPage` : the segments of a page, and what follows its last line feed
- `OptionLine.read` : the values of options
-/

namespace ScriptDoc

open Text

/-! ## Option lines -/

/-- `value` is all that follows the name and its colon. -/
structure OptionLine where
  name : List Char
  value : List Char
  deriving DecidableEq, Repr

namespace OptionLine

/-- An option line under a directive that is indented by `indent`. -/
def ofLine? (indent line : List Char) : Option OptionLine :=
  match after? indent line with
  | some (c :: s) =>
      if isIndent c then
        match s.dropWhile isIndent with
        | ':' :: s =>
            match s.takeWhile isWord, s.dropWhile isWord with
            | [], _ => none
            | name, ':' :: value => some ⟨name, value⟩
            | _, _ => none
        | _ => none
      else none
  | _ => none

def asWritten (o : OptionLine) : List Char :=
  ':' :: (o.name ++ ':' :: o.value)

def isBlankValue (o : OptionLine) : Bool :=
  o.value.all isBlank

/-- Names and values in order. A line with a blank value takes the next line for its value; as the
last one it has no value at all if nothing stands after its colon. -/
def pairs : List OptionLine → List (List Char × List Char)
  | [] => []
  | [o] => if o.value.isEmpty then [] else [(o.name, trim o.value)]
  | o :: next :: rest =>
      if o.isBlankValue then (o.name, trim next.asWritten) :: pairs rest
      else (o.name, trim o.value) :: pairs (next :: rest)

/-- Of several values for one name the last one counts. -/
def read (options : List OptionLine) : Keyed String :=
  (pairs options).foldl
    (fun all (name, value) => Keyed.put (String.ofList name) (String.ofList value) all) []

end OptionLine

/-! ## Segments -/

inductive Segment where
  | line (text : List Char)
  | directive (options : List OptionLine)
  deriving DecidableEq, Repr

/-- A directive whose lines are still being read. -/
structure OpenDirective where
  indent : List Char
  options : List OptionLine
  deriving DecidableEq, Repr

namespace OpenDirective

/-- The indentation of a line that opens a directive. -/
def indentOf? (line : List Char) : Option (List Char) := do
  let rest ← after? ":::".toList (line.dropWhile isIndent)
  let name ← if rest.head?.any isIndent then some (rest.dropWhile isIndent) else none
  let after ← after? "js:autodoc".toList name
  if after.all isBlank then some (line.takeWhile isIndent) else none

def ofLine? (line : List Char) : Option OpenDirective :=
  (indentOf? line).map (⟨·, []⟩)

/-- The directive with one more line, if it goes on. Blank lines belong to it only before its first
option. -/
def goOn? (line : List Char) (d : OpenDirective) : Option OpenDirective :=
  if d.options.isEmpty && line.all isBlank then some d
  else (OptionLine.ofLine? d.indent line).map fun o => { d with options := d.options ++ [o] }

end OpenDirective

namespace Segment

def close : Option OpenDirective → List Segment
  | none => []
  | some d => [.directive d.options]

def ofLinesFrom (current : Option OpenDirective) : List (List Char) → List Segment
  | [] => close current
  | text :: more =>
      match current.bind (OpenDirective.goOn? text) with
      | some d => ofLinesFrom (some d) more
      | none =>
          close current ++
            match OpenDirective.ofLine? text with
            | some d => ofLinesFrom (some d) more
            | none => .line text :: ofLinesFrom none more

def ofLines (ls : List (List Char)) : List Segment :=
  ofLinesFrom none ls

def ofPage (page : List Char) : List Segment × List Char :=
  let ls := lines page
  (ofLines ls.dropLast, ls.getLastD [])

end Segment
end ScriptDoc
