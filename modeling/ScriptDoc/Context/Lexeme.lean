import ScriptDoc.Text.Blank
import ScriptDoc.Text.Lines
import ScriptDoc.Text.Replace
import ScriptDoc.Text.Word

/-!
# Lexeme — small readers for the start of a line of code

Each reader takes what it looks for off the start of a text and gives the rest.

- `word?`, `keyword?`   : fixed characters, and the same with blanks after them
- `identifier?`         : as many identifier characters as there are
- `path?`               : identifiers with dots between them
- `optionally`          : go on after something, or without it if that leads nowhere
- `assigned?`           : an equals sign
- `isFunctionValue`     : whether an expression starts like a function
-/

namespace ScriptDoc
namespace Lexeme

open Text

def word? (word : String) (s : List Char) : Option (List Char) :=
  after? word.toList s

def blanks? : List Char → Option (List Char)
  | c :: s => if isBlank c then some (trimStart s) else none
  | [] => none

def keyword? (word : String) (s : List Char) : Option (List Char) :=
  (word? word s).bind blanks?

def identifier? (s : List Char) : Option (List Char × List Char) :=
  match s.takeWhile isIdent with
  | [] => none
  | name => some (name, s.dropWhile isIdent)

def isPathChar (c : Char) : Bool :=
  isIdent c || c == '.'

def path? (s : List Char) : Option (List (List Char) × List Char) :=
  let names := splitOn '.' (s.takeWhile isPathChar)
  if names.any (·.isEmpty) then none else some (names, s.dropWhile isPathChar)

def optionally {α : Type} (part : List Char → Option (List Char))
    (next : List Char → Option α) (s : List Char) : Option α :=
  ((part s).bind next).or (next s)

/-- What follows an equals sign, with blanks before it allowed. -/
def assigned? (s : List Char) : Option (List Char) :=
  word? "=" (trimStart s)

/-- Parentheses with anything but a closing one inside. -/
def parameters? : List Char → Option (List Char)
  | '(' :: s =>
      match s.dropWhile (· != ')') with
      | ')' :: rest => some rest
      | _ => none
  | _ => none

/-! ## Function values -/

def isArrow (s : List Char) : Bool :=
  (word? "=>" (trimStart s)).isSome

def isFunctionWord (s : List Char) : Bool :=
  match word? "function" s with
  | some (c :: _) => !isWord c
  | some [] => true
  | none => false

def isPlainFunctionValue (s : List Char) : Bool :=
  isFunctionWord s ||
    (match parameters? s with
      | some rest => isArrow rest
      | none => false) ||
    (match identifier? s with
      | some (_, rest) => isArrow rest
      | none => false)

def isFunctionValue (s : List Char) : Bool :=
  (match keyword? "async" s with
    | some rest => isPlainFunctionValue rest
    | none => false) || isPlainFunctionValue s

/-- Whether a function is assigned. -/
def assignsFunction (s : List Char) : Bool :=
  match assigned? s with
  | some value => isFunctionValue (trimStart value)
  | none => false

/-- Whether anything is assigned, as opposed to compared. -/
def assignsValue (s : List Char) : Bool :=
  match assigned? s with
  | some value => value.head? != some '='
  | none => false

end Lexeme
end ScriptDoc
