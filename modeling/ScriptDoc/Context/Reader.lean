import ScriptDoc.Context
import ScriptDoc.Context.Lexeme

/-!
# Reader — the context a line of code gives to the comment before it

The forms of declaration are tried in order; each is a reader of its own. Where modifiers may stand
before a form, its head is what follows them.

- `functionDeclaration?`, `classDeclaration?` : `function f(`, `class C`
- `memberAssignment?`                         : `A.prototype = …`, `a.b.c = …`
- `variableDeclaration?`, `functionAssignment?`          : `var x = …`, `f = function …`
- `propertyFunction?`, `property?`            : `f: function …`, `p: …`
- `shorthand?`                                : `f(…) {`
- `Context.ofCode?`                           : the first of them that applies
-/

namespace ScriptDoc
namespace Context

open Text Lexeme

def plain (kind : String) (name : List Char) : Context :=
  ⟨kind, String.ofList name⟩

def called (kind : String) (name : List Char) : Context :=
  ⟨kind, String.ofList (name ++ ['(', ')'])⟩

/-! ## Declarations with a keyword -/

/-- The name of a function, after its word and the star. -/
def namedFunction? (s : List Char) : Option Context := do
  let (name, rest) ← identifier? (trimStart s)
  let _ ← word? "(" (trimStart rest)
  pure (called "function" name)

/-- What is read after the modifiers of a function. -/
def functionHead? (s : List Char) : Option Context := do
  let rest ← word? "function" s
  optionally (word? "*") namedFunction? (trimStart rest)

def functionDeclaration? : List Char → Option Context :=
  optionally (keyword? "export") <| optionally (keyword? "default") <|
    optionally (keyword? "async") functionHead?

def classHead? (s : List Char) : Option Context := do
  let rest ← keyword? "class" s
  let (name, _) ← identifier? rest
  pure (plain "class" name)

def classDeclaration? : List Char → Option Context :=
  optionally (keyword? "export") <| optionally (keyword? "default") classHead?

def variableKeyword? (s : List Char) : Option (List Char) :=
  (keyword? "var" s).or ((keyword? "let" s).or (keyword? "const" s))

def variableHead? (s : List Char) : Option Context := do
  let rest ← variableKeyword? s
  let (name, rest) ← identifier? rest
  pure (if assignsFunction rest then called "function" name else plain "declaration" name)

def variableDeclaration? : List Char → Option Context :=
  optionally (keyword? "export") variableHead?

/-! ## Assignments -/

/-- What an assignment to a member declares. -/
def member? (path rest : List Char) : Option Context :=
  if assignsFunction rest then some (called "method" path)
  else if assignsValue rest then some (plain "property" path)
  else none

/-- A prototype as a whole, a method or a property. -/
def memberAssignment? (s : List Char) : Option Context := do
  let (names, rest) ← path? s
  let path := join ['.'] names
  match names with
  | [_] => none
  | [_, last] =>
      if last = "prototype".toList && assignsValue rest then pure (plain "prototype" path)
      else member? path rest
  | _ => member? path rest

def functionAssignment? (s : List Char) : Option Context := do
  let (name, rest) ← identifier? s
  if assignsFunction rest then pure (called "function" name) else none

/-! ## Members of an object or a class -/

def propertyFunction? : List Char → Option Context :=
  optionally (keyword? "async") fun s => do
    let (name, rest) ← identifier? s
    let value ← word? ":" (trimStart rest)
    if isFunctionValue (trimStart value) then pure (called "method" name) else none

def property? (s : List Char) : Option Context := do
  let (name, rest) ← identifier? s
  let _ ← word? ":" (trimStart rest)
  pure (plain "property" name)

/-- Words that look like the name of a method before a parenthesis but are none. -/
def controlWords : List String :=
  ["if", "for", "while", "switch", "catch", "function", "return", "with"]

/-- What is read after the modifiers of a method. -/
def shorthandHead? (s : List Char) : Option (List Char) := do
  let (name, rest) ← identifier? s
  let rest ← parameters? (trimStart rest)
  let _ ← word? "\x7b" (trimStart rest)
  pure name

/-- A method with a star, and then with the modifiers that may stand before it. -/
def starredName? : List Char → Option (List Char) :=
  optionally (word? "*") shorthandHead?

def accessedName? : List Char → Option (List Char) :=
  optionally (fun s => (keyword? "get" s).or (keyword? "set" s)) starredName?

def asynchronousName? : List Char → Option (List Char) :=
  optionally (keyword? "async") accessedName?

def shorthandName? : List Char → Option (List Char) :=
  optionally (keyword? "static") asynchronousName?

def shorthand? (s : List Char) : Option Context := do
  let name ← shorthandName? s
  if controlWords.contains (String.ofList name) then none else pure (called "method" name)

/-! ## All forms -/

def forms : List (List Char → Option Context) :=
  [functionDeclaration?, classDeclaration?, memberAssignment?, variableDeclaration?,
    functionAssignment?, propertyFunction?, property?, shorthand?]

def ofCode? (code : List Char) : Option Context :=
  forms.findSome? (· (trim code))

end Context
end ScriptDoc
