import ScriptDoc.Text.Lines

/-!
# Path — paths with slashes

- `Path.isAbsolute`     : whether a path starts at the root
- `Path.parts`          : the names in a path, without empty ones
- `Path.normalize`      : the shortest spelling that can be had without looking at files
- `Path.append`         : a path taken from another one
- `Path.parent`         : the part before the last slash
- `Path.relative`       : the way from one path to another
-/

namespace ScriptDoc
namespace Path

open Text

def isAbsolute : List Char → Bool
  | '/' :: _ => true
  | _ => false

def parts (path : List Char) : List (List Char) :=
  (splitOn '/' path).filter (!·.isEmpty)

/-- Two slashes at the start are kept, one and more than two count as one. -/
def rootMark : List Char → List Char
  | '/' :: '/' :: '/' :: _ => ['/']
  | '/' :: '/' :: _ => ['/', '/']
  | '/' :: _ => ['/']
  | _ => []

def here : List Char := ['.']
def up : List Char := ['.', '.']

/-- The names of a path read one by one; `done` holds those kept so far, the last one first. A step
up takes back a name, stays where there is none to take back, and goes nowhere at the root. -/
def collapse (fromRoot : Bool) (done : List (List Char)) : List (List Char) → List (List Char)
  | [] => done.reverse
  | name :: rest =>
      if name = here then collapse fromRoot done rest
      else if name = up then
        match done with
        | [] => collapse fromRoot (if fromRoot then [] else [up]) rest
        | last :: before =>
            if last = up then collapse fromRoot (up :: done) rest
            else collapse fromRoot before rest
      else collapse fromRoot (name :: done) rest

def normalize (path : List Char) : List Char :=
  let spelled := rootMark path ++ join ['/'] (collapse (isAbsolute path) [] (parts path))
  if spelled.isEmpty then here else spelled

def append (base path : List Char) : List Char :=
  if isAbsolute path then path
  else if base.isEmpty || base.getLast? = some '/' then base ++ path
  else base ++ '/' :: path

/-- Slashes at the end of the parent are dropped, unless it is made of slashes only. -/
def parent (path : List Char) : List Char :=
  let head := (path.reverse.dropWhile (· != '/')).reverse
  if head.all (· == '/') then head else (head.reverse.dropWhile (· == '/')).reverse

/-- A path as seen from the root, where `cwd` is the directory that relative paths start from. -/
def absolute (cwd path : List Char) : List Char :=
  normalize (append cwd path)

/-- What is left of two lists after their common beginning. -/
def afterCommon : List (List Char) → List (List Char) → List (List Char) × List (List Char)
  | a :: as, b :: bs => if a = b then afterCommon as bs else (a :: as, b :: bs)
  | as, bs => (as, bs)

def relative (cwd start path : List Char) : List Char :=
  let (back, forth) :=
    afterCommon (parts (absolute cwd start)) (parts (absolute cwd path))
  let steps := back.map (fun _ => up) ++ forth
  if steps.isEmpty then here else join ['/'] steps

end Path
end ScriptDoc
