import ScriptDoc.Keyed
import ScriptDoc.Path
import ScriptDoc.Text.Utf8

/-!
# FileTree — files and directories

- `FileTree`          : what is stored at which place, and where relative paths start
- `FileTree.find`     : what a path leads to; every directory on the way must be there
- `FileTree.write`    : a file stored, with the directories that lead to it
- `FileTree.remove`   : a file taken away; its directory stays
- `FileTree.readText` : a file as text
-/

namespace ScriptDoc

inductive FileFault where
  | notFound
  | isDirectory
  | notDirectory
  | badPath
  | nameTooLong
  deriving DecidableEq, Repr

inductive Node where
  | directory
  | file (bytes : List UInt8)
  deriving DecidableEq, Repr

/-- A place is the list of names that leads to it from the root. -/
abbrev Place := List (List Char)

structure FileTree where
  nodes : List (Place × Node)
  cwd : Place
  deriving DecidableEq, Repr

namespace FileTree

open Text

def node? (tree : FileTree) (place : Place) : Option Node :=
  if place.isEmpty then some .directory
  else (tree.nodes.find? (·.1 = place)).map (·.2)

def put (tree : FileTree) (place : Place) (node : Node) : FileTree :=
  { tree with nodes := (place, node) :: tree.nodes.filter (·.1 ≠ place) }

/-- The directories above a place, from the top. -/
def putParents (tree : FileTree) (place : Place) : FileTree :=
  (List.range place.length).foldl
    (fun tree n =>
      match tree.node? (place.take n) with
      | some _ => tree
      | none => tree.put (place.take n) .directory)
    tree

/-- A tree with one directory and those above it. -/
def empty (cwd : Place) : FileTree :=
  (putParents ⟨[], cwd⟩ cwd).put cwd .directory

/-! ## Look-up -/

/-- A name has at most this many bytes. -/
def maxName : Nat := 255

/-- A path has at most this many bytes. -/
def maxPath : Nat := 4095

def byteCount (s : List Char) : Nat :=
  s.foldl (fun n c => n + c.utf8Size) 0

/-- Names are followed one by one. An empty name and `.` stay, `..` goes up, and all three ask for a
directory to be in. -/
def walk (tree : FileTree) : Place → Node → List (List Char) → Except FileFault Node
  | _, node, [] => .ok node
  | _, .file _, _ :: _ => .error .notDirectory
  | place, .directory, name :: rest =>
      if name.isEmpty || name = Path.here then tree.walk place .directory rest
      else if name = Path.up then tree.walk place.dropLast .directory rest
      else if maxName < byteCount name then .error .nameTooLong
      else
        match tree.node? (place ++ [name]) with
        | some node => tree.walk (place ++ [name]) node rest
        | none => .error .notFound

def find (tree : FileTree) (path : List Char) : Except FileFault Node :=
  if path.contains '\x00' then .error .badPath
  else if path.isEmpty then .error .notFound
  else if maxPath < byteCount path then .error .nameTooLong
  else
    let start := if Path.isAbsolute path then [] else tree.cwd
    tree.walk start .directory (splitOn '/' path)

def isFile (tree : FileTree) (path : List Char) : Bool :=
  match tree.find path with
  | .ok (.file _) => true
  | _ => false

/-! ## Changes -/

def cwdPath (tree : FileTree) : List Char :=
  '/' :: join ['/'] tree.cwd

/-- The place of a path that is not looked up. -/
def placeOf (tree : FileTree) (path : List Char) : Place :=
  Path.parts (Path.absolute tree.cwdPath path)

def write (tree : FileTree) (path : List Char) (bytes : List UInt8) : FileTree :=
  let place := tree.placeOf path
  (tree.putParents place).put place (.file bytes)

def remove (tree : FileTree) (path : List Char) : FileTree :=
  { tree with nodes := tree.nodes.filter (·.1 ≠ tree.placeOf path) }

/-! ## Contents -/

def read (tree : FileTree) (path : List Char) : Except FileFault (List UInt8) :=
  match tree.find path with
  | .ok (.file bytes) => .ok bytes
  | .ok .directory => .error .isDirectory
  | .error fault => .error fault

/-- Every kind of line end is read as a line feed. -/
def textOf (bytes : List UInt8) : String :=
  String.ofList (foldLineEnds (Utf8.decode bytes))

def readText (tree : FileTree) (path : List Char) : Except FileFault String :=
  (tree.read path).map textOf

end FileTree
end ScriptDoc
