import ScriptDoc.FileTree
import ScriptDoc.Listing
import ScriptDoc.Workers

/-!
# Batch — several source files at once

Files do not see each other: each has an outcome of its own.

- `Batch.outcome` : what one file gives
- `Batch.run`     : what each of several files gives, given someone to work on them
-/

namespace ScriptDoc

inductive SourceFault where
  | file (fault : FileFault)
  | listing (fault : ListingFault)

namespace Batch

abbrev Outcome := Except SourceFault Listing

/-- A file goes by its own path unless another name is given for it. -/
def nameFor (names : Keyed String) (path : String) : String :=
  (names.get? path).getD path

def outcome (tree : FileTree) (options : SourceOptions) (name path : String) : Outcome :=
  match tree.readText path.toList with
  | .error fault => .error (.file fault)
  | .ok source => (Listing.ofSource options name source).mapError SourceFault.listing

def outcomes (tree : FileTree) (options : SourceOptions) (names : Keyed String)
    (paths : List String) : Keyed Outcome :=
  paths.foldl (fun all path => Keyed.put path (outcome tree options (nameFor names path) path) all)
    []

def run (tree : FileTree) (options : SourceOptions) (names : Keyed String) (workers : Workers)
    (paths : List String) : Except Workers.Fault (Keyed Outcome) :=
  match workers.fault? with
  | some fault => .error fault
  | none => .ok (outcomes tree options names paths)

end Batch
end ScriptDoc
