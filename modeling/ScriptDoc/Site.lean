import ScriptDoc.Batch
import ScriptDoc.Site.Config

/-!
# Site — the state that pages are made in

- `Site`            : options, the directory of the sources, and the entities of files read so far
- `Site.resolve`    : the path of a source file
- `Site.nameOf`     : the name under which its anchors are made
- `Site.entitiesOf` : the entities of a file, read at most once
- `Site.start`      : a new start, with the listed sources read in advance
-/

namespace ScriptDoc

structure Site where
  config : Config := {}
  root : String := ""
  cache : Keyed (List Entity) := []

namespace Site

def resolve (site : Site) (path : String) : String :=
  String.ofList (Path.normalize (Path.append site.root.toList path.toList))

def nameOf (site : Site) (tree : FileTree) (path : String) : String :=
  String.ofList (Path.relative tree.cwdPath site.root.toList path.toList)

def store (site : Site) (path : String) (entities : List Entity) : Site :=
  { site with cache := Keyed.put path entities site.cache }

/-! ## Reading files -/

structure FileRun where
  site : Site
  entities : List Entity
  events : List Event

/-- A file with a fault is kept as a file without entities. -/
def keepListing (site : Site) (path : String) : Except ListingFault Listing → FileRun
  | .ok listing => ⟨site.store path listing.entities, listing.entities, listing.events⟩
  | .error fault =>
      ⟨site.store path [], [], (fault.message?.map (Event.unreadable path)).toList⟩

/-- A file that is not there is not kept. -/
def entitiesOf (site : Site) (tree : FileTree) (path : String) : FileRun :=
  match site.cache.get? path with
  | some entities => ⟨site, entities, []⟩
  | none =>
      match tree.readText path.toList with
      | .error _ => ⟨site, [], [.missing path]⟩
      | .ok source =>
          site.keepListing path
            (Listing.ofSource site.config.sourceOptions (site.nameOf tree path) source)

/-! ## Starting -/

/-- Where the file with the site's options is, if that is known. -/
inductive ConfigFile where
  | unknown
  | invalid
  | at (path : String)
  deriving DecidableEq, Repr

inductive StartFault where
  | unconfigured
  | configFile
  | sourceRoot
  | sources
  | workers (fault : Workers.Fault)
  deriving DecidableEq, Repr

structure StartRun where
  site : Site
  events : List Event
  fault : Option StartFault

def ConfigFile.directory? (file : ConfigFile) (cwd : List Char) : Option (List Char) :=
  match file with
  | .invalid => none
  | .unknown => some cwd
  | .at path =>
      let dir := Path.parent path.toList
      some (if dir.isEmpty then cwd else dir)

/-- The directory of the sources: absolute, or taken from the directory of the options, or that
directory itself. -/
def rootAt (directory : List Char) (sourceRoot : String) : String :=
  let root := sourceRoot.toList
  if root.isEmpty then String.ofList directory
  else if Path.isAbsolute root then sourceRoot
  else String.ofList (Path.normalize (Path.append directory root))

def entityCount (cache : Keyed (List Entity)) : Nat :=
  cache.foldl (fun count (_, entities) => count + entities.length) 0

/-- The outcomes of a batch, kept one after the other. -/
def keepAll (site : Site) : Keyed Batch.Outcome → Site × List Event
  | [] => (site, [])
  | (_, .error (.file _)) :: rest => site.keepAll rest
  | (path, .error (.listing fault)) :: rest =>
      let run := site.keepListing path (.error fault)
      let (site, events) := run.site.keepAll rest
      (site, run.events ++ events)
  | (path, .ok listing) :: rest =>
      let run := site.keepListing path (.ok listing)
      let (site, events) := run.site.keepAll rest
      (site, run.events ++ events)

/-- Sources that are not files are reported and left out. -/
def warmFrom (site : Site) (tree : FileTree) (sources : List String) : StartRun :=
  let paths := sources.map site.resolve
  let missing := paths.filter fun path => !tree.isFile path.toList
  let present := paths.filter fun path => tree.isFile path.toList
  let reports := missing.map Event.missing
  if present.isEmpty then ⟨site, reports, none⟩
  else
    let names := present.map fun path => (path, site.nameOf tree path)
    match Batch.run tree site.config.sourceOptions names site.config.workers present with
    | .error fault => ⟨site, reports, some (.workers fault)⟩
    | .ok outcomes =>
        let (site, events) := site.keepAll outcomes
        let summary := Event.warmed present.length (entityCount site.cache)
        ⟨site, reports ++ events ++ [summary], none⟩

def warm (site : Site) (tree : FileTree) : StartRun :=
  match site.config.sources with
  | none => ⟨site, [], some .sources⟩
  | some sources => site.warmFrom tree sources

/-- A start that finds no directory for the sources changes nothing. -/
def start (site : Site) (tree : FileTree) (file : ConfigFile) : StartRun :=
  match file.directory? tree.cwdPath, site.config.sourceRoot with
  | none, _ => ⟨site, [], some .configFile⟩
  | some _, none => ⟨site, [], some .sourceRoot⟩
  | some directory, some sourceRoot =>
      warm { site with root := rootAt directory sourceRoot, cache := [] } tree

end Site
end ScriptDoc
