import ScriptDoc.Site
import ScriptDoc.Site.Directive
import ScriptDoc.Text.Lower

/-!
# Page — the text and the metadata of a page

A directive leaves a comment in the text and, if it names a file, a block with the entities of that
file in the metadata.

- `Site.block`            : what a directive adds to the metadata
- `Site.answer`           : one directive
- `Site.page`             : a whole page
- `Site.pageUnconfigured` : a page of a site without options
-/

namespace ScriptDoc
namespace Site

/-- The site has no options yet, or its key cannot be one, or there is something other than a list
under it. -/
inductive PageFault where
  | unconfigured
  | noKey
  | notAList
  deriving DecidableEq, Repr

structure PageRun where
  site : Site
  metadata : Metadata
  events : List Event
  text : Except PageFault (List Char)

/-! ## Metadata -/

def appendBlock (key : Option MetadataKey) (block : Value) (metadata : Metadata) :
    Except PageFault Metadata :=
  match key with
  | none => .error .noKey
  | some key =>
      match metadata.get? key with
      | none => .ok (metadata.put key (.list [block]))
      | some (.list blocks) => .ok (metadata.put key (.list (blocks ++ [block])))
      | some _ => .error .notAList

def block (file : String) (entities : List Entity) : Value :=
  .object [("file", .text file), ("entities", .list (entities.map Entity.toValue))]

/-! ## Directives -/

def trueWords : List String :=
  ["true", "yes", "1"]

/-- Whether a directive shows private entities: as its own option says, or else the site's. -/
def showsPrivate (config : Config) (options : Keyed String) : Bool :=
  match options.get? "private" with
  | some word => trueWords.contains (String.ofList (Text.lower word.toList))
  | none => config.includePrivate

def missingFileComment : List Char :=
  "<!-- dox: missing :file: for js:autodoc -->\n".toList

def fileComment (file : String) (count : Nat) : List Char :=
  ("<!-- dox: " ++ file ++ " (" ++ toString count ++ " entities) -->\n").toList

def answer (site : Site) (tree : FileTree) (metadata : Metadata) (options : Keyed String) :
    PageRun :=
  let file := (options.get? "file").getD ""
  if file.isEmpty then ⟨site, metadata, [], .ok missingFileComment⟩
  else
    let run := site.entitiesOf tree (site.resolve file)
    let shown :=
      if showsPrivate site.config options then run.entities
      else run.entities.filter (!·.isPrivate)
    match appendBlock site.config.metadataKey (block file shown) metadata with
    | .error fault => ⟨run.site, metadata, run.events, .error fault⟩
    | .ok metadata => ⟨run.site, metadata, run.events, .ok (fileComment file shown.length)⟩

/-- A directive before the site has options. No file can be read then, but one that is not there is
still reported. -/
def refuse (site : Site) (tree : FileTree) (metadata : Metadata) (options : Keyed String) :
    PageRun :=
  let file := (options.get? "file").getD ""
  if file.isEmpty then ⟨site, metadata, [], .ok missingFileComment⟩
  else
    let path := site.resolve file
    let events := if tree.isFile path.toList then [] else [.missing path]
    ⟨site, metadata, events, .error .unconfigured⟩

/-! ## Pages -/

def PageRun.before (text : List Char) (run : PageRun) : PageRun :=
  { run with text := run.text.map (text ++ ·) }

/-- The segments of a page and its last line, with `reply` for each directive. A fault ends the page;
what was kept and added before it stays. -/
def segments (reply : Site → Metadata → Keyed String → PageRun) (site : Site)
    (metadata : Metadata) (last : List Char) : List Segment → PageRun
  | [] => ⟨site, metadata, [], .ok last⟩
  | .line text :: rest => (segments reply site metadata last rest).before (text ++ ['\n'])
  | .directive options :: rest =>
      let run := reply site metadata (OptionLine.read options)
      match run.text with
      | .error _ => run
      | .ok text =>
          let more := segments reply run.site run.metadata last rest
          ({ more with events := run.events ++ more.events }).before text

def pageWith (reply : Site → Metadata → Keyed String → PageRun) (site : Site)
    (metadata : Metadata) (markdown : String) : PageRun :=
  let (parts, last) := Segment.ofPage markdown.toList
  segments reply site metadata last parts

def page (site : Site) (tree : FileTree) (metadata : Metadata) (markdown : String) : PageRun :=
  pageWith (fun site metadata options => site.answer tree metadata options) site metadata markdown

def pageUnconfigured (site : Site) (tree : FileTree) (metadata : Metadata) (markdown : String) :
    PageRun :=
  pageWith (fun site metadata options => site.refuse tree metadata options) site metadata markdown

end Site
end ScriptDoc
