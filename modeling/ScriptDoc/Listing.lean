import ScriptDoc.Comment.Block
import ScriptDoc.Entity.Order
import ScriptDoc.Event
import ScriptDoc.Record

/-!
# Listing — the entities of one source file

- `Link.Index.ofComments`  : where the callbacks and type definitions of a file are declared
- `Listing`                : entities in order, with what is reported on the way
- `Listing.ofComments`     : the listing of comments that passed all checks
- `Listing.ofRecords`      : the listing of records of any shape
- `Listing.ofSource`       : the listing of a source text
-/

namespace ScriptDoc

/-- The name under which a type can refer to a declaring tag. -/
def Tag.linkName (tag : Tag) : String :=
  Name.withoutMarker (Name.display tag.word tag.text)

/-- A later declaration of a name takes the place of an earlier one. -/
def Link.Index.ofComments (filename : String) (comments : List Comment) : Link.Index :=
  (comments.filterMap Comment.declaring?).foldl
    (fun index tag => Keyed.put tag.linkName (Anchor.within filename tag.text) index) []

inductive ListingFault where
  | tag (fault : TagFault)
  | record (fault : RecordFault)

namespace ListingFault

/-- For a line that cannot be read there are no words here: they are those of the number reader. -/
def message? : ListingFault → Option String
  | .tag fault => some fault.message
  | .record (.shape fault) => some fault.message
  | .record .lineText | .record .lineKind => none

end ListingFault

structure Listing where
  entities : List Entity
  events : List Event
  deriving DecidableEq, Repr

namespace Listing

def ofComments (filename : String) (comments : List Comment) : Listing :=
  let index := Link.Index.ofComments filename comments
  let entities := Entity.assemble (comments.map (Entity.ofComment? filename index))
  { entities := entities
    events :=
      [.linkables filename index.length,
        .documented filename entities.length comments.length] }

/-- One bad record refuses the whole file. -/
def ofRecords (filename : String) (records : List Record) : Except RecordFault Listing :=
  (Record.readAll records).map (ofComments filename)

/-- A reader of source texts gives the records of all comments. -/
abbrev Reader := SourceOptions → String → Except ListingFault (List Record)

def readSource : Reader := fun options source =>
  match Comment.ofSource options source with
  | .ok comments => .ok (comments.map Record.ofComment)
  | .error fault => .error (.tag fault)

def ofReader (reader : Reader) (options : SourceOptions) (filename source : String) :
    Except ListingFault Listing :=
  match reader options source with
  | .ok records => (ofRecords filename records).mapError ListingFault.record
  | .error fault => .error fault

def ofSource (options : SourceOptions) (filename source : String) : Except ListingFault Listing :=
  ofReader readSource options filename source

end Listing
end ScriptDoc
