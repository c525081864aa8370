import ScriptDoc.Site.Session
import ScriptDoc.Proofs.Outcome
import ScriptDoc.Proofs.Record.Reading
import ScriptDoc.Proofs.Entity.Shown
import ScriptDoc.Proofs.Link.Declared
import ScriptDoc.Proofs.Link.Markup
import ScriptDoc.Proofs.Listing.Links
import ScriptDoc.Proofs.Listing.Integrity
import ScriptDoc.Proofs.Comment.Scan
import ScriptDoc.Proofs.Entity.Arrangement
import ScriptDoc.Proofs.Listing.SourceOrder
import ScriptDoc.Proofs.Comment.Delimited
import ScriptDoc.Proofs.Comment.Seam
import ScriptDoc.Proofs.Context.Naming
import ScriptDoc.Proofs.Listing.Acceptance
import ScriptDoc.Proofs.Listing.Refusal
import ScriptDoc.Proofs.Comment.Escaping
import ScriptDoc.Proofs.Listing.Escaping
import ScriptDoc.Proofs.Comment.Sections
import ScriptDoc.Proofs.Comment.Written
import ScriptDoc.Proofs.Batch.Outcomes
import ScriptDoc.Proofs.Batch.Isolation
import ScriptDoc.Proofs.Site.Lookup
import ScriptDoc.Proofs.Site.Start
import ScriptDoc.Proofs.Site.Answer
import ScriptDoc.Proofs.Site.View
import ScriptDoc.Proofs.Site.Independence
import ScriptDoc.Proofs.Site.Requests
import ScriptDoc.Proofs.Site.History
import ScriptDoc.Proofs.Record.Documents
import ScriptDoc.Proofs.Page.OptionLines
import ScriptDoc.Proofs.Page.Passages
import ScriptDoc.Proofs.Page.Replies
import ScriptDoc.Proofs.Page.Commented
import ScriptDoc.Proofs.Page.HeardLines
import ScriptDoc.Proofs.Page.KeptLines
import ScriptDoc.Proofs.Page.LastLine
import ScriptDoc.Proofs.Signature.Layout
import ScriptDoc.Proofs.Signature.Brackets
import ScriptDoc.Proofs.Signature.Selection
import ScriptDoc.Proofs.Page.OwnLines
import ScriptDoc.Proofs.Page.PublicLinks
import ScriptDoc.Proofs.Anchor.Runs
import ScriptDoc.Proofs.Link.References
import ScriptDoc.Proofs.Name.Placements
import ScriptDoc.Proofs.Entity.Ordering
import ScriptDoc.Proofs.Tag.Unions
import ScriptDoc.Proofs.Tag.Parameters
import ScriptDoc.Proofs.Comment.Faults
import ScriptDoc.Proofs.Context.Declarations
import ScriptDoc.Proofs.Site.FileNames
import ScriptDoc.Proofs.Site.Starting
import ScriptDoc.Proofs.Number.Numerals
import ScriptDoc.Proofs.Record.Shapes
import ScriptDoc.Proofs.Page.Failures
import ScriptDoc.Proofs.Page.Blocks
