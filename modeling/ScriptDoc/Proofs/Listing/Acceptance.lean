import ScriptDoc.Listing
import ScriptDoc.Proofs.Context.Naming
import ScriptDoc.Proofs.Record.Reading
import ScriptDoc.Proofs.Tag.Parts

/-!
# Acceptance — what is read from a source is accepted

- `Comment.isSound_of_ofSource` : all comments of a source are sound
- `Record.readAll_ofComment`    : sound comments are accepted as records
- `Listing.exists_message_of_ofSource` : there are words for every refusal of a source
- `Listing.ofSource_accepted`   : only a tag that cannot be read refuses a source
-/

namespace ScriptDoc

/-! ## Comments -/

namespace Comment

theorem isSound_of_parse {raw : Bool} {line : Int} {code body : List Char} {c : Comment}
    (h : parse raw line code body = .ok c) : c.IsSound := by
  simp only [parse] at h
  split at h
  · cases h
  · next tags htags =>
    cases h
    constructor
    · intro tag htag
      rcases Outcome.exists_of_mem_mapM htags htag with ⟨⟨word, text⟩, -, hparsed⟩
      exact Tag.name_ne_empty_of_parse hparsed
    · intro context hcontext
      exact Context.name_ne_empty_of_ofCode? hcontext

theorem isSound_of_ofBlock {raw : Bool} {b : Block} {c : Comment}
    (h : ofBlock raw b = .ok c) : c.IsSound := by
  unfold ofBlock at h
  split at h
  · -- An ignored comment has neither tags nor a context.
    cases h
    constructor
    · intro tag htag
      cases htag
    · intro context hcontext
      cases hcontext
  · exact isSound_of_parse h

theorem isSound_of_ofSource {options : SourceOptions} {source : String} {all : List Comment}
    (h : ofSource options source = .ok all) : ∀ c ∈ all, c.IsSound := by
  intro c hc
  rcases Outcome.exists_of_mem_mapM h hc with ⟨b, -, hb⟩
  exact isSound_of_ofBlock hb

end Comment

/-! ## Records -/

theorem Record.check_ofComment {c : Comment} (h : c.IsSound) : (ofComment c).check = .ok c :=
  Draft.check_ofComment_iff.2 ⟨h, rfl⟩

/-- Of sound comments handed over as records all but the ignored ones are accepted. -/
theorem Record.readAll_ofComment {all : List Comment} (h : ∀ c ∈ all, c.IsSound) :
    readAll (all.map ofComment) = .ok (all.filter (!·.isIgnored)) := by
  unfold readAll
  rw [filter_map_ofComment, Outcome.mapM_eq_ok_iff, List.forall₂_map_left_iff, List.forall₂_same]
  intro c hc
  have hsound : c.IsSound := h c (List.mem_filter.1 hc).1
  exact Outcome.mapError_eq_ok_iff.2 (Draft.check_ofComment_iff.2 ⟨hsound, rfl⟩)

/-! ## Sources -/

namespace Listing

theorem ofSource_of_ok {options : SourceOptions} {source : String} {all : List Comment}
    (h : Comment.ofSource options source = .ok all) (filename : String) :
    ofSource options filename source =
      .ok (ofComments filename (all.filter (!·.isIgnored))) := by
  have hread := Record.readAll_ofComment (Comment.isSound_of_ofSource h)
  simp [ofSource, ofReader, readSource, ofRecords, h, hread, Except.map, Except.mapError]

theorem ofSource_of_error {options : SourceOptions} {source : String} {fault : TagFault}
    (h : Comment.ofSource options source = .error fault) (filename : String) :
    ofSource options filename source = .error (.tag fault) := by
  simp [ofSource, ofReader, readSource, h]

/-- Where a source is refused, there are words for the reason. -/
theorem exists_message_of_ofSource {options : SourceOptions} {filename source : String}
    {fault : ListingFault} (h : ofSource options filename source = .error fault) :
    ∃ text, fault.message? = some text := by
  cases hall : Comment.ofSource options source with
  | ok all =>
      cases (ofSource_of_ok hall filename).symm.trans h
  | error fault' =>
      cases (ofSource_of_error hall filename).symm.trans h
      exact ⟨fault'.message, rfl⟩

/-- A source is refused for a tag only, never for the shape of a comment. -/
theorem ofSource_accepted (options : SourceOptions) (filename source : String) :
    (∀ all, Comment.ofSource options source = .ok all →
        ∀ c ∈ all, c.isIgnored = false → (Record.ofComment c).check = .ok c) ∧
      ((∃ listing, ofSource options filename source = .ok listing) ∨
        ∃ fault, Comment.ofSource options source = .error fault ∧
          ofSource options filename source = .error (.tag fault)) := by
  constructor
  · intro all hall c hc _
    exact Record.check_ofComment (Comment.isSound_of_ofSource hall c hc)
  · cases hall : Comment.ofSource options source with
    | ok all =>
        exact Or.inl ⟨_, ofSource_of_ok hall filename⟩
    | error fault =>
        exact Or.inr ⟨fault, rfl, ofSource_of_error hall filename⟩

/-- An alias, a name in brackets and a property before a prototype method, and a comment that is
left out. -/
def namedSource : String :=
  "/** Adds.\n * @arg \x7bnumber\x7d [n=1] - how much\n * @prop p\n */\n" ++
    "A.prototype.add = x => x\n/*! no */\n"

theorem ofSource_accepted_namedSource :
    ∃ all c, Comment.ofSource {} namedSource = .ok all ∧ c ∈ all ∧ c.isIgnored = false ∧
      (Record.ofComment c).check = .ok c ∧
        ((∃ listing, ofSource {} "a.js" namedSource = .ok listing) ∨
          ∃ fault, Comment.ofSource {} namedSource = .error fault ∧
            ofSource {} "a.js" namedSource = .error (.tag fault)) := by
  have hread : ((Comment.ofSource {} namedSource).toOption.bind List.head?).any
      (fun c => !c.isIgnored) = true := by
    decide +kernel
  cases hall : Comment.ofSource {} namedSource with
  | error fault =>
      rw [hall] at hread
      cases hread
  | ok all =>
      rw [hall] at hread
      cases all with
      | nil =>
          cases hread
      | cons c others =>
          have hfirst : (!c.isIgnored) = true := hread
          have hkept : c.isIgnored = false := by simpa using hfirst
          have haccepted := ofSource_accepted {} "a.js" namedSource
          rw [hall] at haccepted
          exact ⟨_, c, rfl, List.mem_cons_self, hkept,
            haccepted.1 _ rfl c List.mem_cons_self hkept, haccepted.2⟩

end Listing
end ScriptDoc
