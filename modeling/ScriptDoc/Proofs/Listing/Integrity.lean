import ScriptDoc.Proofs.Listing.Links

/-!
# Integrity — links that lead somewhere

A link leads to the anchor of the text that declares a name. The entity of a comment that stands
before code has the anchor of its context instead.

- `Listing.LinksIntact`     : every link leads to an entity of the same listing
- `Listing.linksIntact_iff` : the declarations that types refer to decide whether that is so
-/

namespace ScriptDoc

open Text

namespace Listing

/-- An anchor cannot hold a quotation mark, so the one of a link ends where the first stands. -/
def LinksIntact (listing : Listing) : Prop :=
  ∀ e ∈ listing.entities, ∀ shown ∈ e.tags.shownTypes, ∀ uid name, doubleMark ∉ uid.toList →
    shown = Link.anchored uid name → ∃ target ∈ listing.entities, target.uid = uid

/-- A declaration that stands before no code carries its own anchor; that of another one is
carried by chance, when the own name of some comment gives the same anchor. -/
def CarriesAnchor (filename : String) (comments : List Comment) (d : Declaration) : Prop :=
  d.comment.context = none ∨ ∃ c ∈ comments, ∃ name, c.ownName? = some name ∧
    Anchor.within filename name = Anchor.within filename d.tag.text

theorem carriesAnchor_iff {filename : String} {comments : List Comment} {d : Declaration}
    (hmem : d ∈ Declaration.all comments) :
    CarriesAnchor filename comments d ↔
      ∃ e ∈ (ofComments filename comments).entities, e.uid = Anchor.within filename d.tag.text := by
  rw [exists_uid_eq_iff]
  constructor
  · rintro (hcontext | hother)
    · rcases Declaration.mem_all.1 hmem with ⟨hc, htag⟩
      exact ⟨d.comment, hc, d.tag.text, Comment.ownName?_of_declaring? htag hcontext, rfl⟩
    · exact hother
  · exact Or.inr

/-- The links of one entity, read off its comment: each type text is linked to the last declaration of
its name. -/
theorem exists_link_iff {filename uid : String} {comments : List Comment} {c : Comment} {e : Entity}
    (hquote : doubleMark ∉ uid.toList)
    (hentity : Entity.ofComment? filename (Link.Index.ofComments filename comments) c = some e) :
    (∃ shown ∈ e.tags.shownTypes, ∃ name, shown = Link.anchored uid name) ↔
      ∃ t ∈ c.typeTexts, ∃ d, Declaration.last? comments (Name.bare t) = some d ∧
        Anchor.within filename d.tag.text = uid := by
  constructor
  · rintro ⟨shown, hmem, name, rfl⟩
    rcases (Entity.mem_shownTypes hentity).1 hmem with ⟨t, ht, hresolve⟩
    rw [Link.resolve_ofComments] at hresolve
    rcases (Link.inFile_eq_anchored_iff hquote).1 hresolve with ⟨-, d, hd, huid⟩
    exact ⟨t, ht, d, hd, huid⟩
  · rintro ⟨t, ht, d, hd, huid⟩
    have hresolve : Link.resolve (Link.Index.ofComments filename comments) t =
        Link.anchored uid (Name.bare t) := by
      rw [Link.resolve_ofComments]
      exact (Link.inFile_eq_anchored_iff hquote).2 ⟨rfl, d, hd, huid⟩
    exact ⟨_, (Entity.mem_shownTypes hentity).2 ⟨t, ht, hresolve⟩, _, rfl⟩

/-- The links of a listing are those of its entities, and a comment has an entity exactly when it has
a name of its own. -/
theorem link_iff {filename uid : String} {comments : List Comment}
    (hquote : doubleMark ∉ uid.toList) :
    (∃ e ∈ (ofComments filename comments).entities, ∃ shown ∈ e.tags.shownTypes, ∃ name,
        shown = Link.anchored uid name) ↔
      ∃ c ∈ comments, c.ownName?.isSome = true ∧ ∃ t ∈ c.typeTexts, ∃ d,
        Declaration.last? comments (Name.bare t) = some d ∧
          Anchor.within filename d.tag.text = uid := by
  constructor
  · rintro ⟨e, he, hlink⟩
    rcases mem_entities_ofComments.1 he with ⟨c, hc, hentity⟩
    exact ⟨c, hc, Entity.isSome_ofComment?_iff.1 ⟨e, hentity⟩,
      (exists_link_iff hquote hentity).1 hlink⟩
  · rintro ⟨c, hc, hsome, hlink⟩
    rcases Entity.isSome_ofComment?_iff.2 hsome with ⟨e, hentity⟩
    exact ⟨e, mem_entities_ofComments.2 ⟨c, hc, hentity⟩, (exists_link_iff hquote hentity).2 hlink⟩

theorem linksIntact_iff {filename : String} {records : List Record} {listing : Listing}
    (haccepted : ofRecords filename records = .ok listing) :
    ∃ comments, Record.readAll records = .ok comments ∧
      (listing.LinksIntact ↔
        ∀ c ∈ comments, c.ownName?.isSome = true → ∀ t ∈ c.typeTexts, ∀ d,
          Declaration.last? comments (Name.bare t) = some d →
            CarriesAnchor filename comments d) := by
  rcases ofRecords_eq_ok_iff.1 haccepted with ⟨comments, hread, rfl⟩
  refine ⟨comments, hread, ?_⟩
  constructor
  · -- Each reference to a declaration is a link of the listing, so its anchor is there.
    intro hintact c hc hsome t ht d hd
    have hquote := Anchor.doubleMark_notMem_within filename d.tag.text
    rcases (link_iff hquote).2 ⟨c, hc, hsome, t, ht, d, hd, rfl⟩ with
      ⟨e, he, shown, hshown, name, hlink⟩
    have htarget := hintact e he shown hshown _ name hquote hlink
    exact (carriesAnchor_iff (Declaration.last?_eq_some hd).1).2 htarget
  · -- Each link of the listing comes from a reference to the last declaration of its name.
    intro hcarried e he shown hshown uid name hquote hlink
    rcases (link_iff hquote).1 ⟨e, he, shown, hshown, name, hlink⟩ with
      ⟨c, hc, hsome, t, ht, d, hd, rfl⟩
    have hanchor := hcarried c hc hsome t ht d hd
    exact (carriesAnchor_iff (Declaration.last?_eq_some hd).1).1 hanchor

/-! ## A type definition before code -/

/-- A type definition that stands before a function, and a use of the type. -/
def typedefBeforeCode : List Comment :=
  [{ description := "D"
     tags := [{ word := "typedef", text := "{Object} T", types := ["Object"] }]
     context := some ⟨"function", "f()"⟩
     line := 1 },
   { description := "E"
     tags := [{ word := "param", name := "x", types := ["T"] }]
     context := some ⟨"function", "g()"⟩
     line := 2 }]

theorem linksIntact_iff_typedefBeforeCode :
    ∃ listing, ofRecords "f.js" (typedefBeforeCode.map Record.ofComment) = .ok listing ∧
      ∃ comments, Record.readAll (typedefBeforeCode.map Record.ofComment) = .ok comments ∧
        (listing.LinksIntact ↔
          ∀ c ∈ comments, c.ownName?.isSome = true → ∀ t ∈ c.typeTexts, ∀ d,
            Declaration.last? comments (Name.bare t) = some d →
              CarriesAnchor "f.js" comments d) :=
  ⟨_, rfl, linksIntact_iff rfl⟩

/-- The definition is shown as the function it stands before, so a link to it leads nowhere. -/
theorem typedefBeforeCode_not_linksIntact :
    ∃ listing, ofRecords "f.js" (typedefBeforeCode.map Record.ofComment) = .ok listing ∧
      ¬ listing.LinksIntact := by
  refine ⟨ofComments "f.js" typedefBeforeCode, rfl, ?_⟩
  intro hintact
  -- The second comment links to the anchor of the declaring tag.
  have hquote : doubleMark ∉ "f.js-object-t".toList := by decide
  have hused : ∃ c ∈ typedefBeforeCode, c.ownName?.isSome = true ∧ ∃ t ∈ c.typeTexts, ∃ d,
      Declaration.last? typedefBeforeCode (Name.bare t) = some d ∧
        Anchor.within "f.js" d.tag.text = "f.js-object-t" :=
    ⟨_, List.mem_cons_of_mem _ List.mem_cons_self, rfl, "T", by decide, _, rfl, by decide⟩
  rcases (link_iff hquote).2 hused with ⟨e, he, shown, hshown, name, hlink⟩
  have htarget := hintact e he shown hshown "f.js-object-t" name hquote hlink
  rcases exists_uid_eq_iff.1 htarget with ⟨c, hc, own, hown, huid⟩
  -- The entities carry the anchors of the two functions only.
  have hanchors : ∀ c ∈ typedefBeforeCode,
      c.ownName?.map (Anchor.within "f.js") ≠ some "f.js-object-t" := by
    decide
  exact hanchors c hc (Option.map_eq_some_iff.2 ⟨own, hown, huid⟩)

end Listing
end ScriptDoc
