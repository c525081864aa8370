import ScriptDoc.Proofs.Listing.Acceptance
import ScriptDoc.Proofs.Listing.Integrity
import ScriptDoc.Proofs.Page.Commented
import ScriptDoc.Proofs.Site.History

/-!
# PublicLinks — links among the entities that a directive shows

The links of a file are made once, for all its entities. Where a directive leaves out the private
ones, links to them stay and lead nowhere.

- `LinksKept`                     : no link loses its target among the entities that are shown
- `Listing.HasAnchor`             : some comment of a file has an entity with an anchor
- `Listing.linksKept_public_iff`  : when the public entities of a file keep their links
- `Lookup.comments`               : the comments that a look-up has found
- `Session.linksKept_mention_iff` : when a directive keeps the links of its file
-/

namespace ScriptDoc

open Text

/-- If a link that is shown leads to one of all entities, it leads to one that is shown. -/
def LinksKept (all shown : List Entity) : Prop :=
  ∀ e ∈ shown, ∀ text ∈ e.tags.shownTypes, ∀ uid name, doubleMark ∉ uid.toList →
    text = Link.anchored uid name → (∃ target ∈ all, target.uid = uid) →
      ∃ target ∈ shown, target.uid = uid

theorem linksKept_self (all : List Entity) : LinksKept all all :=
  fun _ _ _ _ _ _ _ _ htarget => htarget

/-! ## Files -/

namespace Listing

/-- The entity of some comment carries the anchor. -/
def HasAnchor (filename : String) (comments : List Comment) (uid : String) : Prop :=
  ∃ c ∈ comments, ∃ name, c.ownName? = some name ∧ Anchor.within filename name = uid

/-- A declaration that a public comment with an entity refers to has its anchor at a public entity, if
any entity has it. -/
def RefersToPublic (filename : String) (comments : List Comment) : Prop :=
  ∀ c ∈ comments, c.isPrivate = false → c.ownName?.isSome = true → ∀ t ∈ c.typeTexts, ∀ d,
    Declaration.last? comments (Name.bare t) = some d →
      HasAnchor filename comments (Anchor.within filename d.tag.text) →
        HasAnchor filename (comments.filter (!·.isPrivate)) (Anchor.within filename d.tag.text)

variable {filename uid : String} {comments : List Comment} {e : Entity}

theorem mem_public_iff :
    e ∈ (ofComments filename comments).entities.filter (!·.isPrivate) ↔
      ∃ c ∈ comments, c.isPrivate = false ∧
        Entity.ofComment? filename (Link.Index.ofComments filename comments) c = some e := by
  rw [List.mem_filter, mem_entities_ofComments]
  constructor
  · rintro ⟨⟨c, hc, hentity⟩, hpublic⟩
    rw [Entity.isPrivate_of_ofComment? hentity] at hpublic
    exact ⟨c, hc, by simpa using hpublic, hentity⟩
  · rintro ⟨c, hc, hpublic, hentity⟩
    refine ⟨⟨c, hc, hentity⟩, ?_⟩
    rw [Entity.isPrivate_of_ofComment? hentity, hpublic]
    rfl

theorem exists_public_uid_eq_iff :
    (∃ e ∈ (ofComments filename comments).entities.filter (!·.isPrivate), e.uid = uid) ↔
      HasAnchor filename (comments.filter (!·.isPrivate)) uid := by
  constructor
  · rintro ⟨e, he, huid⟩
    rcases mem_public_iff.1 he with ⟨c, hc, hpublic, hentity⟩
    exact ⟨c, List.mem_filter.2 ⟨hc, by simp [hpublic]⟩,
      Entity.exists_uid_eq_iff.1 ⟨e, hentity, huid⟩⟩
  · rintro ⟨c, hc, hname⟩
    rcases List.mem_filter.1 hc with ⟨hmem, hpublic⟩
    rcases Entity.exists_uid_eq_iff.2 hname with ⟨e, hentity, huid⟩
    exact ⟨e, mem_public_iff.2 ⟨c, hmem, by simpa using hpublic, hentity⟩, huid⟩

/-- The links of the public entities are made from all comments, and their targets are looked for
among the public ones. -/
theorem linksKept_public_iff (filename : String) (comments : List Comment) :
    let all := (ofComments filename comments).entities
    LinksKept all (all.filter (!·.isPrivate)) ↔ RefersToPublic filename comments := by
  intro all
  constructor
  · -- A reference of a public comment is a link of its entity, so it is kept.
    intro hkept c hc hpublic hsome t ht d hd hanchor
    have hquote := Anchor.doubleMark_notMem_within filename d.tag.text
    rcases Entity.isSome_ofComment?_iff.2 hsome with ⟨e, hentity⟩
    rcases (exists_link_iff hquote hentity).2 ⟨t, ht, d, hd, rfl⟩ with
      ⟨text, htext, name, hlink⟩
    have he : e ∈ all.filter (!·.isPrivate) := mem_public_iff.2 ⟨c, hc, hpublic, hentity⟩
    exact exists_public_uid_eq_iff.1
      (hkept e he text htext _ name hquote hlink (exists_uid_eq_iff.2 hanchor))
  · -- A link of a public entity comes from a reference of its comment.
    intro hrefers e he text htext uid name hquote hlink htarget
    rcases mem_public_iff.1 he with ⟨c, hc, hpublic, hentity⟩
    rcases (exists_link_iff hquote hentity).1 ⟨text, htext, name, hlink⟩ with ⟨t, ht, d, hd, rfl⟩
    have hsome := Entity.isSome_ofComment?_iff.1 ⟨e, hentity⟩
    exact exists_public_uid_eq_iff.2
      (hrefers c hc hpublic hsome t ht d hd (exists_uid_eq_iff.1 htarget))

/-- A private type definition, and a use of the type. -/
def privateTypedef : List Comment :=
  [{ tags := [{ word := "typedef", text := "{Object} T", types := ["Object"] },
       { word := "private" }]
     isPrivate := true
     line := 1 },
   { description := "F."
     tags := [{ word := "param", text := "{T} x", name := "x", types := ["T"] }]
     context := some ⟨"function", "f()"⟩
     line := 3 }]

theorem not_refersToPublic_privateTypedef : ¬ RefersToPublic "a.js" privateTypedef := by
  intro hrefers
  have hanchor : HasAnchor "a.js" privateTypedef (Anchor.within "a.js" "{Object} T") :=
    ⟨_, List.mem_cons_self, _, rfl, rfl⟩
  rcases hrefers _ (List.mem_cons_of_mem _ List.mem_cons_self) rfl rfl "T" (by decide) _ rfl
    hanchor with ⟨c, hc, name, hname, huid⟩
  -- The only public entity is that of the function.
  have hpublic : ∀ c ∈ privateTypedef.filter (!·.isPrivate),
      c.ownName?.map (Anchor.within "a.js") ≠ some (Anchor.within "a.js" "{Object} T") := by
    decide
  exact hpublic c hc (Option.map_eq_some_iff.2 ⟨name, hname, huid⟩)

end Listing

/-! ## Look-ups -/

namespace Lookup

/-- The comments of the file that have not been left out; a file that is not there or has a fault has
none. -/
def comments (l : Lookup) : List Comment :=
  match l.tree.readText l.path.toList with
  | .error _ => []
  | .ok source =>
      match Comment.ofSource l.options source with
      | .error _ => []
      | .ok all => all.filter (!·.isIgnored)

variable {l : Lookup} {root : String}

theorem entities_eq (root : String) (l : Lookup) :
    l.entities root = (Listing.ofComments (l.nameFrom root) l.comments).entities := by
  have hnone : (Listing.ofComments (l.nameFrom root) []).entities = [] := by
    simp [Listing.ofComments, Entity.assemble]
  unfold entities comments
  cases l.tree.readText l.path.toList with
  | error fault =>
      exact hnone.symm
  | ok source =>
      cases hall : Comment.ofSource l.options source with
      | error fault =>
          simp only [Listing.ofSource_of_error hall, hall]
          exact hnone.symm
      | ok all =>
          simp only [Listing.ofSource_of_ok hall, hall]
          rfl

theorem entities_of_no_hit (h : l.hitsFile = false) : l.entities root = [] := by
  unfold entities
  cases hread : l.tree.readText l.path.toList with
  | error fault =>
      rfl
  | ok source =>
      have hfile : l.hitsFile = true := FileTree.isFile_iff.2 ⟨source, hread⟩
      cases h.symm.trans hfile

/-- What the last of several look-ups of a path would be shown comes from one of them. -/
theorem exists_entities_eq_firstFound? (root : String) (past : List Lookup) (l : Lookup) :
    ∃ own ∈ past ++ [l], own.path = l.path ∧
      (firstFound? root l.path (past ++ [l])).getD [] = own.entities root := by
  cases hfound : firstFound? root l.path (past ++ [l]) with
  | some entities =>
      rcases firstFound?_eq_some_iff.1 hfound with
        ⟨first, ⟨earlier, later, hsplit, hfirst, -, -⟩, rfl⟩
      exact ⟨first, by simp [hsplit], hfirst, rfl⟩
  | none =>
      -- Not even the last one has led to a file, and then it has no entities.
      have hmiss := firstFound?_eq_none_iff.1 hfound l (by simp) rfl
      exact ⟨l, by simp, rfl, (entities_of_no_hit hmiss).symm⟩

end Lookup

/-! ## Directives -/

namespace Site

variable {site : Site} {past : List Lookup}

theorem shown?_eq_firstFound? (h : site.Remembers past) (tree : FileTree) (path : String) :
    site.shown? tree path = Lookup.firstFound? site.root path (past ++ [site.ask tree path]) := by
  have hlast := firstFound?_map_ask site tree path site.root [path]
  simp only [List.map_cons, List.map_nil, List.mem_singleton, if_true] at hlast
  rw [shown?, h path, Lookup.firstFound?_append, hlast]

theorem exists_lookup_of_listed (h : site.Remembers past) (tree : FileTree) (file : String) :
    ∃ l ∈ past ++ [site.ask tree (site.resolve file)], l.path = site.resolve file ∧
      site.listed tree file = (Listing.ofComments (l.nameFrom site.root) l.comments).entities := by
  rcases Lookup.exists_entities_eq_firstFound? site.root past
    (site.ask tree (site.resolve file)) with ⟨l, hl, hpath, hentities⟩
  refine ⟨l, hl, hpath, ?_⟩
  calc
    site.listed tree file
        = (Lookup.firstFound? site.root (site.resolve file)
            (past ++ [site.ask tree (site.resolve file)])).getD [] := by
          rw [listed, shown?_eq_firstFound? h]
    _ = l.entities site.root := hentities
    _ = (Listing.ofComments (l.nameFrom site.root) l.comments).entities :=
          Lookup.entities_eq site.root l

end Site

namespace Session

/-- A directive keeps the links of its file if it shows private entities too, or if the public
comments of the file refer to what is public. The comments are those that one of the look-ups since
the last start has found, or that are found now. -/
theorem linksKept_mention_iff (tree : FileTree) (steps : List Step) :
    let initial : Session := { tree := tree }
    let session := (initial.run steps).1
    let site := session.site
    ∀ options m, site.mention? session.tree options = some m →
      ∃ l ∈ initial.history [] steps ++ [site.ask session.tree (site.resolve m.file)],
        l.path = site.resolve m.file ∧
          let filename := l.nameFrom site.root
          site.listed session.tree m.file = (Listing.ofComments filename l.comments).entities ∧
            (LinksKept (site.listed session.tree m.file) m.entities ↔
              Site.showsPrivate site.config options = true ∨
                Listing.RefersToPublic filename l.comments) := by
  intro initial session site options m hmention
  have hpast : site.Remembers (initial.history [] steps) :=
    remembers_run (remembers_initial tree) steps
  rcases Site.exists_lookup_of_listed hpast session.tree m.file with ⟨l, hl, hpath, hlisted⟩
  refine ⟨l, hl, hpath, hlisted, ?_⟩
  rw [(Site.of_mention?_eq_some hmention).2, Site.shownWith]
  cases Site.showsPrivate site.config options with
  | true =>
      -- Nothing is left out.
      simp [linksKept_self]
  | false =>
      simpa [hlisted] using Listing.linksKept_public_iff (l.nameFrom site.root) l.comments

/-- A type definition that is private in one file and public in the other, and a use of it in each. -/
def typedefTree : FileTree :=
  let use := "/** F.\n * @param \x7bT\x7d x */\nfunction f() \x7b\x7d\n"
  let hidden := "/** @typedef \x7bObject\x7d T\n * @private */\n" ++ use
  let shown := "/** @typedef \x7bObject\x7d T */\n/** G.\n * @private */\nvar g = 1;\n" ++ use
  ((FileTree.empty [['s']]).write "a.js".toList (hidden.toList.map Char.toUInt8)).write
    "b.js".toList (shown.toList.map Char.toUInt8)

def typedefSteps : List Step :=
  [.configure [("source_root", .text "."), ("include_private", .bool false)], .start .unknown]

theorem linksKept_mention_iff_publicTypedef :
    let initial : Session := { tree := typedefTree }
    let session := (initial.run typedefSteps).1
    let site := session.site
    ∃ m, site.mention? session.tree [("file", "b.js")] = some m ∧
      ∃ l ∈ initial.history [] typedefSteps ++ [site.ask session.tree (site.resolve m.file)],
        l.path = site.resolve m.file ∧
          let filename := l.nameFrom site.root
          site.listed session.tree m.file = (Listing.ofComments filename l.comments).entities ∧
            (LinksKept (site.listed session.tree m.file) m.entities ↔
              Site.showsPrivate site.config [("file", "b.js")] = true ∨
                Listing.RefersToPublic filename l.comments) := by
  intro initial session site
  have hfile : (Site.fileOf [("file", "b.js")]).isEmpty = false := by decide
  have hmention := Site.mention?_of_file site session.tree hfile
  exact ⟨_, hmention, linksKept_mention_iff typedefTree typedefSteps _ _ hmention⟩

/-- The type of the parameter is linked to a type definition that is not shown. -/
theorem not_linksKept_privateTypedef :
    let initial : Session := { tree := typedefTree }
    let session := (initial.run typedefSteps).1
    let site := session.site
    ∃ m, site.mention? session.tree [("file", "a.js")] = some m ∧
      ¬ LinksKept (site.listed session.tree m.file) m.entities := by
  intro initial session site
  have hfile : (Site.fileOf [("file", "a.js")]).isEmpty = false := by decide
  have hmention := Site.mention?_of_file site session.tree hfile
  refine ⟨_, hmention, fun hkept => ?_⟩
  have hpast : site.Remembers [] := remembers_run (remembers_initial typedefTree) typedefSteps
  rcases Site.exists_lookup_of_listed hpast session.tree "a.js" with ⟨l, hl, -, hlisted⟩
  -- Nothing has been looked up before, so the comments are those that are found now.
  obtain rfl := List.mem_singleton.1 hl
  have hname : (site.ask session.tree (site.resolve "a.js")).nameFrom site.root = "a.js" := by
    decide +kernel
  have hcomments : (site.ask session.tree (site.resolve "a.js")).comments =
      Listing.privateTypedef := by
    decide +kernel
  have hhides : Site.showsPrivate site.config [("file", "a.js")] = false := by
    decide +kernel
  rw [hname, hcomments] at hlisted
  have hpublic := (Listing.linksKept_public_iff "a.js" Listing.privateTypedef).1
  rw [← hlisted] at hpublic
  refine Listing.not_refersToPublic_privateTypedef (hpublic ?_)
  have hfileOf : Site.fileOf [("file", "a.js")] = "a.js" := by
    decide
  simpa [Site.shownWith, hhides, hfileOf] using hkept

end Session
end ScriptDoc
