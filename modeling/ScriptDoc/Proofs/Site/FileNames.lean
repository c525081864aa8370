import ScriptDoc.Proofs.Path.Normal
import ScriptDoc.Proofs.Site.Lookup

/-!
# FileNames — the names of source files

A source file can be named by any relative path that leads to it. Neither the spelling of that path
nor the root it is taken from shows in the name that its anchors are made under.

- `Site.resolve_congr_normal` : only the normal form of a relative path counts
- `Site.nameOf_resolve`       : a file inside the root goes by this form
- `Site.SameFile`             : two paths of one file
- `Site.names_stable`         : when two paths are of one file, and what name it has
-/

namespace ScriptDoc

theorem FileTree.isAbsolute_cwdPath (tree : FileTree) : Path.isAbsolute tree.cwdPath = true :=
  rfl

namespace Site

variable {site : Site} {tree : FileTree} {p q : String}

theorem resolve_congr_normal (hp : Path.isAbsolute p.toList = false)
    (hq : Path.isAbsolute q.toList = false)
    (h : Path.normalize p.toList = Path.normalize q.toList) : site.resolve p = site.resolve q := by
  have hnormal : Path.normalize (Path.append site.root.toList p.toList) =
      Path.normalize (Path.append site.root.toList q.toList) := by
    rw [← Path.normalize_append hp, h, Path.normalize_append hq]
  exact congrArg String.ofList hnormal

theorem nameOf_resolve (hp : Path.isAbsolute p.toList = false)
    (hinside : (Path.parts (Path.normalize p.toList)).head? ≠ some Path.up) :
    site.nameOf tree (site.resolve p) = String.ofList (Path.normalize p.toList) := by
  have hname : Path.relative tree.cwdPath site.root.toList
      (Path.normalize (Path.append site.root.toList p.toList)) = Path.normalize p.toList :=
    Path.relative_append tree.isAbsolute_cwdPath hp hinside site.root.toList
  simp only [nameOf, resolve, String.toList_ofList, hname]

/-- What has been shown of a file is kept, and given when the file is asked for again, whatever has
become of the files. -/
theorem entitiesOf_again {path : String} {entities : List Entity}
    (h : site.shown? tree path = some entities) (later : FileTree) :
    let kept := (site.entitiesOf tree path).site
    kept.entitiesOf later path = ⟨kept, entities, []⟩ := by
  intro kept
  have hkept : kept.cache.get? path = some entities := by
    simpa only [kept, cache_entitiesOf, if_true] using h
  simp only [entitiesOf, hkept]

/-- Two paths of one file. -/
structure SameFile (site : Site) (tree : FileTree) (p q : String) : Prop where
  path : site.resolve p = site.resolve q
  /-- What is kept of it under one is given under the other, at any time. -/
  entry : ∀ entities later, site.shown? tree (site.resolve p) = some entities →
    let kept := (site.entitiesOf tree (site.resolve p)).site
    kept.entitiesOf later (kept.resolve q) = ⟨kept, entities, []⟩
  /-- Its anchors are made under one name. -/
  name : site.nameOf tree (site.resolve p) = site.nameOf tree (site.resolve q)

/-- Relative paths with one normal form are paths of one file. Its name is this form, unless it
begins with a step up. The root may be anything, absolute or relative, normal or not. -/
theorem names_stable (site : Site) (tree : FileTree) :
    (∀ p q : String, Path.isAbsolute p.toList = false → Path.isAbsolute q.toList = false →
        Path.normalize p.toList = Path.normalize q.toList → site.SameFile tree p q) ∧
      ∀ p : String, Path.isAbsolute p.toList = false →
        (Path.parts (Path.normalize p.toList)).head? ≠ some Path.up →
          site.nameOf tree (site.resolve p) = String.ofList (Path.normalize p.toList) := by
  constructor
  · intro p q hp hq hnormal
    have hpath : site.resolve p = site.resolve q := resolve_congr_normal hp hq hnormal
    refine ⟨hpath, ?_, congrArg (site.nameOf tree) hpath⟩
    intro entities later hshown kept
    -- The root has stayed the same, and so has what the other path leads to.
    have hroot : kept.root = site.root := (settings_entitiesOf site tree _).2
    have hresolve : kept.resolve q = site.resolve p := by
      rw [hpath]
      simp only [resolve, hroot]
    rw [hresolve]
    exact entitiesOf_again hshown later
  · intro p hp hinside
    exact nameOf_resolve hp hinside

/-- A file above the directory that relative paths start from. -/
def outerTree : FileTree :=
  (FileTree.empty [['s'], ['t']]).write "/src/a/c.js".toList
    ("/** C. */\nvar c = 1;\n".toList.map Char.toUInt8)

/-- The root climbs to the top of the tree and beyond, and comes down again. -/
theorem names_stable_spellings :
    let site : Site := { root := "..//x/../../..//./src/" }
    let p := "./a//b/../c.js/"
    let q := "a/c.js"
    Path.isAbsolute p.toList = false ∧ Path.isAbsolute q.toList = false ∧
      Path.normalize p.toList = Path.normalize q.toList ∧
        outerTree.isFile (site.resolve p).toList = true ∧ site.SameFile outerTree p q ∧
          (Path.parts (Path.normalize p.toList)).head? ≠ some Path.up ∧
            site.nameOf outerTree (site.resolve p) = "a/c.js" := by
  intro site p q
  have hp : Path.isAbsolute p.toList = false := by decide
  have hq : Path.isAbsolute q.toList = false := by decide
  have hnormal : Path.normalize p.toList = Path.normalize q.toList := by decide
  have hthere : outerTree.isFile (site.resolve p).toList = true := by decide +kernel
  have hinside : (Path.parts (Path.normalize p.toList)).head? ≠ some Path.up := by decide
  have hform : String.ofList (Path.normalize p.toList) = "a/c.js" := by decide
  rcases names_stable site outerTree with ⟨hfile, hname⟩
  exact ⟨hp, hq, hnormal, hthere, hfile p q hp hq hnormal, hinside,
    (hname p hp hinside).trans hform⟩

end Site
end ScriptDoc
