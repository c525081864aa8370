import ScriptDoc.Site

/-!
# Lookup — what a site finds when it asks for a file

- `Lookup`                   : a path that is asked for, with the files and the options at the time
- `Lookup.found?`            : the entities of the file, if there is a file
- `Lookup.firstFound?`       : what the first of several look-ups found
- `Site.ask`, `Site.shown?`  : what a site asks for now, and what it is shown
- `Site.cache_entitiesOf`    : what is kept of that
- `Site.shown?_entitiesOf`   : to ask for one file does not change what is shown of any
-/

namespace ScriptDoc

/-- One answer that is given in either of two cases is given in both. -/
theorem or_ite_none {α : Type} (p q : Prop) [Decidable p] [Decidable q] (answer : Option α) :
    (if p then answer else none).or (if q then answer else none) =
      if p ∨ q then answer else none := by
  by_cases hp : p
  · by_cases hq : q
    · simp [hp, hq]
    · simp [hp, hq]
  · simp [hp]

/-! ## Files -/

theorem FileTree.isFile_iff {tree : FileTree} {path : List Char} :
    tree.isFile path = true ↔ ∃ source, tree.readText path = .ok source := by
  unfold isFile readText read
  cases tree.find path with
  | error fault =>
      simp [Except.map]
  | ok node =>
      cases node with
      | directory =>
          simp [Except.map]
      | file bytes =>
          simp [Except.map]

/-- The entities of a listing; a file with a fault has none. -/
def Listing.shownEntities : Except ListingFault Listing → List Entity
  | .ok listing => listing.entities
  | .error _ => []

structure Lookup where
  path : String
  tree : FileTree
  options : SourceOptions

namespace Lookup

/-- Whether the path leads to a file, and not to a directory or nowhere. -/
def hitsFile (l : Lookup) : Bool :=
  l.tree.isFile l.path.toList

/-- The name of the file as seen from a root. -/
def nameFrom (root : String) (l : Lookup) : String :=
  String.ofList (Path.relative l.tree.cwdPath root.toList l.path.toList)

/-- The entities of what the file says at the time. -/
def entities (root : String) (l : Lookup) : List Entity :=
  match l.tree.readText l.path.toList with
  | .error _ => []
  | .ok source => Listing.shownEntities (Listing.ofSource l.options (l.nameFrom root) source)

def found? (root : String) (l : Lookup) : Option (List Entity) :=
  if l.hitsFile then some (l.entities root) else none

variable {l : Lookup} {root : String}

theorem found?_eq_some_iff {entities : List Entity} :
    l.found? root = some entities ↔ l.hitsFile = true ∧ entities = l.entities root := by
  cases hfile : l.hitsFile with
  | false =>
      simp [found?, hfile]
  | true =>
      simp [found?, hfile, eq_comm]

theorem found?_eq_none_iff : l.found? root = none ↔ l.hitsFile = false := by
  simp [found?]

theorem found?_of_error {fault : FileFault} (h : l.tree.readText l.path.toList = .error fault) :
    l.found? root = none := by
  refine found?_eq_none_iff.2 (Bool.eq_false_iff.2 fun hfile => ?_)
  rcases FileTree.isFile_iff.1 hfile with ⟨source, hsource⟩
  exact absurd (h.symm.trans hsource) (by simp)

theorem found?_of_ok {source : String} (h : l.tree.readText l.path.toList = .ok source) :
    l.found? root =
      some (Listing.shownEntities (Listing.ofSource l.options (l.nameFrom root) source)) := by
  have hentities : Listing.shownEntities (Listing.ofSource l.options (l.nameFrom root) source) =
      l.entities root := by
    simp only [entities, h]
  exact found?_eq_some_iff.2 ⟨FileTree.isFile_iff.2 ⟨source, h⟩, hentities⟩

/-! ## Several look-ups -/

/-- What the first look-up of a path that led to a file found there. -/
def firstFound? (root path : String) (past : List Lookup) : Option (List Entity) :=
  past.findSome? fun l => if l.path = path then l.found? root else none

variable {path : String} {past : List Lookup}

theorem firstFound?_cons (l : Lookup) (past : List Lookup) :
    firstFound? root path (l :: past) =
      (if l.path = path then l.found? root else none).or (firstFound? root path past) := by
  simp only [firstFound?, List.findSome?_cons]
  cases (if l.path = path then l.found? root else none) with
  | none => rfl
  | some entities => rfl

theorem firstFound?_append (more : List Lookup) :
    firstFound? root path (past ++ more) =
      (firstFound? root path past).or (firstFound? root path more) :=
  List.findSome?_append

/-- The first of several look-ups of a path that led to a file. -/
def IsFirstHit (path : String) (past : List Lookup) (first : Lookup) : Prop :=
  ∃ earlier later, past = earlier ++ first :: later ∧ first.path = path ∧
    first.hitsFile = true ∧ ∀ l ∈ earlier, l.path = path → l.hitsFile = false

theorem firstFound?_eq_some_iff {entities : List Entity} :
    firstFound? root path past = some entities ↔
      ∃ first, IsFirstHit path past first ∧ entities = first.entities root := by
  unfold firstFound?
  rw [List.findSome?_eq_some_iff]
  constructor
  · rintro ⟨earlier, first, later, hpast, hfirst, hearlier⟩
    split at hfirst
    · next hpath =>
      rcases found?_eq_some_iff.1 hfirst with ⟨hfile, hentities⟩
      refine ⟨first, ⟨earlier, later, hpast, hpath, hfile, ?_⟩, hentities⟩
      intro l hl hlpath
      have hmiss := hearlier l hl
      rw [if_pos hlpath] at hmiss
      exact found?_eq_none_iff.1 hmiss
    · cases hfirst
  · rintro ⟨first, ⟨earlier, later, hpast, hpath, hfile, hearlier⟩, hentities⟩
    refine ⟨earlier, first, later, hpast, ?_, ?_⟩
    · rw [if_pos hpath]
      exact found?_eq_some_iff.2 ⟨hfile, hentities⟩
    · intro l hl
      split
      · next hlpath => exact found?_eq_none_iff.2 (hearlier l hl hlpath)
      · rfl

theorem firstFound?_eq_none_iff :
    firstFound? root path past = none ↔ ∀ l ∈ past, l.path = path → l.hitsFile = false := by
  unfold firstFound?
  rw [List.findSome?_eq_none_iff]
  refine forall₂_congr fun l _ => ?_
  by_cases hpath : l.path = path
  · simp [hpath, found?_eq_none_iff]
  · simp [hpath]

end Lookup

namespace Site

variable (site : Site) (tree : FileTree) (path : String)

def ask : Lookup :=
  ⟨path, tree, site.config.sourceOptions⟩

/-- What is kept of a file, or else what is found of it now. -/
def shown? : Option (List Entity) :=
  (site.cache.get? path).or ((site.ask tree path).found? site.root)

/-- What the file says is shown if nothing is kept of it. -/
theorem shown?_of_readText {source : String} (hcold : site.cache.get? path = none)
    (hsource : tree.readText path.toList = .ok source) :
    site.shown? tree path = some (Listing.shownEntities
      (Listing.ofSource site.config.sourceOptions (site.nameOf tree path) source)) := by
  have hfound : (site.ask tree path).found? site.root = some (Listing.shownEntities
      (Listing.ofSource site.config.sourceOptions (site.nameOf tree path) source)) :=
    Lookup.found?_of_ok hsource
  rw [shown?, hcold, hfound, Option.none_or]

/-- Of several paths that are asked for at one time each is found for itself. -/
theorem firstFound?_map_ask (root : String) (paths : List String) :
    Lookup.firstFound? root path (paths.map (site.ask tree)) =
      if path ∈ paths then (site.ask tree path).found? root else none := by
  induction paths with
  | nil =>
      rfl
  | cons first rest ih =>
      have hfirst : (if first = path then (site.ask tree first).found? root else none) =
          if path = first then (site.ask tree path).found? root else none := by
        by_cases hsame : path = first
        · simp [hsame]
        · simp [hsame, Ne.symm hsame]
      calc
        Lookup.firstFound? root path ((first :: rest).map (site.ask tree))
            = (if first = path then (site.ask tree first).found? root else none).or
                (Lookup.firstFound? root path (rest.map (site.ask tree))) :=
              Lookup.firstFound?_cons _ _
        _ = (if path = first then (site.ask tree path).found? root else none).or
              (if path ∈ rest then (site.ask tree path).found? root else none) := by
              simp only [hfirst, ih]
        _ = if path ∈ first :: rest then (site.ask tree path).found? root else none := by
              simp only [or_ite_none, List.mem_cons]

/-! ## Asking for a file -/

theorem keepListing_eq (outcome : Except ListingFault Listing) :
    ∃ events, site.keepListing path outcome =
      ⟨site.store path (Listing.shownEntities outcome), Listing.shownEntities outcome, events⟩ := by
  cases outcome with
  | ok listing =>
      exact ⟨listing.events, rfl⟩
  | error fault =>
      exact ⟨(fault.message?.map (Event.unreadable path)).toList, rfl⟩

/-- What is kept is given back; what is found is kept and given; of what is neither nothing is. -/
theorem entitiesOf_cases :
    (∃ entities, site.cache.get? path = some entities ∧
        site.entitiesOf tree path = ⟨site, entities, []⟩) ∨
      (site.cache.get? path = none ∧ (site.ask tree path).found? site.root = none ∧
        ∃ events, site.entitiesOf tree path = ⟨site, [], events⟩) ∨
      ∃ entities events, site.cache.get? path = none ∧
        (site.ask tree path).found? site.root = some entities ∧
          site.entitiesOf tree path = ⟨site.store path entities, entities, events⟩ := by
  cases hkept : site.cache.get? path with
  | some entities =>
      exact Or.inl ⟨entities, rfl, by simp only [entitiesOf, hkept]⟩
  | none =>
      cases hread : tree.readText path.toList with
      | error fault =>
          have hrun : site.entitiesOf tree path = ⟨site, [], [.missing path]⟩ := by
            simp only [entitiesOf, hkept, hread]
          exact Or.inr (Or.inl ⟨rfl, Lookup.found?_of_error hread, _, hrun⟩)
      | ok source =>
          let outcome := Listing.ofSource site.config.sourceOptions (site.nameOf tree path) source
          have hrun : site.entitiesOf tree path = site.keepListing path outcome := by
            simp only [entitiesOf, hkept, hread, outcome]
          rcases keepListing_eq site path outcome with ⟨events, hkeep⟩
          exact Or.inr (Or.inr ⟨_, events, rfl, Lookup.found?_of_ok hread, hrun.trans hkeep⟩)

theorem entities_entitiesOf :
    (site.entitiesOf tree path).entities = (site.shown? tree path).getD [] := by
  rcases entitiesOf_cases site tree path with
    ⟨entities, hkept, hrun⟩ | ⟨hcold, hmiss, events, hrun⟩ | ⟨entities, events, hcold, hfound, hrun⟩
  · simp [hrun, shown?, hkept]
  · simp [hrun, shown?, hcold, hmiss]
  · simp [hrun, shown?, hcold, hfound]

/-- Neither the options nor the root change. -/
theorem settings_entitiesOf :
    (site.entitiesOf tree path).site.config = site.config ∧
      (site.entitiesOf tree path).site.root = site.root := by
  rcases entitiesOf_cases site tree path with
    ⟨entities, hkept, hrun⟩ | ⟨hcold, hmiss, events, hrun⟩ | ⟨entities, events, hcold, hfound, hrun⟩
  · simp [hrun]
  · simp [hrun]
  · simp [hrun, store]

/-- The path is kept with what is shown of it, and every other one stays as it was. -/
theorem cache_entitiesOf (other : String) :
    (site.entitiesOf tree path).site.cache.get? other =
      if other = path then site.shown? tree path else site.cache.get? other := by
  rcases entitiesOf_cases site tree path with
    ⟨entities, hkept, hrun⟩ | ⟨hcold, hmiss, events, hrun⟩ | ⟨entities, events, hcold, hfound, hrun⟩
  · by_cases hsame : other = path
    · simp [hrun, shown?, hkept, hsame]
    · simp [hrun, hsame]
  · by_cases hsame : other = path
    · simp [hrun, shown?, hcold, hmiss, hsame]
    · simp [hrun, hsame]
  · have hput := Keyed.get?_put path other entities site.cache
    simpa [hrun, store, shown?, hcold, hfound] using hput

/-- A path that is not a file is not kept when it is asked for. -/
theorem site_entitiesOf_of_no_file (h : tree.isFile path.toList = false) :
    (site.entitiesOf tree path).site = site := by
  have hmiss : (site.ask tree path).found? site.root = none := Lookup.found?_eq_none_iff.2 h
  rcases entitiesOf_cases site tree path with
    ⟨entities, hkept, hrun⟩ | ⟨hcold, hmiss, events, hrun⟩ | ⟨entities, events, hcold, hfound, hrun⟩
  · simp only [hrun]
  · simp only [hrun]
  · exact absurd (hmiss.symm.trans hfound) (by simp)

/-- To ask for one file does not change what is shown of any. -/
theorem shown?_entitiesOf (other : String) :
    (site.entitiesOf tree path).site.shown? tree other = site.shown? tree other := by
  rcases settings_entitiesOf site tree path with ⟨hconfig, hroot⟩
  have hask : (site.entitiesOf tree path).site.ask tree other = site.ask tree other := by
    simp only [ask, hconfig]
  have hafter : (site.entitiesOf tree path).site.shown? tree other =
      (if other = path then site.shown? tree path else site.cache.get? other).or
        ((site.ask tree other).found? site.root) := by
    simp only [shown?, hask, hroot, cache_entitiesOf]
  by_cases hsame : other = path
  · subst hsame
    -- What is shown of the path already counts what is found of it now.
    simp only [hafter, if_true]
    simp only [shown?, Option.or_assoc, Option.or_self]
  · simp only [hafter, if_neg hsame]
    rfl

end Site
end ScriptDoc
