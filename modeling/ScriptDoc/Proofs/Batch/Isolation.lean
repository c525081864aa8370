import ScriptDoc.Proofs.Batch.Outcomes
import ScriptDoc.Proofs.Listing.Links
import ScriptDoc.Proofs.Listing.SourceOrder
import ScriptDoc.Proofs.Text.LineEnds
import ScriptDoc.Proofs.Text.Utf8

/-!
# Isolation — files that do not see each other

The outcome of a file depends on what the file holds and on its name; which other files are in the
batch, and what they hold, does not matter.

- `FileTree.stored`       : the bytes of a text, written with one kind of line end
- `FileTree.textOf_stored`: they are read as the text
- `Batch.Isolated`        : outcomes that tell of one file each
- `Batch.run_isolated`    : every batch that can be worked on has such outcomes
-/

namespace ScriptDoc

open Text

/-! ## Stored texts -/

namespace FileTree

def stored (ending : LineEnd) (text : String) : List UInt8 :=
  (String.ofList (withLineEnds ending text.toList)).toUTF8.data.toList

theorem textOf_stored {ending : LineEnd} {text : String} (h : '\r' ∉ text.toList) :
    textOf (stored ending text) = text := by
  have hbytes : stored ending text =
      (withLineEnds ending text.toList).flatMap String.utf8EncodeChar := by
    simp [stored, String.toUTF8, List.utf8Encode]
  calc
    textOf (stored ending text)
        = String.ofList (foldLineEnds (withLineEnds ending text.toList)) := by
          rw [textOf, hbytes, Utf8.decode_encode]
    _ = text := by
          rw [foldLineEnds_withLineEnds h, String.ofList_toList]

end FileTree

namespace Batch

variable {tree : FileTree} {options : SourceOptions} {names : Keyed String} {workers : Workers}
  {paths : List String}

/-! ## One file -/

/-- The outcome of a file is told by what its path leads to. -/
theorem outcome_eq (tree : FileTree) (options : SourceOptions) (name path : String) :
    outcome tree options name path =
      match tree.find path.toList with
      | .error fault => .error (.file fault)
      | .ok .directory => .error (.file .isDirectory)
      | .ok (.file bytes) =>
          (Listing.ofSource options name (FileTree.textOf bytes)).mapError SourceFault.listing := by
  unfold outcome FileTree.readText FileTree.read
  cases tree.find path.toList with
  | error fault =>
      rfl
  | ok node =>
      cases node with
      | directory =>
          rfl
      | file bytes =>
          rfl

theorem outcome_eq_ok_iff {name path : String} {listing : Listing} :
    outcome tree options name path = .ok listing ↔
      ∃ bytes, tree.find path.toList = .ok (.file bytes) ∧
        Listing.ofSource options name (FileTree.textOf bytes) = .ok listing := by
  rw [outcome_eq]
  cases tree.find path.toList with
  | error fault =>
      simp
  | ok node =>
      cases node with
      | directory =>
          simp
      | file bytes =>
          simp [Outcome.mapError_eq_ok_iff]

/-- Every link of a file is to a declaration of the file itself. -/
theorem exists_declaring?_of_link {name path : String} {listing : Listing}
    (h : outcome tree options name path = .ok listing) {e : Entity} (he : e ∈ listing.entities)
    {shown : String} (hshown : shown ∈ e.tags.shownTypes)
    (hlink : ∃ uid label, shown = Link.anchored uid label) :
    ∃ bytes, tree.find path.toList = .ok (.file bytes) ∧
      ∃ all, Comment.ofSource options (FileTree.textOf bytes) = .ok all ∧
        ∃ c ∈ all, c.isIgnored = false ∧ ∃ tag, c.declaring? = some tag ∧
          shown = Link.anchored (Anchor.within name tag.text) tag.linkName := by
  rcases outcome_eq_ok_iff.1 h with ⟨bytes, hfind, hsource⟩
  rcases Listing.ofSource_eq_ok hsource with ⟨all, hall, rfl⟩
  -- The listing is that of the comments that are not ignored, and so are the declarations.
  rcases Listing.exists_declaring?_of_link he hshown hlink with ⟨c, hc, tag, htag, hown⟩
  rcases List.mem_filter.1 hc with ⟨hmem, hkept⟩
  have hignored : c.isIgnored = false := by simpa using hkept
  exact ⟨bytes, hfind, all, hall, c, hmem, hignored, tag, htag, hown⟩

/-! ## Several files -/

/-- There is one outcome for each path, and it tells of that path only. -/
structure Isolated (tree : FileTree) (options : SourceOptions) (names : Keyed String)
    (paths : List String) (outcomes : Keyed Outcome) : Prop where
  once : (outcomes.map (·.1)).Nodup
  mem_iff : ∀ path, path ∈ outcomes.map (·.1) ↔ path ∈ paths
  nowhere : ∀ path ∈ paths, ∀ fault, tree.find path.toList = .error fault →
    outcomes.get? path = some (.error (.file fault))
  directory : ∀ path ∈ paths, tree.find path.toList = .ok .directory →
    outcomes.get? path = some (.error (.file .isDirectory))
  file : ∀ path ∈ paths, ∀ bytes, tree.find path.toList = .ok (.file bytes) →
    outcomes.get? path =
      some ((Listing.ofSource options (nameFor names path) (FileTree.textOf bytes)).mapError
        SourceFault.listing)
  /-- another batch, over other files, gives a file that both have the same outcome -/
  others : ∀ tree' names' workers' paths' outcomes',
    run tree' options names' workers' paths' = .ok outcomes' →
      ∀ path ∈ paths, path ∈ paths' → tree'.find path.toList = tree.find path.toList →
        nameFor names' path = nameFor names path → outcomes'.get? path = outcomes.get? path
  /-- a type that is shown as a link is declared in the same file -/
  links : ∀ path ∈ paths, ∀ listing, outcomes.get? path = some (.ok listing) →
    ∀ e ∈ listing.entities, ∀ shown ∈ e.tags.shownTypes,
      (∃ uid label, shown = Link.anchored uid label) →
        ∃ bytes, tree.find path.toList = .ok (.file bytes) ∧
          ∃ all, Comment.ofSource options (FileTree.textOf bytes) = .ok all ∧
            ∃ c ∈ all, c.isIgnored = false ∧ ∃ tag, c.declaring? = some tag ∧
              shown = Link.anchored (Anchor.within (nameFor names path) tag.text) tag.linkName
  /-- the kind of line end does not matter -/
  lineEnds : ∀ path ∈ paths, ∀ text ending, '\r' ∉ text.toList →
    tree.find path.toList = .ok (.file (FileTree.stored ending text)) →
      outcomes.get? path =
        some ((Listing.ofSource options (nameFor names path) text).mapError SourceFault.listing)

theorem run_eq_ok_iff {found : Keyed Outcome} :
    run tree options names workers paths = .ok found ↔
      workers.fault? = none ∧ found = outcomes tree options names paths := by
  unfold run
  cases workers.fault? with
  | some fault =>
      simp
  | none =>
      simp [eq_comm]

theorem isolated_outcomes :
    Isolated tree options names paths (outcomes tree options names paths) := by
  have hfile : ∀ path ∈ paths, ∀ bytes, tree.find path.toList = .ok (.file bytes) →
      (outcomes tree options names paths).get? path =
        some ((Listing.ofSource options (nameFor names path) (FileTree.textOf bytes)).mapError
          SourceFault.listing) := by
    intro path hpath bytes hfind
    rw [get?_outcomes hpath, outcome_eq, hfind]
  constructor
  · exact nodup_keys_outcomes
  · intro path
    exact mem_keys_outcomes
  · intro path hpath fault hfind
    rw [get?_outcomes hpath, outcome_eq, hfind]
  · intro path hpath hfind
    rw [get?_outcomes hpath, outcome_eq, hfind]
  · exact hfile
  · intro tree' names' workers' paths' outcomes' hrun path hpath hpath' hfind hname
    have houtcomes := (run_eq_ok_iff.1 hrun).2
    -- Both outcomes are told by what the path leads to, and by the name.
    calc
      outcomes'.get? path
          = some (outcome tree' options (nameFor names' path) path) := by
            rw [houtcomes, get?_outcomes hpath']
      _ = some (outcome tree options (nameFor names path) path) := by
            rw [outcome_eq, outcome_eq, hfind, hname]
      _ = (outcomes tree options names paths).get? path := (get?_outcomes hpath).symm
  · intro path hpath listing hget e he shown hshown hlink
    rw [get?_outcomes hpath] at hget
    exact exists_declaring?_of_link (Option.some.inj hget) he hshown hlink
  · intro path hpath text ending htext hfind
    have hstored := hfile path hpath _ hfind
    rwa [FileTree.textOf_stored htext] at hstored

theorem run_isolated (hworkers : workers = .unlimited ∨ ∃ count > 0, workers = .atMost count) :
    ∃ outcomes, run tree options names workers paths = .ok outcomes ∧
      Isolated tree options names paths outcomes := by
  have hfault : workers.fault? = none := by
    rcases hworkers with rfl | ⟨count, hcount, rfl⟩
    · rfl
    · exact if_neg (Int.not_le.2 hcount)
  exact ⟨_, run_eq_ok_iff.2 ⟨hfault, rfl⟩, isolated_outcomes⟩

/-- One file declares a type, and another one uses it. -/
def typedefElsewhere : FileTree :=
  let declared := "/** @typedef {Object} T */\n"
  let used := "/**\n * F.\n * @param \x7bT\x7d x\n */\nfunction f() \x7b\x7d\n"
  ((FileTree.empty []).write "/a.js".toList (FileTree.stored .lf declared)).write "/b.js".toList
    (FileTree.stored .crLf used)

theorem run_isolated_typedefElsewhere :
    ∃ outcomes, run typedefElsewhere {} [("/b.js", "b.js")] (.atMost 2)
        ["/b.js", "/a.js", "/c.js", "/b.js"] = .ok outcomes ∧
      Isolated typedefElsewhere {} [("/b.js", "b.js")] ["/b.js", "/a.js", "/c.js", "/b.js"]
        outcomes :=
  run_isolated (Or.inr ⟨2, by decide, rfl⟩)

end Batch
end ScriptDoc
