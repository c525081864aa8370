import ScriptDoc.Proofs.Signature.Brackets

/-!
# Selection — which parameters a signature has

A parameter whose name is dotted is a member of another one and has no place in a signature. The name
of a parameter may be followed by a default value, and a dot in that leaves the parameter out as well.

- `Signature.parameterName`, `Signature.defaultPart` : both parts of a parameter's token
- `Signature.isOwn`          : parameters that are no members of others
- `Signature.SelectsOwn`     : a signature of all parameters that are no members
- `Signature.selectsOwn_iff` : when the signature of some tags is one
-/

namespace ScriptDoc
namespace Signature

open Text

/-- The token without brackets, up to the sign that a default value comes after. -/
def parameterName (tag : Tag) : List Char :=
  (bareName tag).takeWhile (· ≠ '=')

/-- The default value with the sign before it. -/
def defaultPart (tag : Tag) : List Char :=
  (bareName tag).dropWhile (· ≠ '=')

def isMember (tag : Tag) : Bool :=
  (parameterName tag).contains '.'

def isOwn (tag : Tag) : Bool :=
  tag.word = "param" && !isMember tag

/-- The signature has every parameter but members of others. -/
def SelectsOwn (tags : List Tag) : Prop :=
  (ofTags tags).toList = printed (runs (tags.filter isOwn))

/-! ## Dots -/

theorem mem_bareName_iff {c : Char} (hc : Name.isBracket c = false) {tag : Tag} :
    c ∈ bareName tag ↔ c ∈ tag.name.toList := by
  simp [bareName, Name.bare, hc]

theorem mem_bareName_iff_parts {c : Char} {tag : Tag} :
    c ∈ bareName tag ↔ c ∈ parameterName tag ∨ c ∈ defaultPart tag := by
  have hparts : parameterName tag ++ defaultPart tag = bareName tag :=
    List.takeWhile_append_dropWhile
  rw [← List.mem_append, hparts]

theorem isShown_eq (tag : Tag) :
    isShown tag = (isOwn tag && !(defaultPart tag).contains '.') := by
  have hdot : '.' ∈ tag.name.toList ↔ '.' ∈ parameterName tag ∨ '.' ∈ defaultPart tag :=
    (mem_bareName_iff rfl).symm.trans mem_bareName_iff_parts
  rw [Bool.eq_iff_iff]
  simp [isShown, isOwn, isMember, hdot, and_assoc]

theorem mem_listed_iff {c : Char} (hc : c ∉ [',', ' ']) {tags : List Tag} :
    c ∈ listed tags ↔ ∃ tag ∈ tags, c ∈ bareName tag := by
  constructor
  · intro hmem
    by_contra hnone
    refine not_mem_join hc (fun name hname hcname => ?_) hmem
    rcases List.mem_map.1 hname with ⟨tag, htag, rfl⟩
    exact hnone ⟨tag, htag, hcname⟩
  · rintro ⟨tag, htag, hcname⟩
    rcases List.append_of_mem htag with ⟨before, after, rfl⟩
    cases before with
    | nil =>
        simp [listed, join_cons, hcname]
    | cons first before =>
        simp [listed, join_cons, hcname]

/-! ## What is left out -/

theorem dot_notMem_listed_shown (tags : List Tag) : '.' ∉ listed (tags.filter isShown) := by
  rw [mem_listed_iff (by decide)]
  rintro ⟨tag, htag, hdot⟩
  have hshown : isShown tag = true := (List.mem_filter.1 htag).2
  have hname : '.' ∉ tag.name.toList := by
    simpa [isShown] using (Bool.and_eq_true_iff.1 hshown).2
  exact hname ((mem_bareName_iff rfl).1 hdot)

theorem filter_isShown (tags : List Tag) :
    tags.filter isShown =
      (tags.filter isOwn).filter (fun tag => !(defaultPart tag).contains '.') := by
  rw [List.filter_filter]
  refine List.filter_congr fun tag _ => ?_
  rw [isShown_eq, Bool.and_comm]

/-- No signature has a dot, and that of a parameter with one in its default value would have. -/
theorem dot_notMem_of_selectsOwn {tags : List Tag} (h : SelectsOwn tags) {tag : Tag}
    (htag : tag ∈ tags) (hown : isOwn tag = true) : '.' ∉ defaultPart tag := by
  intro hdot
  have hnames : listed (tags.filter isShown) = listed (tags.filter isOwn) := by
    rw [← filter_printed (areRuns_runs (tags.filter isShown)), ← toList_ofTags, h,
      filter_printed (areRuns_runs _)]
  refine dot_notMem_listed_shown tags ?_
  rw [hnames, mem_listed_iff (by decide)]
  exact ⟨tag, List.mem_filter.2 ⟨htag, hown⟩, mem_bareName_iff_parts.2 (Or.inr hdot)⟩

/-- Members are always left out, and so are parameters with a dot in the default value. The signature
is that of all other parameters exactly if there are none of the latter. -/
theorem selectsOwn_iff (tags : List Tag) :
    tags.filter isShown =
        (tags.filter isOwn).filter (fun tag => !(defaultPart tag).contains '.') ∧
      (SelectsOwn tags ↔ ∀ tag ∈ tags, isOwn tag = true → '.' ∉ defaultPart tag) := by
  refine ⟨filter_isShown tags, ?_⟩
  constructor
  · intro hselects tag htag hown
    exact dot_notMem_of_selectsOwn hselects htag hown
  · intro hnone
    have hsame : tags.filter isShown = tags.filter isOwn := by
      rw [filter_isShown, List.filter_eq_self]
      intro tag htag
      rcases List.mem_filter.1 htag with ⟨hmem, hown⟩
      simpa using hnone tag hmem hown
    rw [SelectsOwn, toList_ofTags, hsame]

/-- An optional parameter is left out because there is a dot in its default value. -/
theorem not_selectsOwn_dottedDefault :
    ∃ tag, Tag.parse "param" "\x7bnumber\x7d [ratio=0.5] - how much" = .ok tag ∧
      tag.isOptional = true ∧ parameterName tag = "ratio".toList ∧ isOwn tag = true ∧
        ofTags [tag] = "" ∧ ¬ SelectsOwn [tag] := by
  let tag : Tag :=
    { word := "param"
      text := "\x7bnumber\x7d [ratio=0.5] - how much"
      name := "[ratio=0.5]"
      isOptional := true
      types := ["number"]
      description := "how much" }
  have hparse : Tag.parse "param" "\x7bnumber\x7d [ratio=0.5] - how much" = .ok tag := by
    decide +kernel
  have hown : isOwn tag = true := by
    decide +kernel
  have hdot : '.' ∈ defaultPart tag := by
    decide +kernel
  refine ⟨tag, hparse, rfl, by decide +kernel, hown, by decide +kernel, fun hselects => ?_⟩
  exact dot_notMem_of_selectsOwn hselects List.mem_cons_self hown hdot

end Signature
end ScriptDoc
