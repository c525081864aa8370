import Mathlib.Data.List.SplitBy
import ScriptDoc.Entity.Signature
import ScriptDoc.Proofs.Text.Replace

/-!
# Layout — a signature as runs of parameters

Parameters that are next to each other and alike, all optional or all required, make up a run. The
runs are written one after the other.

- `Signature.runs`          : the runs of a list of parameters, as long as they can be
- `Signature.AreRuns`       : what makes them runs
- `Signature.printed`       : the runs as they stand in a signature
- `Signature.layout_eq_printed` : both replacements together write the runs
-/

namespace ScriptDoc
namespace Signature

open Text

/-! ## Runs -/

def bareName (tag : Tag) : List Char :=
  (Name.bare tag.name).toList

def runs (tags : List Tag) : List (List Tag) :=
  tags.splitBy fun a b => a.isOptional == b.isOptional

/-- Whether a run is of optional parameters; they are all alike. -/
def isOptionalRun (run : List Tag) : Bool :=
  run.any (·.isOptional)

structure AreRuns (tags : List Tag) (runs : List (List Tag)) : Prop where
  flatten : runs.flatten = tags
  filled : ∀ run ∈ runs, run ≠ []
  alike : ∀ run ∈ runs, ∀ tag ∈ run, tag.isOptional = isOptionalRun run
  alternate : runs.IsChain fun run next => isOptionalRun run ≠ isOptionalRun next

/-- Where neighbours are alike, all are. -/
theorem isOptional_eq_of_isChain {run : List Tag}
    (h : run.IsChain fun a b => (a.isOptional == b.isOptional) = true) :
    ∀ tag ∈ run, tag.isOptional = isOptionalRun run := by
  cases run with
  | nil =>
      simp
  | cons first rest =>
      have : IsTrans Tag fun a b => (a.isOptional == b.isOptional) = true :=
        ⟨fun _ _ _ hab hbc => beq_iff_eq.2 ((beq_iff_eq.1 hab).trans (beq_iff_eq.1 hbc))⟩
      have hrest : ∀ tag ∈ rest, tag.isOptional = first.isOptional := by
        intro tag htag
        exact (beq_iff_eq.1 (h.rel_cons htag)).symm
      have hrun : isOptionalRun (first :: rest) = first.isOptional := by
        cases hfirst : first.isOptional with
        | true =>
            simp [isOptionalRun, hfirst]
        | false =>
            have hnone : ∀ tag ∈ rest, tag.isOptional = false := fun tag htag =>
              (hrest tag htag).trans hfirst
            simpa [isOptionalRun, hfirst] using hnone
      intro tag htag
      rcases List.mem_cons.1 htag with rfl | htag
      · exact hrun.symm
      · exact (hrest tag htag).trans hrun.symm

theorem areRuns_runs (tags : List Tag) : AreRuns tags (runs tags) := by
  have halike : ∀ run ∈ runs tags, ∀ tag ∈ run, tag.isOptional = isOptionalRun run :=
    fun run hrun => isOptional_eq_of_isChain (List.isChain_of_mem_splitBy hrun)
  refine ⟨List.flatten_splitBy _ tags, fun run hrun => List.ne_nil_of_mem_splitBy hrun, halike, ?_⟩
  have hborders := List.isChain_getLast_head_splitBy
    (fun a b : Tag => a.isOptional == b.isOptional) tags
  -- The last parameter of a run stands for the run, and so does the first of the next.
  refine List.IsChain.imp_of_mem_imp ?_ hborders
  rintro run next hrun hnext ⟨hlast, hhead, hdiffer⟩
  rw [← halike run hrun _ (List.getLast_mem hlast), ← halike next hnext _ (List.head_mem hhead)]
  simpa using hdiffer

/-! ## Written runs -/

/-- The names of a run. -/
def listed (tags : List Tag) : List Char :=
  join [',', ' '] (tags.map bareName)

def written (run : List Tag) : List Char :=
  if isOptionalRun run then '[' :: (listed run ++ [']']) else listed run

/-- Runs that come after others. -/
def following (runs : List (List Tag)) : List Char :=
  runs.flatMap fun run => [',', ' '] ++ written run

/-- The runs after the first one. As runs alternate, the first optional one among these is the first
that comes after a required one: it has its comma inside the brackets. -/
def afterFirst : List (List Tag) → List Char
  | [] => []
  | run :: rest =>
      if isOptionalRun run then '[' :: ([',', ' '] ++ (listed run ++ ']' :: following rest))
      else [',', ' '] ++ (listed run ++ afterFirst rest)

def printed : List (List Tag) → List Char
  | [] => []
  | run :: rest => written run ++ afterFirst rest

section
variable {run : List Tag} {rest : List (List Tag)}

theorem written_of_optional (h : isOptionalRun run = true) :
    written run = '[' :: (listed run ++ [']']) :=
  if_pos h

theorem written_of_required (h : isOptionalRun run = false) : written run = listed run :=
  if_neg (Bool.eq_false_iff.1 h)

theorem following_cons (run : List Tag) (rest : List (List Tag)) :
    following (run :: rest) = [',', ' '] ++ (written run ++ following rest) :=
  List.append_assoc [',', ' '] (written run) (following rest)

theorem afterFirst_of_optional (h : isOptionalRun run = true) :
    afterFirst (run :: rest) = '[' :: ([',', ' '] ++ (listed run ++ ']' :: following rest)) :=
  if_pos h

theorem afterFirst_of_required (h : isOptionalRun run = false) :
    afterFirst (run :: rest) = [',', ' '] ++ (listed run ++ afterFirst rest) :=
  if_neg (Bool.eq_false_iff.1 h)

end

/-! ## Names without brackets -/

theorem isBracket_of_mem_bareName {tag : Tag} {c : Char} (h : c ∈ bareName tag) :
    Name.isBracket c = false := by
  simp only [bareName, Name.bare, String.toList_ofList, List.mem_filter] at h
  simpa using h.2

theorem isBracket_of_mem_listed {tags : List Tag} {c : Char} (h : c ∈ listed tags) :
    Name.isBracket c = false := by
  refine Bool.eq_false_iff.2 fun hbracket => not_mem_join ?_ ?_ h
  · rintro hsep
    rcases List.mem_cons.1 hsep with rfl | hsep
    · cases hbracket
    · rw [List.mem_singleton.1 hsep] at hbracket
      cases hbracket
  · intro name hname hc
    rcases List.mem_map.1 hname with ⟨tag, -, rfl⟩
    rw [isBracket_of_mem_bareName hc] at hbracket
    cases hbracket

theorem notMem_listed {c : Char} (hc : Name.isBracket c = true) (tags : List Tag) :
    c ∉ listed tags := by
  intro hmem
  rw [isBracket_of_mem_listed hmem] at hc
  cases hc

theorem notMem_bareName {c : Char} (hc : Name.isBracket c = true) (tag : Tag) :
    c ∉ bareName tag := by
  intro hmem
  rw [isBracket_of_mem_bareName hmem] at hc
  cases hc

/-! ## Both replacements -/

theorem shownName_of_optional {tag : Tag} (h : tag.isOptional = true) :
    shownName tag = ['['] ++ (bareName tag ++ [']']) := by
  simp [shownName, bareName, h]

theorem shownName_of_required {tag : Tag} (h : tag.isOptional = false) :
    shownName tag = bareName tag := by
  simp [shownName, bareName, h]

/-- What follows a run of optional parameters does not begin like one more of its names. -/
def EndsRun (run : List Tag) (after : List Char) : Prop :=
  isOptionalRun run = true → ∀ rest, after ≠ [',', ' ', '['] ++ rest

/-- Within a run the first replacement leaves one pair of brackets. -/
theorem replaceAll_run {run : List Tag} {after : List Char} (hfilled : run ≠ [])
    (halike : ∀ tag ∈ run, tag.isOptional = isOptionalRun run) (hend : EndsRun run after) :
    replaceAll [']', ',', ' ', '['] [',', ' '] (join [',', ' '] (run.map shownName) ++ after) =
      written run ++ replaceAll [']', ',', ' ', '['] [',', ' '] after := by
  cases hkind : isOptionalRun run with
  | false =>
      have hnames : run.map shownName = run.map bareName :=
        List.map_congr_left fun tag htag => shownName_of_required ((halike tag htag).trans hkind)
      have hbracket : ']' ∉ listed run := notMem_listed rfl run
      rw [hnames, written_of_required hkind]
      exact replaceAll_append_of_notMem hbracket
  | true =>
      have hnames : run.map shownName =
          (run.map bareName).map fun name => ['['] ++ (name ++ [']']) := by
        rw [List.map_map]
        exact List.map_congr_left fun tag htag =>
          shownName_of_optional ((halike tag htag).trans hkind)
      have hjoined : join [',', ' '] (run.map shownName) =
          ['['] ++ (join [']', ',', ' ', '['] (run.map bareName) ++ [']']) := by
        rw [hnames]
        exact join_map_enclosed [',', ' '] ['['] [']'] (by simpa using hfilled)
      have hinside : ∀ name ∈ run.map bareName, ']' ∉ name := by
        intro name hname
        rcases List.mem_map.1 hname with ⟨tag, -, rfl⟩
        exact notMem_bareName rfl tag
      -- The bracket at the end of the run begins no occurrence.
      have hclose : replaceAll [']', ',', ' ', '['] [',', ' '] (']' :: after) =
          ']' :: replaceAll [']', ',', ' ', '['] [',', ' '] after := by
        refine replaceAll_cons_of_not_prefix (Bool.eq_false_iff.2 fun hprefix => ?_)
        rcases List.isPrefixOf_iff_prefix.1 hprefix with ⟨rest, hrest⟩
        exact hend hkind rest (List.cons.inj hrest).2.symm
      calc
        replaceAll [']', ',', ' ', '['] [',', ' '] (join [',', ' '] (run.map shownName) ++ after)
            = ['['] ++ replaceAll [']', ',', ' ', '['] [',', ' ']
                (join [']', ',', ' ', '['] (run.map bareName) ++ ([']'] ++ after)) := by
              rw [hjoined, List.append_assoc, List.append_assoc]
              exact replaceAll_append_of_notMem (by decide)
        _ = ['['] ++ (listed run ++
              replaceAll [']', ',', ' ', '['] [',', ' '] ([']'] ++ after)) := by
              rw [replaceAll_join hinside]
              rfl
        _ = written run ++ replaceAll [']', ',', ' ', '['] [',', ' '] after := by
              simp [written_of_optional hkind, hclose]

/-- The parameters of runs that come after others, before any replacement. -/
def trailing (runs : List (List Tag)) : List Char :=
  (runs.flatten.map shownName).flatMap ([',', ' '] ++ ·)

theorem trailing_cons {run : List Tag} (hfilled : run ≠ []) (rest : List (List Tag)) :
    trailing (run :: rest) =
      [',', ' '] ++ (join [',', ' '] (run.map shownName) ++ trailing rest) := by
  have hrun : run.map shownName ≠ [] := by simpa using hfilled
  have hfirst := flatMap_append_eq_append_join [',', ' '] hrun
  rw [trailing, List.flatten_cons, List.map_append, List.flatMap_append, hfirst, List.append_assoc]
  rfl

namespace AreRuns

variable {tags run : List Tag} {rest : List (List Tag)}

theorem tail (h : AreRuns tags (run :: rest)) : AreRuns rest.flatten rest where
  flatten := rfl
  filled := fun other hother => h.filled other (List.mem_cons_of_mem run hother)
  alike := fun other hother => h.alike other (List.mem_cons_of_mem run hother)
  alternate := h.alternate.tail

/-- After a run of optional parameters comes a required one, whose name has no bracket. -/
theorem endsRun (h : AreRuns tags (run :: rest)) : EndsRun run (trailing rest) := by
  intro hkind after hafter
  cases rest with
  | nil =>
      cases hafter
  | cons next more =>
      have hdiffer : isOptionalRun run ≠ isOptionalRun next := h.alternate.rel
      have hnext : isOptionalRun next = false := by
        simpa [hkind] using hdiffer
      have hfilled := h.filled next (by simp)
      have halike : ∀ tag ∈ next, tag.isOptional = isOptionalRun next := h.alike next (by simp)
      have hnames : next.map shownName = next.map bareName :=
        List.map_congr_left fun tag htag => shownName_of_required ((halike tag htag).trans hnext)
      rw [trailing_cons hfilled, hnames] at hafter
      have hbracket : listed next ++ trailing more = '[' :: after := by
        simpa [listed] using hafter
      cases hlisted : listed next with
      | nil =>
          -- A run without a character is followed by a comma, if by anything.
          rw [hlisted, List.nil_append, trailing] at hbracket
          cases hmore : more.flatten.map shownName with
          | nil =>
              rw [hmore] at hbracket
              cases hbracket
          | cons name names =>
              rw [hmore] at hbracket
              cases hbracket
      | cons c s =>
          rw [hlisted] at hbracket
          have hc : c = '[' := (List.cons.inj hbracket).1
          exact notMem_listed (c := '[') rfl next (by simp [hlisted, hc])

end AreRuns

/-- The first replacement writes all runs alike. -/
theorem replaceAll_trailing {tags : List Tag} {runs : List (List Tag)} (h : AreRuns tags runs) :
    replaceAll [']', ',', ' ', '['] [',', ' '] (trailing runs) = following runs := by
  induction runs generalizing tags with
  | nil =>
      rfl
  | cons run rest ih =>
      have hfilled : run ≠ [] := h.filled run (by simp)
      have hrun := replaceAll_run hfilled (h.alike run (by simp)) h.endsRun
      rw [trailing_cons hfilled, replaceAll_append_of_notMem (by decide), hrun, ih h.tail]
      simp [following]

/-- No occurrence begins before runs that come after a text without an opening bracket. -/
theorem replaceFirst_before {s : List Char} (h : '[' ∉ s) (runs : List (List Tag)) :
    replaceFirst [',', ' ', '['] ['[', ',', ' '] (s ++ following runs) =
      s ++ replaceFirst [',', ' ', '['] ['[', ',', ' '] (following runs) := by
  have hstart : '[' ∉ (following runs).take [',', ' '].length := by
    cases runs with
    | nil =>
        simp [following]
    | cons run rest =>
        simp [following]
  exact replaceFirst_append_of_notMem h hstart

/-- The second replacement takes the first comma before a bracket into the brackets. -/
theorem replaceFirst_following (runs : List (List Tag)) :
    replaceFirst [',', ' ', '['] ['[', ',', ' '] (following runs) = afterFirst runs := by
  induction runs with
  | nil =>
      rfl
  | cons run rest ih =>
      cases hkind : isOptionalRun run with
      | true =>
          have hfirst := replaceFirst_occurrence ',' [' ', '['] ['[', ',', ' ']
            (listed run ++ ']' :: following rest)
          rw [following_cons, written_of_optional hkind, afterFirst_of_optional hkind]
          simpa using hfirst
      | false =>
          have hbracket : '[' ∉ [',', ' '] ++ listed run := by
            simpa using notMem_listed (c := '[') rfl run
          rw [following_cons, written_of_required hkind, afterFirst_of_required hkind,
            ← List.append_assoc, replaceFirst_before hbracket, ih, List.append_assoc]

/-- The signature of parameters that begin with a run, after the first replacement. -/
theorem replaceAll_join_shownName {tags run : List Tag} {rest : List (List Tag)}
    (h : AreRuns tags (run :: rest)) :
    replaceAll [']', ',', ' ', '['] [',', ' '] (join [',', ' '] (tags.map shownName)) =
      written run ++ following rest := by
  have hfilled : run ≠ [] := h.filled run (by simp)
  have hnames : join [',', ' '] (tags.map shownName) =
      join [',', ' '] (run.map shownName) ++ trailing rest := by
    rw [← h.flatten, List.flatten_cons, List.map_append]
    exact join_append [',', ' '] (by simpa using hfilled) _
  rw [hnames, replaceAll_run hfilled (h.alike run (by simp)) h.endsRun, replaceAll_trailing h.tail]

theorem layout_eq_printed (tags : List Tag) : layout (tags.map shownName) = printed (runs tags) := by
  have hmerged : layout (tags.map shownName) = replaceFirst [',', ' ', '['] ['[', ',', ' ']
      (replaceAll [']', ',', ' ', '['] [',', ' '] (join [',', ' '] (tags.map shownName))) :=
    rfl
  have hruns := areRuns_runs tags
  cases hcut : runs tags with
  | nil =>
      rw [hcut] at hruns
      have hnone : tags = [] := hruns.flatten.symm
      rw [hnone]
      rfl
  | cons run rest =>
      rw [hcut] at hruns
      rw [hmerged, replaceAll_join_shownName hruns]
      cases hkind : isOptionalRun run with
      | true =>
          -- The bracket that opens the signature comes after no comma.
          have hopen : ∀ s after, '[' :: s ≠ [',', ' ', '['] ++ after := by
            intro s after hsame
            cases hsame
          have hbracket : '[' ∉ listed run ++ [']'] := by
            simpa using notMem_listed (c := '[') rfl run
          rw [printed, written_of_optional hkind, List.cons_append,
            replaceFirst_cons_of_not_prefix (hopen _), replaceFirst_before hbracket,
            replaceFirst_following, List.cons_append]
      | false =>
          rw [printed, written_of_required hkind, replaceFirst_before (notMem_listed rfl run),
            replaceFirst_following]

end Signature
end ScriptDoc
