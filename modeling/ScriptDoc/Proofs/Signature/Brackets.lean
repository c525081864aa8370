import ScriptDoc.Proofs.Signature.Layout

/-!
# Brackets — which names of a signature are in brackets

A signature is read from left to right, and every character that is no bracket is told together with
whether a bracket is open there.

- `Signature.insides?`     : this reading, which ends where brackets do not match or are nested
- `Signature.Placed`       : names and separators told like this, a name inside if it is optional
- `Signature.insides?_printed` : written runs can be read, and are names placed so
- `Signature.ofTags_layout` : all that there is to say of a signature
-/

namespace ScriptDoc
namespace Signature

open Text

/-- The characters that are no brackets, each with whether it stands inside a pair. There is no such
reading if a pair is opened inside another or a bracket has no partner. -/
def insides? : Bool → List Char → Option (List (Char × Bool))
  | false, [] => some []
  | true, [] => none
  | inside, c :: s =>
      if c = '[' then if inside then none else insides? true s
      else if c = ']' then if inside then insides? false s else none
      else (insides? inside s).map ((c, inside) :: ·)

/-- A text all of which stands on one side of the brackets. -/
def flagged (inside : Bool) (s : List Char) : List (Char × Bool) :=
  s.map (·, inside)

/-- The names of parameters, inside where these are optional, with a comma and a blank between two of
them that are on either side. -/
inductive Placed : List Tag → List (Char × Bool) → Prop where
  | nil : Placed [] []
  | single (tag : Tag) : Placed [tag] (flagged tag.isOptional (bareName tag))
  | cons {tag : Tag} {rest : List Tag} {chars : List (Char × Bool)} (inside : Bool) :
      rest ≠ [] → Placed rest chars →
        Placed (tag :: rest)
          (flagged tag.isOptional (bareName tag) ++ (flagged inside [',', ' '] ++ chars))

/-! ## Placed names -/

theorem listed_cons (tag : Tag) {rest : List Tag} (ne : rest ≠ []) :
    listed (tag :: rest) = bareName tag ++ ([',', ' '] ++ listed rest) := by
  have hnames : rest.map bareName ≠ [] := by simpa using ne
  unfold listed
  rw [List.map_cons, join_cons, flatMap_append_eq_append_join _ hnames]

namespace Placed

variable {tags more : List Tag} {chars others : List (Char × Bool)}

theorem append (h : Placed tags chars) (h' : Placed more others) (ne : tags ≠ [])
    (ne' : more ≠ []) (inside : Bool) :
    Placed (tags ++ more) (chars ++ (flagged inside [',', ' '] ++ others)) := by
  induction h with
  | nil =>
      exact absurd rfl ne
  | single tag =>
      exact .cons inside ne' h'
  | @cons tag rest chars between hrest hplaced ih =>
      have hmore : rest ++ more ≠ [] := by simp [hrest]
      simpa using Placed.cons between hmore (ih hrest)

/-- Without the brackets the names are left, put together. -/
theorem map_fst (h : Placed tags chars) : chars.map Prod.fst = listed tags := by
  have hflagged : ∀ inside s, (flagged inside s).map Prod.fst = s := by
    intro inside s
    simp [flagged, Function.comp_def]
  induction h with
  | nil =>
      rfl
  | single tag =>
      exact hflagged _ _
  | @cons tag rest chars between hrest hplaced ih =>
      rw [List.map_append, List.map_append, hflagged, hflagged, ih, listed_cons tag hrest]

end Placed

/-- The names of a run are all on one side. -/
theorem placed_run {run : List Tag} {kind : Bool} (hfilled : run ≠ [])
    (halike : ∀ tag ∈ run, tag.isOptional = kind) : Placed run (flagged kind (listed run)) := by
  induction run with
  | nil =>
      exact absurd rfl hfilled
  | cons tag rest ih =>
      rcases List.forall_mem_cons.1 halike with ⟨hfirst, hothers⟩
      cases rest with
      | nil =>
          have hsingle := Placed.single tag
          rw [hfirst] at hsingle
          exact hsingle
      | cons next rest =>
          have hlisted := listed_cons tag (List.cons_ne_nil next rest)
          have hplaced : Placed (tag :: next :: rest) (flagged tag.isOptional (bareName tag) ++
              (flagged kind [',', ' '] ++ flagged kind (listed (next :: rest)))) :=
            .cons kind (by simp) (ih (by simp) hothers)
          rw [hfirst] at hplaced
          simpa [hlisted, flagged] using hplaced

/-! ## Reading brackets -/

section
variable {inside : Bool} {s t : List Char} {chars : List (Char × Bool)}

theorem insides?_append (h : ∀ c ∈ s, Name.isBracket c = false) :
    insides? inside (s ++ t) = (insides? inside t).map (flagged inside s ++ ·) := by
  induction s with
  | nil =>
      simp [flagged]
  | cons c s ih =>
      rcases List.forall_mem_cons.1 h with ⟨hfirst, hothers⟩
      have hplain : c ≠ '[' ∧ c ≠ ']' := by
        simpa [Name.isBracket] using hfirst
      rw [List.cons_append, insides?.eq_def]
      simp [hplain, ih hothers, flagged, Function.comp_def]

theorem insides?_opening (s : List Char) : insides? false ('[' :: s) = insides? true s := by
  simp [insides?]

theorem insides?_closing (s : List Char) : insides? true (']' :: s) = insides? false s := by
  simp [insides?]

/-- What is read are the characters that are no brackets. -/
theorem map_fst_of_insides? (h : insides? inside s = some chars) :
    chars.map Prod.fst = s.filter (!Name.isBracket ·) := by
  induction s generalizing inside chars with
  | nil =>
      cases inside with
      | false =>
          cases h
          rfl
      | true =>
          cases h
  | cons c s ih =>
      rw [insides?.eq_def] at h
      simp only at h
      split at h
      · next hopen =>
        split at h
        · cases h
        · simpa [hopen, Name.isBracket] using ih h
      · next hopen =>
        split at h
        · next hclose =>
          split at h
          · simpa [hclose, Name.isBracket] using ih h
          · cases h
        · next hclose =>
          rcases Option.map_eq_some_iff.1 h with ⟨rest, hrest, rfl⟩
          have hplain : Name.isBracket c = false := by
            simp [Name.isBracket, hopen, hclose]
          simp [hplain, ih hrest]

end

/-! ## Written runs -/

/-- What can come after placed names so that names are placed again. -/
def Continues (tags : List Tag) (text : List Char) : Prop :=
  ∃ chars, insides? false text = some chars ∧ ∀ before placed, before ≠ [] →
    Placed before placed → Placed (before ++ tags) (placed ++ chars)

theorem continues_nil : Continues [] [] :=
  ⟨[], rfl, fun before placed _ h => by simpa using h⟩

section
variable {run tags : List Tag} {text : List Char}

theorem not_bracket_separator : ∀ c ∈ [',', ' '], Name.isBracket c = false := by
  simp [Name.isBracket]

theorem insides?_written {chars : List (Char × Bool)} (h : insides? false text = some chars) :
    insides? false (written run ++ text) =
      some (flagged (isOptionalRun run) (listed run) ++ chars) := by
  have hlisted : ∀ c ∈ listed run, Name.isBracket c = false := fun c hc =>
    isBracket_of_mem_listed hc
  cases hkind : isOptionalRun run with
  | true =>
      have htext : written run ++ text = '[' :: (listed run ++ ']' :: text) := by
        simp [written_of_optional hkind]
      rw [htext, insides?_opening, insides?_append hlisted, insides?_closing, h]
      rfl
  | false =>
      rw [written_of_required hkind, insides?_append hlisted, h]
      rfl

/-- One more run, on whichever side of its brackets the separator before it is. -/
theorem continues_run (inside : Bool) {first : List Char} (hfilled : run ≠ [])
    (halike : ∀ tag ∈ run, tag.isOptional = isOptionalRun run) (h : Continues tags text)
    (hfirst : ∀ chars, insides? false text = some chars → insides? false (first ++ text) =
      some (flagged inside [',', ' '] ++ (flagged (isOptionalRun run) (listed run) ++ chars))) :
    Continues (run ++ tags) (first ++ text) := by
  rcases h with ⟨chars, hchars, hplaced⟩
  refine ⟨_, hfirst chars hchars, fun before placed ne hbefore => ?_⟩
  have hrun := hbefore.append (placed_run hfilled halike) ne hfilled inside
  have hmore := hplaced _ _ (by simp [hfilled]) hrun
  simpa using hmore

end

theorem continues_following {tags : List Tag} {runs : List (List Tag)} (h : AreRuns tags runs) :
    Continues tags (following runs) := by
  rw [← h.flatten]
  induction runs generalizing tags with
  | nil =>
      exact continues_nil
  | cons run rest ih =>
      rw [following_cons, List.flatten_cons, ← List.append_assoc]
      refine continues_run false (h.filled run (by simp)) (h.alike run (by simp))
        (ih h.tail) fun chars hchars => ?_
      rw [List.append_assoc, insides?_append not_bracket_separator, insides?_written hchars]
      rfl

theorem continues_afterFirst {tags : List Tag} {runs : List (List Tag)} (h : AreRuns tags runs) :
    Continues tags (afterFirst runs) := by
  rw [← h.flatten]
  induction runs generalizing tags with
  | nil =>
      exact continues_nil
  | cons run rest ih =>
      have hfilled := h.filled run (by simp)
      have halike := h.alike run (by simp)
      have hlisted : ∀ c ∈ listed run, Name.isBracket c = false := fun c hc =>
        isBracket_of_mem_listed hc
      rw [List.flatten_cons]
      cases hkind : isOptionalRun run with
      | true =>
          have hrest := continues_following h.tail
          have htext : afterFirst (run :: rest) =
              ('[' :: ([',', ' '] ++ (listed run ++ [']']))) ++ following rest := by
            simp [afterFirst_of_optional hkind]
          rw [htext]
          refine continues_run true hfilled halike hrest fun chars hchars => ?_
          calc
            insides? false ('[' :: ([',', ' '] ++ (listed run ++ [']'])) ++ following rest)
                = insides? true ([',', ' '] ++ (listed run ++ ']' :: following rest)) := by
                  simpa using insides?_opening _
            _ = some (flagged true [',', ' '] ++ (flagged true (listed run) ++ chars)) := by
                  rw [insides?_append not_bracket_separator, insides?_append hlisted,
                    insides?_closing, hchars]
                  rfl
            _ = some (flagged true [',', ' '] ++
                  (flagged (isOptionalRun run) (listed run) ++ chars)) := by
                  rw [hkind]
      | false =>
          have htext : afterFirst (run :: rest) =
              ([',', ' '] ++ listed run) ++ afterFirst rest := by
            simp [afterFirst_of_required hkind]
          rw [htext]
          refine continues_run false hfilled halike (ih h.tail) fun chars hchars => ?_
          rw [List.append_assoc, insides?_append not_bracket_separator, insides?_append hlisted,
            hchars, hkind]
          rfl

/-- The signature as a whole. -/
theorem insides?_printed {tags : List Tag} {runs : List (List Tag)} (h : AreRuns tags runs) :
    ∃ chars, insides? false (printed runs) = some chars ∧ Placed tags chars := by
  rw [← h.flatten]
  cases runs with
  | nil =>
      exact ⟨[], rfl, .nil⟩
  | cons run rest =>
      rcases continues_afterFirst h.tail with ⟨chars, hchars, hplaced⟩
      have hfilled := h.filled run (by simp)
      refine ⟨_, insides?_written hchars, ?_⟩
      exact hplaced _ _ hfilled (placed_run hfilled (h.alike run (by simp)))

/-- Written runs are the names, put together, but for the brackets. -/
theorem filter_printed {tags : List Tag} {runs : List (List Tag)} (h : AreRuns tags runs) :
    (printed runs).filter (!Name.isBracket ·) = listed tags := by
  rcases insides?_printed h with ⟨chars, hchars, hplaced⟩
  exact (map_fst_of_insides? hchars).symm.trans hplaced.map_fst

theorem toList_ofTags (tags : List Tag) :
    (ofTags tags).toList = printed (runs (tags.filter isShown)) := by
  simp only [ofTags, String.toList_ofList]
  exact layout_eq_printed (tags.filter isShown)

/-- A signature is its runs, written one after the other. Its brackets match and are not nested, a name
stands inside them exactly if it is optional, and without them the names are left, each once and in
order. -/
theorem ofTags_layout (tags : List Tag) :
    let shown := tags.filter isShown
    let text := (ofTags tags).toList
    AreRuns shown (runs shown) ∧ text = printed (runs shown) ∧
      (∃ chars, insides? false text = some chars ∧ Placed shown chars) ∧
        text.filter (!Name.isBracket ·) = listed shown := by
  intro shown text
  have hruns : AreRuns shown (runs shown) := areRuns_runs shown
  have htext : text = printed (runs shown) := toList_ofTags tags
  rw [htext]
  exact ⟨hruns, rfl, insides?_printed hruns, filter_printed hruns⟩

/-- The second run has its comma inside, and the last one has not. -/
example :
    printed (runs
      [{ word := "param", name := "a" }, { word := "param", name := "[b]", isOptional := true },
        { word := "param", name := "[c, c]", isOptional := true }, { word := "param", name := "d" },
        { word := "param", name := "[]", isOptional := true }]) = "a[, b, c, c], d, []".toList := by
  decide +kernel

end Signature
end ScriptDoc
