import Mathlib.Data.List.TakeWhile
import ScriptDoc.Proofs.Text.Trim
import ScriptDoc.Site.Directive

/-!
# OptionLines — what makes a head and what an option line

- `OpenDirective.eq_of_indentOf?`  : a head is an indentation, three colons and more
- `OptionLine.eq_of_ofLine?`       : an option line is indented further, and has a name
- `OptionLine.indentOf?_eq_none`   : so it is no head
- `OptionLine.mem_of_mem_read`     : values are made of characters of their lines
-/

namespace ScriptDoc

open Text

/-! ## Heads -/

namespace OpenDirective

variable {line indent : List Char}

theorem eq_of_indentOf? (h : indentOf? line = some indent) :
    indent = line.takeWhile isIndent ∧
      ∃ rest, line.dropWhile isIndent = ":::".toList ++ rest := by
  simp only [indentOf?, Option.bind_eq_bind, Option.bind_eq_some_iff] at h
  rcases h with ⟨rest, hrest, h⟩
  have hcolons := after?_eq_some_iff.1 hrest
  split at h
  · simp only [Option.bind_some, Option.bind_eq_some_iff] at h
    rcases h with ⟨after, -, hindent⟩
    split at hindent
    · cases hindent
      exact ⟨rfl, rest, hcolons⟩
    · cases hindent
  · cases h

theorem isIndent_of_mem_indent (h : indentOf? line = some indent) {c : Char} (hc : c ∈ indent) :
    isIndent c = true := by
  have hindent := (eq_of_indentOf? h).1
  exact List.mem_takeWhile_imp (hindent ▸ hc)

/-- A head has colons, so it is not blank. -/
theorem not_blank_of_indentOf? (h : indentOf? line = some indent) : line.all isBlank = false := by
  rcases eq_of_indentOf? h with ⟨-, rest, hcolons⟩
  have hmem : ':' ∈ line.dropWhile isIndent := by simp [hcolons]
  exact List.all_eq_false.2 ⟨':', (List.dropWhile_sublist _).subset hmem, by decide⟩

end OpenDirective

/-! ## Option lines -/

namespace OptionLine

variable {indent line : List Char} {o : OptionLine}

theorem eq_of_ofLine? (h : ofLine? indent line = some o) :
    ∃ margin, margin ≠ [] ∧ (∀ c ∈ margin, isIndent c = true) ∧
      line = indent ++ (margin ++ o.asWritten) ∧ o.name ≠ [] ∧ ∀ c ∈ o.name, isWord c = true := by
  unfold ofLine? at h
  split at h
  · next c s hafter =>
    split at h
    · next hc =>
      split at h
      · next t hcolon =>
        split at h
        · cases h
        · next value hvalue hname =>
          cases h
          -- What is taken off the front of the line is put back piece by piece.
          have hline : line = indent ++ c :: s := after?_eq_some_iff.1 hafter
          have hmargin : s.takeWhile isIndent ++ ':' :: t = s := by
            simpa only [hcolon] using List.takeWhile_append_dropWhile (p := isIndent) (l := s)
          have hname' : t.takeWhile isWord ++ ':' :: value = t := by
            simpa only [hvalue] using List.takeWhile_append_dropWhile (p := isWord) (l := t)
          refine ⟨c :: s.takeWhile isIndent, by simp, ?_, ?_, hname, ?_⟩
          · exact List.forall_mem_cons.2 ⟨hc, fun d hd => List.mem_takeWhile_imp hd⟩
          · simp only [hline, asWritten, List.cons_append, hname', hmargin]
          · exact fun d hd => List.mem_takeWhile_imp hd
        · cases h
      · cases h
    · cases h
  · cases h

/-- An option line has colons, so it is not blank. -/
theorem not_blank_of_ofLine? (h : ofLine? indent line = some o) : line.all isBlank = false := by
  rcases eq_of_ofLine? h with ⟨margin, -, -, hline, -, -⟩
  have hmem : ':' ∈ line := by simp [hline, asWritten]
  exact List.all_eq_false.2 ⟨':', hmem, by decide⟩

/-- After the indentation of an option line one colon stands alone, and of a head three together. -/
theorem indentOf?_eq_none (hindent : ∀ c ∈ indent, isIndent c = true)
    (h : ofLine? indent line = some o) : OpenDirective.indentOf? line = none := by
  rcases eq_of_ofLine? h with ⟨margin, -, hmargin, hline, hname, hword⟩
  refine Option.eq_none_iff_forall_ne_some.2 fun own hhead => ?_
  rcases (OpenDirective.eq_of_indentOf? hhead).2 with ⟨rest, hcolons⟩
  have hall : ∀ c ∈ indent ++ margin, isIndent c = true := by
    intro c hc
    exact (List.mem_append.1 hc).elim (hindent c) (hmargin c)
  have hdrop : line.dropWhile isIndent = o.asWritten := by
    have hcolon : isIndent ':' = false := by decide
    rw [hline, ← List.append_assoc, List.dropWhile_append_of_pos hall]
    simp [asWritten, hcolon]
  have hsame : ':' :: (o.name ++ ':' :: o.value) = ':' :: ':' :: ':' :: rest :=
    hdrop.symm.trans hcolons
  cases hfirst : o.name with
  | nil =>
      exact hname hfirst
  | cons c name =>
      have hc : isWord c = true := hword c (by simp [hfirst])
      rw [hfirst] at hsame
      simp only [List.cons_append, List.cons.injEq] at hsame
      rw [hsame.2.1] at hc
      exact absurd hc (by decide)

/-! ## Values -/

variable {options : List OptionLine} {c : Char}

/-- A value is taken from the line of its option or from the next one. -/
theorem mem_of_mem_pairs {pair : List Char × List Char} (h : pair ∈ pairs options)
    (hc : c ∈ pair.2) : ∃ o ∈ options, c ∈ o.asWritten := by
  have hvalue : ∀ {o : OptionLine}, c ∈ trim o.value → c ∈ o.asWritten := by
    intro o htrim
    have hmem := mem_of_mem_trim htrim
    simp [asWritten, hmem]
  fun_induction pairs options with
  | case1 =>
      cases h
  | case2 o =>
      cases h
  | case3 o =>
      cases List.mem_singleton.1 h
      exact ⟨o, List.mem_singleton_self o, hvalue hc⟩
  | case4 o next rest hblank ih =>
      rcases List.mem_cons.1 h with rfl | hlater
      · exact ⟨next, by simp, mem_of_mem_trim hc⟩
      · rcases ih hlater with ⟨other, hother, hmem⟩
        exact ⟨other, by simp [hother], hmem⟩
  | case5 o next rest hblank ih =>
      rcases List.mem_cons.1 h with rfl | hlater
      · exact ⟨o, List.mem_cons_self, hvalue hc⟩
      · rcases ih hlater with ⟨other, hother, hmem⟩
        exact ⟨other, List.mem_cons_of_mem o hother, hmem⟩

theorem exists_pair_of_get?_foldl {all : List (List Char × List Char)} {before : Keyed String}
    {name value : String}
    (h : Keyed.get? name (all.foldl (fun all (name, value) =>
      Keyed.put (String.ofList name) (String.ofList value) all) before) = some value) :
    (∃ pair ∈ all, value = String.ofList pair.2) ∨ before.get? name = some value := by
  induction all generalizing before with
  | nil =>
      exact Or.inr h
  | cons pair all ih =>
      rcases ih h with ⟨later, hlater, hvalue⟩ | hbefore
      · exact Or.inl ⟨later, List.mem_cons_of_mem pair hlater, hvalue⟩
      · rw [Keyed.get?_put] at hbefore
        split at hbefore
        · cases hbefore
          exact Or.inl ⟨pair, List.mem_cons_self, rfl⟩
        · exact Or.inr hbefore

theorem mem_of_mem_read {name value : String} (h : (read options).get? name = some value)
    (hc : c ∈ value.toList) : ∃ o ∈ options, c ∈ o.asWritten := by
  rcases exists_pair_of_get?_foldl h with ⟨pair, hpair, rfl⟩ | hnone
  · exact mem_of_mem_pairs hpair (by simpa using hc)
  · cases hnone

end OptionLine
end ScriptDoc
