import ScriptDoc.Anchor
import ScriptDoc.Link
import ScriptDoc.Text.Quoted

/-!
# Markup — telling links from escaped text

An emitted type name is a link or an escaped text, and its characters say which, and where the
link leads.

- `Anchor.mem_slug`            : anchors hold word characters, dots and hyphens only
- `Link.anchored_inj`          : a link determines its anchor and its name
- `Link.escaped_ne_anchored`   : an escaped text is no link
-/

namespace ScriptDoc

open Text

/-! ## Characters of an anchor -/

namespace Anchor

theorem mem_hyphenate {inGap : Bool} {s : List Char} {c : Char} (h : c ∈ hyphenate inGap s) :
    isAnchorChar c = true ∨ c = '-' := by
  induction s generalizing inGap with
  | nil =>
      simp [hyphenate] at h
  | cons first s ih =>
      unfold hyphenate at h
      split at h
      · next hfirst =>
        rcases List.mem_cons.1 h with rfl | hrest
        · exact Or.inl hfirst
        · exact ih hrest
      · split at h
        · -- Inside a gap nothing more is written.
          exact ih h
        · rcases List.mem_cons.1 h with rfl | hrest
          · exact Or.inr rfl
          · exact ih hrest

theorem mem_of_mem_dropHyphen {s : List Char} {c : Char} (h : c ∈ dropHyphen s) : c ∈ s := by
  unfold dropHyphen at h
  split at h
  · exact List.mem_cons_of_mem _ h
  · exact h

theorem mem_slug {s : List Char} {c : Char} (h : c ∈ slug s) :
    isAnchorChar c = true ∨ c = '-' := by
  unfold slug trimHyphens at h
  have hend := mem_of_mem_dropHyphen (List.mem_reverse.1 h)
  have hstart := mem_of_mem_dropHyphen (List.mem_reverse.1 hend)
  exact mem_hyphenate hstart

theorem doubleMark_notMem_within (filename name : String) :
    doubleMark ∉ (within filename name).toList := by
  intro hmem
  unfold within ofText at hmem
  rw [String.toList_ofList] at hmem
  rcases mem_slug hmem with hanchor | hhyphen
  · exact absurd hanchor (by decide)
  · exact absurd hhyphen (by decide)

end Anchor

/-! ## Links and escaped texts -/

namespace Link

/-- A text is cut in one way only at its first quotation mark. -/
theorem eq_of_append_doubleMark {a b rest rest' : List Char} (ha : doubleMark ∉ a)
    (hb : doubleMark ∉ b) (h : a ++ doubleMark :: rest = b ++ doubleMark :: rest') :
    a = b ∧ rest = rest' := by
  induction a generalizing b with
  | nil =>
      cases b with
      | nil =>
          exact ⟨rfl, (List.cons.inj h).2⟩
      | cons c b =>
          have hc : doubleMark = c := (List.cons.inj h).1
          exact absurd (hc ▸ List.mem_cons_self) hb
  | cons d a ih =>
      cases b with
      | nil =>
          have hd : d = doubleMark := (List.cons.inj h).1
          exact absurd (hd ▸ List.mem_cons_self) ha
      | cons c b =>
          rcases List.cons.inj h with ⟨rfl, htail⟩
          have ha' : doubleMark ∉ a := fun hmem => ha (List.mem_cons_of_mem _ hmem)
          have hb' : doubleMark ∉ b := fun hmem => hb (List.mem_cons_of_mem _ hmem)
          rcases ih ha' hb' htail with ⟨rfl, hrest⟩
          exact ⟨rfl, hrest⟩

theorem toList_anchored (uid name : String) :
    (anchored uid name).toList =
      "<a href=".toList ++ doubleMark :: '#' ::
        (uid.toList ++ doubleMark :: '>' :: (name.toList ++ "</a>".toList)) := by
  simp [anchored, doubleMark, String.toList_append]

theorem anchored_inj {uid uid' name name' : String} (hquote : doubleMark ∉ uid.toList)
    (hquote' : doubleMark ∉ uid'.toList) (h : anchored uid name = anchored uid' name') :
    uid = uid' ∧ name = name' := by
  have hchars := congrArg String.toList h
  rw [toList_anchored, toList_anchored] at hchars
  have htail := List.append_cancel_left hchars
  simp only [List.cons.injEq, true_and] at htail
  -- The anchor ends at the first quotation mark, and all that is left is the name and its end.
  rcases eq_of_append_doubleMark hquote hquote' htail with ⟨huid, hrest⟩
  have hname := List.append_cancel_right (List.cons.inj hrest).2
  exact ⟨String.toList_injective huid, String.toList_injective hname⟩

theorem lt_notMem_escapeChar (c : Char) : '<' ∉ escapeChar c := by
  unfold escapeChar
  split
  · intro hmem
    have hdigit : '<' ∉ Nat.toDigits 10 c.toNat := by
      intro hdigits
      have hisDigit := Nat.isDigit_of_mem_toDigits (by decide) (by decide) hdigits
      exact absurd hisDigit (by decide)
    simp [reference, hdigit] at hmem
  · next hplain =>
    intro hmem
    rw [List.mem_singleton] at hmem
    subst hmem
    exact hplain (by decide)

theorem escaped_ne_anchored (s uid name : String) : escaped s ≠ anchored uid name := by
  intro h
  -- A link begins with a character that escaping leaves nowhere.
  have hmem : '<' ∈ (anchored uid name).toList := by
    simp [toList_anchored]
  rw [← h, escaped, String.toList_ofList] at hmem
  rcases List.mem_flatMap.1 hmem with ⟨c, -, hc⟩
  exact lt_notMem_escapeChar c hc

end Link
end ScriptDoc
