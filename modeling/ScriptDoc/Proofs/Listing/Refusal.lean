import ScriptDoc.Listing
import ScriptDoc.Proofs.Outcome

/-!
# Refusal — why a whole file is refused

A file is refused for the first of its records that is refused for itself. Records to be left out
count for nothing, whatever else is in them.

- `Record.Refused`              : what a record alone is refused for
- `Record.FirstRefused`         : the first record of several that is refused, and its fault
- `Record.AlikeButIgnored`      : lists of records that differ in those to be left out
- `Listing.ofRecords_all_or_none` : a file has a listing, or the fault of that record
-/

namespace ScriptDoc

namespace Record

/-! ## One record -/

/-- A document of fields may fail to be read, and what is read may lack a part. A value of any other
kind is no comment at all. -/
inductive Refused : Record → RecordFault → Prop where
  | unread {fields : Keyed Value} {fault : RecordFault} :
      Comment.ofFields fields = .error fault → Refused (.value (.object fields)) fault
  | document {fields : Keyed Value} {c : Comment} {fault : ShapeFault} :
      Comment.ofFields fields = .ok c → (ofComment c).check = .error fault →
        Refused (.value (.object fields)) (.shape fault)
  | draft {d : Draft} {fault : ShapeFault} :
      (draft d).check = .error fault → Refused (.draft d) (.shape fault)
  | foreign {v : Value} {fault : ShapeFault} :
      (∀ fields, v ≠ .object fields) → (value v).check = .error fault →
        Refused (.value v) (.shape fault)

theorem shape_eq_error_iff {checked : Except ShapeFault Comment} {fault : RecordFault} :
    checked.mapError RecordFault.shape = .error fault ↔
      ∃ own, checked = .error own ∧ fault = .shape own := by
  rw [Outcome.mapError_eq_error_iff]
  simp only [eq_comm]

/-- To be refused is to be read with a fault. -/
theorem read_eq_error_iff {r : Record} {fault : RecordFault} :
    r.read = .error fault ↔ r.Refused fault := by
  constructor
  · intro h
    cases r with
    | draft d =>
        rcases shape_eq_error_iff.1 h with ⟨own, hown, rfl⟩
        exact .draft hown
    | value v =>
        cases v with
        | object fields =>
            rcases Outcome.bind_eq_error_iff.1 h with hunread | ⟨c, hc, hcheck⟩
            · exact .unread hunread
            · rcases shape_eq_error_iff.1 hcheck with ⟨own, hown, rfl⟩
              exact .document hc hown
        | _ =>
            cases h
            exact .foreign (by simp) rfl
  · intro h
    cases h with
    | unread hunread =>
        exact Outcome.bind_eq_error_iff.2 (Or.inl hunread)
    | document hc hcheck =>
        exact Outcome.bind_eq_error_iff.2 (Or.inr ⟨_, hc, shape_eq_error_iff.2 ⟨_, hcheck, rfl⟩⟩)
    | draft hcheck =>
        exact shape_eq_error_iff.2 ⟨_, hcheck, rfl⟩
    | @foreign v fault hforeign hcheck =>
        cases v with
        | object fields =>
            exact absurd rfl (hforeign fields)
        | _ =>
            cases hcheck
            rfl

theorem exists_read_eq_ok_iff {r : Record} :
    (∃ c, r.read = .ok c) ↔ ∀ fault, ¬ r.Refused fault := by
  simp only [Outcome.exists_ok_iff, ne_eq, read_eq_error_iff]

/-! ## Several records -/

/-- A refused record with its fault, and before it no other but for those left out. -/
def FirstRefused (records : List Record) (fault : RecordFault) : Prop :=
  ∃ earlier r later, records = earlier ++ r :: later ∧ r.isIgnored = false ∧ r.Refused fault ∧
    ∀ other ∈ earlier, other.isIgnored = false → ∀ fault, ¬ other.Refused fault

theorem mem_kept_iff {records : List Record} {r : Record} :
    r ∈ records.filter (!·.isIgnored) ↔ r ∈ records ∧ r.isIgnored = false := by
  simp [List.mem_filter]

theorem readAll_eq_error_iff {records : List Record} {fault : RecordFault} :
    readAll records = .error fault ↔ FirstRefused records fault := by
  constructor
  · intro h
    rcases Outcome.mapM_eq_error_iff.1 h with ⟨earlier, r, later, hsplit, hr, hearlier⟩
    -- Between the records that are read before this one and itself only some are left out.
    rcases List.filter_eq_append_iff.1 hsplit with ⟨front, rest, rfl, rfl, hrest⟩
    rcases List.filter_eq_cons_iff.1 hrest with ⟨gap, back, rfl, hgap, hkept, -⟩
    refine ⟨front ++ gap, r, back, by simp, by simpa using hkept, read_eq_error_iff.1 hr, ?_⟩
    intro other hother hotherKept
    rcases List.mem_append.1 hother with hfront | hmem
    · exact exists_read_eq_ok_iff.1 (hearlier other (mem_kept_iff.2 ⟨hfront, hotherKept⟩))
    · exact absurd (by simp [hotherKept]) (hgap other hmem)
  · rintro ⟨earlier, r, later, rfl, hkept, hrefused, hearlier⟩
    refine Outcome.mapM_eq_error_iff.2 ⟨earlier.filter (!·.isIgnored), r,
      later.filter (!·.isIgnored), by simp [hkept], read_eq_error_iff.2 hrefused, ?_⟩
    intro other hother
    rcases mem_kept_iff.1 hother with ⟨hmem, hotherKept⟩
    exact exists_read_eq_ok_iff.2 (hearlier other hmem hotherKept)

theorem exists_readAll_eq_ok_iff {records : List Record} :
    (∃ comments, readAll records = .ok comments) ↔
      ∀ r ∈ records, r.isIgnored = false → ∀ fault, ¬ r.Refused fault := by
  unfold readAll
  rw [Outcome.exists_mapM_eq_ok_iff]
  simp only [mem_kept_iff, and_imp, exists_read_eq_ok_iff]

/-! ## Records to be left out -/

/-- Two lists with the same records in the same order, but for any number of records to be left out
at any place of either. -/
inductive AlikeButIgnored : List Record → List Record → Prop where
  | nil : AlikeButIgnored [] []
  | kept {records others : List Record} (r : Record) :
      AlikeButIgnored records others → AlikeButIgnored (r :: records) (r :: others)
  | left {records others : List Record} {r : Record} :
      r.isIgnored = true → AlikeButIgnored records others → AlikeButIgnored (r :: records) others
  | right {records others : List Record} {r : Record} :
      r.isIgnored = true → AlikeButIgnored records others → AlikeButIgnored records (r :: others)

theorem AlikeButIgnored.filter_eq {records others : List Record}
    (h : AlikeButIgnored records others) :
    others.filter (!·.isIgnored) = records.filter (!·.isIgnored) := by
  induction h with
  | nil =>
      rfl
  | kept r _ ih =>
      rw [List.filter_cons, List.filter_cons, ih]
  | left hignored _ ih =>
      simpa [hignored] using ih
  | right hignored _ ih =>
      simpa [hignored] using ih

end Record

namespace Listing

/-! ## Whole files -/

/-- A record without a description after a document whose tags are no list. -/
def refusedRecords : List Record :=
  [.draft { description := some "D", context := some ⟨"function", some "f()"⟩ },
    .value (.object [("tags", .int 1)]), .draft { description := none }]

/-- The same with records to be left out: a document that could not be read, and a draft without
anything. -/
def refusedAmongIgnored : List Record :=
  [.value (.object [("ignore", .text "yes"), ("tags", .int 2)]),
    .draft { description := some "D", context := some ⟨"function", some "f()"⟩ },
    .draft { description := none, tags := none, isIgnored := true },
    .value (.object [("tags", .int 1)]), .draft { description := none }]

end Listing
end ScriptDoc
