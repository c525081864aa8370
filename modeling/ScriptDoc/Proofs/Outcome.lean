import Mathlib.Data.List.Forall2
import Mathlib.Data.List.Perm.Basic

/-!
# Outcome — readings that may fail

A list is read by reading each entry, and the first fault ends the reading.

- `mapM_eq_ok_iff`      : a list is read exactly when each entry is, in order
- `mapM_eq_error_iff`, `mapM_eq_error_iff_getElem?` : a fault is that of the first entry that has
  one
- `exists_of_mem_mapM`  : each result is what some entry was read as
- `mapM_map_result`     : a change to each result is a change to the results
- `mapM_flatMap_eq_error_iff` : entries that are read part by part
- `mapM_eq_ok_perm`     : the order of the entries decides only the order of the results
-/

namespace ScriptDoc
namespace Outcome

variable {ε ε' α β γ : Type}

/-! ## One reading -/

theorem bind_eq_ok_iff {outcome : Except ε α} {next : α → Except ε β} {result : β} :
    (outcome >>= next) = .ok result ↔ ∃ value, outcome = .ok value ∧ next value = .ok result := by
  cases outcome with
  | error fault =>
      simp [bind, Except.bind]
  | ok value =>
      simp [bind, Except.bind]

theorem bind_eq_error_iff {outcome : Except ε α} {next : α → Except ε β} {fault : ε} :
    (outcome >>= next) = .error fault ↔
      outcome = .error fault ∨ ∃ value, outcome = .ok value ∧ next value = .error fault := by
  cases outcome with
  | error own =>
      simp [bind, Except.bind]
  | ok value =>
      simp [bind, Except.bind]

theorem map_eq_ok_iff {outcome : Except ε α} {f : α → β} {result : β} :
    outcome.map f = .ok result ↔ ∃ value, outcome = .ok value ∧ f value = result := by
  cases outcome with
  | error fault =>
      simp [Except.map]
  | ok value =>
      simp [Except.map]

theorem map_eq_error_iff {outcome : Except ε α} {f : α → β} {fault : ε} :
    outcome.map f = .error fault ↔ outcome = .error fault := by
  cases outcome with
  | error own =>
      simp [Except.map]
  | ok value =>
      simp [Except.map]

theorem mapError_eq_ok_iff {outcome : Except ε α} {f : ε → ε'} {result : α} :
    outcome.mapError f = .ok result ↔ outcome = .ok result := by
  cases outcome with
  | error fault =>
      simp [Except.mapError]
  | ok value =>
      simp [Except.mapError]

theorem mapError_eq_error_iff {outcome : Except ε α} {f : ε → ε'} {fault : ε'} :
    outcome.mapError f = .error fault ↔ ∃ own, outcome = .error own ∧ f own = fault := by
  cases outcome with
  | error own =>
      simp [Except.mapError]
  | ok value =>
      simp [Except.mapError]

theorem exists_ok_iff {outcome : Except ε α} :
    (∃ value, outcome = .ok value) ↔ ∀ fault, outcome ≠ .error fault := by
  cases outcome with
  | error fault =>
      simp
  | ok value =>
      simp

theorem exists_ok_of_isSome {outcome : Except ε α} (h : outcome.toOption.isSome = true) :
    ∃ value, outcome = .ok value := by
  cases outcome with
  | error fault =>
      cases h
  | ok value =>
      exact ⟨value, rfl⟩

/-! ## Lists of readings -/

theorem mapM_eq_ok_iff {f : α → Except ε β} {entries : List α} {results : List β} :
    entries.mapM f = .ok results ↔
      List.Forall₂ (fun entry result => f entry = .ok result) entries results := by
  induction entries generalizing results with
  | nil =>
      simp [pure, Except.pure, eq_comm]
  | cons entry entries ih =>
      -- The entries after the first are read only once the first has been.
      rw [List.mapM_cons, bind_eq_ok_iff, List.forall₂_cons_left_iff]
      constructor
      · rintro ⟨first, hfirst, hmore⟩
        rcases bind_eq_ok_iff.1 hmore with ⟨others, hothers, hsame⟩
        cases hsame
        exact ⟨first, others, hfirst, ih.1 hothers, rfl⟩
      · rintro ⟨first, others, hfirst, hothers, rfl⟩
        exact ⟨first, hfirst, bind_eq_ok_iff.2 ⟨others, ih.2 hothers, rfl⟩⟩

theorem mapM_eq_error_iff {f : α → Except ε β} {entries : List α} {fault : ε} :
    entries.mapM f = .error fault ↔
      ∃ earlier entry later, entries = earlier ++ entry :: later ∧ f entry = .error fault ∧
        ∀ other ∈ earlier, ∃ result, f other = .ok result := by
  induction entries with
  | nil =>
      simp [pure, Except.pure]
  | cons first entries ih =>
      rw [List.mapM_cons, bind_eq_error_iff]
      constructor
      · rintro (hfirst | ⟨result, hfirst, hmore⟩)
        · exact ⟨[], first, entries, rfl, hfirst, by simp⟩
        · -- The first entry is read, so the fault is that of a later one.
          have hrest : entries.mapM f = .error fault := by
            rcases bind_eq_error_iff.1 hmore with hrest | ⟨results, -, hdone⟩
            · exact hrest
            · cases hdone
          rcases ih.1 hrest with ⟨earlier, entry, later, rfl, hentry, hearlier⟩
          refine ⟨first :: earlier, entry, later, rfl, hentry, ?_⟩
          exact List.forall_mem_cons.2 ⟨⟨result, hfirst⟩, hearlier⟩
      · rintro ⟨earlier, entry, later, hsplit, hentry, hearlier⟩
        cases earlier with
        | nil =>
            cases hsplit
            exact Or.inl hentry
        | cons other earlier =>
            cases hsplit
            rcases List.forall_mem_cons.1 hearlier with ⟨⟨result, hfirst⟩, hothers⟩
            have hrest := ih.2 ⟨earlier, entry, later, rfl, hentry, hothers⟩
            exact Or.inr ⟨result, hfirst, bind_eq_error_iff.2 (Or.inl hrest)⟩

/-- The same by places: no entry before the fault has one. -/
theorem mapM_eq_error_iff_getElem? {f : α → Except ε β} {entries : List α} {fault : ε} :
    entries.mapM f = .error fault ↔
      ∃ n entry, entries[n]? = some entry ∧ f entry = .error fault ∧
        ∀ (m : Nat) (other : α), m < n → entries[m]? = some other →
          ∃ result, f other = .ok result := by
  rw [mapM_eq_error_iff]
  constructor
  · rintro ⟨earlier, entry, later, rfl, hentry, hearlier⟩
    refine ⟨earlier.length, entry, by simp, hentry, fun m other hm hother => ?_⟩
    rw [List.getElem?_append_left hm] at hother
    exact hearlier other (List.mem_of_getElem? hother)
  · rintro ⟨n, entry, hget, hentry, hearlier⟩
    rcases List.getElem?_eq_some_iff.1 hget with ⟨hn, rfl⟩
    refine ⟨entries.take n, entries[n], entries.drop (n + 1), ?_, hentry, fun other hother => ?_⟩
    · rw [List.getElem_cons_drop, List.take_append_drop]
    · rcases List.mem_take_iff_getElem.1 hother with ⟨m, hm, rfl⟩
      have hlt : m < n := by omega
      exact hearlier m _ hlt (List.getElem?_eq_getElem _)

theorem exists_mapM_eq_ok_iff {f : α → Except ε β} {entries : List α} :
    (∃ results, entries.mapM f = .ok results) ↔ ∀ entry ∈ entries, ∃ result, f entry = .ok result := by
  constructor
  · rintro ⟨results, hread⟩ entry hentry
    have hpointwise := mapM_eq_ok_iff.1 hread
    rcases List.mem_iff_get.1 hentry with ⟨n, rfl⟩
    exact ⟨_, hpointwise.get n.2 (hpointwise.length_eq ▸ n.2)⟩
  · intro hall
    refine exists_ok_iff.2 ?_
    rintro fault hfault
    -- An entry with a fault is none of those that are all read.
    rcases mapM_eq_error_iff.1 hfault with ⟨earlier, entry, later, rfl, hentry, -⟩
    rcases hall entry (by simp) with ⟨result, hresult⟩
    cases hentry.symm.trans hresult

theorem exists_of_mem_mapM {f : α → Except ε β} {entries : List α} {results : List β} {result : β}
    (hread : entries.mapM f = .ok results) (hresult : result ∈ results) :
    ∃ entry ∈ entries, f entry = .ok result := by
  have hpointwise := mapM_eq_ok_iff.1 hread
  induction hpointwise with
  | nil =>
      exact absurd hresult List.not_mem_nil
  | @cons entry first entries results hfirst hothers ih =>
      rcases List.mem_cons.1 hresult with rfl | hlater
      · exact ⟨entry, List.mem_cons_self, hfirst⟩
      · rcases ih (mapM_eq_ok_iff.2 hothers) hlater with ⟨other, hother, hsame⟩
        exact ⟨other, List.mem_cons_of_mem _ hother, hsame⟩

theorem mapM_congr {f g : α → Except ε β} {entries : List α}
    (h : ∀ entry ∈ entries, f entry = g entry) : entries.mapM f = entries.mapM g := by
  induction entries with
  | nil =>
      rfl
  | cons entry entries ih =>
      rw [List.forall_mem_cons] at h
      rw [List.mapM_cons, List.mapM_cons, h.1, ih h.2]

/-- To change each result is to change the results of the whole list. -/
theorem mapM_map_result (f : α → Except ε β) (change : β → γ) (entries : List α) :
    (entries.mapM fun entry => (f entry).map change) = (entries.mapM f).map (List.map change) := by
  induction entries with
  | nil =>
      rfl
  | cons entry entries ih =>
      rw [List.mapM_cons, List.mapM_cons, ih]
      cases f entry with
      | error fault =>
          rfl
      | ok result =>
          cases entries.mapM f with
          | error fault =>
              rfl
          | ok results =>
              rfl

/-- The parts of all entries, one after the other, are read with the fault that the entries have. -/
theorem mapM_flatMap_eq_error_iff {δ : Type} {f : α → Except ε β} {parts : α → List γ}
    {read : γ → Except ε δ} {entries : List α}
    (h : ∀ entry fault, f entry = .error fault ↔ (parts entry).mapM read = .error fault)
    {fault : ε} :
    (entries.flatMap parts).mapM read = .error fault ↔ entries.mapM f = .error fault := by
  have hok : ∀ entry, (∃ result, f entry = .ok result) ↔
      ∃ results, (parts entry).mapM read = .ok results := by
    intro entry
    rw [exists_ok_iff, exists_ok_iff]
    exact forall_congr' fun fault => not_congr (h entry fault)
  induction entries with
  | nil =>
      simp [pure, Except.pure]
  | cons entry entries ih =>
      rw [List.flatMap_cons, List.mapM_append, List.mapM_cons, bind_eq_error_iff,
        bind_eq_error_iff, h]
      refine or_congr_right ?_
      -- Whatever was read before, the fault is that of the entries after the first.
      constructor
      · rintro ⟨results, hresults, hmore⟩
        rcases (hok entry).2 ⟨results, hresults⟩ with ⟨result, hresult⟩
        rcases bind_eq_error_iff.1 hmore with hlater | ⟨others, -, hdone⟩
        · exact ⟨result, hresult, bind_eq_error_iff.2 (Or.inl (ih.1 hlater))⟩
        · cases hdone
      · rintro ⟨result, hresult, hmore⟩
        rcases (hok entry).1 ⟨result, hresult⟩ with ⟨results, hresults⟩
        rcases bind_eq_error_iff.1 hmore with hlater | ⟨others, -, hdone⟩
        · exact ⟨results, hresults, bind_eq_error_iff.2 (Or.inl (ih.2 hlater))⟩
        · cases hdone

theorem mapM_eq_ok_perm {f : α → Except ε β} {entries shuffled : List α} {results : List β}
    (hperm : shuffled.Perm entries) (hread : entries.mapM f = .ok results) :
    ∃ others, shuffled.mapM f = .ok others ∧ others.Perm results := by
  have hpointwise := mapM_eq_ok_iff.1 hread
  -- A shuffle of one side of a pointwise relation can be followed on the other.
  rcases List.perm_comp_forall₂ hperm hpointwise with ⟨others, hothers, hshuffle⟩
  exact ⟨others, mapM_eq_ok_iff.2 hothers, hshuffle⟩

end Outcome
end ScriptDoc
