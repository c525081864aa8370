import Mathlib.Data.List.TakeWhile
import ScriptDoc.Path

/-!
# Normal — where a path leads, however it is spelled

- `Path.enter`              : one name of a path
- `Path.collapse_append`    : a path is entered name by name
- `Path.IsSettled`          : steps up first, then names
- `Path.enter_of_enter`, `Path.collapse_collapse` : what collapsing leaves leads to the same place
- `Path.parts_join`         : names put together and taken apart again
- `Path.slashes`            : what decides about the root of a path
- `Path.parts_append`       : a path taken from another one is entered after it
- `Path.normalize_append`   : only the normal form of such a path counts
- `Path.relative_append`    : seen from the one it is taken from, it is its own normal form
-/

namespace ScriptDoc
namespace Path

open Text

/-! ## One name after the other -/

/-- The names kept so far, the last one first, after one name more. -/
def enter (fromRoot : Bool) (done : List (List Char)) (name : List Char) : List (List Char) :=
  if name = here then done
  else if name = up then
    match done with
    | [] => if fromRoot then [] else [up]
    | last :: before => if last = up then up :: done else before
  else name :: done

/-- A name that is entered, and does not stay or go up. -/
def IsName (name : List Char) : Prop :=
  name ≠ here ∧ name ≠ up

variable {fromRoot : Bool} {done kept names : List (List Char)} {name : List Char}

theorem up_ne_here : up ≠ here := by
  decide

theorem here_or_up_or_isName (name : List Char) : name = here ∨ name = up ∨ IsName name := by
  by_cases hhere : name = here
  · exact Or.inl hhere
  · by_cases hup : name = up
    · exact Or.inr (Or.inl hup)
    · exact Or.inr (Or.inr ⟨hhere, hup⟩)

theorem enter_here : enter fromRoot done here = done :=
  if_pos rfl

theorem enter_name (h : IsName name) : enter fromRoot done name = name :: done := by
  simp only [enter, if_neg h.1, if_neg h.2]

theorem enter_up_of_name (h : IsName name) : enter fromRoot (name :: done) up = done := by
  simp only [enter, if_neg up_ne_here, if_true, if_neg h.2]

theorem enter_up_of_up : enter fromRoot (up :: done) up = up :: up :: done := by
  simp only [enter, if_neg up_ne_here, if_true]

theorem collapse_eq_foldl (fromRoot : Bool) (done names : List (List Char)) :
    collapse fromRoot done names = (names.foldl (enter fromRoot) done).reverse := by
  -- On the names; the cases are those of both definitions.
  induction names generalizing done with
  | nil =>
      rfl
  | cons name rest ih =>
      unfold collapse
      rw [List.foldl_cons]
      by_cases hhere : name = here
      · rw [if_pos hhere, ih, hhere, enter_here]
      · rw [if_neg hhere]
        by_cases hup : name = up
        · rw [if_pos hup, hup]
          cases done with
          | nil =>
              exact ih _
          | cons last before =>
              by_cases hlast : last = up
              · simp only [hlast, if_true, ih, enter_up_of_up]
              · simp only [if_neg hlast, ih]
                simp [enter, hlast, up_ne_here]
        · rw [if_neg hup, ih, enter_name ⟨hhere, hup⟩]

theorem collapse_append (fromRoot : Bool) (done names more : List (List Char)) :
    collapse fromRoot done (names ++ more) =
      collapse fromRoot (collapse fromRoot done names).reverse more := by
  simp only [collapse_eq_foldl, List.foldl_append, List.reverse_reverse]

theorem collapse_here (rest : List (List Char)) :
    collapse fromRoot done (here :: rest) = collapse fromRoot done rest := by
  simp only [collapse_eq_foldl, List.foldl_cons, enter_here]

theorem foldl_enter_of_names (h : ∀ name ∈ names, IsName name) :
    names.foldl (enter fromRoot) done = names.reverse ++ done := by
  induction names generalizing done with
  | nil =>
      rfl
  | cons name rest ih =>
      rw [List.forall_mem_cons] at h
      rw [List.foldl_cons, enter_name h.1, ih h.2, List.reverse_cons, List.append_assoc]
      rfl

/-- Names alone are entered as they stand. -/
theorem collapse_of_names (h : ∀ name ∈ names, IsName name) :
    collapse fromRoot done names = done.reverse ++ names := by
  rw [collapse_eq_foldl, foldl_enter_of_names h, List.reverse_append, List.reverse_reverse]

/-! ## What is left of a path -/

/-- The last name first: there are steps up only before the first name. -/
inductive IsSettled : List (List Char) → Prop where
  | ups (count : Nat) : IsSettled (List.replicate count up)
  | name {name : List Char} {before : List (List Char)} :
      IsName name → IsSettled before → IsSettled (name :: before)

theorem IsSettled.enter (h : IsSettled kept) (name : List Char) :
    IsSettled (enter false kept name) := by
  rcases here_or_up_or_isName name with rfl | rfl | hname
  · rw [enter_here]
    exact h
  · cases h with
    | ups count =>
        cases count with
        | zero => exact .ups 1
        | succ count =>
            rw [List.replicate_succ, enter_up_of_up]
            exact .ups (count + 2)
    | name hlast hbefore =>
        rw [enter_up_of_name hlast]
        exact hbefore
  · rw [enter_name hname]
    exact .name hname h

theorem IsSettled.foldl_enter (h : IsSettled kept) (names : List (List Char)) :
    IsSettled (names.foldl (Path.enter false) kept) := by
  induction names generalizing kept with
  | nil => exact h
  | cons name rest ih => exact ih (h.enter name)

/-- Where the first one is no step up, none is. -/
theorem IsSettled.isName (h : IsSettled kept) (hfirst : kept.getLast? ≠ some up) :
    ∀ name ∈ kept, IsName name := by
  induction h with
  | ups count =>
      cases count with
      | zero => exact List.forall_mem_nil _
      | succ count => simp [List.getLast?_replicate] at hfirst
  | @name name before hname hbefore ih =>
      refine List.forall_mem_cons.2 ⟨hname, ?_⟩
      cases before with
      | nil => exact List.forall_mem_nil _
      | cons last earlier => exact ih (by simpa only [List.getLast?_cons_cons] using hfirst)

/-- To take a name up in what is kept and to go there is to go there and take the name. -/
theorem enter_of_enter (h : IsSettled kept) (name : List Char) :
    (enter false kept name).reverse.foldl (enter fromRoot) done =
      enter fromRoot (kept.reverse.foldl (enter fromRoot) done) name := by
  rcases here_or_up_or_isName name with rfl | rfl | hname
  · rw [enter_here, enter_here]
  · cases h with
    | ups count =>
        cases count with
        | zero => rfl
        | succ count =>
            rw [List.replicate_succ, enter_up_of_up, List.reverse_cons, List.foldl_append]
            rfl
    | name hlast hbefore =>
        -- The step up takes the last name back on both sides.
        rw [enter_up_of_name hlast, List.reverse_cons, List.foldl_append, List.foldl_cons,
          List.foldl_nil, enter_name hlast, enter_up_of_name hlast]
  · rw [enter_name hname, List.reverse_cons, List.foldl_append]
    rfl

theorem foldl_enter_of_foldl_enter (h : IsSettled kept) :
    (names.foldl (enter false) kept).reverse.foldl (enter fromRoot) done =
      names.foldl (enter fromRoot) (kept.reverse.foldl (enter fromRoot) done) := by
  induction names generalizing kept with
  | nil =>
      rfl
  | cons name rest ih =>
      simp only [List.foldl_cons, ih (h.enter name), enter_of_enter h]

/-- What is left of a path leads where the path leads, from wherever it is taken. -/
theorem collapse_collapse (fromRoot : Bool) (done names : List (List Char)) :
    collapse fromRoot done (collapse false [] names) = collapse fromRoot done names := by
  have hrun := @foldl_enter_of_foldl_enter fromRoot done [] names (.ups 0)
  simpa only [collapse_eq_foldl, List.reverse_nil, List.foldl_nil] using
    congrArg List.reverse hrun

/-- Where what is left does not begin with a step up, it holds none. -/
theorem isName_of_mem_collapse (h : (collapse false [] names).head? ≠ some up) :
    ∀ name ∈ collapse false [] names, IsName name := by
  have hsettled : IsSettled (names.foldl (enter false) []) :=
    IsSettled.foldl_enter (.ups 0) names
  simp only [collapse_eq_foldl, List.head?_reverse, List.mem_reverse] at h ⊢
  exact hsettled.isName h

theorem isName_of_mem_collapse_root (hdone : ∀ name ∈ done, IsName name) :
    ∀ name ∈ collapse true done names, IsName name := by
  induction names generalizing done with
  | nil =>
      simpa [collapse] using hdone
  | cons first rest ih =>
      have hnext : ∀ name ∈ enter true done first, IsName name := by
        rcases here_or_up_or_isName first with rfl | rfl | hfirst
        · rwa [enter_here]
        · cases done with
          | nil =>
              simp [enter, up_ne_here]
          | cons last before =>
              rw [List.forall_mem_cons] at hdone
              rw [enter_up_of_name hdone.1]
              exact hdone.2
        · rw [enter_name hfirst]
          exact List.forall_mem_cons.2 ⟨hfirst, hdone⟩
      simpa only [collapse_eq_foldl, List.foldl_cons] using ih hnext

/-- At the root no step up is left. -/
theorem collapse_collapse_root (names : List (List Char)) :
    collapse true [] (collapse true [] names) = collapse true [] names :=
  collapse_of_names (isName_of_mem_collapse_root (List.forall_mem_nil _))

/-! ## Names in a path -/

/-- What can stand between two slashes. -/
def IsPart (name : List Char) : Prop :=
  name ≠ [] ∧ '/' ∉ name

theorem isPart_of_mem_parts {path : List Char} (h : name ∈ parts path) : IsPart name := by
  rcases List.mem_filter.1 h with ⟨hpiece, hne⟩
  exact ⟨by simpa using hne, not_mem_of_mem_splitOn hpiece⟩

theorem isPart_of_mem_collapse (hdone : ∀ name ∈ done, IsPart name)
    (hnames : ∀ name ∈ names, IsPart name) :
    ∀ name ∈ collapse fromRoot done names, IsPart name := by
  have hup : IsPart up := ⟨by decide, by decide⟩
  induction names generalizing done with
  | nil =>
      simpa [collapse] using hdone
  | cons first rest ih =>
      rw [List.forall_mem_cons] at hnames
      have hnext : ∀ name ∈ enter fromRoot done first, IsPart name := by
        unfold enter
        split
        · exact hdone
        · split
          · split
            · split
              · exact hdone
              · exact List.forall_mem_singleton.2 hup
            · split
              · exact List.forall_mem_cons.2 ⟨hup, hdone⟩
              · exact (List.forall_mem_cons.1 hdone).2
          · exact List.forall_mem_cons.2 ⟨hnames.1, hdone⟩
      simpa only [collapse_eq_foldl, List.foldl_cons] using ih hnext hnames.2

theorem isPart_of_mem_left {path : List Char} :
    ∀ name ∈ collapse fromRoot [] (parts path), IsPart name :=
  isPart_of_mem_collapse (List.forall_mem_nil _) fun _ hname => isPart_of_mem_parts hname

theorem parts_join (h : ∀ name ∈ names, IsPart name) : parts (join ['/'] names) = names := by
  by_cases hnone : names = []
  · rw [hnone]
    rfl
  · have hsplit : splitOn '/' (join ['/'] names) = names :=
      splitOn_join hnone fun name hname => (h name hname).2
    rw [parts, hsplit, List.filter_eq_self]
    intro name hname
    simpa using (h name hname).1

theorem parts_append_slash (s t : List Char) : parts (s ++ '/' :: t) = parts s ++ parts t := by
  rw [parts, splitOn_append, List.filter_append]
  rfl

theorem parts_slash (s : List Char) : parts ('/' :: s) = parts s :=
  parts_append_slash [] s

/-! ## Absolute and relative paths -/

variable {path : List Char}

theorem isAbsolute_iff : isAbsolute path = true ↔ path.head? = some '/' := by
  unfold isAbsolute
  split
  · simp
  · next hne =>
    cases path with
    | nil => simp
    | cons c s =>
        have hc : c ≠ '/' := fun heq => hne s (heq ▸ rfl)
        simp [hc]

theorem isAbsolute_eq_false_iff : isAbsolute path = false ↔ path.head? ≠ some '/' := by
  rw [← Bool.not_eq_true, isAbsolute_iff]

/-- The slashes that a path starts with. -/
def slashes (path : List Char) : List Char :=
  path.takeWhile (· == '/')

theorem rootMark_slashes (path : List Char) : rootMark (slashes path) = rootMark path := by
  unfold slashes
  match path with
  | [] => rfl
  | [a] => by_cases ha : a = '/' <;> simp [rootMark, ha]
  | [a, b] => by_cases ha : a = '/' <;> by_cases hb : b = '/' <;> simp [rootMark, ha, hb]
  | a :: b :: c :: s =>
      by_cases ha : a = '/' <;> by_cases hb : b = '/' <;> by_cases hc : c = '/' <;>
        simp [rootMark, ha, hb, hc]

theorem isAbsolute_slashes (path : List Char) : isAbsolute (slashes path) = isAbsolute path := by
  unfold slashes
  cases path with
  | nil => rfl
  | cons c s => by_cases hc : c = '/' <;> simp [isAbsolute, hc]

theorem slashes_of_relative (h : isAbsolute path = false) : slashes path = [] := by
  unfold slashes
  cases path with
  | nil => rfl
  | cons c s =>
      have hc : c ≠ '/' := by simpa using isAbsolute_eq_false_iff.1 h
      simp [hc]

theorem rootMark_of_relative (h : isAbsolute path = false) : rootMark path = [] := by
  rw [← rootMark_slashes, slashes_of_relative h]
  rfl

theorem exists_rootMark_of_absolute (h : isAbsolute path = true) :
    ∃ more, rootMark path = '/' :: more ∧ ∀ s, parts (more ++ s) = parts s := by
  unfold rootMark
  split
  · exact ⟨[], rfl, fun _ => rfl⟩
  · exact ⟨['/'], rfl, parts_slash⟩
  · exact ⟨[], rfl, fun _ => rfl⟩
  · next hne =>
    unfold isAbsolute at h
    split at h
    · exact absurd rfl (hne _)
    · cases h

/-- A relative path is spelled by what is left of it. -/
theorem normalize_of_relative (h : isAbsolute path = false) :
    normalize path =
      if collapse false [] (parts path) = [] then here
      else join ['/'] (collapse false [] (parts path)) := by
  have hempty : join ['/'] (collapse false [] (parts path)) = [] ↔
      collapse false [] (parts path) = [] := by
    constructor
    · intro hjoin
      exact (parts_join isPart_of_mem_left).symm.trans (congrArg parts hjoin)
    · intro hnone
      rw [hnone]
      rfl
  simp only [normalize, h, rootMark_of_relative h, List.nil_append, List.isEmpty_iff, hempty]

theorem parts_normalize_of_absolute (h : isAbsolute path = true) :
    parts (normalize path) = collapse true [] (parts path) := by
  rcases exists_rootMark_of_absolute h with ⟨more, hmark, hmore⟩
  simp [normalize, h, hmark, parts_slash, hmore, parts_join isPart_of_mem_left]

theorem parts_normalize_of_relative (h : isAbsolute path = false) :
    parts (normalize path) =
      if collapse false [] (parts path) = [] then [here]
      else collapse false [] (parts path) := by
  rw [normalize_of_relative h]
  split
  · rfl
  · exact parts_join isPart_of_mem_left

/-- The normal form of a relative path leads where the path leads. -/
theorem collapse_parts_normalize (h : isAbsolute path = false) (fromRoot : Bool)
    (done : List (List Char)) :
    collapse fromRoot done (parts (normalize path)) = collapse fromRoot done (parts path) := by
  rw [parts_normalize_of_relative h, ← collapse_collapse fromRoot done (parts path)]
  split
  · next hnone => rw [hnone, collapse_here]
  · rfl

theorem isAbsolute_normalize (path : List Char) :
    isAbsolute (normalize path) = isAbsolute path := by
  cases h : isAbsolute path with
  | true =>
      rcases exists_rootMark_of_absolute h with ⟨more, hmark, -⟩
      simp [normalize, hmark, isAbsolute]
  | false =>
      rw [normalize_of_relative h]
      split
      · rfl
      · next hsome =>
        rcases List.exists_cons_of_ne_nil hsome with ⟨first, others, hfirst⟩
        have hpart : IsPart first := isPart_of_mem_left first (hfirst ▸ List.mem_cons_self)
        rcases List.exists_cons_of_ne_nil hpart.1 with ⟨c, s, hc⟩
        have hslash : c ≠ '/' := fun heq => hpart.2 (by simp [hc, heq])
        rw [isAbsolute_eq_false_iff, hfirst, hc]
        cases others with
        | nil => simpa [join] using hslash
        | cons next others => simpa [join] using hslash

/-! ## A path taken from another one -/

variable {base : List Char}

/-- There is one slash at least between the two. -/
theorem append_cases (h : isAbsolute path = false) (base : List Char) :
    (base = [] ∧ append base path = path) ∨
      (∃ front, base = front ++ ['/'] ∧ append base path = front ++ '/' :: path) ∨
        (base ≠ [] ∧ base.getLast? ≠ some '/' ∧ append base path = base ++ '/' :: path) := by
  by_cases hnone : base = []
  · exact Or.inl ⟨hnone, by simp [append, h, hnone]⟩
  · by_cases hlast : base.getLast? = some '/'
    · rcases List.getLast?_eq_some_iff.1 hlast with ⟨front, hfront⟩
      refine Or.inr (Or.inl ⟨front, hfront, ?_⟩)
      simp [append, h, hfront]
    · refine Or.inr (Or.inr ⟨hnone, hlast, ?_⟩)
      simp [append, h, hnone, hlast]

theorem parts_append (h : isAbsolute path = false) (base : List Char) :
    parts (append base path) = parts base ++ parts path := by
  rcases append_cases h base with ⟨rfl, happend⟩ | ⟨front, rfl, happend⟩ | ⟨-, -, happend⟩
  · rw [happend]
    rfl
  · have hfront : parts (front ++ ['/']) = parts front := by
      rw [parts_append_slash]
      exact List.append_nil _
    rw [happend, parts_append_slash, hfront]
  · rw [happend, parts_append_slash]

theorem append_of_absolute (h : isAbsolute path = true) (base : List Char) :
    append base path = path :=
  if_pos h

theorem slashes_append (h : isAbsolute path = false) (base : List Char) :
    slashes (append base path) = slashes base := by
  have hpath : path.takeWhile (· == '/') = [] := slashes_of_relative h
  rcases append_cases h base with ⟨rfl, happend⟩ | ⟨front, rfl, happend⟩ | ⟨hsome, hlast, happend⟩
  · rw [happend, slashes_of_relative h]
    rfl
  · simp [happend, slashes, List.takeWhile_append, hpath]
  · have hall : (base.takeWhile (· == '/')).length ≠ base.length := by
      intro hlength
      have hbase : base.takeWhile (· == '/') = base :=
        (List.takeWhile_prefix _).eq_of_length hlength
      have hslash : base.getLast hsome = '/' := by
        simpa using List.takeWhile_eq_self_iff.1 hbase _ (List.getLast_mem hsome)
      exact hlast ((List.getLast?_eq_some_getLast hsome).trans (congrArg some hslash))
    simp only [happend, slashes, List.takeWhile_append, if_neg hall]

theorem rootMark_append (h : isAbsolute path = false) (base : List Char) :
    rootMark (append base path) = rootMark base := by
  rw [← rootMark_slashes, slashes_append h, rootMark_slashes]

theorem isAbsolute_append (h : isAbsolute path = false) (base : List Char) :
    isAbsolute (append base path) = isAbsolute base := by
  rw [← isAbsolute_slashes, slashes_append h, isAbsolute_slashes]

theorem normalize_congr {other : List Char} (hmark : rootMark path = rootMark other)
    (habsolute : isAbsolute path = isAbsolute other)
    (hleft : collapse (isAbsolute other) [] (parts path) =
      collapse (isAbsolute other) [] (parts other)) : normalize path = normalize other := by
  simp only [normalize, hmark, habsolute, hleft]

/-- Of a relative path that is taken from another one only the normal form counts. -/
theorem normalize_append (h : isAbsolute path = false) (base : List Char) :
    normalize (append base (normalize path)) = normalize (append base path) := by
  have hnormal : isAbsolute (normalize path) = false := (isAbsolute_normalize path).trans h
  refine normalize_congr ?_ ?_ ?_
  · rw [rootMark_append hnormal, rootMark_append h]
  · rw [isAbsolute_append hnormal, isAbsolute_append h]
  · rw [parts_append hnormal, parts_append h, collapse_append, collapse_parts_normalize h,
      ← collapse_append]

/-! ## Seen from the root, and from another path -/

variable {cwd : List Char}

theorem parts_absolute (h : isAbsolute cwd = true) (path : List Char) :
    parts (absolute cwd path) = collapse true [] (parts (append cwd path)) := by
  refine parts_normalize_of_absolute ?_
  cases hpath : isAbsolute path with
  | true => rwa [append_of_absolute hpath]
  | false => rwa [isAbsolute_append hpath]

theorem parts_absolute_normalize (h : isAbsolute cwd = true) (path : List Char) :
    parts (absolute cwd (normalize path)) = parts (absolute cwd path) := by
  rw [parts_absolute h, parts_absolute h]
  cases hpath : isAbsolute path with
  | true =>
      have hnormal := (isAbsolute_normalize path).trans hpath
      rw [append_of_absolute hnormal, append_of_absolute hpath, parts_normalize_of_absolute hpath,
        collapse_collapse_root]
  | false =>
      have hnormal := (isAbsolute_normalize path).trans hpath
      rw [parts_append hnormal, parts_append hpath, collapse_append,
        collapse_parts_normalize hpath, ← collapse_append]

theorem parts_absolute_append (hcwd : isAbsolute cwd = true) (h : isAbsolute path = false)
    (base : List Char) :
    parts (absolute cwd (append base path)) =
      collapse true (parts (absolute cwd base)).reverse (parts path) := by
  rw [parts_absolute hcwd, parts_absolute hcwd, ← collapse_append]
  cases hbase : isAbsolute base with
  | true =>
      have happend := (isAbsolute_append h base).trans hbase
      rw [append_of_absolute happend, append_of_absolute hbase, parts_append h]
  | false =>
      have happend := (isAbsolute_append h base).trans hbase
      rw [parts_append happend, parts_append hbase, parts_append h, List.append_assoc]

theorem afterCommon_append (names more : List (List Char)) :
    afterCommon names (names ++ more) = ([], more) := by
  induction names with
  | nil => cases more <;> rfl
  | cons name rest ih => simpa [afterCommon] using ih

/-- A relative path that does not begin with a step up does not leave the one that it is taken from,
whichever that is, and there it is known by its normal form. -/
theorem relative_append (hcwd : isAbsolute cwd = true) (h : isAbsolute path = false)
    (hinside : (parts (normalize path)).head? ≠ some up) (base : List Char) :
    relative cwd base (normalize (append base path)) = normalize path := by
  have hleft : ∀ name ∈ collapse false [] (parts path), IsName name := by
    rw [parts_normalize_of_relative h] at hinside
    split at hinside
    · next hnone =>
      rw [hnone]
      exact List.forall_mem_nil _
    · exact isName_of_mem_collapse hinside
  have hforth : parts (absolute cwd (normalize (append base path))) =
      parts (absolute cwd base) ++ collapse false [] (parts path) := by
    rw [parts_absolute_normalize hcwd, parts_absolute_append hcwd h, ← collapse_collapse,
      collapse_of_names hleft, List.reverse_reverse]
  simp only [relative, hforth, afterCommon_append, List.map_nil, List.nil_append,
    List.isEmpty_iff, normalize_of_relative h]

end Path
end ScriptDoc
