import Mathlib.Data.List.Basic
import ScriptDoc.Number.Integer
import ScriptDoc.Proofs.Text.Trim

/-!
# Numerals — which texts are whole numbers

- `Integer.IsNumeral`            : digits of any script, with single underscores between them
- `Integer.IsSign`               : a sign, or none
- `Integer.IsWritten`            : a sign and a numeral, with white space around both
- `Integer.digits?_eq_some_iff`  : what is read as digits
- `Integer.ofText?_eq_some_iff`  : what is read as a number, and as which
-/

namespace ScriptDoc
namespace Integer

open Text

/-! ## Numerals -/

inductive IsNumeral : List Char → List Nat → Prop where
  | single {c : Char} {d : Nat} : digit? c = some d → IsNumeral [c] [d]
  | next {c : Char} {d : Nat} {s : List Char} {ds : List Nat} :
      digit? c = some d → IsNumeral s ds → IsNumeral (c :: s) (d :: ds)
  | parted {c : Char} {d : Nat} {s : List Char} {ds : List Nat} :
      digit? c = some d → IsNumeral s ds → IsNumeral (c :: '_' :: s) (d :: ds)

inductive IsSign : List Char → Bool → Prop where
  | none : IsSign [] false
  | plus : IsSign ['+'] false
  | minus : IsSign ['-'] true

def signed (negative : Bool) (n : Nat) : Int :=
  if negative then -(n : Int) else n

/-- The text is a number with these digits, which are not too many. -/
inductive IsWritten : List Char → Int → Prop where
  | written {before sign numeral after : List Char} {negative : Bool} {ds : List Nat} :
      (∀ c ∈ before, isMargin c = true) → (∀ c ∈ after, isMargin c = true) →
        IsSign sign negative → IsNumeral numeral ds → ds.length ≤ maxDigits →
          IsWritten (before ++ (sign ++ numeral ++ after)) (signed negative (ofDigits ds))

/-! ## Digits -/

variable {c : Char} {d : Nat} {s body : List Char} {ds : List Nat}

theorem digit?_underscore : digit? '_' = none := by
  decide

/-- No digit is white space. -/
theorem isMargin_of_digit? (h : digit? c = some d) : isMargin c = false := by
  -- There are few blanks, so each one can be looked up among the digits.
  have hall : ∀ n ∈ blankCodes, digit? (Char.ofNat n) = none := by
    decide +kernel
  cases hblank : isBlank c with
  | false =>
      simp [isMargin, hblank]
  | true =>
      have hnone := hall c.toNat (toNat_mem_blankCodes hblank)
      rw [Char.ofNat_toNat, h] at hnone
      cases hnone

namespace IsNumeral

theorem exists_cons (h : IsNumeral s ds) : ∃ c rest d, s = c :: rest ∧ digit? c = some d := by
  cases h with
  | single hc => exact ⟨_, _, _, rfl, hc⟩
  | next hc hrest => exact ⟨_, _, _, rfl, hc⟩
  | parted hc hrest => exact ⟨_, _, _, rfl, hc⟩

theorem exists_concat (h : IsNumeral s ds) : ∃ rest c d, s = rest ++ [c] ∧ digit? c = some d := by
  induction h with
  | @single c d hc =>
      exact ⟨[], c, d, rfl, hc⟩
  | @next first _ _ _ hfirst hrest ih =>
      rcases ih with ⟨rest, c, d, rfl, hc⟩
      exact ⟨first :: rest, c, d, rfl, hc⟩
  | @parted first _ _ _ hfirst hrest ih =>
      rcases ih with ⟨rest, c, d, rfl, hc⟩
      exact ⟨first :: '_' :: rest, c, d, rfl, hc⟩

end IsNumeral

theorem isNumeral_of_digits? (h : digits? s = some ds) : IsNumeral s ds := by
  -- One case for each way in which the digits go on.
  fun_induction digits? s generalizing ds with
  | case1 =>
      cases h
  | case2 c =>
      rcases Option.map_eq_some_iff.1 h with ⟨d, hd, rfl⟩
      exact .single hd
  | case3 c s ih =>
      simp only [Option.bind_eq_bind, Option.bind_eq_some_iff] at h
      rcases h with ⟨d, hd, more, hmore, hsame⟩
      cases hsame
      exact .parted hd (ih hmore)
  | case4 c s hsingle hparted ih =>
      simp only [Option.bind_eq_bind, Option.bind_eq_some_iff] at h
      rcases h with ⟨d, hd, more, hmore, hsame⟩
      cases hsame
      exact .next hd (ih hmore)

theorem digits?_of_isNumeral (h : IsNumeral s ds) : digits? s = some ds := by
  induction h with
  | single hc =>
      simp [digits?, hc]
  | parted hc hrest ih =>
      simp [digits?, hc, ih]
  | next hc hrest ih =>
      -- What follows begins with a digit, so it is neither nothing nor an underscore.
      rcases hrest.exists_cons with ⟨c, rest, d, rfl, hfirst⟩
      have hne : c ≠ '_' := by
        rintro rfl
        rw [digit?_underscore] at hfirst
        cases hfirst
      rw [digits?]
      · simp [hc, ih]
      · simp
      · simp [hne]

theorem digits?_eq_some_iff : digits? s = some ds ↔ IsNumeral s ds :=
  ⟨isNumeral_of_digits?, digits?_of_isNumeral⟩

theorem natural?_eq_some_iff {n : Nat} :
    natural? s = some n ↔ ∃ ds, IsNumeral s ds ∧ ds.length ≤ maxDigits ∧ n = ofDigits ds := by
  simp only [natural?, Option.bind_eq_bind, Option.bind_eq_some_iff, digits?_eq_some_iff]
  refine exists_congr fun ds => and_congr_right fun _ => ?_
  by_cases hfew : ds.length ≤ maxDigits
  · simp [hfew, eq_comm]
  · simp [hfew]

/-! ## Margins -/

/-- What is left of a text without the white space around it. -/
def inner (s : List Char) : List Char :=
  ((s.dropWhile isMargin).reverse.dropWhile isMargin).reverse

theorem exists_margins (s : List Char) :
    ∃ before after, s = before ++ (inner s ++ after) ∧ (∀ c ∈ before, isMargin c = true) ∧
      ∀ c ∈ after, isMargin c = true := by
  let start := s.dropWhile isMargin
  refine ⟨s.takeWhile isMargin, (start.reverse.takeWhile isMargin).reverse, ?_,
    fun c hc => List.mem_takeWhile_imp hc,
    fun c hc => List.mem_takeWhile_imp (List.mem_reverse.1 hc)⟩
  have hend : inner s ++ (start.reverse.takeWhile isMargin).reverse = start := by
    rw [inner, ← List.reverse_append, List.takeWhile_append_dropWhile, List.reverse_reverse]
  rw [hend, List.takeWhile_append_dropWhile]

/-- White space is taken off as far as the first character of the rest, and off the other end as far
as the last one. -/
theorem inner_append {before after : List Char} (hbefore : ∀ c ∈ before, isMargin c = true)
    (hafter : ∀ c ∈ after, isMargin c = true) (hne : body ≠ [])
    (hfirst : body.head?.any isMargin = false) (hlast : body.getLast?.any isMargin = false) :
    inner (before ++ (body ++ after)) = body := by
  have hstart : (before ++ (body ++ after)).dropWhile isMargin = body ++ after := by
    refine (takeWhile_run hbefore ?_).2
    rwa [List.head?_append_of_ne_nil _ hne]
  have hend : (body ++ after).reverse.dropWhile isMargin = body.reverse := by
    rw [List.reverse_append]
    refine (takeWhile_run (fun c hc => hafter c (List.mem_reverse.1 hc)) ?_).2
    rwa [List.head?_reverse]
  rw [inner, hstart, hend, List.reverse_reverse]

theorem inner_written {before sign numeral after : List Char} {negative : Bool}
    (hbefore : ∀ c ∈ before, isMargin c = true) (hafter : ∀ c ∈ after, isMargin c = true)
    (hsign : IsSign sign negative) (hnumeral : IsNumeral numeral ds) :
    inner (before ++ (sign ++ numeral ++ after)) = sign ++ numeral := by
  rcases hnumeral.exists_cons with ⟨c, rest, d, hcons, hc⟩
  rcases hnumeral.exists_concat with ⟨rest', c', d', hconcat, hc'⟩
  refine inner_append hbefore hafter (by simp [hcons]) ?_ ?_
  · cases hsign with
    | none => simp [hcons, isMargin_of_digit? hc]
    | plus => simp; decide
    | minus => simp; decide
  · simp [hconcat, ← List.append_assoc, isMargin_of_digit? hc']

/-! ## Numbers -/

theorem ofText?_of_inner {sign : List Char} {negative : Bool} (hsign : IsSign sign negative)
    (hplain : sign = [] → (∀ rest, body ≠ '-' :: rest) ∧ ∀ rest, body ≠ '+' :: rest)
    (h : inner s = sign ++ body) : ofText? s = (natural? body).map (signed negative) := by
  simp only [inner] at h
  simp only [ofText?, h]
  cases hsign with
  | none =>
      split
      · next rest hsame => exact absurd hsame ((hplain rfl).1 rest)
      · next rest hsame => exact absurd hsame ((hplain rfl).2 rest)
      · cases hbody : natural? body <;> simp [hbody, signed]
  | plus =>
      cases hbody : natural? body <;> simp [hbody, signed]
  | minus =>
      cases hbody : natural? body <;> simp [hbody, signed]

/-- A text begins with a sign, or with something else. -/
theorem exists_sign (s : List Char) :
    ∃ sign body negative, s = sign ++ body ∧ IsSign sign negative ∧
      (sign = [] → (∀ rest, body ≠ '-' :: rest) ∧ ∀ rest, body ≠ '+' :: rest) := by
  by_cases hminus : ∃ rest, s = '-' :: rest
  · rcases hminus with ⟨rest, rfl⟩
    exact ⟨['-'], rest, true, rfl, .minus, by simp⟩
  · by_cases hplus : ∃ rest, s = '+' :: rest
    · rcases hplus with ⟨rest, rfl⟩
      exact ⟨['+'], rest, false, rfl, .plus, by simp⟩
    · exact ⟨[], s, false, rfl, .none, fun _ => ⟨not_exists.1 hminus, not_exists.1 hplus⟩⟩

theorem IsNumeral.ne_sign (h : IsNumeral s ds) :
    (∀ rest, s ≠ '-' :: rest) ∧ ∀ rest, s ≠ '+' :: rest := by
  rcases h.exists_cons with ⟨c, rest, d, rfl, hc⟩
  have hminus : digit? '-' = none := by decide
  have hplus : digit? '+' = none := by decide
  refine ⟨fun other hsame => ?_, fun other hsame => ?_⟩
  · rw [(List.cons.inj hsame).1, hminus] at hc
    cases hc
  · rw [(List.cons.inj hsame).1, hplus] at hc
    cases hc

theorem ofText?_eq_some_iff {n : Int} : ofText? s = some n ↔ IsWritten s n := by
  constructor
  · intro h
    rcases exists_sign (inner s) with ⟨sign, body, negative, hinner, hsign, hplain⟩
    rw [ofText?_of_inner hsign hplain hinner] at h
    rcases Option.map_eq_some_iff.1 h with ⟨m, hm, rfl⟩
    rcases natural?_eq_some_iff.1 hm with ⟨ds, hnumeral, hfew, rfl⟩
    rcases exists_margins s with ⟨before, after, hs, hbefore, hafter⟩
    rw [hs, hinner]
    exact .written hbefore hafter hsign hnumeral hfew
  · rintro ⟨hbefore, hafter, hsign, hnumeral, hfew⟩
    have hinner := inner_written hbefore hafter hsign hnumeral
    rw [ofText?_of_inner hsign (fun _ => hnumeral.ne_sign) hinner,
      natural?_eq_some_iff.2 ⟨_, hnumeral, hfew, rfl⟩]
    rfl

theorem ofText?_eq_none_iff : ofText? s = none ↔ ∀ n, ¬IsWritten s n := by
  simp only [Option.eq_none_iff_forall_ne_some, ne_eq, ofText?_eq_some_iff]

end Integer
end ScriptDoc
