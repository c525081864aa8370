/-!
# Binary64 — floating-point numbers of 64 bits

A finite number is a sign, a mantissa below `2 ^ 53` and an exponent of two. All arithmetic here is
on naturals and exact.

- `Binary64`            : the numbers; a mantissa below `2 ^ 52` has the least exponent
- `Binary64.ofDecimal?` : the number nearest to a decimal one, an even mantissa on a tie
- `Binary64.truncate`   : the integer part
- `Binary64.ceiling`    : the next integer
- `Binary64.shortest`   : the shortest decimal that only this number is nearest to
- `Binary64.render`     : that decimal as text, positional from `0.0001` up to below `10 ^ 16`
-/

namespace ScriptDoc

structure Binary64 where
  negative : Bool
  mantissa : Nat
  exponent : Int
  deriving DecidableEq, Repr

namespace Binary64

/-- The bit that a mantissa starts with unless its exponent is the least one. -/
def leadingBit : Nat := Nat.pow 2 52

def leastExponent : Int := -1074
def greatestExponent : Int := 971

def isZero (x : Binary64) : Bool :=
  x.mantissa == 0

/-- A power with an integer exponent, as numerator and denominator. -/
def power (base : Nat) (e : Int) : Nat × Nat :=
  if e < 0 then (1, Nat.pow base e.natAbs) else (Nat.pow base e.natAbs, 1)

/-- The quotient rounded to the nearest natural, to the even one on a tie. -/
def roundDiv (num den : Nat) : Nat :=
  let q := num / den
  let twice := 2 * (num % den)
  if twice < den then q
  else if den < twice then q + 1
  else if q % 2 = 0 then q else q + 1

/-- The quotient `num / den / 2 ^ e`, as numerator and denominator. -/
def scaled (num den : Nat) (e : Int) : Nat × Nat :=
  let (n, d) := power 2 e
  (num * d, den * n)

/-- The exponent that gives the mantissa of `num / den` its 53 binary digits, if it is not below
the least one. -/
def exponentFor (num den : Nat) : Int :=
  let guess : Int := (Nat.log2 num : Int) - Nat.log2 den - 52
  let (n, d) := scaled num den guess
  let exact :=
    if n / d < leadingBit then guess - 1
    else if 2 * leadingBit ≤ n / d then guess + 1
    else guess
  if exact < leastExponent then leastExponent else exact

/-- The number nearest to `digits * 10 ^ scale`; there is none past the greatest. -/
def ofDecimal? (negative : Bool) (digits : Nat) (scale : Int) : Option Binary64 :=
  let magnitude : Int := scale + (Nat.toDigits 10 digits).length
  if digits = 0 || magnitude < -400 then some ⟨negative, 0, leastExponent⟩
  else if 400 < magnitude then none
  else
    let (n, d) := power 10 scale
    let num := digits * n
    let e := exponentFor num d
    let (n, d) := scaled num d e
    let m := roundDiv n d
    let (m, e) := if m = 2 * leadingBit then (leadingBit, e + 1) else (m, e)
    if greatestExponent < e then none else some ⟨negative, m, e⟩

def truncate (x : Binary64) : Int :=
  let (n, d) := power 2 x.exponent
  let whole : Int := (x.mantissa * n / d : Nat)
  if x.negative then -whole else whole

def isWhole (x : Binary64) : Bool :=
  let (n, d) := power 2 x.exponent
  x.mantissa * n % d == 0

/-- The least integer that is not below the number. -/
def ceiling (x : Binary64) : Int :=
  if x.negative || x.isWhole then x.truncate else x.truncate + 1

/-- The number of digits before the point of a positive number; `0` or less if there are none and
zeros follow the point. -/
def pointPlace (num den : Nat) : Int :=
  let places := (List.range 660).map fun (i : Nat) => (i : Int) - 340
  (places.find? fun p => let (n, d) := power 10 p; num * d < n * den).getD 0

/-- Whether `d * 10 ^ k` is rounded to the positive number `m * 2 ^ e`. -/
def readsBack (m : Nat) (e : Int) (d : Nat) (k : Int) : Bool :=
  let (kn, kd) := power 10 k
  let (un, ud) := power 2 (e - 2)
  let low := (4 * m - if m = leadingBit && leastExponent < e then 1 else 2) * un * kd
  let high := (4 * m + 2) * un * kd
  let here := d * kn * ud
  if m % 2 = 0 then low ≤ here && here ≤ high else low < here && here < high

/-- The shortest `d * 10 ^ k` that is rounded to a positive number; of two the nearer one, of two
equally near ones the even one. -/
def shortest (m : Nat) (e : Int) : Nat × Int :=
  let (n, d) := power 2 e
  let num := m * n
  let place := pointPlace num d
  let found := (List.range 17).findSome? fun (i : Nat) =>
    let k : Int := place - (i + 1 : Nat)
    let (kn, kd) := power 10 k
    let below := num * kd / (d * kn)
    match readsBack m e below k, readsBack m e (below + 1) k with
    | true, true => some (roundDiv (num * kd) (d * kn), k)
    | true, false => some (below, k)
    | false, true => some (below + 1, k)
    | false, false => none
  found.getD (0, 0)

def zeros (n : Nat) : List Char :=
  List.replicate n '0'

/-- `digits` with the point after the first `place` of them. -/
def positional (digits : List Char) (place : Int) : List Char :=
  if place ≤ 0 then
    '0' :: '.' :: (zeros place.natAbs ++ digits)
  else if (digits.length : Int) ≤ place then
    digits ++ zeros (place.natAbs - digits.length) ++ ['.', '0']
  else
    digits.take place.natAbs ++ '.' :: digits.drop place.natAbs

/-- One digit before the point, and an exponent of at least two digits. -/
def scientific (digits : List Char) (place : Int) : List Char :=
  let lead := digits.take 1
  let tail := digits.drop 1
  let e := place - 1
  let size := Nat.toDigits 10 e.natAbs
  let padded := if size.length < 2 then '0' :: size else size
  lead ++ (if tail.isEmpty then [] else '.' :: tail) ++
    'e' :: (if e < 0 then '-' else '+') :: padded

def render (x : Binary64) : List Char :=
  let sign := if x.negative then ['-'] else []
  if x.isZero then sign ++ ['0', '.', '0']
  else
    let (d, k) := shortest x.mantissa x.exponent
    let all := Nat.toDigits 10 d
    let place := k + all.length
    let digits := (all.reverse.dropWhile (· == '0')).reverse
    sign ++
      if -4 < place && place ≤ 16 then positional digits place else scientific digits place

end Binary64
end ScriptDoc
