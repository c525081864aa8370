/-!
# Utf8 — bytes read as text

Each longest part of the bytes that starts like an encoded character and does not go on like
one becomes a replacement character.

- `Utf8.Pending` : the bytes of a character read so far
- `Utf8.step`    : one more byte, giving finished characters and what is pending
- `Utf8.decode`  : the text of all bytes
-/

namespace ScriptDoc
namespace Text
namespace Utf8

def replacement : Char := '\uFFFD'

/-- `value` is made of the payload bits so far, `left + 1` bytes are still to come, and the next
of them must lie between `lo` and `hi`. -/
structure Pending where
  value : Nat
  left : Nat
  lo : Nat
  hi : Nat
  deriving DecidableEq, Repr

/-- A byte at the start of a character. -/
def start (b : Nat) : List Char × Option Pending :=
  if b < 0x80 then ([Char.ofNat b], none)
  else if b < 0xC2 then ([replacement], none)
  else if b < 0xE0 then ([], some ⟨b - 0xC0, 0, 0x80, 0xBF⟩)
  else if b < 0xF0 then
    let lo := if b = 0xE0 then 0xA0 else 0x80
    let hi := if b = 0xED then 0x9F else 0xBF
    ([], some ⟨b - 0xE0, 1, lo, hi⟩)
  else if b < 0xF5 then
    let lo := if b = 0xF0 then 0x90 else 0x80
    let hi := if b = 0xF4 then 0x8F else 0xBF
    ([], some ⟨b - 0xF0, 2, lo, hi⟩)
  else ([replacement], none)

def step : Option Pending → Nat → List Char × Option Pending
  | none, b => start b
  | some p, b =>
      if p.lo ≤ b && b ≤ p.hi then
        let value := p.value * 64 + (b - 0x80)
        match p.left with
        | 0 => ([Char.ofNat value], none)
        | left + 1 => ([], some ⟨value, left, 0x80, 0xBF⟩)
      else
        let (chars, pending) := start b
        (replacement :: chars, pending)

def decodeFrom : Option Pending → List UInt8 → List Char
  | none, [] => []
  | some _, [] => [replacement]
  | pending, b :: bytes =>
      let (chars, pending) := step pending b.toNat
      chars ++ decodeFrom pending bytes

def decode (bytes : List UInt8) : List Char :=
  decodeFrom none bytes

end Utf8
end Text
end ScriptDoc
