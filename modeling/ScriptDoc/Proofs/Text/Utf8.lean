import ScriptDoc.Text.Utf8

/-!
# Utf8 — encoded texts are read as they were

- `decodeFrom_more`, `decodeFrom_last` : what one more byte of a character does
- `decodeFrom_encodeChar`              : the bytes of a character are read as the character
- `decode_encode`                      : the bytes of a text are read as the text
-/

namespace ScriptDoc
namespace Text
namespace Utf8

theorem toNat_ofNat {n : Nat} (h : n < 256) : (UInt8.ofNat n).toNat = n := by
  rw [UInt8.toNat_ofNat', Nat.mod_eq_of_lt h]

/-! ## One byte -/

variable {n : Nat} {p : Pending}

/-- A first byte that others must follow. -/
theorem decodeFrom_first (hbyte : n < 256) (hstart : start n = ([], some p)) (bytes : List UInt8) :
    decodeFrom none (UInt8.ofNat n :: bytes) = decodeFrom (some p) bytes := by
  simp only [decodeFrom, step, toNat_ofNat hbyte, hstart, List.nil_append]

/-- A byte in the middle of a character. -/
theorem decodeFrom_more {left : Nat} (hbyte : n < 64) (hmore : p.left = left + 1)
    (hlo : p.lo ≤ n + 128) (hhi : n + 128 ≤ p.hi) (bytes : List UInt8) :
    decodeFrom (some p) (UInt8.ofNat (n + 128) :: bytes) =
      decodeFrom (some ⟨p.value * 64 + n, left, 0x80, 0xBF⟩) bytes := by
  have hvalue : (UInt8.ofNat (n + 128)).toNat = n + 128 := toNat_ofNat (by omega)
  have hstep : step (some p) (n + 128) = ([], some ⟨p.value * 64 + n, left, 0x80, 0xBF⟩) := by
    simp [step, hlo, hhi, hmore]
  simp only [decodeFrom, hvalue, hstep, List.nil_append]

/-- The last byte of one. -/
theorem decodeFrom_last (hbyte : n < 64) (hlast : p.left = 0) (hlo : p.lo ≤ n + 128)
    (hhi : n + 128 ≤ p.hi) (bytes : List UInt8) :
    decodeFrom (some p) (UInt8.ofNat (n + 128) :: bytes) =
      Char.ofNat (p.value * 64 + n) :: decodeFrom none bytes := by
  have hvalue : (UInt8.ofNat (n + 128)).toNat = n + 128 := toNat_ofNat (by omega)
  have hstep : step (some p) (n + 128) = ([Char.ofNat (p.value * 64 + n)], none) := by
    simp [step, hlo, hhi, hlast]
  simp only [decodeFrom, hvalue, hstep, List.singleton_append]

/-! ## One character

One lemma for each number of bytes. -/

variable {v : Nat}

theorem decodeFrom_one (h : v ≤ 0x7F) (bytes : List UInt8) :
    decodeFrom none (UInt8.ofNat v :: bytes) = Char.ofNat v :: decodeFrom none bytes := by
  have hvalue : (UInt8.ofNat v).toNat = v := toNat_ofNat (by omega)
  have hstart : start v = ([Char.ofNat v], none) := by
    unfold start
    rw [if_pos (by omega)]
  simp [decodeFrom, step, hvalue, hstart]

theorem decodeFrom_two (hlo : 0x7F < v) (hhi : v ≤ 0x7FF) (bytes : List UInt8) :
    decodeFrom none (UInt8.ofNat (v / 64 % 32 + 192) :: UInt8.ofNat (v % 64 + 128) :: bytes) =
      Char.ofNat v :: decodeFrom none bytes := by
  have hstart : start (v / 64 % 32 + 192) = ([], some ⟨v / 64, 0, 0x80, 0xBF⟩) := by
    unfold start
    rw [if_neg (by omega), if_neg (by omega), if_pos (by omega)]
    have hpayload : v / 64 % 32 + 192 - 192 = v / 64 := by omega
    rw [hpayload]
  have hvalue : v / 64 * 64 + v % 64 = v := by omega
  rw [decodeFrom_first (by omega) hstart, decodeFrom_last (by omega) rfl (by simp) (by simp; omega)]
  simp only [hvalue]

theorem decodeFrom_three (hlo : 0x7FF < v) (hhi : v ≤ 0xFFFF) (hvalid : v < 0xD800 ∨ 0xDFFF < v)
    (bytes : List UInt8) :
    decodeFrom none (UInt8.ofNat (v / 4096 % 16 + 224) :: UInt8.ofNat (v / 64 % 64 + 128) ::
        UInt8.ofNat (v % 64 + 128) :: bytes) =
      Char.ofNat v :: decodeFrom none bytes := by
  let lo := if v / 4096 % 16 + 224 = 0xE0 then 0xA0 else 0x80
  let hi := if v / 4096 % 16 + 224 = 0xED then 0x9F else 0xBF
  have hstart : start (v / 4096 % 16 + 224) = ([], some ⟨v / 4096, 1, lo, hi⟩) := by
    unfold start
    rw [if_neg (by omega), if_neg (by omega), if_neg (by omega), if_pos (by omega)]
    have hpayload : v / 4096 % 16 + 224 - 224 = v / 4096 := by omega
    rw [hpayload]
  -- After 0xE0 the second byte is high, since fewer bytes would not do for the character.
  have hsecond : lo ≤ v / 64 % 64 + 128 := by
    simp only [lo]
    split
    · omega
    · omega
  -- After 0xED it is low, since the character is no surrogate.
  have hsecond' : v / 64 % 64 + 128 ≤ hi := by
    simp only [hi]
    split
    · omega
    · omega
  have hvalue : (v / 4096 * 64 + v / 64 % 64) * 64 + v % 64 = v := by omega
  rw [decodeFrom_first (by omega) hstart, decodeFrom_more (by omega) rfl hsecond hsecond',
    decodeFrom_last (by omega) rfl (by simp) (by simp; omega)]
  simp only [hvalue]

theorem decodeFrom_four (hlo : 0xFFFF < v) (hhi : v < 0x110000) (bytes : List UInt8) :
    decodeFrom none (UInt8.ofNat (v / 262144 % 8 + 240) :: UInt8.ofNat (v / 4096 % 64 + 128) ::
        UInt8.ofNat (v / 64 % 64 + 128) :: UInt8.ofNat (v % 64 + 128) :: bytes) =
      Char.ofNat v :: decodeFrom none bytes := by
  let lo := if v / 262144 % 8 + 240 = 0xF0 then 0x90 else 0x80
  let hi := if v / 262144 % 8 + 240 = 0xF4 then 0x8F else 0xBF
  have hstart : start (v / 262144 % 8 + 240) = ([], some ⟨v / 262144, 2, lo, hi⟩) := by
    unfold start
    rw [if_neg (by omega), if_neg (by omega), if_neg (by omega), if_neg (by omega),
      if_pos (by omega)]
    have hpayload : v / 262144 % 8 + 240 - 240 = v / 262144 := by omega
    rw [hpayload]
  -- After 0xF0 the second byte is high, since three bytes would not do.
  have hsecond : lo ≤ v / 4096 % 64 + 128 := by
    simp only [lo]
    split
    · omega
    · omega
  -- After 0xF4 it is low, since no character is past the last.
  have hsecond' : v / 4096 % 64 + 128 ≤ hi := by
    simp only [hi]
    split
    · omega
    · omega
  have hvalue : ((v / 262144 * 64 + v / 4096 % 64) * 64 + v / 64 % 64) * 64 + v % 64 = v := by omega
  rw [decodeFrom_first (by omega) hstart, decodeFrom_more (by omega) rfl hsecond hsecond',
    decodeFrom_more (by omega) rfl (by simp) (by simp; omega),
    decodeFrom_last (by omega) rfl (by simp) (by simp; omega)]
  simp only [hvalue]

theorem decodeFrom_encodeChar (c : Char) (bytes : List UInt8) :
    decodeFrom none (String.utf8EncodeChar c ++ bytes) = c :: decodeFrom none bytes := by
  have hvalid : c.val.toNat < 0xD800 ∨ 0xDFFF < c.val.toNat ∧ c.val.toNat < 0x110000 := c.valid
  have hchar : Char.ofNat c.val.toNat = c := Char.ofNat_toNat c
  unfold String.utf8EncodeChar
  -- From here on the character is its number.
  generalize c.val.toNat = v at hvalid hchar
  subst hchar
  dsimp only
  split
  · next hone =>
    exact decodeFrom_one hone bytes
  · next hone =>
    split
    · next htwo =>
      exact decodeFrom_two (by omega) htwo bytes
    · next htwo =>
      split
      · next hthree =>
        exact decodeFrom_three (by omega) hthree (by omega) bytes
      · next hthree =>
        exact decodeFrom_four (by omega) (by omega) bytes

/-! ## Texts -/

theorem decode_encode (s : List Char) : decode (s.flatMap String.utf8EncodeChar) = s := by
  unfold decode
  induction s with
  | nil =>
      rfl
  | cons c s ih =>
      rw [List.flatMap_cons, decodeFrom_encodeChar, ih]

end Utf8
end Text
end ScriptDoc
