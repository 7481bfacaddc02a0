import Mathlib
import DaemonBridge.Text.Utf8

/-!
# Decoding inverts encoding

`Utf8.decode (Utf8.encode s) = .ok s` for every text (`decode_encode`). The bytes of a character
open with a leading byte whose ranges the bytes after it meet, and they carry the character's bits
back (`decodeAt_encodeChar`): the ranges narrowed after `E0`, `ED`, `F0` and `F4` hold because a
character is no surrogate and lies below `U+110000`.

No encoded byte reaches `F5` (`lt_of_mem_encode`): the bytes `FE` and `FF` never stand in a text.
-/

namespace DaemonBridge

namespace Utf8

theorem toNat_toUInt8 {n : Nat} (h : n < 256) : n.toUInt8.toNat = n := by
  simp only [Nat.toUInt8, UInt8.toNat_ofNat']
  omega

/-- `trailRanges` read on the byte's value. -/
theorem trailRanges_eq (b : UInt8) : trailRanges b =
    if b.toNat < 0x80 then some []
    else if b.toNat < 0xC2 then none
    else if b.toNat < 0xE0 then some [continuation]
    else if b.toNat = 0xE0 then some [(0xA0, 0xBF), continuation]
    else if b.toNat = 0xED then some [(0x80, 0x9F), continuation]
    else if b.toNat < 0xF0 then some [continuation, continuation]
    else if b.toNat = 0xF0 then some [(0x90, 0xBF), continuation, continuation]
    else if b.toNat < 0xF4 then some [continuation, continuation, continuation]
    else if b.toNat = 0xF4 then some [(0x80, 0x8F), continuation, continuation]
    else none := by
  simp only [trailRanges, UInt8.lt_iff_toNat_lt, ← UInt8.toNat_inj, UInt8.toNat_ofNat]

theorem trail_cons_ok {point read : Nat} {lo hi c : UInt8} {ranges : List (UInt8 × UInt8)}
    {rest : Bytes} (hc : lo.toNat ≤ c.toNat ∧ c.toNat ≤ hi.toNat) :
    trail point read ((lo, hi) :: ranges) (c :: rest) =
      trail (point * 64 + c.toNat % 64) (read + 1) ranges rest := by
  simp [trail, UInt8.le_iff_toNat_le, hc]

/-- A character read off the front: its leading byte, the bytes its ranges take, and the
character's bits that they carry. -/
theorem decodeAt_lead {i : Nat} {b : UInt8} {ranges : List (UInt8 × UInt8)} {tail rest : Bytes}
    {c : Char} (hr : trailRanges b = some ranges) (hlen : tail.length = ranges.length)
    (ht : trail (leadBits b ranges.length) 1 ranges (tail ++ rest) = .ok c.toNat) :
    decodeAt i (b :: tail ++ rest) = (c :: ·) <$> decodeAt (i + (b :: tail).length) rest := by
  rw [List.cons_append, decodeAt]
  simp only [hr]
  rw [ht]
  simp only [Char.ofNat_toNat, ← hlen, List.drop_left, List.length_cons]
  congr 2
  omega

/-- A continuation byte meets its range and carries six bits of the character. -/
theorem trail_continuation {point read : Nat} {ranges : List (UInt8 × UInt8)} {rest : Bytes}
    (n : Nat) :
    trail point read (continuation :: ranges) ((0x80 + n % 64).toUInt8 :: rest) =
      trail (point * 64 + n % 64) (read + 1) ranges rest := by
  have hb : (0x80 + n % 64).toUInt8.toNat = 0x80 + n % 64 := toNat_toUInt8 (by omega)
  rw [continuation, trail_cons_ok (by rw [hb]; simp only [UInt8.reduceToNat]; omega), hb]
  congr 1
  omega

/-! ## One lemma per width of a character's bytes -/

section Widths

variable {i : Nat} {c : Char} {rest : Bytes}

theorem decodeAt_encodeChar_one (h1 : c.toNat < 0x80) :
    decodeAt i (encodeChar c ++ rest) = (c :: ·) <$> decodeAt (i + (encodeChar c).length) rest := by
  have hb : (c.toNat.toUInt8).toNat = c.toNat := toNat_toUInt8 (by omega)
  have hr : trailRanges c.toNat.toUInt8 = some [] := by
    rw [trailRanges_eq, hb, if_pos h1]
  simp only [encodeChar, if_pos h1]
  refine decodeAt_lead hr rfl ?_
  simp [trail, leadBits, hb]

theorem decodeAt_encodeChar_two (h1 : ¬ c.toNat < 0x80) (h2 : c.toNat < 0x800) :
    decodeAt i (encodeChar c ++ rest) = (c :: ·) <$> decodeAt (i + (encodeChar c).length) rest := by
  have hlead : (0xC0 + c.toNat / 64).toUInt8.toNat = 0xC0 + c.toNat / 64 := toNat_toUInt8 (by omega)
  have hr : trailRanges (0xC0 + c.toNat / 64).toUInt8 = some [continuation] := by
    rw [trailRanges_eq, hlead]
    simp (disch := omega) only [if_pos, if_neg]
  simp only [encodeChar, if_neg h1, if_pos h2]
  refine decodeAt_lead hr rfl ?_
  rw [List.singleton_append, trail_continuation]
  simp only [trail, leadBits, List.length_singleton, hlead, Nat.one_ne_zero, ↓reduceIte,
    Nat.pow_eq, Nat.reducePow, Nat.reduceSub, Except.ok.injEq]
  omega

theorem decodeAt_encodeChar_three (h2 : ¬ c.toNat < 0x800) (h3 : c.toNat < 0x10000) :
    decodeAt i (encodeChar c ++ rest) = (c :: ·) <$> decodeAt (i + (encodeChar c).length) rest := by
  have hvalid : c.toNat < 0xD800 ∨ (0xDFFF < c.toNat ∧ c.toNat < 0x110000) := c.valid
  have hlead : (0xE0 + c.toNat / 4096).toUInt8.toNat = 0xE0 + c.toNat / 4096 :=
    toNat_toUInt8 (by omega)
  have hmid : (0x80 + c.toNat / 64 % 64).toUInt8.toNat = 0x80 + c.toNat / 64 % 64 :=
    toNat_toUInt8 (by omega)
  -- the second byte's range is narrowed after `E0` (no overlong form) and `ED` (no surrogate)
  obtain ⟨lo, hi, hr, hlo, hhi⟩ : ∃ lo hi : UInt8,
      trailRanges (0xE0 + c.toNat / 4096).toUInt8 = some [(lo, hi), continuation] ∧
      lo.toNat ≤ 0x80 + c.toNat / 64 % 64 ∧ 0x80 + c.toNat / 64 % 64 ≤ hi.toNat := by
    rw [trailRanges_eq, hlead]
    by_cases he0 : c.toNat < 0x1000
    · exact ⟨0xA0, 0xBF, by simp (disch := omega) only [if_pos, if_neg],
        by simp only [UInt8.reduceToNat]; omega, by simp only [UInt8.reduceToNat]; omega⟩
    by_cases hed : c.toNat / 4096 = 13
    · exact ⟨0x80, 0x9F, by simp (disch := omega) only [if_pos, if_neg],
        by simp only [UInt8.reduceToNat]; omega, by simp only [UInt8.reduceToNat]; omega⟩
    · exact ⟨0x80, 0xBF, by simp (disch := omega) only [if_pos, if_neg]; rfl,
        by simp only [UInt8.reduceToNat]; omega, by simp only [UInt8.reduceToNat]; omega⟩
  simp only [encodeChar, if_neg (show ¬ c.toNat < 0x80 by omega), if_neg h2, if_pos h3]
  refine decodeAt_lead hr rfl ?_
  rw [List.cons_append, List.singleton_append, trail_cons_ok (by rw [hmid]; exact ⟨hlo, hhi⟩),
    trail_continuation]
  simp only [trail, leadBits, List.length_cons, List.length_nil, hlead, hmid,
    Nat.add_one_ne_zero, ↓reduceIte, Nat.pow_eq, Nat.reducePow, Nat.reduceSub, Nat.reduceAdd,
    Except.ok.injEq]
  omega

theorem decodeAt_encodeChar_four (h3 : ¬ c.toNat < 0x10000) :
    decodeAt i (encodeChar c ++ rest) = (c :: ·) <$> decodeAt (i + (encodeChar c).length) rest := by
  have hvalid : c.toNat < 0xD800 ∨ (0xDFFF < c.toNat ∧ c.toNat < 0x110000) := c.valid
  have hlead : (0xF0 + c.toNat / 262144).toUInt8.toNat = 0xF0 + c.toNat / 262144 :=
    toNat_toUInt8 (by omega)
  have hsecond : (0x80 + c.toNat / 4096 % 64).toUInt8.toNat = 0x80 + c.toNat / 4096 % 64 :=
    toNat_toUInt8 (by omega)
  -- the second byte's range is narrowed after `F0` (no overlong form) and `F4` (below `U+110000`)
  obtain ⟨lo, hi, hr, hlo, hhi⟩ : ∃ lo hi : UInt8,
      trailRanges (0xF0 + c.toNat / 262144).toUInt8 =
        some [(lo, hi), continuation, continuation] ∧
      lo.toNat ≤ 0x80 + c.toNat / 4096 % 64 ∧ 0x80 + c.toNat / 4096 % 64 ≤ hi.toNat := by
    rw [trailRanges_eq, hlead]
    by_cases hf0 : c.toNat < 0x40000
    · exact ⟨0x90, 0xBF, by simp (disch := omega) only [if_pos, if_neg],
        by simp only [UInt8.reduceToNat]; omega, by simp only [UInt8.reduceToNat]; omega⟩
    by_cases hf4 : 0x100000 ≤ c.toNat
    · exact ⟨0x80, 0x8F, by simp (disch := omega) only [if_pos, if_neg],
        by simp only [UInt8.reduceToNat]; omega, by simp only [UInt8.reduceToNat]; omega⟩
    · exact ⟨0x80, 0xBF, by simp (disch := omega) only [if_pos, if_neg]; rfl,
        by simp only [UInt8.reduceToNat]; omega, by simp only [UInt8.reduceToNat]; omega⟩
  simp only [encodeChar, if_neg (show ¬ c.toNat < 0x80 by omega),
    if_neg (show ¬ c.toNat < 0x800 by omega), if_neg h3]
  refine decodeAt_lead hr rfl ?_
  rw [List.cons_append, List.cons_append, List.singleton_append,
    trail_cons_ok (by rw [hsecond]; exact ⟨hlo, hhi⟩), trail_continuation, trail_continuation]
  simp only [trail, leadBits, List.length_cons, List.length_nil, hlead, hsecond,
    Nat.add_one_ne_zero, ↓reduceIte, Nat.pow_eq, Nat.reducePow, Nat.reduceSub, Nat.reduceAdd,
    Except.ok.injEq]
  omega

end Widths

/-- The bytes of a character read back as the character. -/
theorem decodeAt_encodeChar (i : Nat) (c : Char) (rest : Bytes) :
    decodeAt i (encodeChar c ++ rest) = (c :: ·) <$> decodeAt (i + (encodeChar c).length) rest := by
  -- one case per width of `encodeChar`
  by_cases h1 : c.toNat < 0x80
  · exact decodeAt_encodeChar_one h1
  by_cases h2 : c.toNat < 0x800
  · exact decodeAt_encodeChar_two h1 h2
  by_cases h3 : c.toNat < 0x10000
  · exact decodeAt_encodeChar_three h2 h3
  · exact decodeAt_encodeChar_four h3

theorem decodeAt_flatMap_encodeChar (i : Nat) (cs : List Char) :
    decodeAt i (cs.flatMap encodeChar) = .ok cs := by
  induction cs generalizing i with
  | nil => rw [List.flatMap_nil, decodeAt]
  | cons c cs ih =>
    rw [List.flatMap_cons, decodeAt_encodeChar, ih]
    rfl

theorem decode_encode (s : String) : decode (encode s) = .ok s := by
  rw [decode, encode, decodeAt_flatMap_encodeChar]
  simp

/-- Every byte of a character is below `F5`. -/
theorem lt_of_mem_encodeChar {c : Char} {b : UInt8} (hb : b ∈ encodeChar c) : b.toNat < 0xF5 := by
  have hvalid : c.toNat < 0xD800 ∨ (0xDFFF < c.toNat ∧ c.toNat < 0x110000) := c.valid
  simp only [encodeChar] at hb
  split_ifs at hb <;> simp only [List.mem_cons, List.not_mem_nil, or_false] at hb <;>
    rcases hb with rfl | rfl | rfl | rfl <;> rw [toNat_toUInt8 (by omega)] <;> omega

theorem lt_of_mem_encode {s : String} {b : UInt8} (hb : b ∈ encode s) : b.toNat < 0xF5 := by
  obtain ⟨c, -, hc⟩ := List.mem_flatMap.mp hb
  exact lt_of_mem_encodeChar hc

theorem encode_push (s : String) (c : Char) : encode (s.push c) = encode s ++ encodeChar c := by
  simp [encode]

end Utf8

end DaemonBridge
