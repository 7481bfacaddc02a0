import Mathlib
import DaemonBridge.Transport.Frame
import DaemonBridge.Proofs.Text.Utf8

/-!
# Where a frame ends

A frame is a text's bytes, their number in four bytes, and a newline. Its last newline always
closes it (`closesAt_wrap`). A newline may also stand inside the length. It closes nothing when
the text holds no newline and is UTF-8 (`closesAt_wrap_early`), with one exception: a text of
`0x0909090A` bytes ending in a tab. Its length is `09 09 09 0A`, and the four bytes before that
last length byte, `09 09 09 09`, count the bytes before them, so the frame closes one byte early
(`Frame.Misread`, `closesAt_misread`).

The arithmetic is `suffix_newline_mismatch`: after a newline at byte `k` of the length, the four
bytes before it spell the length less `4 - k` only in that case. It is worked digit by digit in
base 256, following the carry that adding at most four to the last digit can raise.
-/

namespace DaemonBridge

/-- A text whose frame the reader closes at the newline inside its length: `0x0909090A` bytes,
the last a tab. -/
def Frame.Misread (bytes : Bytes) : Prop :=
  bytes.length = 0x0909090A ∧ bytes.getLast? = some 0x09

instance (bytes : Bytes) : Decidable (Frame.Misread bytes) := inferInstanceAs (Decidable (_ ∧ _))

/-! ## Base 256 -/

theorem digit_eq {u v a b : Nat} (h : u * 256 + a = v * 256 + b) (ha : a < 256) (hb : b < 256) :
    u = v ∧ a = b := by
  omega

theorem digit_carry {u v a b : Nat} (h : u * 256 + a = v * 256 + b) (ha : a < 512)
    (hb : b < 256) : (u = v ∧ a = b) ∨ (u + 1 = v ∧ a = b + 256) := by
  omega

/-- The length `A B C D` after text bytes `w x y z`: when its byte `k` is a newline, the four
bytes before that byte spell the length less `4 - k` only if they are `09 09 09 09`. -/
theorem suffix_newline_mismatch {w x y z A B C D : Nat} (hw : w ≠ 10) (hx : x < 0xF5)
    (hy : y < 0xF5) (hy' : y ≠ 10) (hz : z < 0xF5) (hA : A < 256) (hB : B < 256) (hC : C < 256) (hD : D < 256) :
    (A = 10 → ((w * 256 + x) * 256 + y) * 256 + z + 4 ≠ ((A * 256 + B) * 256 + C) * 256 + D) ∧
    (B = 10 → ((x * 256 + y) * 256 + z) * 256 + A + 3 ≠ ((A * 256 + B) * 256 + C) * 256 + D) ∧
    (C = 10 → ((y * 256 + z) * 256 + A) * 256 + B + 2 ≠ ((A * 256 + B) * 256 + C) * 256 + D) ∧
    (D = 10 → ((z * 256 + A) * 256 + B) * 256 + C + 1 = ((A * 256 + B) * 256 + C) * 256 + D →
      z = 9 ∧ A = 9 ∧ B = 9 ∧ C = 9) := by
  refine ⟨fun hA10 h => ?_, fun hB10 h => ?_, fun hC10 h => ?_, fun hD10 h => ?_⟩
  · -- the last text byte plus four carries nothing, so the first text byte `w` is the length's
    -- first byte, a newline
    have e₀ : ((w * 256 + x) * 256 + y) * 256 + (z + 4) = ((A * 256 + B) * 256 + C) * 256 + D := by
      rw [← Nat.add_assoc]; exact h
    obtain ⟨e₁, -⟩ := digit_eq e₀ (by omega) hD
    obtain ⟨e₂, -⟩ := digit_eq e₁ (by omega) hC
    obtain ⟨hwA, -⟩ := digit_eq e₂ (by omega) hB
    exact hw (hwA.trans hA10)
  · -- with or without a carry out of the length's first byte, the text byte `y` lines up with
    -- the length's second byte, a newline
    have e₀ : ((x * 256 + y) * 256 + z) * 256 + (A + 3) = ((A * 256 + B) * 256 + C) * 256 + D := by
      rw [← Nat.add_assoc]; exact h
    rcases digit_carry e₀ (by omega) hD with ⟨e₁, -⟩ | ⟨e₁, -⟩
    · obtain ⟨e₂, -⟩ := digit_eq e₁ (by omega) hC
      obtain ⟨-, hyB⟩ := digit_eq e₂ (by omega) hB
      exact hy' (hyB.trans hB10)
    · have e₁' : (x * 256 + y) * 256 + (z + 1) = (A * 256 + B) * 256 + C := by
        rw [← Nat.add_assoc]; exact e₁
      obtain ⟨e₂, -⟩ := digit_eq e₁' (by omega) hC
      obtain ⟨-, hyB⟩ := digit_eq e₂ (by omega) hB
      exact hy' (hyB.trans hB10)
  · have e₀ : ((y * 256 + z) * 256 + A) * 256 + (B + 2) = ((A * 256 + B) * 256 + C) * 256 + D := by
      rw [← Nat.add_assoc]; exact h
    rcases digit_carry e₀ (by omega) hD with ⟨e₁, -⟩ | ⟨e₁, hcarry⟩
    · -- no carry: the text byte `y` is the length's first byte, which is its third, a newline
      obtain ⟨e₂, hAC⟩ := digit_eq e₁ hA hC
      obtain ⟨hyA, -⟩ := digit_eq e₂ (by omega) hB
      exact hy' (hyA.trans (hAC.trans hC10))
    · -- a carry into the length's first byte: it is 9, and the text byte after 9 is `FE` or `FF`
      have e₁' : (y * 256 + z) * 256 + (A + 1) = (A * 256 + B) * 256 + C := by
        rw [← Nat.add_assoc]; exact e₁
      rcases digit_carry e₁' (by omega) hC with ⟨e₂, hAC⟩ | ⟨-, hAC⟩
      · obtain ⟨-, hzB⟩ := digit_eq e₂ (by omega) hB
        omega
      · omega
  · have e₀ : ((z * 256 + A) * 256 + B) * 256 + (C + 1) = ((A * 256 + B) * 256 + C) * 256 + D := by
      rw [← Nat.add_assoc]; exact h
    rcases digit_carry e₀ (by omega) hD with ⟨e₁, hCD⟩ | ⟨-, hCD⟩
    · -- the bytes before the newline all equal the length's third byte, one less than 10
      obtain ⟨e₂, hBC⟩ := digit_eq e₁ hB hC
      obtain ⟨hzA, hAB⟩ := digit_eq e₂ hA hB
      have hC9 : C = 9 := Nat.add_right_cancel (hCD.trans hD10 : C + 1 = 9 + 1)
      exact ⟨hzA.trans (hAB.trans (hBC.trans hC9)), hAB.trans (hBC.trans hC9), hBC.trans hC9, hC9⟩
    · omega

/-! ## Reading `closesAt` -/

theorem ofBigEndian_four (a b c d : UInt8) :
    Bytes.ofBigEndian [a, b, c, d] = ((a.toNat * 256 + b.toNat) * 256 + c.toNat) * 256 + d.toNat := by
  simp [Bytes.ofBigEndian]

/-- Whether a newline closes a frame depends only on the bytes up to it. -/
theorem closesAt_append {l more : Bytes} {i : Nat} (hi : i < l.length) :
    closesAt (l ++ more) i = closesAt l i := by
  by_cases h4 : suffixLength ≤ i
  · have hwin : ((l ++ more).drop (i - suffixLength)).take suffixLength =
        (l.drop (i - suffixLength)).take suffixLength := by
      rw [List.drop_append_of_le_length (by omega),
        List.take_append_of_le_length (by simp [suffixLength] at h4 ⊢; omega)]
    simp only [closesAt, List.getElem?_append_left hi, hwin]
  · simp [closesAt, h4]

/-- `closesAt` at an index past a prefix `p`, read on the bytes after it. -/
theorem closesAt_append_length {p q : Bytes} {j : Nat} (hj : suffixLength ≤ j) :
    closesAt (p ++ q) (p.length + j) =
      (q[j]? == some newline &&
        Bytes.ofBigEndian ((q.drop (j - suffixLength)).take suffixLength) ==
          p.length + j - suffixLength) := by
  have hdrop : (p ++ q).drop (p.length + j - suffixLength) = q.drop (j - suffixLength) := by
    rw [show p.length + j - suffixLength = p.length + (j - suffixLength) by omega, List.drop_append,
      List.drop_eq_nil_of_le (by omega), List.nil_append, Nat.add_sub_cancel_left]
  simp only [closesAt, List.getElem?_append_right (Nat.le_add_right _ _), Nat.add_sub_cancel_left,
    hdrop, show suffixLength ≤ p.length + j by omega, decide_true, Bool.and_true]

/-- The length of a frame, byte by byte. -/
theorem toBigEndian_eq (n : Nat) : Bytes.toBigEndian n =
    [(n / 16777216 % 256).toUInt8, (n / 65536 % 256).toUInt8, (n / 256 % 256).toUInt8,
      (n % 256).toUInt8] := rfl

/-! ## The newlines of a frame -/

/-- A frame's last newline closes it. -/
theorem closesAt_wrap (bytes more : Bytes) (h : bytes.length < Nat.pow 2 32) :
    closesAt (Frame.wrap bytes ++ more) (bytes.length + suffixLength) = true := by
  rw [Frame.wrap, List.append_assoc, List.append_assoc, closesAt_append_length (le_refl _)]
  simp [suffixLength, Bytes.ofBigEndian_toBigEndian h, ← Bytes.length_toBigEndian bytes.length]

theorem eq_newline_iff {b : UInt8} : b = newline ↔ b.toNat = 10 := by
  rw [← UInt8.toNat_inj]
  rfl

/-- The bytes of a frame at and after the text's end. -/
theorem getElem?_wrap_length (bytes more : Bytes) {k : Nat} (hk : k < suffixLength) :
    (Frame.wrap bytes ++ more)[bytes.length + k]? = (Bytes.toBigEndian bytes.length)[k]? := by
  rw [Frame.wrap, List.append_assoc, List.append_assoc,
    List.getElem?_append_right (Nat.le_add_right _ _), Nat.add_sub_cancel_left,
    List.getElem?_append_left (by rw [Bytes.length_toBigEndian]; exact hk)]

/-- The length of a text shorter than four bytes holds no newline. -/
theorem getElem?_wrap_short {bytes more : Bytes} {k : Nat} (hshort : bytes.length < 4)
    (hk : k < suffixLength) : (Frame.wrap bytes ++ more)[bytes.length + k]? ≠ some newline := by
  -- each byte of the length is at most the length itself
  have hbyte : ∀ m, m ≤ bytes.length → m.toUInt8 ≠ newline := fun m hm h => by
    have := congrArg UInt8.toNat h
    rw [Utf8.toNat_toUInt8 (by omega)] at this
    simp [newline] at this
    omega
  rw [getElem?_wrap_length bytes more hk, toBigEndian_eq]
  obtain rfl | rfl | rfl | rfl : k = 0 ∨ k = 1 ∨ k = 2 ∨ k = 3 := by
    simp [suffixLength] at hk; omega
  all_goals simp only [List.getElem?_cons_zero, List.getElem?_cons_succ, ne_eq, Option.some.injEq]
  all_goals apply hbyte; omega

theorem exists_eq_append_four {l : Bytes} (h : 4 ≤ l.length) :
    ∃ p w x y z, l = p ++ [w, x, y, z] := by
  have hlen : (l.drop (l.length - 4)).length = 4 := by
    rw [List.length_drop]
    omega
  obtain ⟨w, x, y, z, hq⟩ := List.length_eq_four.mp hlen
  exact ⟨l.take (l.length - 4), w, x, y, z, by rw [← hq, List.take_append_drop]⟩

/-- No newline before a frame's last one closes it, unless the reader misreads the text. -/
theorem closesAt_wrap_early {bytes more : Bytes} {i : Nat} (hnl : newline ∉ bytes)
    (hlt : ∀ b ∈ bytes, b.toNat < 0xF5) (hwide : bytes.length < Nat.pow 2 32)
    (hmis : ¬ Frame.Misread bytes) (hi : i < bytes.length + suffixLength) :
    closesAt (Frame.wrap bytes ++ more) i = false := by
  rcases Nat.lt_or_ge i bytes.length with hiL | hiL
  · -- a byte of the text, which is no newline
    have hget : (Frame.wrap bytes ++ more)[i]? = bytes[i]? := by
      rw [Frame.wrap, List.append_assoc, List.append_assoc, List.getElem?_append_left hiL]
    have hne : bytes[i]? ≠ some newline := fun h => hnl (List.mem_of_getElem? h)
    simp [closesAt, hget, hne]
  obtain ⟨k, hk, rfl⟩ : ∃ k, k < suffixLength ∧ i = bytes.length + k :=
    ⟨i - bytes.length, by omega, by omega⟩
  have hwide' : bytes.length < 4294967296 := hwide
  rcases Nat.lt_or_ge bytes.length 4 with hshort | hlong
  · simp [closesAt, getElem?_wrap_short hshort hk]
  -- the four text bytes before the length, which are below `F5` and no newline
  obtain ⟨p, w, x, y, z, hsplit⟩ := exists_eq_append_four hlong
  have hbyte : ∀ b ∈ [w, x, y, z], b.toNat < 0xF5 ∧ b.toNat ≠ 10 := fun b hb => by
    have hmem : b ∈ bytes := hsplit ▸ List.mem_append_right p hb
    exact ⟨hlt b hmem, fun h => hnl (eq_newline_iff.mpr h ▸ hmem)⟩
  obtain ⟨-, hw⟩ := hbyte w (by simp)
  obtain ⟨hx, -⟩ := hbyte x (by simp)
  obtain ⟨hy, hy'⟩ := hbyte y (by simp)
  obtain ⟨hz, -⟩ := hbyte z (by simp)
  obtain ⟨L, hL⟩ : ∃ L, bytes.length = L := ⟨_, rfl⟩
  have hp : p.length + suffixLength = L := by
    rw [← hL, hsplit, List.length_append]
    rfl
  have hframe : Frame.wrap bytes ++ more =
      p ++ ([w, x, y, z] ++ (Bytes.toBigEndian L ++ ([newline] ++ more))) := by
    rw [Frame.wrap, hL, hsplit]
    simp
  -- what the length's bytes are, and what the four bytes before each of them would have to spell
  have hdigits : L = ((L / 16777216 % 256 * 256 + L / 65536 % 256) * 256 + L / 256 % 256) * 256 +
      L % 256 := by omega
  have core := suffix_newline_mismatch hw hx hy hy' hz (A := L / 16777216 % 256)
    (B := L / 65536 % 256) (C := L / 256 % 256) (D := L % 256) (Nat.mod_lt _ (by norm_num))
    (Nat.mod_lt _ (by norm_num)) (Nat.mod_lt _ (by norm_num)) (Nat.mod_lt _ (by norm_num))
  rw [← hdigits] at core
  have hdig : ∀ m, UInt8.ofNat (m % 256) = newline → m % 256 = 10 := fun m h => by
    rw [eq_newline_iff, UInt8.toNat_ofNat'] at h
    omega
  rw [hframe, hL, show L + k = p.length + (suffixLength + k) by rw [← hp]; omega,
    closesAt_append_length (Nat.le_add_right _ _), toBigEndian_eq]
  obtain rfl | rfl | rfl | rfl : k = 0 ∨ k = 1 ∨ k = 2 ∨ k = 3 := by
    simp [suffixLength] at hk; omega
  all_goals simp only [suffixLength] at hp
  all_goals simp [suffixLength, ofBigEndian_four]
  · exact fun hn heq => core.1 (hdig _ hn) (by rw [heq]; exact hp)
  · exact fun hn heq => core.2.1 (hdig _ hn) (by rw [heq, Nat.add_assoc]; exact hp)
  · exact fun hn heq => core.2.2.1 (hdig _ hn) (by rw [heq, Nat.add_assoc]; exact hp)
  · -- the misread text: its last byte and every byte of its length but the last are tabs
    intro hn heq
    have hD := hdig _ hn
    obtain ⟨hz9, hA, hB, hC⟩ := core.2.2.2 hD (by rw [heq, Nat.add_assoc]; exact hp)
    rw [hA, hB, hC, hD] at hdigits
    refine hmis ⟨hL.trans hdigits, ?_⟩
    rw [hsplit, List.getLast?_append]
    simp only [List.getLast?_cons_cons, List.getLast?_singleton, Option.some_or, Option.some.injEq]
    rw [← UInt8.toNat_inj]
    exact hz9

/-- The misread text's frame closes at the newline inside its length, a byte early. -/
theorem closesAt_misread {bytes more : Bytes} (h : Frame.Misread bytes) :
    closesAt (Frame.wrap bytes ++ more) (bytes.length + 3) = true := by
  obtain ⟨hlen, hlast⟩ := h
  obtain ⟨p, rfl⟩ := List.getLast?_eq_some_iff.mp hlast
  have hp : p.length = 0x09090909 := by simp at hlen; omega
  have hsuffix : Bytes.toBigEndian (p ++ [0x09]).length = [9, 9, 9, 10] := by rw [hlen]; rfl
  rw [Frame.wrap, hsuffix, List.length_append, List.length_singleton, Nat.add_assoc]
  simp only [List.append_assoc, List.cons_append, List.nil_append]
  rw [show 1 + 3 = suffixLength from rfl, closesAt_append_length (le_refl _)]
  simp [suffixLength, ofBigEndian_four, hp, newline]

end DaemonBridge
