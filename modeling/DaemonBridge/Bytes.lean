/-!
# Byte strings

`Bytes` is a list of octets. This module gives the two encodings of numbers and bytes that the
wire uses: a length as four bytes, most significant first, and bytes as lowercase hexadecimal
text, two digits a byte.

Main statements: `ofBigEndian_toBigEndian` (four bytes give back every length below `2 ^ 32`) and
`ofHex?_hex` (hexadecimal text reads back as the bytes it was written from).
-/

namespace DaemonBridge

/-- A string of octets. -/
abbrev Bytes := List UInt8

/-- The largest value of a 64-bit machine word, `u64` and, on the targets the bridge runs on,
`usize`. -/
def maxWord : Nat := Nat.pow 2 64 - 1

namespace Bytes

/-- The low 32 bits of `n` as four bytes, most significant first. -/
def toBigEndian (n : Nat) : Bytes :=
  [(n / Nat.pow 2 24 % 256).toUInt8, (n / Nat.pow 2 16 % 256).toUInt8, (n / Nat.pow 2 8 % 256).toUInt8,
    (n % 256).toUInt8]

/-- The number that bytes spell, most significant first. -/
def ofBigEndian (bs : Bytes) : Nat :=
  bs.foldl (fun acc b => acc * 256 + b.toNat) 0

/-- A lowercase hexadecimal digit. -/
def hexDigit (n : Nat) : Char :=
  if n < 10 then Char.ofNat ('0'.toNat + n) else Char.ofNat ('a'.toNat + n - 10)

/-- The value of a hexadecimal digit of either case. -/
def hexValue? (c : Char) : Option Nat :=
  if '0' ≤ c ∧ c ≤ '9' then some (c.toNat - '0'.toNat)
  else if 'a' ≤ c ∧ c ≤ 'f' then some (c.toNat - 'a'.toNat + 10)
  else if 'A' ≤ c ∧ c ≤ 'F' then some (c.toNat - 'A'.toNat + 10)
  else none

/-- Two lowercase hexadecimal digits per byte. -/
def hexChars (bs : Bytes) : List Char :=
  bs.flatMap fun b => [hexDigit (b.toNat / 16), hexDigit (b.toNat % 16)]

/-- Bytes as lowercase hexadecimal text. -/
def hex (bs : Bytes) : String := String.ofList (hexChars bs)

/-- The bytes that pairs of hexadecimal digits spell; none for an odd count or another
character. -/
def ofHexChars? : List Char → Option Bytes
  | [] => some []
  | [_] => none
  | hi :: lo :: rest => do
    let h ← hexValue? hi
    let l ← hexValue? lo
    let tail ← ofHexChars? rest
    pure ((h * 16 + l).toUInt8 :: tail)

/-- The bytes that hexadecimal text spells. -/
def ofHex? (s : String) : Option Bytes := ofHexChars? s.toList

theorem hexValue?_hexDigit : ∀ n, n < 16 → hexValue? (hexDigit n) = some n := by
  decide

theorem ofHexChars?_hexChars (bs : Bytes) : ofHexChars? (hexChars bs) = some bs := by
  induction bs with
  | nil => rfl
  | cons b rest ih =>
    have h1 : b.toNat / 16 < 16 := by have := b.toNat_lt; omega
    have h2 : b.toNat % 16 < 16 := Nat.mod_lt _ (by decide)
    have hb : (b.toNat / 16 * 16 + b.toNat % 16).toUInt8 = b := by
      have : b.toNat / 16 * 16 + b.toNat % 16 = b.toNat := by omega
      rw [this]; exact UInt8.ofNat_toNat
    simp only [hexChars, List.flatMap_cons, List.cons_append, List.nil_append] at ih ⊢
    simp only [ofHexChars?, hexValue?_hexDigit _ h1, hexValue?_hexDigit _ h2, ih, hb,
      Option.bind_eq_bind, Option.bind_some, Option.pure_def]

theorem ofHex?_hex (bs : Bytes) : ofHex? (hex bs) = some bs := by
  simp [ofHex?, hex, ofHexChars?_hexChars]

theorem length_toBigEndian (n : Nat) : (toBigEndian n).length = 4 := rfl

theorem ofBigEndian_toBigEndian {n : Nat} (h : n < Nat.pow 2 32) : ofBigEndian (toBigEndian n) = n := by
  simp only [ofBigEndian, toBigEndian, List.foldl, Nat.toUInt8, UInt8.toNat_ofNat', Nat.pow_eq] at h ⊢
  omega

end Bytes

end DaemonBridge
