/-!
# Binary64 — double precision numbers as bit patterns

A `Binary64` is the 64-bit pattern of an IEEE 754 double. A finite pattern denotes
`(-1)^sign * mantissa * 2^exponent`. Every operation here is exact rational arithmetic on `Nat`
followed by one rounding to the nearest double, ties to an even mantissa, which is the correctly
rounded result IEEE 754 prescribes; no runtime float instruction is involved, so the operations
can be evaluated and reasoned about in the logic.
-/

namespace DaemonBridge

/-- An IEEE 754 double, kept as its bit pattern. -/
structure Binary64 where
  bits : UInt64
  deriving DecidableEq, Inhabited, Repr

namespace Binary64

/-- The sign bit. -/
def sign (x : Binary64) : Bool := decide (Nat.pow 2 63 ≤ x.bits.toNat)

/-- The eleven exponent bits, as stored. -/
def biasedExponent (x : Binary64) : Nat := x.bits.toNat / Nat.pow 2 52 % Nat.pow 2 11

/-- The 52 stored fraction bits. -/
def fraction (x : Binary64) : Nat := x.bits.toNat % Nat.pow 2 52

/-- Neither an infinity nor a NaN. -/
def isFinite (x : Binary64) : Bool := x.biasedExponent != 2047

/-- A NaN: all exponent bits set and a non-zero fraction. -/
def isNaN (x : Binary64) : Bool := x.biasedExponent == 2047 && x.fraction != 0

/-- Plus or minus zero. -/
def isZero (x : Binary64) : Bool := x.biasedExponent == 0 && x.fraction == 0

/-- The integer mantissa of a finite value; the implicit leading bit is added to normal values. -/
def mantissa (x : Binary64) : Nat :=
  if x.biasedExponent = 0 then x.fraction else x.fraction + Nat.pow 2 52

/-- The binary exponent of a finite value: its magnitude is `mantissa * 2 ^ exponent`. -/
def exponent (x : Binary64) : Int :=
  if x.biasedExponent = 0 then -1074 else (x.biasedExponent : Int) - 1075

/-- The pattern with the given sign, stored exponent and fraction. -/
def ofFields (negative : Bool) (biased fraction : Nat) : Binary64 :=
  ⟨UInt64.ofNat ((if negative then Nat.pow 2 63 else 0) + biased * Nat.pow 2 52 + fraction)⟩

/-- Zero of the given sign. -/
def zero (negative : Bool) : Binary64 := ofFields negative 0 0

/-- Infinity of the given sign. -/
def infinity (negative : Bool) : Binary64 := ofFields negative 2047 0

/-- The same magnitude with the other sign. -/
def neg (x : Binary64) : Binary64 := ⟨x.bits ^^^ 0x8000000000000000⟩

/-- The exponent `k` with `2^k ≤ num / den * 2^e < 2^(k+1)`, for `num, den > 0`. -/
def leadingExponent (num den : Nat) (e : Int) : Int :=
  let a := Nat.log2 num
  let b := Nat.log2 den
  if den * Nat.pow 2 a ≤ num * Nat.pow 2 b then (a : Int) - b + e else (a : Int) - b - 1 + e

/-- `n / d` rounded to the nearest integer, a tie going to the even one. -/
def roundHalfEven (n d : Nat) : Nat :=
  let q := n / d
  let r := n % d
  if d < 2 * r ∨ (2 * r = d ∧ q % 2 = 1) then q + 1 else q

/-- The double nearest to `num / den * 2^e` (for `den > 0`), a tie going to the even mantissa.
Values beyond the largest finite double become infinity, and values below half the smallest
subnormal become zero; the sign is `negative` in every case. -/
def ofRatio (negative : Bool) (num den : Nat) (e : Int) : Binary64 :=
  if num = 0 then zero negative else
  let q := max (leadingExponent num den e - 52) (-1074)
  let m := if q ≤ e then roundHalfEven (num * Nat.pow 2 (e - q).toNat) den
    else roundHalfEven num (den * Nat.pow 2 (q - e).toNat)
  -- rounding up may carry into a 54th bit
  let (m, q) := if m = Nat.pow 2 53 then (Nat.pow 2 52, q + 1) else (m, q)
  if 971 < q then infinity negative
  else if m < Nat.pow 2 52 then ofFields negative 0 m
  else ofFields negative (q + 1075).toNat (m - Nat.pow 2 52)

/-- The double nearest to a natural number. -/
def ofNat (n : Nat) : Binary64 := ofRatio false n 1 0

/-- The correctly rounded product of two finite doubles. -/
def mul (x y : Binary64) : Binary64 :=
  ofRatio (x.sign != y.sign) (x.mantissa * y.mantissa) 1 (x.exponent + y.exponent)

/-- The correctly rounded quotient of two finite doubles, the divisor not zero. -/
def div (x y : Binary64) : Binary64 :=
  ofRatio (x.sign != y.sign) x.mantissa y.mantissa (x.exponent - y.exponent)

/-- Floating-point equality: a NaN equals nothing, and the two zeros are equal. -/
def eqv (x y : Binary64) : Bool :=
  if x.isNaN || y.isNaN then false
  else if x.isZero && y.isZero then true
  else x.bits == y.bits

/-- Powers of ten as doubles, correctly rounded. -/
def pow10 (k : Nat) : Binary64 := ofNat (Nat.pow 10 k)

example : ofNat 1 = ⟨0x3FF0000000000000⟩ := by decide
example : (ofNat 10).div (ofNat 100) = ⟨0x3FB999999999999A⟩ := by decide
example : ofRatio false 1 1 (-1075) = zero false := by decide
example : ofRatio false 3 1 (-1076) = ⟨1⟩ := by decide

end Binary64

end DaemonBridge
