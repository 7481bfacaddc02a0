import DaemonBridge.Binary64

/-!
# Shortest decimal form of a double

`Binary64.shortest` finds, for a finite double, the decimal `digits * 10^exponent` with the fewest
significant digits that still rounds back to the same double; among decimals of that length it
takes the one nearest to the double, and an exact tie goes to the even one.

The interval of reals that round to a positive double `m * 2^q` reaches halfway to each
neighbour, with both ends included when `m` is even. For each length `n = 1, 2, …, 17` the search
looks at the two multiples of `10^(t - n + 1)` around the value, where `10^t` is the greatest
power of ten not above it: if some `n`-digit decimal lies in the interval, one of these two does.
All arithmetic is exact `Nat` arithmetic.
-/

namespace DaemonBridge

/-- A decimal number `digits * 10^exponent`. -/
structure Decimal where
  digits : Nat
  exponent : Int
  deriving DecidableEq, Repr, Inhabited

namespace Decimal

/-- `a * 2^p2a * 10^p10a` compared with `b * 2^p2b * 10^p10b`. -/
def compareScaled (a : Nat) (p2a p10a : Int) (b : Nat) (p2b p10b : Int) : Ordering :=
  let d2 := p2a - p2b
  let d10 := p10a - p10b
  compare (a * Nat.pow 2 d2.toNat * Nat.pow 10 d10.toNat) (b * Nat.pow 2 (-d2).toNat * Nat.pow 10 (-d10).toNat)

/-- Decimal digits of a natural number, most significant first. -/
def digitsOf (n : Nat) : List Nat :=
  (Nat.toDigits 10 n).map fun c => c.toNat - '0'.toNat

/-- The same number with trailing zero digits moved into the exponent. -/
def normalize (d : Decimal) : Decimal :=
  go d.digits.log2 d
where
  go : Nat → Decimal → Decimal
    | 0, d => d
    | fuel + 1, d =>
      if d.digits ≠ 0 ∧ d.digits % 10 = 0 then go fuel ⟨d.digits / 10, d.exponent + 1⟩ else d

/-- Number of significant digits (one for zero). -/
def length (d : Decimal) : Nat := (digitsOf d.digits).length

/-- The exponent of the leading digit: the value lies in `[10^k, 10^(k+1))` for a non-zero
normalized value. -/
def leadExponent (d : Decimal) : Int := d.exponent + d.length - 1

end Decimal

namespace Binary64

open Decimal

/-- `10^t ≤ m * 2^q`. -/
def powTenLe (m : Nat) (q t : Int) : Bool :=
  compareScaled 1 0 t m q 0 != .gt

/-- The greatest `t` with `10^t ≤ m * 2^q`, for `m > 0`. The estimate `(log2 m + q) * 1233 / 4096`
is within one of it, since `1233 / 4096` is within `5e-6` of `log10 2`. -/
def floorLog10 (m : Nat) (q : Int) : Int :=
  let est := ((Nat.log2 m : Int) + q) * 1233 / 4096
  if powTenLe m q (est + 1) then (if powTenLe m q (est + 2) then est + 2 else est + 1)
  else if powTenLe m q est then est else est - 1

/-- The rounding interval of a positive finite double, scaled by four: its ends are
`lo * 2^(q-2)` and `hi * 2^(q-2)`, and they belong to it when `closed`. The lower gap is half as
wide when the mantissa is the smallest of a binade above the subnormals. -/
structure RoundingInterval where
  lo : Nat
  hi : Nat
  scale : Int
  closed : Bool

/-- The interval of reals that round to `x`. -/
def roundingInterval (x : Binary64) : RoundingInterval :=
  let m := x.mantissa
  let lo := if x.fraction = 0 ∧ 1 < x.biasedExponent then 4 * m - 1 else 4 * m - 2
  ⟨lo, 4 * m + 2, x.exponent - 2, m % 2 = 0⟩

/-- The decimal `c * 10^e` rounds to the double whose interval is `r`. -/
def RoundingInterval.contains (r : RoundingInterval) (c : Nat) (e : Int) : Bool :=
  let above := compareScaled c 0 e r.lo r.scale 0
  let below := compareScaled c 0 e r.hi r.scale 0
  (above == .gt || (r.closed && above == .eq)) && (below == .lt || (r.closed && below == .eq))

/-- The two candidates of length `n` around `m * 2^q`, with the nearer first (a tie: the even
one first). -/
def candidates (m : Nat) (q : Int) (e : Int) : List Nat :=
  let num := m * Nat.pow 2 q.toNat * Nat.pow 10 (-e).toNat
  let den := Nat.pow 2 (-q).toNat * Nat.pow 10 e.toNat
  let c := num / den
  if num % den = 0 then [c] else
  -- compare 2v with (2c + 1) * 10^e
  match compareScaled m (q + 1) 0 (2 * c + 1) 0 e with
  | .lt => [c, c + 1]
  | .gt => [c + 1, c]
  | .eq => if c % 2 = 0 then [c, c + 1] else [c + 1, c]

/-- The shortest decimal that rounds back to the finite double `x`, ignoring its sign. Seventeen
significant digits always suffice, so the last length tried takes the nearer candidate. -/
def shortest (x : Binary64) : Decimal :=
  let m := x.mantissa
  let q := x.exponent
  if m = 0 then ⟨0, 0⟩ else
  let t := floorLog10 m q
  let r := roundingInterval x
  let rec search : Nat → Nat → Decimal
    | 0, n => normalize ⟨(candidates m q (t - n + 1)).headD 0, t - n + 1⟩
    | fuel + 1, n =>
      let e := t - n + 1
      match (candidates m q e).find? (r.contains · e) with
      | some c => normalize ⟨c, e⟩
      | none => search fuel (n + 1)
  search 16 1

example : shortest (ofNat 1) = ⟨1, 0⟩ := by decide
example : shortest ((ofNat 1).div (ofNat 10)) = ⟨1, -1⟩ := by decide
example : shortest ⟨1⟩ = ⟨5, -324⟩ := by decide +kernel

end Binary64

end DaemonBridge
