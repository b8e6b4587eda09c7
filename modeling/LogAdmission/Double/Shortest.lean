import LogAdmission.Double.Basic

/-!
# Shortest decimals

The fewest decimal digits that read back as a given double, and among decimals
with that many digits the one nearest to it. A positive finite double stands for
every real number that rounds to it. For one digit, two digits and so on up to
seventeen, the two decimals next to the double on that grid are tested against
this interval; the first grid with a hit gives the digits.
-/

namespace LogAdmission

/-- The decimal `0.d₁d₂d₃… · 10 ^ point`. -/
structure Decimal where
  digits : List Char
  point : Int
  deriving DecidableEq

namespace Decimal

/-- The decimal `coefficient · 10 ^ scale` without zeros at the end. -/
def ofScaled (coefficient : Nat) (scale : Int) : Decimal :=
  let digits := Nat.toDigits 10 coefficient
  ⟨(digits.reverse.dropWhile (· = '0')).reverse, digits.length + scale⟩

end Decimal

namespace Double

/-- The interval of reals that round to a positive finite double, as numerators over
one common denominator. The ends belong to it when the significand is even. -/
structure Neighbourhood where
  low : Nat
  middle : Nat
  high : Nat
  den : Nat
  closed : Bool

/-- The double below is only half as far away when the significand is the least one
of its exponent. -/
def neighbourhood (x : Double) : Neighbourhood :=
  let m := x.significand
  let below := if x.fractionField = 0 ∧ 1 < x.exponentField then 1 else 2
  let (unit, den) :=
    match x.exponent - 2 with
    | .ofNat e => (Nat.pow 2 e, 1)
    | .negSucc e => (1, Nat.pow 2 (e + 1))
  ⟨(4 * m - below) * unit, 4 * m * unit, (4 * m + 2) * unit, den, m % 2 = 0⟩

namespace Neighbourhood

/-- Whether `num / den` rounds to the double. -/
def contains (n : Neighbourhood) (num den : Nat) : Bool :=
  if n.closed then n.low * den ≤ num * n.den && num * n.den ≤ n.high * den
  else n.low * den < num * n.den && num * n.den < n.high * den

/-- The least `e` with `middle / den < 10 ^ e`. -/
def decade (n : Neighbourhood) : Int :=
  if n.den ≤ n.middle then ((Nat.toDigits 10 (n.middle / n.den)).length : Int)
  else 1 - ((Nat.toDigits 10 ((n.den - 1) / n.middle)).length : Int)

/-- Tests the two neighbours of the double on the grid of multiples of `10 ^ scale`.
Of two hits the nearer one counts, and the upper one when they are equally near. -/
def onGrid (n : Neighbourhood) (scale : Int) : Option Decimal :=
  let (up, down) :=
    match scale with
    | .ofNat s => (Nat.pow 10 s, 1)
    | .negSucc s => (1, Nat.pow 10 (s + 1))
  let lower := n.middle * down / (n.den * up)
  let upper := lower + 1
  let rest := n.middle * down % (n.den * up)
  let lowerHit := n.contains (lower * up) down
  let upperHit := n.contains (upper * up) down
  if rest = 0 then some (.ofScaled lower scale)
  else if lowerHit && upperHit then
    some (.ofScaled (if 2 * rest < n.den * up then lower else upper) scale)
  else if lowerHit then some (.ofScaled lower scale)
  else if upperHit then some (.ofScaled upper scale)
  else none

/-- Tries `count` grids, the coarsest of which keeps `used` digits. -/
def search (n : Neighbourhood) (used : Nat) : (count : Nat) → Option Decimal
  | 0 => none
  | count + 1 =>
    match n.onGrid (n.decade - used) with
    | some d => some d
    | none => n.search (used + 1) count

end Neighbourhood

/-- The shortest decimal of a positive finite double. Seventeen digits tell all
doubles apart, so the search has a hit. -/
def shortest (x : Double) : Decimal :=
  (x.neighbourhood.search 1 17).getD ⟨[], 0⟩

end Double

end LogAdmission
