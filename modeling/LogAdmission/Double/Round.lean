import LogAdmission.Double.Basic

/-!
# Rounding to doubles

The double nearest to a ratio of natural numbers; of two equally near doubles
the one with the even significand. Beyond the largest finite double lies
infinity.
-/

namespace LogAdmission

namespace Double

/-- The natural number nearest to `num / den`; a half goes to the even neighbour. -/
def nearestEven (num den : Nat) : Nat :=
  let floor := num / den
  let twice := 2 * (num % den)
  if twice < den then floor
  else if den < twice then floor + 1
  else if floor % 2 = 0 then floor else floor + 1

/-- The numerator and denominator of `num / den · 2 ^ (-exponent)`. -/
def scaled (num den : Nat) (exponent : Int) : Nat × Nat :=
  match exponent with
  | .ofNat e => (num, den * Nat.pow 2 e)
  | .negSucc e => (num * Nat.pow 2 (e + 1), den)

/-- The exponent of the grid on which `num / den` is rounded: at least that of the
subnormal numbers, and otherwise such that 53 bits stay before the point. -/
def gridExponent (num den : Nat) : Int :=
  let low := (num.log2 : Int) - (den.log2 : Int) - 53
  let (n, d) := scaled num den low
  Max.max (if n / d < Nat.pow 2 53 then low else low + 1) (-1074)

/-- The double nearest to `num / den`, with the given sign. -/
def ofRatio (negative : Bool) (num den : Nat) : Double :=
  if num = 0 then ofMagnitude negative 0
  else
    let grid := gridExponent num den
    let (n, d) := scaled num den grid
    let magnitude := (grid + 1074).toNat * Nat.pow 2 52 + nearestEven n d
    ofMagnitude negative (Nat.min magnitude infiniteMagnitude)

/-- The magnitude of a finite double as a ratio of natural numbers. -/
def ratio (x : Double) : Nat × Nat :=
  match x.exponent with
  | .ofNat e => (x.significand * Nat.pow 2 e, 1)
  | .negSucc e => (x.significand, Nat.pow 2 (e + 1))

/-- The product of a finite double and a natural number, rounded once. -/
def timesNat (x : Double) (k : Nat) : Double :=
  let (num, den) := x.ratio
  ofRatio x.isNegative (num * k) den

/-- The double nearest to a natural number. -/
def ofNat (n : Nat) : Double :=
  ofRatio false n 1

end Double

end LogAdmission
