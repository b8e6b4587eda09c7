/-!
# Doubles

A double-precision number is its 64 bits: a sign bit, eleven exponent bits and
52 fraction bits. A finite double is `significand · 2 ^ exponent` with the sign
put in front. Nothing here uses machine arithmetic on floating-point numbers,
so every function can be unfolded.
-/

namespace LogAdmission

/-- A double-precision number, given by its bits. -/
structure Double where
  bits : UInt64
  deriving DecidableEq

namespace Double

/-- The bits without the sign bit. -/
def magnitude (x : Double) : Nat :=
  x.bits.toNat % Nat.pow 2 63

def isNegative (x : Double) : Bool :=
  Nat.pow 2 63 ≤ x.bits.toNat

/-- The magnitude of infinity; larger magnitudes are not numbers. -/
def infiniteMagnitude : Nat :=
  2047 * Nat.pow 2 52

def isNaN (x : Double) : Bool :=
  infiniteMagnitude < x.magnitude

def isInfinite (x : Double) : Bool :=
  x.magnitude = infiniteMagnitude

/-- The eleven exponent bits. -/
def exponentField (x : Double) : Nat :=
  x.magnitude / Nat.pow 2 52

/-- The 52 fraction bits. -/
def fractionField (x : Double) : Nat :=
  x.magnitude % Nat.pow 2 52

/-- The integer `m` of `m · 2 ^ q`; subnormal numbers have no hidden bit. -/
def significand (x : Double) : Nat :=
  if x.exponentField = 0 then x.fractionField else x.fractionField + Nat.pow 2 52

/-- The exponent `q` of `m · 2 ^ q`. -/
def exponent (x : Double) : Int :=
  (Nat.max x.exponentField 1 : Int) - 1075

/-- The double with the given sign and magnitude bits. -/
def ofMagnitude (negative : Bool) (magnitude : Nat) : Double :=
  ⟨UInt64.ofNat (if negative then Nat.pow 2 63 + magnitude else magnitude)⟩

/-- A quiet pattern that is not a number. -/
def nan : Double :=
  ofMagnitude false (infiniteMagnitude + Nat.pow 2 51)

/-- Where a number stands in the order of the extended reals: the magnitude bits of
finite numbers and infinities grow with their value, and both zeros are at zero. -/
def rank (x : Double) : Int :=
  if x.isNegative then -(x.magnitude : Int) else x.magnitude

/-- Numeric equality: no pattern that is not a number equals anything, and the two
zeros are equal. -/
def numEq (x y : Double) : Bool :=
  !x.isNaN && !y.isNaN && x.rank = y.rank

/-- Numeric order, false as soon as one side is not a number. -/
def numLt (x y : Double) : Bool :=
  !x.isNaN && !y.isNaN && x.rank < y.rank

end Double

end LogAdmission
