import LogAdmission.Double.Shortest
import LogAdmission.Text.Numeral

/-!
# Written doubles

The shortest decimal of a double laid out as text. A layout fixes when
positional notation is used and whether a whole number keeps a fraction. The
two layouts of this library are `plain`, for attribute values in a line, and
`detailed`, for descriptions of values.
-/

namespace LogAdmission.Double

/-- The decisions that a written double leaves open. -/
structure Layout where
  /-- Whether a decimal whose point stands there is written without an exponent. -/
  positional : (point : Int) → Bool
  /-- What follows a whole number in positional notation. -/
  wholeMark : String

/-- Always positional, and whole numbers have no fraction. -/
def plain : Layout :=
  ⟨fun _ => true, ""⟩

/-- Positional from one ten-thousandth up to, and without, ten to the sixteenth; whole
numbers keep a zero after the point. -/
def detailed : Layout :=
  ⟨fun point => -3 ≤ point && point ≤ 16, ".0"⟩

namespace Layout

/-- Positional notation: zeros fill the gap between the digits and the point. -/
def writePositional (layout : Layout) (d : Decimal) : String :=
  match d.point with
  | .negSucc n => "0." ++ String.ofList (List.replicate (n + 1) '0' ++ d.digits)
  | .ofNat 0 => "0." ++ String.ofList d.digits
  | .ofNat n =>
    if d.digits.length ≤ n then
      String.ofList (d.digits ++ List.replicate (n - d.digits.length) '0') ++ layout.wholeMark
    else
      String.ofList (d.digits.take n) ++ "." ++ String.ofList (d.digits.drop n)

/-- Scientific notation: one digit before the point. -/
def writeScientific (d : Decimal) : String :=
  let fraction := d.digits.drop 1
  String.ofList (d.digits.take 1)
    ++ (if fraction.isEmpty then "" else "." ++ String.ofList fraction)
    ++ "e" ++ Numeral.ofInt (d.point - 1)

/-- The text of a positive finite double. -/
def writePositive (layout : Layout) (x : Double) : String :=
  let d := x.shortest
  if layout.positional d.point then layout.writePositional d else writeScientific d

/-- The text of a double. What is not a number has no sign. -/
def write (layout : Layout) (x : Double) : String :=
  if x.isNaN then "NaN"
  else
    (if x.isNegative then "-" else "") ++
      if x.isInfinite then "inf"
      else if x.magnitude = 0 then "0" ++ layout.wholeMark
      else layout.writePositive x

end Layout

end LogAdmission.Double
