import LogAdmission.Double.Layout
import LogAdmission.Text.Quoted

/-!
# Attribute values

The typed values that attributes carry. A value has a `text`, which is what
lines show, and a `description`, which also names its type.
-/

namespace LogAdmission

/-- A structured attribute value. -/
inductive Value where
  | str (s : String)
  | int (n : Int64)
  | uint (n : UInt64)
  | double (x : Double)
  | bool (b : Bool)
  deriving DecidableEq

/-- A key and the value filed under it. -/
structure Attr where
  key : String
  value : Value
  deriving DecidableEq

namespace Value

/-- The text of a truth value. -/
def boolText (b : Bool) : String :=
  if b then "true" else "false"

/-- The value as a line shows it. -/
def text : Value → String
  | str s => s
  | int n => Numeral.ofInt n.toInt
  | uint n => Numeral.ofNat n.toNat
  | double x => Double.plain.write x
  | bool b => boolText b

/-- The value together with its type. -/
def description : Value → String
  | str s => "Str(" ++ Text.quoted s ++ ")"
  | int n => "I64(" ++ Numeral.ofInt n.toInt ++ ")"
  | uint n => "U64(" ++ Numeral.ofNat n.toNat ++ ")"
  | double x => "F64(" ++ Double.detailed.write x ++ ")"
  | bool b => "Bool(" ++ boolText b ++ ")"

/-- The short name of the value's type. -/
def typeName : Value → String
  | str _ => "str"
  | int _ => "i64"
  | uint _ => "u64"
  | double _ => "f64"
  | bool _ => "bool"

/-- Equality of values as data: doubles compare as numbers, values of two types differ. -/
def same : Value → Value → Bool
  | str a, str b => a = b
  | int a, int b => a = b
  | uint a, uint b => a = b
  | double a, double b => a.numEq b
  | bool a, bool b => a = b
  | _, _ => false

end Value

end LogAdmission
