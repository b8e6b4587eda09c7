/-!
# Numerals

The digits of numbers in base ten and base sixteen, most significant first and
without leading zeros, and the texts made of them.
-/

namespace LogAdmission.Numeral

/-- The decimal text of a natural number. -/
def ofNat (n : Nat) : String :=
  String.ofList (Nat.toDigits 10 n)

/-- The decimal text of an integer: a minus sign only for negative numbers. -/
def ofInt : Int → String
  | .ofNat n => ofNat n
  | .negSucc n => "-" ++ ofNat (n + 1)

/-- The decimal text of an integer that always carries its sign. -/
def signed : Int → String
  | .ofNat n => "+" ++ ofNat n
  | .negSucc n => "-" ++ ofNat (n + 1)

/-- `n` in decimal, filled with zeros on the left to `width` digits. -/
def padded (width n : Nat) : String :=
  let digits := Nat.toDigits 10 n
  String.ofList (List.replicate (width - digits.length) '0' ++ digits)

/-- The lowercase hexadecimal digits of `n`. -/
def hexDigits (n : Nat) : List Char :=
  Nat.toDigits 16 n

/-- The `width` lowest hexadecimal digits of `n`, highest first. -/
def hexField : (width : Nat) → (n : Nat) → List Char
  | 0, _ => []
  | width + 1, n => hexField width (n / 16) ++ [Nat.digitChar (n % 16)]

/-- The value of a lowercase hexadecimal digit. -/
def hexValue? (c : Char) : Option Nat :=
  if '0' ≤ c ∧ c ≤ '9' then some (c.toNat - '0'.toNat)
  else if 'a' ≤ c ∧ c ≤ 'f' then some (c.toNat - 'a'.toNat + 10)
  else none

/-- Reads lowercase hexadecimal digits on top of the value read so far. -/
def readHexFrom (value : Nat) : List Char → Option Nat
  | [] => some value
  | c :: rest => (hexValue? c).bind fun d => readHexFrom (16 * value + d) rest

/-- The value of a field of exactly `width` lowercase hexadecimal digits. -/
def readHexField (width : Nat) (field : List Char) : Option Nat :=
  if field.length = width then readHexFrom 0 field else none

end LogAdmission.Numeral
