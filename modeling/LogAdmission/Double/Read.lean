import LogAdmission.Double.Round

/-!
# Reading doubles

The double nearest to a decimal text. The grammar is an optional sign, then
digits with at most one point among or beside them and at least one digit, then
an optional exponent with an optional sign and at least one digit; or, in any
letter case, one of the words `inf`, `infinity` and `nan` after an optional sign.
-/

namespace LogAdmission.Double

/-- Splits off a leading sign; the flag tells whether it was a minus sign. -/
def splitSign : List Char → Bool × List Char
  | '-' :: rest => (true, rest)
  | '+' :: rest => (false, rest)
  | text => (false, text)

/-- The value of a run of decimal digits. -/
def digitsValue (digits : List Char) : Nat :=
  digits.foldl (fun value c => 10 * value + (c.toNat - '0'.toNat)) 0

/-- The number that an exponent part stands for; the empty text is exponent zero. -/
def readExponent : List Char → Option Int
  | [] => some 0
  | c :: rest =>
    if c = 'e' ∨ c = 'E' then
      let (negative, digits) := splitSign rest
      if digits.isEmpty || !digits.all Char.isDigit then none
      else some (if negative then -(digitsValue digits : Int) else digitsValue digits)
    else none

/-- Beyond these powers of ten every coefficient of at most `length` digits rounds
to infinity or to zero, so the exponent may be cut there. -/
def boundExponent (length : Nat) (e : Int) : Int :=
  Max.max (-(400 + length : Int)) (Min.min (400 + length : Int) e)

/-- The double nearest to `coefficient · 10 ^ e`. -/
def ofPowerOfTen (negative : Bool) (coefficient : Nat) : (e : Int) → Double
  | .ofNat e => ofRatio negative (coefficient * Nat.pow 10 e) 1
  | .negSucc e => ofRatio negative coefficient (Nat.pow 10 (e + 1))

/-- Reads a number without its sign. -/
def readUnsigned (negative : Bool) (text : List Char) : Option Double :=
  let whole := text.takeWhile Char.isDigit
  let afterWhole := text.dropWhile Char.isDigit
  let tail := if afterWhole.head? = some '.' then afterWhole.drop 1 else afterWhole
  let fraction := if afterWhole.head? = some '.' then tail.takeWhile Char.isDigit else []
  let afterFraction := tail.drop fraction.length
  let digits := whole ++ fraction
  if digits.isEmpty then none
  else
    (readExponent afterFraction).map fun e =>
      ofPowerOfTen negative (digitsValue digits)
        (boundExponent digits.length (e - fraction.length))

/-- The double that a text stands for, if it is in the grammar. -/
def read? (text : String) : Option Double :=
  let (negative, rest) := splitSign text.toList
  let word := String.ofList (rest.map Char.toLower)
  if word = "inf" ∨ word = "infinity" then some (ofMagnitude negative infiniteMagnitude)
  else if word = "nan" then some nan
  else readUnsigned negative rest

end LogAdmission.Double
