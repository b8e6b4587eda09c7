/-!
# Bytes as text

The bytes of a text in UTF-8, and a text for any sequence of bytes: every
longest piece that begins a well-formed character without completing one is
shown as one replacement character.
-/

namespace LogAdmission.Text

/-- The UTF-8 bytes of a text. -/
def bytes (s : String) : List UInt8 :=
  s.toUTF8.data.toList

/-- How many bytes follow a leading byte, and the range of the first of them. -/
def continuation (lead : Nat) : Option (Nat × Nat × Nat) :=
  if 0xC2 ≤ lead ∧ lead ≤ 0xDF then some (1, 0x80, 0xBF)
  else if lead = 0xE0 then some (2, 0xA0, 0xBF)
  else if lead = 0xED then some (2, 0x80, 0x9F)
  else if 0xE1 ≤ lead ∧ lead ≤ 0xEF then some (2, 0x80, 0xBF)
  else if lead = 0xF0 then some (3, 0x90, 0xBF)
  else if 0xF1 ≤ lead ∧ lead ≤ 0xF3 then some (3, 0x80, 0xBF)
  else if lead = 0xF4 then some (3, 0x80, 0x8F)
  else none

/-- What the bytes read so far have begun. -/
inductive Pending where
  /-- Nothing. -/
  | fresh
  /-- A character with the bits `value` so far, `missing + 1` bytes short, the next of
  which lies between `low` and `high`. -/
  | inside (value missing low high : Nat)

/-- The character shown in place of bytes that are no character. -/
def replacement : Char :=
  Char.ofNat 0xFFFD

/-- What a byte at the start of a character begins, or the character it is. -/
def start (byte : UInt8) : Pending × List Char :=
  if byte.toNat < 0x80 then (.fresh, [Char.ofNat byte.toNat])
  else
    match continuation byte.toNat with
    | some (count, low, high) =>
      (.inside (byte.toNat % Nat.pow 2 (6 - count)) (count - 1) low high, [])
    | none => (.fresh, [replacement])

/-- Reads bytes after what is pending. -/
def shownFrom : Pending → List UInt8 → List Char
  | .fresh, [] => []
  | .inside .., [] => [replacement]
  | .fresh, b :: rest =>
    let (pending, shown) := start b
    shown ++ shownFrom pending rest
  | .inside value missing low high, b :: rest =>
    if low ≤ b.toNat ∧ b.toNat ≤ high then
      let value := value * 64 + b.toNat % 64
      match missing with
      | 0 => Char.ofNat value :: shownFrom .fresh rest
      | missing + 1 => shownFrom (.inside value missing 0x80 0xBF) rest
    else
      let (pending, shown) := start b
      replacement :: shown ++ shownFrom pending rest

/-- A text that shows a sequence of bytes. -/
def shown (bs : List UInt8) : String :=
  String.ofList (shownFrom .fresh bs)

end LogAdmission.Text
