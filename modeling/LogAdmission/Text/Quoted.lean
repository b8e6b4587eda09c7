import LogAdmission.Text.Numeral
import LogAdmission.Text.Unprintable

/-!
# Quoted text

A text between double quotes in which every character keeps its place: six
characters have short escapes, unprintable ones are written as their number in
braces, and all others stand for themselves.
-/

namespace LogAdmission.Text

/-- The written form of one character inside quotes. -/
def escape (c : Char) : List Char :=
  if c = '\x00' then ['\\', '0']
  else if c = '\t' then ['\\', 't']
  else if c = '\r' then ['\\', 'r']
  else if c = '\n' then ['\\', 'n']
  else if c = '"' then ['\\', '"']
  else if c = '\\' then ['\\', '\\']
  else if isUnprintable c then
    ['\\', 'u', '\x7b'] ++ Numeral.hexDigits c.toNat ++ ['\x7d']
  else [c]

/-- The text between double quotes, with its characters escaped. -/
def quoted (s : String) : String :=
  String.ofList ('"' :: s.toList.flatMap escape ++ ['"'])

end LogAdmission.Text
