import LogAdmission.Calendar
import LogAdmission.Record

/-!
# Lines

A record as one line of `key=value` pairs. Keys and texts are written bare when
nothing in them could be taken for the grammar of the line, and quoted
otherwise; quoted text contains no line break.
-/

namespace LogAdmission.Line

/-- Whether a character is a control character. -/
def isControl (c : Char) : Bool :=
  c.toNat < 0x20 || (0x7F ≤ c.toNat && c.toNat ≤ 0x9F)

/-- Whether a character cannot stand in a bare text. -/
def isDelimiter (c : Char) : Bool :=
  c = ' ' || c = '=' || c = '"' || isControl c

/-- Whether a text has to be quoted. -/
def needsQuotes (s : String) : Bool :=
  s.isEmpty || s.toList.any isDelimiter

/-- A text, bare if possible. -/
def word (s : String) : String :=
  if needsQuotes s then Text.quoted s else s

/-- The value of an attribute. Numbers and truth values are never quoted. -/
def valueWord : Value → String
  | .str s => word s
  | v => v.text

/-- An attribute whose key is qualified by the groups it stands in. -/
def attr (qualifier : String) (a : Attr) : String :=
  " " ++ word (qualifier ++ a.key) ++ "=" ++ valueWord a.value

/-- Attributes in order. -/
def attrs (qualifier : String) : List Attr → String
  | [] => ""
  | a :: rest => attr qualifier a ++ attrs qualifier rest

/-- A whole line behind its timestamp. Attributes that belong to every record of a sink
are `preformatted`, and stand before those of the record. -/
def body (qualifier preformatted : String) (r : Record) : String :=
  "level=" ++ r.level.text ++ " msg=" ++ word r.message ++ preformatted
    ++ attrs qualifier r.attrs ++ "\n"

/-- A whole line with the time of its record in front, if that is wanted. -/
def write (withTime : Bool) (qualifier preformatted : String) (r : Record) :
    Except TimestampError String :=
  if withTime then
    r.time.timestamp.map fun time => "time=" ++ time ++ " " ++ body qualifier preformatted r
  else .ok (body qualifier preformatted r)

end LogAdmission.Line
