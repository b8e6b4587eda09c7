import LogAdmission.Record

/-!
# Events

An event has one of five levels and a list of typed fields. Its record takes the
field named `message`, if that is text, as the message, and all other fields as
attributes.
-/

namespace LogAdmission

/-- The level of an event. -/
inductive EventLevel where
  | trace
  | debug
  | info
  | warn
  | error
  deriving DecidableEq

/-- The value of a field as it is recorded. -/
inductive FieldValue where
  | str (s : String)
  | int (n : Int64)
  | uint (n : UInt64)
  | double (x : Double)
  | bool (b : Bool)
  /-- Any other value, given by its debugging text. -/
  | debug (text : String)
  deriving DecidableEq

/-- A named field of an event. -/
structure Field where
  name : String
  value : FieldValue
  deriving DecidableEq

namespace EventLevel

/-- The level of records made from such events. -/
def level : EventLevel → Level
  | trace => .trace
  | debug => .debug
  | info => .info
  | warn => .warn
  | error => .error

end EventLevel

namespace FieldValue

/-- A number too wide for the integer types, recorded as its decimal text. -/
def ofWide (n : Int) : FieldValue :=
  debug (Numeral.ofInt n)

/-- A text recorded in quotes. -/
def ofQuoted (s : String) : FieldValue :=
  debug (Text.quoted s)

/-- Bytes recorded as two hexadecimal digits each, in brackets. -/
def ofBytes (bytes : List Nat) : FieldValue :=
  let shown := bytes.map fun b => String.ofList (Numeral.hexField 2 b)
  debug ("[" ++ String.intercalate " " shown ++ "]")

/-- The attribute value of a field. -/
def value : FieldValue → Value
  | str s => .str s
  | int n => .int n
  | uint n => .uint n
  | double x => .double x
  | bool b => .bool b
  | debug text => .str text

/-- The text that a field named `message` gives the record. -/
def messageText? : FieldValue → Option String
  | str s => some s
  | debug text => some text
  | _ => none

end FieldValue

/-- A message and the attributes collected beside it. -/
structure Collected where
  message : String := ""
  attrs : List Attr := []
  deriving DecidableEq

namespace Collected

/-- Files one field: the last message counts. -/
def file (c : Collected) (f : Field) : Collected :=
  if f.name = "message" then
    match f.value.messageText? with
    | some message => { c with message := message }
    | none => { c with attrs := c.attrs ++ [⟨f.name, f.value.value⟩] }
  else { c with attrs := c.attrs ++ [⟨f.name, f.value.value⟩] }

/-- Files fields in order. -/
def ofFields (fields : List Field) : Collected :=
  fields.foldl file {}

end Collected

/-- The record of an event at the time `now`. -/
def eventRecord (level : EventLevel) (fields : List Field) (now : Instant) : Record :=
  let c := Collected.ofFields fields
  { level := level.level, message := c.message, time := now, attrs := c.attrs }

end LogAdmission
