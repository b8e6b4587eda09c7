import LogAdmission.Handler.Basic
import LogAdmission.Sink.Line
import LogAdmission.Sink.World
import LogAdmission.Text.Utf8

/-!
# Text sinks

A sink that writes records as lines. Attributes that a derived sink adds are
written once, under the groups open at that moment, and copied into every line.
-/

namespace LogAdmission

/-- A sink that writes lines. -/
structure TextSink where
  writer : Writer
  minimum : Level := .info
  withTime : Bool := true
  /-- The names of the open groups, each followed by a point. -/
  qualifier : String := ""
  /-- The written attributes of every record. -/
  preformatted : String := ""
  deriving DecidableEq

namespace TextSink

/-- The line of a record. -/
def line (t : TextSink) (r : Record) : Except TimestampError String :=
  Line.write t.withTime t.qualifier t.preformatted r

def enabled (t : TextSink) (level : Level) : Bool :=
  t.minimum ≤ level

/-- Writes a record. Without a line the writer is left alone. -/
def handle (t : TextSink) (r : Record) (w : World) : Outcome × World :=
  match t.line r with
  | .error .outsideCalendar => (.aborted, w)
  | .error .negativeYear => (.failed .format, w)
  | .ok line =>
    match w.offer t.writer (Text.bytes line) with
    | (none, w) => (.ok, w)
    | (some reason, w) => (.failed (.io reason), w)

def withAttrs (t : TextSink) (attrs : List Attr) : TextSink :=
  { t with preformatted := t.preformatted ++ Line.attrs t.qualifier attrs }

/-- Opens a group; an empty name opens none. -/
def withGroup (t : TextSink) (name : String) : TextSink :=
  if name.isEmpty then t else { t with qualifier := t.qualifier ++ name ++ "." }

end TextSink

end LogAdmission
