import LogAdmission.Cells
import LogAdmission.Context
import LogAdmission.Record
import LogAdmission.Sink.Writer

/-!
# The outside world

What the sinks of this library act on: writers, with what they were given, and
switches that samplers may read.
-/

namespace LogAdmission

/-- A writer, by number, and the name under which it reports. -/
structure Writer where
  number : Nat
  name : String
  deriving DecidableEq

/-- What reached the outside through a sink. -/
inductive Received where
  /-- Bytes that a writer took. -/
  | piece (bytes : List UInt8)
  /-- A record that a recorder was given, behind the derivations of the recorder. -/
  | record (path : List (List Attr ⊕ String)) (showTime : Bool) (view : View) (r : Record)

/-- The state of the outside world. -/
structure World where
  scripts : Cells (List Response) := fun _ => []
  freshWriter : Nat := 0
  switches : String → Bool := fun _ => false
  /-- What was received, with the name of the receiver, latest first. -/
  received : List (String × Received) := []

namespace World

/-- Adds a writer with a script. -/
def addWriter (w : World) (name : String) (script : List Response) : Writer × World :=
  (⟨w.freshWriter, name⟩,
    { w with
      scripts := w.scripts.put w.freshWriter script
      freshWriter := w.freshWriter + 1 })

/-- Notes that something was received. -/
def receive (w : World) (name : String) (item : Received) : World :=
  { w with received := (name, item) :: w.received }

/-- Sets a switch. -/
def setSwitch (w : World) (name : String) (value : Bool) : World :=
  { w with switches := fun n => if n = name then value else w.switches n }

/-- What was received, in order, and the world with nothing received. -/
def takeReceived (w : World) : List (String × Received) × World :=
  (w.received.reverse, { w with received := [] })

/-- Offers bytes to a writer. -/
def offer (w : World) (writer : Writer) (bytes : List UInt8) : Option String × World :=
  let result := writeAll (w.scripts writer.number) bytes
  let w := { w with scripts := w.scripts.put writer.number result.script }
  (result.failure, result.pieces.foldl (fun w piece => w.receive writer.name (.piece piece)) w)

end World

end LogAdmission
