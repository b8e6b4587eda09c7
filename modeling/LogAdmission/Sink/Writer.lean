/-!
# Writers

A writer takes bytes piece by piece. How it responds to each request is laid
down in a script; a writer at the end of its script takes everything.
-/

namespace LogAdmission

/-- How a writer responds to one request. -/
inductive Response where
  | takeAll
  /-- Takes at most so many bytes. -/
  | takeUpTo (limit : Nat)
  /-- Takes nothing and asks to be tried again. -/
  | interrupted
  /-- Takes nothing and gives a reason. -/
  | fail (reason : String)
  deriving DecidableEq

/-- What came of offering bytes to a writer. -/
structure Written where
  /-- The pieces taken, in order. -/
  pieces : List (List UInt8)
  /-- The responses that are left. -/
  script : List Response
  /-- The reason to give up, if not all bytes were taken. -/
  failure : Option String
  deriving DecidableEq

namespace Written

/-- The result with one more piece in front. -/
def cons (piece : List UInt8) (w : Written) : Written :=
  { w with pieces := piece :: w.pieces }

end Written

/-- Offers bytes until all are taken. An interrupted request is made again; a writer
that takes no byte has failed. -/
def writeAll : List Response → List UInt8 → Written
  | script, [] => ⟨[], script, none⟩
  | [], bytes => ⟨[bytes], [], none⟩
  | .takeAll :: script, bytes => ⟨[bytes], script, none⟩
  | .takeUpTo limit :: script, bytes =>
    if limit = 0 then ⟨[], script, some "failed to write whole buffer"⟩
    else (writeAll script (bytes.drop limit)).cons (bytes.take limit)
  | .interrupted :: script, bytes => writeAll script bytes
  | .fail reason :: script, _ => ⟨[], script, some reason⟩

end LogAdmission
