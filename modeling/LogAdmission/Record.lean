import LogAdmission.Instant
import LogAdmission.Level
import LogAdmission.Value

/-!
# Records

One structured log event.
-/

namespace LogAdmission

/-- A log event: how severe it is, what happened, when, and with which attributes. -/
structure Record where
  level : Level
  message : String
  time : Instant
  attrs : List Attr := []
  deriving DecidableEq

namespace Record

/-- The record with one more attribute at the end. -/
def withAttr (r : Record) (a : Attr) : Record :=
  { r with attrs := r.attrs ++ [a] }

end Record

end LogAdmission
