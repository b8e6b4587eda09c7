/-!
# Outcomes

How a call that handles a record ends.
-/

namespace LogAdmission

/-- Why a record was not handled. -/
inductive HandleError where
  /-- The writer refused bytes. -/
  | io (reason : String)
  /-- The record has no written form. -/
  | format
  /-- A sink reported a failure of its own. -/
  | other (message : String)
  deriving DecidableEq

namespace HandleError

/-- The wording of the failure. -/
def message : HandleError → String
  | io reason => "failed to write record: " ++ reason
  | format => "failed to format record"
  | other message => message

end HandleError

/-- How a call ends. An aborted call stops at once, and so does every call that was
waiting for it. -/
inductive Outcome where
  | ok
  | failed (e : HandleError)
  | aborted
  deriving DecidableEq

end LogAdmission
