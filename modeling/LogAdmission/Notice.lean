import LogAdmission.Spans.Event

/-!
# Notices

What the handlers report about themselves: options that were replaced by their
defaults, and buffers that found no room in their pool. A notice is an event
with a message and one field.
-/

namespace LogAdmission

/-- A report of a handler about itself. -/
structure Notice where
  level : EventLevel
  message : String
  field : Field
  deriving DecidableEq

namespace Notice

/-- Reports that an option was zero and what is used instead. -/
def defaulted (what : String) (value : FieldValue) : Notice :=
  ⟨.debug, what ++ " is zero, using default", ⟨"default", value⟩⟩

/-- Reports that a released buffer was dropped by a pool that holds `size` already. -/
def poolFull (size : Nat) : Notice :=
  ⟨.trace, "buffer pool full, dropping released buffer", ⟨"idle", .uint (UInt64.ofNat size)⟩⟩

/-- The fields of the event that a notice is. -/
def fields (n : Notice) : List Field :=
  [⟨"message", .debug n.message⟩, n.field]

end Notice

end LogAdmission
