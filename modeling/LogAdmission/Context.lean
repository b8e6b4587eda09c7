import LogAdmission.Trace.Basic

/-!
# Contexts

What accompanies every record: the trace of the request, and the buffer scope
that the request opened. A context keeps its binding to a scope when the scope
ends; whether the scope is still open is a question to the buffer.
-/

namespace LogAdmission

/-- The buffer that a scope was given, and the number of the scope. -/
structure Binding where
  buffer : Nat
  scope : Nat
  deriving DecidableEq

/-- A per-call context. -/
structure Context where
  trace : Option TraceContext := none
  binding : Option Binding := none
  deriving DecidableEq

/-- What sinks and samplers learn from a context. -/
structure View where
  trace : Option TraceContext
  /-- Whether the context is bound to a scope that is still open. -/
  buffered : Bool
  deriving DecidableEq

namespace Context

/-- The context without trace and scope. -/
def empty : Context := {}

/-- The context with the given trace. -/
def withTrace (cx : Context) (trace : TraceContext) : Context :=
  { cx with trace := some trace }

/-- The context bound to a scope, in place of any earlier one. -/
def bind (cx : Context) (binding : Binding) : Context :=
  { cx with binding := some binding }

/-- The context without its binding. -/
def detached (cx : Context) : Context :=
  { cx with binding := none }

/-- What is learned from a context without an open scope. -/
def unboundView (cx : Context) : View :=
  ⟨cx.trace, false⟩

/-- The context with its trace and the number of its scope. -/
def description (cx : Context) : String :=
  let trace :=
    match cx.trace with
    | none => "None"
    | some t => "Some(" ++ t.description ++ ")"
  let scope :=
    match cx.binding with
    | none => "None"
    | some b => "Some(" ++ Numeral.ofNat b.scope ++ ")"
  "Context \x7b trace: " ++ trace ++ ", scope: " ++ scope ++ " \x7d"

end Context

end LogAdmission
