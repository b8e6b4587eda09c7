import LogAdmission.Text.Numeral

/-!
# Trace contexts

The identity of a request across services: a trace id, a span id and flags, of
which the lowest bit is the decision to sample the trace.
-/

namespace LogAdmission

/-- The trace context of a request. -/
structure TraceContext where
  traceId : BitVec 128
  spanId : BitVec 64
  flags : BitVec 8
  deriving DecidableEq

/-- The `count` lowest bytes of a number, highest first. -/
def bigEndian : (count : Nat) → (n : Nat) → List Nat
  | 0, _ => []
  | count + 1, n => bigEndian count (n / 256) ++ [n % 256]

namespace TraceContext

/-- The flag of a sampled trace. -/
def sampledFlag : BitVec 8 := 1

/-- The sixteen bytes of the trace id. -/
def traceIdBytes (t : TraceContext) : List Nat :=
  bigEndian 16 t.traceId.toNat

/-- The eight bytes of the span id. -/
def spanIdBytes (t : TraceContext) : List Nat :=
  bigEndian 8 t.spanId.toNat

/-- A trace is valid when neither id is zero. -/
def isValid (t : TraceContext) : Bool :=
  t.traceId ≠ 0 && t.spanId ≠ 0

def isSampled (t : TraceContext) : Bool :=
  t.flags &&& sampledFlag ≠ 0

/-- The trace with its fields in decimal. -/
def description (t : TraceContext) : String :=
  "TraceContext \x7b trace_id: " ++ Numeral.ofNat t.traceId.toNat
    ++ ", span_id: " ++ Numeral.ofNat t.spanId.toNat
    ++ ", flags: " ++ Numeral.ofNat t.flags.toNat ++ " \x7d"

end TraceContext

end LogAdmission
