import LogAdmission.Random
import LogAdmission.Trace.Basic

/-!
# Root traces

A new trace with random ids, sampled with a given probability.
-/

namespace LogAdmission.TraceContext

/-- Starts a trace: the decision to sample is drawn first, then the trace id, then the
span id. A ratio that is not a number samples nothing. -/
def root (ratio : Double) (g : Generator) : TraceContext × Generator :=
  let (chance, g) := g.unit
  let (traceId, g) := g.positive128
  let (spanId, g) := g.positive64
  (⟨BitVec.ofNat 128 traceId, BitVec.ofNat 64 spanId,
    if chance.numLt ratio then sampledFlag else 0⟩, g)

/-- Starts `count` traces in turn. -/
def roots (ratio : Double) : (count : Nat) → Generator → List TraceContext
  | 0, _ => []
  | count + 1, g =>
    let (trace, g) := root ratio g
    trace :: roots ratio count g

end LogAdmission.TraceContext
