import LogAdmission.Sink.Recorder
import LogAdmission.Sink.Text

/-!
# Endpoints

The sinks of this library as one type.
-/

namespace LogAdmission

/-- A sink of either kind. -/
inductive Endpoint where
  | text (t : TextSink)
  | recorder (k : Recorder)
  deriving DecidableEq

instance : Sink Endpoint World where
  enabled
    | .text t, _, level, _ => t.enabled level
    | .recorder k, _, level, _ => k.enabled level
  handle
    | .text t, _, r, w => t.handle r w
    | .recorder k, view, r, w => k.handle view r w
  withAttrs
    | .text t, attrs => .text (t.withAttrs attrs)
    | .recorder k, attrs => .recorder (k.withAttrs attrs)
  withGroup
    | .text t, name => .text (t.withGroup name)
    | .recorder k, name => .recorder (k.withGroup name)

namespace Sampler

/-- Follows a switch of the outside world. -/
def switched (name : String) : Sampler World := fun world _ => world.switches name

end Sampler

end LogAdmission
