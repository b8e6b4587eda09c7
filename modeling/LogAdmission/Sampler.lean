import LogAdmission.Context

/-!
# Samplers

The decision whether the records of a request are logged in full. A sampler may
look at the context and at the outside world.
-/

namespace LogAdmission

/-- A sampling decision. -/
abbrev Sampler (σ : Type) := σ → View → Bool

namespace Sampler

variable {σ : Type}

/-- Follows the decision of the trace; requests without a valid trace are sampled. -/
def byTrace : Sampler σ := fun _ view =>
  match view.trace with
  | none => true
  | some t => !t.isValid || t.isSampled

def always : Sampler σ := fun _ _ => true

def never : Sampler σ := fun _ _ => false

/-- Samples inside open scopes. -/
def buffered : Sampler σ := fun _ view => view.buffered

/-- Samples requests that have a trace. -/
def traced : Sampler σ := fun _ view => view.trace.isSome

end Sampler

end LogAdmission
