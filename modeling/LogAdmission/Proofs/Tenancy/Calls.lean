import LogAdmission.Proofs.Scopes.Machine

/-!
# Tenancies

Those who use chains open scopes of their sampling buffers, handle records and ask what is
enabled, by any chains and in any contexts that they have. Each scope that was opened is a lease:
the context bound to it and the guard, held until it is given back. A tenancy is a store with all
leases so far. A call that is aborted ends no tenancy; the next call may follow.
-/

namespace LogAdmission

variable {κ σ : Type}

/-- The pools of the sampling buffers of a chain, from the outermost one inwards. -/
def Handler.pools : Handler κ σ → List Nat
  | sink _ => []
  | limited _ _ next | shared next => next.pools
  | sampled policy next => policy.pool :: next.pools

/-- What was given out when a scope was opened, and whether the guard is still held. -/
structure Lease where
  context : Context
  guard : Guard
  held : Bool := true

/-- The number of the scope. -/
def Lease.scope (l : Lease) : Nat :=
  l.context.binding.elim 0 Binding.scope

/-- A call on a chain, or a change of the world that nobody asked for. -/
inductive ChainCall (κ σ : Type) where
  /-- Opens a scope of a sampling buffer of the chain, counted from the outermost one. -/
  | openScope (h : Handler κ σ) (stage : Nat) (cx : ScopedContext)
  | handle (h : Handler κ σ) (cx : ScopedContext) (r : Record)
  | enabled (h : Handler κ σ) (cx : ScopedContext) (level : Level)
  /-- Gives back a lease, if its guard is still held. -/
  | release (lease : Nat)
  | outside (change : σ → σ)

/-- Whether a scope may be opened. -/
def ChainCall.opens : ChainCall κ σ → Bool
  | openScope .. => true
  | _ => false

/-- What is learned from a call. -/
inductive Answer where
  | ended (outcome : Outcome)
  | enabled (yes : Bool)
  deriving DecidableEq

/-- A store, and the leases in the order in which they were given out. -/
structure Tenancy (κ σ : Type) where
  store : Store κ σ
  leases : List Lease := []

namespace Tenancy

/-- The context that a caller passes on. -/
def context (s : Tenancy κ σ) (cx : ScopedContext) : Context :=
  match cx.opening.bind (s.leases[·]?) with
  | none => { trace := cx.trace }
  | some l => { l.context with trace := cx.trace }

/-- The scope numbers that one pool has handed out, in order. -/
def scopesOf (s : Tenancy κ σ) (pool : Nat) : List Nat :=
  s.leases.filterMap fun l => if l.guard.pool = pool then some l.scope else none

variable [Sink κ σ]

/-- Performs a call. A scope that finds no buffer aborts it; a chain without the sampling buffer
asked for opens none. -/
def perform : ChainCall κ σ → Tenancy κ σ → Answer × Tenancy κ σ
  | .openScope h stage cx, s =>
    match h.pools[stage]? with
    | none => (.ended .ok, s)
    | some pool =>
      match s.store.openScope? pool (s.context cx) with
      | none => (.ended .aborted, s)
      | some (context, guard, store) => (.ended .ok, ⟨store, s.leases ++ [⟨context, guard, true⟩]⟩)
  | .handle h cx r, s =>
    let (outcome, store) := h.handle (s.context cx) r s.store
    (.ended outcome, { s with store := store })
  | .enabled h cx level, s =>
    (.enabled (h.enabled (s.store.view (s.context cx)) level s.store.world), s)
  | .release k, s =>
    match s.leases[k]? with
    | some ⟨context, guard, true⟩ =>
      (.ended .ok, ⟨(s.store.closeScope guard).2, s.leases.set k ⟨context, guard, false⟩⟩)
    | _ => (.ended .ok, s)
  | .outside change, s => (.ended .ok, { s with store := s.store.mapWorld change })

/-- Performs calls in turn: their answers, and the tenancy afterwards. -/
def run : List (ChainCall κ σ) → Tenancy κ σ → List Answer × Tenancy κ σ
  | [], s => ([], s)
  | call :: rest, s =>
    ((perform call s).1 :: (run rest (perform call s).2).1, (run rest (perform call s).2).2)

/-- A relation between what is still to be called and the tenancy, restored by each call, holds
when all calls have been made. -/
theorem run_keeps {R : List (ChainCall κ σ) → Tenancy κ σ → Prop}
    (step : ∀ {call rest s}, R (call :: rest) s → R rest (perform call s).2)
    (calls : List (ChainCall κ σ)) {s : Tenancy κ σ} (h : R calls s) : R [] (run calls s).2 := by
  induction calls generalizing s with
  | nil => exact h
  | cons call rest ih => exact ih (step h)

end Tenancy

end LogAdmission
