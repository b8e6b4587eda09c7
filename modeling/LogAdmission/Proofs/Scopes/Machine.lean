import LogAdmission.Handler.Build
import LogAdmission.Handler.Scope
import LogAdmission.Proofs.Buffer.Emission
import LogAdmission.Proofs.Runs

/-!
# Scopes without buffers

What callers do with sampling buffers is a sequence of calls: scopes are opened and
released, records are handled in contexts, and the outside world changes by itself. The
calls are performed here twice, over the store with its pooled buffers (`Session`) and by
a machine that keeps one list of deferred calls for each scope (`ScopeMachine`).
-/

namespace LogAdmission

/-- A context as its caller knows it: a trace, and the opening that the context comes from.
Openings are numbered in their order, from zero. -/
structure ScopedContext where
  trace : Option TraceContext := none
  opening : Option Nat := none
  deriving DecidableEq

/-- A call on sampling buffers, or a change of the world that they do not make. -/
inductive ScopeCall (κ σ : Type) where
  /-- Opens a scope of the sampling buffers that share a pool. -/
  | openScope (pool : Nat) (cx : ScopedContext)
  /-- Handles a record by a sampling buffer. -/
  | handle (policy : Policy σ) (next : Handler κ σ) (cx : ScopedContext) (r : Record)
  /-- Releases the guard of an opening, if it is still held. -/
  | release (opening : Nat)
  | outside (change : σ → σ)

namespace Handler

variable {κ σ : Type}

/-- A chain without sampling buffers. What it is called for never comes back to a buffer. -/
def Plain : Handler κ σ → Prop
  | sink _ => True
  | limited _ _ next | shared next => next.Plain
  | sampled _ _ => False

/-- What such a chain does depends on a context only through what is learned from it, and
is all downstream. -/
theorem Plain.handle_eq [Sink κ σ] {h : Handler κ σ} (hplain : h.Plain) (cx : Context)
    (r : Record) (st : Store κ σ) :
    h.handle cx r st =
      ((h.deliver (st.view cx) r st.downstream).1,
        { st with downstream := (h.deliver (st.view cx) r st.downstream).2 }) := by
  induction h generalizing st with
  | sink k => rfl
  | shared next ih => exact ih hplain st
  | sampled policy next => exact absurd hplain id
  | limited limits table next ih =>
      rcases ht : st.downstream.tally table limits r with ⟨passed, d⟩
      cases passed with
      | false => simp only [handle, deliver, ht]
      | true =>
          simp only [handle, deliver, ht]
          exact ih hplain { st with downstream := d }

end Handler

namespace ScopeCall

variable {κ σ : Type}

/-- Whether the sampling buffer called stands in front of a chain without others. -/
def Plain : ScopeCall κ σ → Prop
  | handle _ next _ _ => next.Plain
  | _ => True

/-- Whether a scope is opened. -/
def opens : ScopeCall κ σ → Bool
  | openScope _ _ => true
  | _ => false

end ScopeCall

/-! ## Over the store -/

/-- What a caller has of a scope that it opened. -/
structure Opening where
  context : Context
  guard : Option Guard

/-- A store and what its callers have opened so far. -/
structure Session (κ σ : Type) where
  store : Store κ σ
  openings : List Opening := []

namespace Session

variable {κ σ : Type} [Sink κ σ]

/-- The context that a caller passes on. -/
def context (s : Session κ σ) (cx : ScopedContext) : Context :=
  match cx.opening.bind (s.openings[·]?) with
  | none => { trace := cx.trace }
  | some o => { o.context with trace := cx.trace }

/-- Performs a call. A scope that finds no buffer aborts it. -/
def perform : ScopeCall κ σ → Session κ σ → Outcome × Session κ σ
  | .openScope pool cx, s =>
    match s.store.openScope? pool (s.context cx) with
    | none => (.aborted, s)
    | some (context, guard, store) => (.ok, ⟨store, s.openings ++ [⟨context, some guard⟩]⟩)
  | .handle policy next cx r, s =>
    let (outcome, store) := (Handler.sampled policy next).handle (s.context cx) r s.store
    (outcome, { s with store := store })
  | .release k, s =>
    match s.openings[k]? with
    | some ⟨context, some guard⟩ =>
      (.ok, ⟨(s.store.closeScope guard).2, s.openings.set k ⟨context, none⟩⟩)
    | _ => (.ok, s)
  | .outside change, s => (.ok, { s with store := s.store.mapWorld change })

end Session

/-! ## Without buffers -/

/-- What a scope has deferred, and whether that has been emitted. -/
structure Deferred (κ σ : Type) where
  pending : List (Entry κ σ) := []
  drained : Bool := false

/-- Something that happens downstream of sampling buffers. -/
inductive Happening (κ σ : Type) where
  | call (next : Handler κ σ) (view : View) (r : Record)
  | change (f : σ → σ)

namespace Happening

variable {κ σ : Type} [Sink κ σ]

/-- The call that an entry defers. -/
def ofEntry (e : Entry κ σ) : Happening κ σ :=
  .call e.handler e.cx.unboundView e.record

/-- What comes of it downstream. -/
def apply (d : Downstream σ) : Happening κ σ → Downstream σ
  | call next view r => (next.deliver view r d).2
  | change f => { d with world := f d.world }

end Happening

/-- The scopes opened so far, without those released, and what has happened downstream. -/
structure ScopeMachine (κ σ : Type) where
  downstream : Downstream σ
  scopes : List (Option (Deferred κ σ)) := []
  log : List (Happening κ σ) := []

namespace ScopeMachine

variable {κ σ : Type} [Sink κ σ]

/-- The opening that a context comes from and what its scope has deferred, while that is open. -/
def live (m : ScopeMachine κ σ) (cx : ScopedContext) : Option (Nat × Deferred κ σ) :=
  cx.opening.bind fun k => (m.scopes[k]?).join.map (k, ·)

/-- What is learned from a context. -/
def view (m : ScopeMachine κ σ) (cx : ScopedContext) : View :=
  ⟨cx.trace, (m.live cx).isSome⟩

/-- The machine with other deferred calls in a scope. -/
def setScope (m : ScopeMachine κ σ) (k : Nat) (d : Option (Deferred κ σ)) : ScopeMachine κ σ :=
  { m with scopes := m.scopes.set k d }

/-- Makes a call downstream. -/
def forward (m : ScopeMachine κ σ) (next : Handler κ σ) (view : View) (r : Record) :
    Outcome × ScopeMachine κ σ :=
  ((next.deliver view r m.downstream).1,
    { m with
      downstream := (next.deliver view r m.downstream).2
      log := m.log ++ [.call next view r] })

/-- Makes the deferred calls of a scope in their order. The flag tells whether all returned. -/
def emitPending (m : ScopeMachine κ σ) (k : Nat) (d : Deferred κ σ) :
    Bool × ScopeMachine κ σ :=
  let e := emission Entry.emit d.pending m.downstream
  (e.finished,
    { m with
      downstream := e.outside
      scopes := m.scopes.set k (some ⟨[], true⟩)
      log := m.log ++ e.made.map .ofEntry })

/-- Handles a record. Sampled records are forwarded. In an open scope the others are
deferred below the minimum level until they are emitted; from that level on they follow
everything deferred. Outside open scopes they are dropped below that level. -/
def handle (policy : Policy σ) (next : Handler κ σ) (cx : ScopedContext) (r : Record)
    (m : ScopeMachine κ σ) : Outcome × ScopeMachine κ σ :=
  if policy.sampler m.downstream.world (m.view cx) then m.forward next (m.view cx) r
  else
    match m.live cx with
    | some (k, d) =>
      if r.level < policy.minimum then
        if d.drained then m.forward next ⟨cx.trace, false⟩ r
        else
          (.ok, m.setScope k (some ⟨d.pending ++ [⟨next, { trace := cx.trace }, r⟩], false⟩))
      else
        match m.emitPending k d with
        | (true, m') => m'.forward next (m'.view cx) r
        | (false, m') => (.aborted, m')
    | none => if r.level < policy.minimum then (.ok, m) else m.forward next (m.view cx) r

/-- Performs a call. Pools for which `refused` holds cannot make their buffers, and their
scopes cannot be opened. -/
def perform (refused : Nat → Prop) [DecidablePred refused] :
    ScopeCall κ σ → ScopeMachine κ σ → Outcome × ScopeMachine κ σ
  | .openScope pool _, m =>
    if refused pool then (.aborted, m) else (.ok, { m with scopes := m.scopes ++ [some {}] })
  | .handle policy next cx r, m => m.handle policy next cx r
  | .release k, m => (.ok, m.setScope k none)
  | .outside change, m =>
    (.ok,
      { m with
        downstream := { m.downstream with world := change m.downstream.world }
        log := m.log ++ [.change change] })

/-- To handle a record is to forward it, to defer it, to emit what is deferred and then perhaps
forward it, or nothing at all. -/
theorem handle_preserves {P : ScopeMachine κ σ → Prop} {policy : Policy σ}
    {next : Handler κ σ} {cx : ScopedContext} {r : Record} {m : ScopeMachine κ σ} (h : P m)
    (hforward : ∀ m' view, P m' → P (m'.forward next view r).2)
    (hdefer : ∀ k d, m.live cx = some (k, d) →
      P (m.setScope k (some ⟨d.pending ++ [⟨next, { trace := cx.trace }, r⟩], false⟩)))
    (hemit : ∀ k d, m.live cx = some (k, d) → P (m.emitPending k d).2) :
    P (m.handle policy next cx r).2 := by
  simp only [handle]
  split
  · exact hforward m _ h
  · split
    · rename_i k d hlive
      split
      · split
        · exact hforward m _ h
        · exact hdefer k d hlive
      · have hemitted := hemit k d hlive
        rcases hm : m.emitPending k d with ⟨finished, m'⟩
        rw [hm] at hemitted
        cases finished with
        | true => exact hforward m' _ hemitted
        | false => exact hemitted
    · split
      · exact h
      · exact hforward m _ h

/-- Only openings add scopes. -/
theorem length_perform (refused : Nat → Prop) [DecidablePred refused]
    (call : ScopeCall κ σ) (m : ScopeMachine κ σ) :
    (perform refused call m).2.scopes.length ≤ m.scopes.length + if call.opens then 1 else 0 := by
  cases call with
  | openScope pool cx =>
      simp only [perform]
      split
      · exact Nat.le_add_right _ _
      · simp [ScopeCall.opens]
  | release k => simp [perform, setScope]
  | outside change => exact Nat.le_refl _
  | handle policy next cx r =>
      apply Nat.le_of_eq
      apply handle_preserves (P := fun m' => m'.scopes.length = m.scopes.length) rfl
      · exact fun _ _ hlen => hlen
      · intro k d _
        rw [setScope, List.length_set]
      · intro k d _
        rw [emitPending, List.length_set]

end ScopeMachine

end LogAdmission
