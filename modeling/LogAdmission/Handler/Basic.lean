import LogAdmission.Buffer.Pool
import LogAdmission.Context
import LogAdmission.Outcome
import LogAdmission.RateLimit
import LogAdmission.Sampler

/-!
# Handler chains

A chain of handlers ends in a sink. In front of it stand rate limiters, which
let through a part of the records of each shard, and sampling buffers, which let
through the records of sampled requests and hold back the others until one of
them is severe enough.

A chain is a value; what its links share with their copies and derived chains
(counters, buffer pools, the outside world) is kept in a store and named by
number.
-/

namespace LogAdmission

/-- What a sampling buffer decides by, and the pool of its buffers. -/
structure Policy (σ : Type) where
  sampler : Sampler σ
  minimum : Level
  pool : Nat

/-- A chain of handlers over sinks of type `κ`, in an outside world of type `σ`. -/
inductive Handler (κ σ : Type) where
  | sink (k : κ)
  | limited (limits : Limits) (table : Nat) (next : Handler κ σ)
  | sampled (policy : Policy σ) (next : Handler κ σ)
  | shared (next : Handler κ σ)

/-- How the sinks of a type behave in their outside world. -/
class Sink (κ : Type) (σ : outParam Type) where
  /-- Whether a record of this level would be handled. -/
  enabled : κ → View → Level → σ → Bool
  /-- Handles a record. -/
  handle : κ → View → Record → σ → Outcome × σ
  /-- The sink that adds the attributes to its records. -/
  withAttrs : κ → List Attr → κ
  /-- The sink that qualifies the keys of later attributes. -/
  withGroup : κ → String → κ

/-- A held-back call: the handler it was meant for, its context and the record. -/
structure Entry (κ σ : Type) where
  handler : Handler κ σ
  cx : Context
  record : Record

namespace Entry

/-- An entry for a call. Its context is not bound to a scope any more. -/
def ofCall {κ σ : Type} (handler : Handler κ σ) (cx : Context) (record : Record) : Entry κ σ :=
  ⟨handler, cx.detached, record⟩

end Entry

/-- What a call without an open scope can change: the counters and the outside world. -/
structure Downstream (σ : Type) where
  world : σ
  tables : Cells CounterTable := fun _ => .fresh

/-- Everything that handlers share. Buffers, pools and counter tables are numbered in
the order in which they are created. -/
structure Store (κ σ : Type) where
  downstream : Downstream σ
  buffers : Cells (RecordBuffer (Entry κ σ)) := fun _ =>
    { capacity := 1, capacity_pos := by decide }
  pools : Cells Pool := fun _ =>
    { size := 1, bufferCapacity := 1, bufferCapacity_pos := by decide }
  freshTable : Nat := 0
  freshBuffer : Nat := 0
  freshPool : Nat := 0

namespace Downstream

variable {σ : Type}

/-- Counts a record in a table and tells whether it passes. -/
def tally (d : Downstream σ) (table : Nat) (limits : Limits) (r : Record) :
    Bool × Downstream σ :=
  let (passed, counters) := limits.tally r (d.tables table)
  (passed, { d with tables := d.tables.put table counters })

end Downstream

namespace Handler

variable {κ σ : Type} [Sink κ σ]

/-- The chain whose records all carry the attributes. -/
def withAttrs : Handler κ σ → List Attr → Handler κ σ
  | sink k, attrs => sink (Sink.withAttrs k attrs)
  | limited limits table next, attrs => limited limits table (next.withAttrs attrs)
  | sampled policy next, attrs => sampled policy (next.withAttrs attrs)
  | shared next, attrs => next.withAttrs attrs

/-- The chain that qualifies the keys of later attributes with a name. -/
def withGroup : Handler κ σ → String → Handler κ σ
  | sink k, name => sink (Sink.withGroup k name)
  | limited limits table next, name => limited limits table (next.withGroup name)
  | sampled policy next, name => sampled policy (next.withGroup name)
  | shared next, name => next.withGroup name

/-- Whether a record of this level would be handled. Outside open scopes, requests that
are not sampled pass only at the minimum level. -/
def enabled : Handler κ σ → View → Level → σ → Bool
  | sink k, view, level, world => Sink.enabled k view level world
  | limited _ _ next, view, level, world => next.enabled view level world
  | sampled policy next, view, level, world =>
    next.enabled view level world &&
      (view.buffered || policy.sampler world view || policy.minimum ≤ level)
  | shared next, view, level, world => next.enabled view level world

/-- Handles a record where nothing can be held back: without an open scope, or by a
chain without sampling buffers. -/
def deliver : Handler κ σ → View → Record → Downstream σ → Outcome × Downstream σ
  | sink k, view, r, d =>
    let (outcome, world) := Sink.handle k view r d.world
    (outcome, { d with world := world })
  | limited limits table next, view, r, d =>
    match d.tally table limits r with
    | (true, d) => next.deliver view r d
    | (false, d) => (.ok, d)
  | sampled policy next, view, r, d =>
    if policy.sampler d.world view || policy.minimum ≤ r.level then next.deliver view r d
    else (.ok, d)
  | shared next, view, r, d => next.deliver view r d

end Handler

namespace Entry

variable {κ σ : Type} [Sink κ σ]

/-- Makes the held-back call. -/
def emit (e : Entry κ σ) (d : Downstream σ) : Outcome × Downstream σ :=
  e.handler.deliver e.cx.unboundView e.record d

end Entry

namespace Store

variable {κ σ : Type}

/-- The store of a world in which no handler has been built. -/
def ofWorld (world : σ) : Store κ σ :=
  { downstream := { world := world } }

def world (st : Store κ σ) : σ :=
  st.downstream.world

/-- The store with its world changed. -/
def mapWorld (f : σ → σ) (st : Store κ σ) : Store κ σ :=
  { st with downstream := { st.downstream with world := f st.downstream.world } }

/-- The scope that a context is bound to, while the buffer still belongs to it. -/
def liveScope (st : Store κ σ) (cx : Context) : Option Binding :=
  cx.binding.filter fun b => (st.buffers b.buffer).scope = b.scope

theorem liveScope_eq_some_iff (st : Store κ σ) (cx : Context) (b : Binding) :
    st.liveScope cx = some b ↔ cx.binding = some b ∧ (st.buffers b.buffer).scope = b.scope := by
  simp [liveScope, Option.filter_eq_some_iff]

/-- What is learned from a context. -/
def view (st : Store κ σ) (cx : Context) : View :=
  ⟨cx.trace, (st.liveScope cx).isSome⟩

theorem buffered_view_iff (st : Store κ σ) (cx : Context) :
    (st.view cx).buffered = true ↔ ∃ b, st.liveScope cx = some b :=
  Option.isSome_iff_exists

/-- Lets an operation of a buffer act on the store. -/
def onBuffer {β : Type} (st : Store κ σ) (i : Nat)
    (act : RecordBuffer (Entry κ σ) → Downstream σ → β × RecordBuffer (Entry κ σ) × Downstream σ) :
    β × Store κ σ :=
  let (result, buffer, downstream) := act (st.buffers i) st.downstream
  (result, { st with buffers := st.buffers.put i buffer, downstream := downstream })

end Store

namespace Handler

variable {κ σ : Type} [Sink κ σ]

/-- Handles a record. A sampled request's records pass. In an open scope other records
are held back below the minimum level, and from that level on follow everything that
was held back before them. Outside open scopes they are dropped below that level. -/
def handle : Handler κ σ → Context → Record → Store κ σ → Outcome × Store κ σ
  | sink k, cx, r, st =>
    let (outcome, world) := Sink.handle k (st.view cx) r st.world
    (outcome, st.mapWorld fun _ => world)
  | limited limits table next, cx, r, st =>
    match st.downstream.tally table limits r with
    | (true, d) => next.handle cx r { st with downstream := d }
    | (false, d) => (.ok, { st with downstream := d })
  | sampled policy next, cx, r, st =>
    if policy.sampler st.world (st.view cx) then next.handle cx r st
    else
      match st.liveScope cx with
      | some b =>
        if r.level < policy.minimum then
          st.onBuffer b.buffer (RecordBuffer.appendTo Entry.emit b.scope (.ofCall next cx r))
        else
          match st.onBuffer b.buffer (RecordBuffer.drainScope Entry.emit b.scope) with
          | (true, st) => next.handle cx r st
          | (false, st) => (.aborted, st)
      | none => if r.level < policy.minimum then (.ok, st) else next.handle cx r st
  | shared next, cx, r, st => next.handle cx r st

/-- Handles records in turn, up to one that is aborted. The outcome is that of the last
record handled. -/
def handleAll (h : Handler κ σ) (cx : Context) : List Record → Store κ σ → Outcome × Store κ σ
  | [], st => (.ok, st)
  | [r], st => h.handle cx r st
  | r :: rest, st =>
    match h.handle cx r st with
    | (.aborted, st) => (.aborted, st)
    | (_, st) => handleAll h cx rest st

end Handler

end LogAdmission
