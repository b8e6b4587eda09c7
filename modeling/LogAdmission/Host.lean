import LogAdmission.Handler.Build
import LogAdmission.Handler.Scope
import LogAdmission.Spans.Bridge
import LogAdmission.Spans.Registry

/-!
# Hosts

A host joins the handlers of a program with its subscriber. Events reach the
chains of the installed subscriber, and so do the notices that handlers give
while they are built and while scopes are closed.
-/

namespace LogAdmission

/-- What receives the spans and events of a program. -/
inductive Subscriber (κ σ : Type) where
  /-- Ignores everything, and keeps no spans. -/
  | ignoring
  /-- Keeps spans in a registry and hands events to chains in order. -/
  | layered (registry : Nat) (layers : List (Handler κ σ))

/-- A span of some registry. -/
structure SpanRef where
  registry : Nat
  span : Nat
  deriving DecidableEq

/-- What a program holds of a span. -/
inductive SpanHandle where
  /-- No span at all. -/
  | empty
  /-- A span that was created where no registry keeps spans, so that none knows it. -/
  | unkept
  /-- A span that a registry keeps. -/
  | kept (s : SpanRef)
  deriving DecidableEq

/-- Where a new span or an event belongs. -/
inductive Parent where
  /-- Below the current span. -/
  | current
  /-- Below no span. -/
  | root
  /-- Below the given span, if there is one. -/
  | span (h : SpanHandle)
  deriving DecidableEq

/-- A program's handlers, spans and subscriber. -/
structure Host (κ σ : Type) where
  store : Store κ σ
  /-- The time that records are stamped with. -/
  now : Instant
  registries : Cells Registry := fun _ => {}
  freshRegistry : Nat := 0
  subscriber : Option (Subscriber κ σ) := none

namespace Host

variable {κ σ : Type}

/-- The host of a world in which nothing has been built. -/
def ofWorld (world : σ) (now : Instant) : Host κ σ :=
  { store := .ofWorld world, now := now }

/-- Installs a subscriber with a new registry, in place of any other one. -/
def install (host : Host κ σ) (layers : List (Handler κ σ)) : Host κ σ :=
  { host with
    registries := host.registries.put host.freshRegistry {}
    freshRegistry := host.freshRegistry + 1
    subscriber := some (.layered host.freshRegistry layers) }

/-- Changes a registry. -/
def onRegistry (host : Host κ σ) (i : Nat) (f : Registry → Registry) : Host κ σ :=
  { host with registries := host.registries.put i (f (host.registries i)) }

/-! ## Spans -/

/-- The open span of a registry that has the same place as the given span. In the registry
of that span it is the span itself; in another one it is any span that happens to be there. -/
def standIn? (host : Host κ σ) (registry : Nat) (s : SpanRef) : Option Nat :=
  ((host.registries s.registry).placeOf? s.span).bind (host.registries registry).findOpen?

/-- Adds a span to a registry. -/
def addSpan (host : Host κ σ) (registry : Nat) (parent : Option Nat) : SpanRef × Host κ σ :=
  let (span, g) := (host.registries registry).create parent
  (⟨registry, span⟩, host.onRegistry registry fun _ => g)

/-- The span of a registry that a new one goes below, if any. There is no answer if the
registry does not know the parent. -/
def above? (host : Host κ σ) (registry : Nat) : Parent → Option (Option Nat)
  | .current => some (host.registries registry).current
  | .root | .span .empty => some none
  | .span .unkept => none
  | .span (.kept s) => (host.standIn? registry s).map some

/-- Creates a span, held by one handle. The installed registry keeps it, if there is one,
and then has to know its parent. -/
def createSpan? (host : Host κ σ) (parent : Parent) : Option SpanHandle × Host κ σ :=
  match host.subscriber with
  | some (.layered i _) =>
    match host.above? i parent with
    | some above =>
      let (s, host) := host.addSpan i above
      (some (.kept s), host)
    | none => (none, host)
  | _ => (some .unkept, host)

/-- Gives up one hold on a span in the installed registry, by the place of the span. Without
a subscriber that keeps spans nothing happens. The flag tells whether the place and those
above it were open. -/
def releaseInstalled (host : Host κ σ) (s : SpanRef) : Bool × Host κ σ :=
  match host.subscriber with
  | some (.layered i _) =>
    match host.standIn? i s with
    | some span =>
      let (found, registry) := (host.registries i).release span
      (found, host.onRegistry i fun _ => registry)
    | none => (false, host)
  | _ => (true, host)

/-- Gives up a handle of a span. The span closes in its own registry, but the hold on its
parent is given up in the installed one. The flag tells whether the spans concerned were
open; for a span that no registry keeps nothing happens. -/
def dropSpan (host : Host κ σ) : SpanHandle → Bool × Host κ σ
  | .empty | .unkept => (true, host)
  | .kept s =>
    let (loosened, registry) := (host.registries s.registry).loosen s.span
    let host := host.onRegistry s.registry fun _ => registry
    match loosened with
    | .absent => (false, host)
    | .held => (true, host)
    | .closed place parent =>
      let (found, host) :=
        match parent with
        | some p => host.releaseInstalled ⟨s.registry, p⟩
        | none => (true, host)
      if found then (true, host.onRegistry s.registry (·.vacate place)) else (false, host)

/-- Enters a span in its own registry, by a handle of its own. The flag tells whether the
span is open; one that no registry keeps can always be entered, to no effect. -/
def enterSpan (host : Host κ σ) : SpanHandle → Bool × Host κ σ
  | .empty | .unkept => (true, host)
  | .kept s =>
    match (host.registries s.registry).openSpan? s.span with
    | some _ => (true, host.onRegistry s.registry fun g => (g.hold s.span).enter s.span)
    | none => (false, host)

/-- Leaves a span in its own registry, and gives up the handle by which it was entered. -/
def exitSpan (host : Host κ σ) (h : SpanHandle) : Bool × Host κ σ :=
  let host :=
    match h with
    | .kept s => host.onRegistry s.registry (·.exit s.span)
    | .empty | .unkept => host
  host.dropSpan h

/-- Attaches a context to a span. The flag tells whether that was possible. -/
def attachContext (host : Host κ σ) (h : SpanHandle) (cx : Context) : Bool × Host κ σ :=
  match h with
  | .kept s =>
    let (attached, registry) := (host.registries s.registry).attach s.span cx
    (attached, host.onRegistry s.registry fun _ => registry)
  | .empty | .unkept => (false, host)

/-! ## Events -/

/-- The span that an event belongs to. -/
def eventSpan? (host : Host κ σ) (registry : Nat) : Parent → Option Nat
  | .current => (host.registries registry).current
  | .root | .span .empty | .span .unkept => none
  | .span (.kept s) => host.standIn? registry s

/-- The context of an event. -/
def eventContext (host : Host κ σ) (registry : Nat) (parent : Parent) : Context :=
  match host.eventSpan? registry parent with
  | some span => (host.registries registry).contextOf span
  | none => .empty

variable [Sink κ σ]

/-- Emits an event. The flag tells whether all calls returned. -/
def emit (host : Host κ σ) (parent : Parent) (level : EventLevel) (fields : List Field) :
    Bool × Host κ σ :=
  match host.subscriber with
  | some (.layered i layers) =>
    let cx := host.eventContext i parent
    let (finished, store) := bridgeAll layers cx host.now level fields host.store
    (finished, { host with store := store })
  | _ => (true, host)

/-- Emits notices as events of the current span, up to one that is aborted. -/
def emitNotices (host : Host κ σ) : List Notice → Bool × Host κ σ
  | [] => (true, host)
  | n :: rest =>
    match host.emit .current n.level n.fields with
    | (true, host) => host.emitNotices rest
    | (false, host) => (false, host)

/-- What comes of building a handler. -/
inductive Built (κ σ : Type) where
  | ok (h : Handler κ σ)
  | failed (e : BuildError)
  | aborted

/-- Takes over a built handler once its notices have been emitted. -/
def finishBuild (host : Host κ σ) (result : Except BuildError (Construction κ σ)) :
    Built κ σ × Host κ σ :=
  match result with
  | .error e => (.failed e, host)
  | .ok built =>
    match ({ host with store := built.store } : Host κ σ).emitNotices built.notices with
    | (true, host) =>
      match built.handler with
      | some h => (.ok h, host)
      | none => (.aborted, host)
    | (false, host) => (.aborted, host)

/-- Builds a rate limiter. -/
def buildLimiter (host : Host κ σ) (next : Option (Handler κ σ)) (o : LimiterOptions) :
    Built κ σ × Host κ σ :=
  host.finishBuild (host.store.buildLimiter next o)

/-- Builds a sampling buffer. -/
def buildSampling (host : Host κ σ) (next : Option (Handler κ σ)) (sampler : Option (Sampler σ))
    (o : SamplingOptions) : Built κ σ × Host κ σ :=
  host.finishBuild (host.store.buildSampling next sampler o)

/-- Opens a scope in a pool, unless no buffer can be had. -/
def openScope? (host : Host κ σ) (pool : Nat) (cx : Context) :
    Option (Context × Guard × Host κ σ) :=
  (host.store.openScope? pool cx).map fun (cx, guard, store) =>
    (cx, guard, { host with store := store })

/-- Closes a scope. The flag tells whether the notice for it, if any, was emitted. -/
def closeScope (host : Host κ σ) (guard : Guard) : Bool × Host κ σ :=
  let (notices, store) := host.store.closeScope guard
  ({ host with store := store } : Host κ σ).emitNotices notices

end Host

end LogAdmission
