import LogAdmission.Handler.Basic
import LogAdmission.Spans.Event

/-!
# The bridge from events to handlers

A layer hands each event to a handler chain, with the context that holds where
the event happens. The chain is asked first whether the level is enabled, and
its answer to the record does not matter.
-/

namespace LogAdmission

variable {κ σ : Type} [Sink κ σ]

/-- Hands an event to one chain. The flag tells whether the call returned. -/
def bridgeEvent (h : Handler κ σ) (cx : Context) (now : Instant) (level : EventLevel)
    (fields : List Field) (st : Store κ σ) : Bool × Store κ σ :=
  if h.enabled (st.view cx) level.level st.world then
    match h.handle cx (eventRecord level fields now) st with
    | (.aborted, st) => (false, st)
    | (_, st) => (true, st)
  else (true, st)

/-- Hands an event to chains in order, up to one whose call is aborted. -/
def bridgeAll (layers : List (Handler κ σ)) (cx : Context) (now : Instant)
    (level : EventLevel) (fields : List Field) (st : Store κ σ) : Bool × Store κ σ :=
  match layers with
  | [] => (true, st)
  | h :: rest =>
    match bridgeEvent h cx now level fields st with
    | (true, st) => bridgeAll rest cx now level fields st
    | (false, st) => (false, st)

end LogAdmission
