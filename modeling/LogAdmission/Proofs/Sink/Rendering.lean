import LogAdmission.Logger
import LogAdmission.Proofs.Sink.Derivation
import LogAdmission.Sink.Endpoint

/-!
# Rendering early or all at once

Derivations are asked of a handler or of a logger in front of it, in any mixture. For a text sink
all of them come to one path (`derivedBy_eq`), so that what it writes is what the sink at the
start writes of records whose attributes are spelled out.
-/

namespace LogAdmission

/-- A derivation of a handler: attributes or a group name are added, by the handler itself or by
a logger in front of it. -/
structure DerivationCall where
  byLogger : Bool
  step : List Attr ⊕ String

/-- The derived handler. -/
def DerivationCall.perform {κ σ : Type} [Sink κ σ] (h : Handler κ σ) (call : DerivationCall) :
    Handler κ σ :=
  if call.byLogger then
    (call.step.elim (⟨h⟩ : Logger κ σ).withAttrs (⟨h⟩ : Logger κ σ).withGroup).handler
  else call.step.elim h.withAttrs h.withGroup

namespace TextSink

/-- The chain that consists of the sink only. -/
def chain (t : TextSink) : Handler Endpoint World :=
  .sink (.text t)

/-- The chain after derivations in turn. -/
def derivedBy (t : TextSink) (calls : List DerivationCall) : Handler Endpoint World :=
  calls.foldl DerivationCall.perform t.chain

theorem withAttrs_nil (t : TextSink) : t.withAttrs [] = t := by
  simp only [withAttrs, Line.attrs, String.append_empty]

/-- One derivation. A logger does not ask its handler when there is nothing to add, and a sink
to which nothing is added is the same one. -/
theorem perform_chain (t : TextSink) (call : DerivationCall) :
    call.perform t.chain = (t.derive [call.step]).chain := by
  obtain ⟨byLogger, step⟩ := call
  cases step with
  | inr name => cases byLogger <;> rfl
  | inl attrs =>
      cases byLogger with
      | false => rfl
      | true =>
          cases attrs with
          | nil => exact congrArg chain t.withAttrs_nil.symm
          | cons a attrs => rfl

/-- However its derivations are asked for, a text sink becomes the one that is derived by their
steps. -/
theorem derivedBy_eq (t : TextSink) (calls : List DerivationCall) :
    t.derivedBy calls = (t.derive (calls.map DerivationCall.step)).chain := by
  induction calls generalizing t with
  | nil => rfl
  | cons call rest ih =>
      calc t.derivedBy (call :: rest)
          = rest.foldl DerivationCall.perform (call.perform t.chain) := rfl
        _ = (t.derive [call.step]).derivedBy rest := by rw [t.perform_chain call]; rfl
        _ = ((t.derive [call.step]).derive (rest.map DerivationCall.step)).chain := ih _

/-- A derived sink does with a record what the sink at the start does with the record that
carries all attributes. -/
theorem handle_derive (t : TextSink) (path : List (List Attr ⊕ String)) (r : Record) (w : World) :
    (t.derive path).handle r w = t.handle (r.behind path) w := by
  simp only [handle, line_derive, writer_derive]

theorem enabled_derive (t : TextSink) (path : List (List Attr ⊕ String)) (level : Level) :
    (t.derive path).enabled level = t.enabled level := by
  rw [derive_eq]
  rfl

end TextSink

/-- **Attributes may be rendered early.** However a text sink has been derived, by handlers or
by loggers around them, with nothing to add and with empty names in any place, a record has the
outcome and leaves the bytes that it would through the sink at the start if it carried all
derived attributes, each under the groups opened before it, and behind these its own ones under
all groups. What is enabled stays the same, and so a logger in front logs the same. -/
theorem derived_text_spells_out (t : TextSink) (calls : List DerivationCall) :
    let path := calls.map DerivationCall.step
    let derived := t.derivedBy calls
    (∀ cx r st, derived.handle cx r st = t.chain.handle cx (r.behind path) st) ∧
      (∀ view level world, derived.enabled view level world = t.chain.enabled view level world) ∧
      ∀ now cx level message attrs st,
        (⟨derived⟩ : Logger Endpoint World).log now cx level message attrs st =
          (⟨t.chain⟩ : Logger Endpoint World).log now cx level message
            (pathAttrs path ++ attrs.map (Attr.under (pathQualifier path))) st := by
  intro path derived
  have hderived : derived = (t.derive path).chain := t.derivedBy_eq calls
  have hhandle : ∀ cx r st, derived.handle cx r st = t.chain.handle cx (r.behind path) st := by
    intro cx r st
    rw [hderived]
    simp only [TextSink.chain, Handler.handle, Sink.handle, t.handle_derive]
  have henabled : ∀ view level world,
      derived.enabled view level world = t.chain.enabled view level world := by
    intro view level world
    rw [hderived]
    exact t.enabled_derive path level
  refine ⟨hhandle, henabled, ?_⟩
  intro now cx level message attrs st
  simp only [Logger.log, Logger.enabled, henabled, hhandle]
  rfl

/-- Groups and attributes in turn; once there is nothing to add, and one name is empty. -/
example :
    let t : TextSink := { writer := ⟨0, "w"⟩, withTime := false }
    let derived := t.derivedBy
      [⟨true, .inr "g"⟩, ⟨true, .inl []⟩, ⟨false, .inl [⟨"a", .bool true⟩]⟩, ⟨false, .inr ""⟩,
        ⟨true, .inr "h"⟩, ⟨true, .inl [⟨"b", .str "x y"⟩]⟩]
    let r : Record := ⟨.warn, "m", ⟨0⟩, [⟨"c", .int (-1)⟩]⟩
    (derived.handle {} r (.ofWorld {})).2.world.received.map Prod.snd =
      [.piece (Text.bytes "level=WARN msg=m g.a=true g.h.b=\"x y\" g.h.c=-1\n")] := by
  rfl

end LogAdmission
