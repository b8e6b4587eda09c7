import LogAdmission.Handler.Basic

/-!
# Loggers

The front end of a chain: it asks the chain whether a level is enabled before it
makes a record.
-/

namespace LogAdmission

/-- A front end of a handler chain. -/
structure Logger (κ σ : Type) where
  handler : Handler κ σ

namespace Logger

variable {κ σ : Type} [Sink κ σ]

/-- The logger whose records all carry the attributes; none leave it as it is. -/
def withAttrs (lg : Logger κ σ) (attrs : List Attr) : Logger κ σ :=
  if attrs.isEmpty then lg else ⟨lg.handler.withAttrs attrs⟩

/-- The logger that qualifies the keys of later attributes. -/
def withGroup (lg : Logger κ σ) (name : String) : Logger κ σ :=
  ⟨lg.handler.withGroup name⟩

/-- Whether a record of this level would be handled. -/
def enabled (lg : Logger κ σ) (cx : Context) (level : Level) (st : Store κ σ) : Bool :=
  lg.handler.enabled (st.view cx) level st.world

/-- Logs a message at the time `now`. -/
def log (lg : Logger κ σ) (now : Instant) (cx : Context) (level : Level) (message : String)
    (attrs : List Attr) (st : Store κ σ) : Outcome × Store κ σ :=
  if lg.enabled cx level st then
    lg.handler.handle cx { level := level, message := message, time := now, attrs := attrs } st
  else (.ok, st)

end Logger

end LogAdmission
