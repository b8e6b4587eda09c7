import LogAdmission.Handler.Basic
import LogAdmission.Sink.World

/-!
# Recorders

A sink that keeps what it is given, with the path of derivations that led to it.
It can be made to fail after each record.
-/

namespace LogAdmission

/-- A sink that keeps records. -/
structure Recorder where
  name : String
  minimum : Level := ⟨-128⟩
  failure : Option String := none
  showTime : Bool := false
  /-- The attributes and group names added so far, in order. -/
  path : List (List Attr ⊕ String) := []
  deriving DecidableEq

namespace Recorder

def enabled (k : Recorder) (level : Level) : Bool :=
  k.minimum ≤ level

/-- Keeps a record, then fails if it is made to. -/
def handle (k : Recorder) (view : View) (r : Record) (w : World) : Outcome × World :=
  (match k.failure with
    | none => .ok
    | some message => .failed (.other message),
    w.receive k.name (.record k.path k.showTime view r))

def withAttrs (k : Recorder) (attrs : List Attr) : Recorder :=
  { k with path := k.path ++ [.inl attrs] }

def withGroup (k : Recorder) (name : String) : Recorder :=
  { k with path := k.path ++ [.inr name] }

end Recorder

end LogAdmission
