import LogAdmission.Context

/-!
# Spans

Spans form a forest, kept as a list with the latest span first. The number of a span
is the number of spans older than it, and its parent is one of those. A span is open
as long as it is held: by its handles, among them those by which it is entered, and by
its open children. A closed span keeps its number and its place and nothing else.

A context may be attached to a span; it holds for the span and for the spans below it,
up to the next attachment.
-/

namespace LogAdmission

/-- The place of a span: a slot, and how many spans had the slot before. A registry gives
each place to one span only, but spans of two registries may have equal places. -/
structure Place where
  slot : Nat
  turn : Nat
  deriving DecidableEq

/-- A span: its place, its parent, the context attached to it, and how often it is held. -/
structure Span where
  place : Place
  parent : Option Nat
  attached : Option Context := none
  holds : Nat := 1
  deriving DecidableEq

namespace Place

/-- The place of the next span in the same slot. -/
def next (p : Place) : Place :=
  { p with turn := p.turn + 1 }

/-- The block of a slot. Blocks have 32, 64, 128 slots and so on. -/
def block (p : Place) : Nat :=
  Nat.log2 (p.slot / 32 + 1)

end Place

namespace Span

/-- Whether something holds the span. -/
def isOpen (s : Span) : Bool :=
  0 < s.holds

/-- What is left of a span once it closes. -/
def closed (s : Span) : Span :=
  { place := s.place, parent := none, holds := 0 }

end Span

/-- The span of a number, open or closed. -/
def spanAt? : List Span → (span : Nat) → Option Span
  | [], _ => none
  | s :: older, span => if span = older.length then some s else spanAt? older span

/-- The spans with one of them changed. -/
def changeSpan (f : Span → Span) : List Span → (span : Nat) → List Span
  | [], _ => []
  | s :: older, span =>
    if span = older.length then f s :: older else s :: changeSpan f older span

/-- The number of the open span that has a place. -/
def findOpen? : List Span → Place → Option Nat
  | [], _ => none
  | s :: older, p =>
    if s.isOpen ∧ s.place = p then some older.length else findOpen? older p

/-- The context of the nearest span, from `span` upwards, that has one attached. -/
def nearestAttached : List Span → (span : Nat) → Option Context
  | [], _ => none
  | s :: older, span =>
    if span = older.length then
      match s.attached with
      | some cx => some cx
      | none => s.parent.bind (nearestAttached older)
    else nearestAttached older span

end LogAdmission
