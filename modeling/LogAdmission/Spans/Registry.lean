import LogAdmission.Spans.Forest

/-!
# Registries

A registry keeps the spans of one subscriber and the stack of those that are entered.
The stack does not hold its spans: a span may close while it is on the stack, and is
then no longer the current one. The slot of a closed span goes to a later one.
-/

namespace LogAdmission

/-- An entry of the stack of entered spans. -/
structure Entered where
  span : Nat
  /-- Whether the span was on the stack already. -/
  again : Bool
  deriving DecidableEq

/-- The spans of one subscriber. -/
structure Registry where
  /-- All spans, latest first. -/
  spans : List Span := []
  /-- The number of slots that have been used. -/
  slots : Nat := 0
  /-- The places that can be given again, the one vacated last first. -/
  vacant : List Place := []
  /-- The entered spans, latest first. -/
  stack : List Entered := []
  deriving DecidableEq

/-- What comes of giving up one hold on a span. -/
inductive Loosened where
  /-- There is no such open span. -/
  | absent
  /-- The span is still held. -/
  | held
  /-- The span has closed; it no longer needs its parent. -/
  | closed (place : Place) (parent : Option Nat)
  deriving DecidableEq

namespace Registry

/-- An open span. -/
def openSpan? (g : Registry) (span : Nat) : Option Span :=
  (spanAt? g.spans span).filter (·.isOpen)

/-- Changes a span. -/
def change (g : Registry) (span : Nat) (f : Span → Span) : Registry :=
  { g with spans := changeSpan f g.spans span }

/-- Holds a span once more. -/
def hold (g : Registry) (span : Nat) : Registry :=
  g.change span fun s => { s with holds := s.holds + 1 }

/-! ## Places -/

/-- The vacant place to be given next: of those in the first block that has any, the one
vacated last. -/
def nextVacant? (g : Registry) : Option Place :=
  g.vacant.find? fun p => g.vacant.all fun q => p.block ≤ q.block

/-- Gives a place to a new span, in a new slot if no other one is vacant. -/
def takePlace (g : Registry) : Place × Registry :=
  match g.nextVacant? with
  | some p => (p, { g with vacant := g.vacant.erase p })
  | none => (⟨g.slots, 0⟩, { g with slots := g.slots + 1 })

/-- Takes back the place of a closed span. -/
def vacate (g : Registry) (p : Place) : Registry :=
  { g with vacant := p.next :: g.vacant }

/-- The open span that has a place. -/
def findOpen? (g : Registry) (p : Place) : Option Nat :=
  LogAdmission.findOpen? g.spans p

/-- The place of a span, open or closed. -/
def placeOf? (g : Registry) (span : Nat) : Option Place :=
  (spanAt? g.spans span).map (·.place)

/-! ## The life of a span -/

/-- Adds a span, held by one handle. It holds its parent. -/
def create (g : Registry) (parent : Option Nat) : Nat × Registry :=
  let g :=
    match parent with
    | some p => g.hold p
    | none => g
  let (place, g) := g.takePlace
  (g.spans.length, { g with spans := ⟨place, parent, none, 1⟩ :: g.spans })

/-- Gives up one hold on a span, which closes with the last one. Its parent is left as it
is. -/
def loosen (g : Registry) (span : Nat) : Loosened × Registry :=
  match g.openSpan? span with
  | none => (.absent, g)
  | some s =>
    if 1 < s.holds then
      (.held, g.change span fun s => { s with holds := s.holds - 1 })
    else (.closed s.place s.parent, g.change span (·.closed))

/-- Gives up one hold on a span, and those on the spans above it that are held by a span
that closes. The flag tells whether all of them were open; the place of a span is vacated
after those of the spans above it. -/
def release (g : Registry) (span : Nat) : Bool × Registry :=
  match g.loosen span with
  | (.absent, g) => (false, g)
  | (.held, g) => (true, g)
  | (.closed place none, g) => (true, g.vacate place)
  | (.closed place (some parent), g) =>
    if parent < span then
      match g.release parent with
      | (true, g) => (true, g.vacate place)
      | (false, g) => (false, g)
    else (false, g)
termination_by span

/-! ## Entered spans -/

/-- The current span: the latest entered one, where a span that was entered again keeps
its first place. -/
def current (g : Registry) : Option Nat :=
  ((g.stack.find? fun e => !e.again).map (·.span)).filter fun span =>
    (g.openSpan? span).isSome

/-- Enters a span. -/
def enter (g : Registry) (span : Nat) : Registry :=
  { g with stack := ⟨span, g.stack.any fun e => e.span = span⟩ :: g.stack }

/-- Leaves a span as often as it was entered once. -/
def exit (g : Registry) (span : Nat) : Registry :=
  { g with stack := g.stack.eraseP fun e => e.span = span }

/-! ## Attached contexts -/

/-- Attaches a context to a span, in place of an earlier one. The flag tells whether the
span is open; nothing changes if it is not. -/
def attach (g : Registry) (span : Nat) (cx : Context) : Bool × Registry :=
  match g.openSpan? span with
  | some _ => (true, g.change span fun s => { s with attached := some cx })
  | none => (false, g)

/-- The context that holds in a span. -/
def contextOf (g : Registry) (span : Nat) : Context :=
  (nearestAttached g.spans span).getD .empty

end Registry

end LogAdmission
