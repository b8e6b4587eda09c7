import LogAdmission.Buffer.Word
import LogAdmission.Outcome
import LogAdmission.Text.Numeral

/-!
# Record buffers

A buffer holds back entries in the order in which they arrive. Its queue has a
fixed capacity; when it is full the oldest entry moves to an overflow list, so
nothing is dropped and everything in the overflow is older than the queue.

A buffer belongs to a scope. Operations that name a scope do nothing once the
buffer belongs to another one; scope zero stands for none. The first drain of a
scope emits what was held back; from then on entries go straight to their handlers.

How an entry is emitted is a parameter: `emit` acts on a state of which the
buffer is no part.
-/

namespace LogAdmission

/-- An entry and the scope under which it was held back. -/
structure Tagged (α : Type) where
  scope : Nat
  entry : α

/-- A buffer of held-back entries. -/
structure RecordBuffer (α : Type) where
  capacity : Nat
  capacity_pos : 0 < capacity
  state : StateWord := .armed 0
  queue : List (Tagged α) := []
  overflow : List (Tagged α) := []

namespace RecordBuffer

variable {α σ : Type}

/-- The largest capacity of a buffer. A place in its queue takes 176 bytes, and all of them
together at most `2 ^ 63 - 16`. -/
def maxCapacity : Nat := (Nat.pow 2 63 - 16) / 176

/-- A buffer that belongs to no scope and holds nothing back. -/
def ofCapacity (capacity : Nat) (h : 0 < capacity) : RecordBuffer α :=
  { capacity := capacity, capacity_pos := h }

/-- A buffer of the given capacity; there is none of capacity zero or of one too large. -/
def create? (capacity : Nat) : Option (RecordBuffer α) :=
  if h : 0 < capacity ∧ capacity ≤ maxCapacity then some (ofCapacity capacity h.1) else none

/-- The scope that the buffer belongs to. -/
def scope (b : RecordBuffer α) : Nat :=
  b.state.scope

/-- Whether the buffer has been drained since it was given to its scope. -/
def drained (b : RecordBuffer α) : Bool :=
  b.state.drained

/-- The number of entries held back. -/
def len (b : RecordBuffer α) : Nat :=
  b.overflow.length + b.queue.length

def isEmpty (b : RecordBuffer α) : Bool :=
  b.len = 0

/-- What is held back, in the order of arrival. -/
def pending (b : RecordBuffer α) : List (Tagged α) :=
  b.overflow ++ b.queue

theorem length_pending (b : RecordBuffer α) : b.pending.length = b.len := by
  simp [pending, len]

/-- The buffer as it was created, for no scope; what it held back is discarded. -/
def reset (b : RecordBuffer α) : RecordBuffer α :=
  { b with state := .armed 0, queue := [], overflow := [] }

@[simp] theorem pending_reset (b : RecordBuffer α) : b.reset.pending = [] := rfl

/-- The buffer reset and given to a scope. -/
def arm (b : RecordBuffer α) (scope : Nat) : RecordBuffer α :=
  { b.reset with state := .armed scope }

@[simp] theorem pending_arm (b : RecordBuffer α) (scope : Nat) : (b.arm scope).pending = [] :=
  rfl

/-- Holds back an entry, spilling the oldest one of a full queue. -/
def hold (b : RecordBuffer α) (x : Tagged α) : RecordBuffer α :=
  if b.queue.length < b.capacity then { b with queue := b.queue ++ [x] }
  else
    { b with
      queue := b.queue.drop 1 ++ [x]
      overflow := b.overflow ++ b.queue.take 1 }

@[simp] theorem pending_hold (b : RecordBuffer α) (x : Tagged α) :
    (b.hold x).pending = b.pending ++ [x] := by
  unfold hold
  split
  · simp [pending]
  · simp only [pending, List.append_assoc]
    rw [← List.append_assoc (b.queue.take 1), List.take_append_drop]

/-- Emits the entries of a scope in order, whatever errors they meet, and discards
those of other scopes. If a call is aborted, what comes after it is left. -/
def emitAll (emit : α → σ → Outcome × σ) (scope : Nat) :
    List (Tagged α) → σ → Bool × List (Tagged α) × σ
  | [], s => (true, [], s)
  | x :: rest, s =>
    if x.scope = scope then
      match emit x.entry s with
      | (.aborted, s) => (false, rest, s)
      | (_, s) => emitAll emit scope rest s
    else emitAll emit scope rest s

/-- Empties the buffer, the overflow before the queue, emitting the entries of a scope.
An aborted call loses the rest of the overflow but not the rest of the queue. The flag
tells whether all calls returned. -/
def flush (emit : α → σ → Outcome × σ) (scope : Nat) (b : RecordBuffer α) (s : σ) :
    Bool × RecordBuffer α × σ :=
  match emitAll emit scope b.overflow s with
  | (false, _, s) => (false, { b with overflow := [] }, s)
  | (true, _, s) =>
    let (finished, rest, s) := emitAll emit scope b.queue s
    (finished, { b with overflow := [], queue := rest }, s)

/-- Holds back an entry, or emits it at once if the buffer has been drained. Entries for
a scope that the buffer does not belong to are dropped. -/
def appendTo (emit : α → σ → Outcome × σ) (scope : Nat) (x : α) (b : RecordBuffer α) (s : σ) :
    Outcome × RecordBuffer α × σ :=
  if b.scope ≠ scope then (.ok, b, s)
  else if b.drained then
    let (outcome, s) := emit x s
    (outcome, b, s)
  else (.ok, b.hold ⟨scope, x⟩, s)

/-- Appends under the scope that the buffer belongs to. -/
def append (emit : α → σ → Outcome × σ) (x : α) (b : RecordBuffer α) (s : σ) :
    Outcome × RecordBuffer α × σ :=
  b.appendTo emit b.scope x s

/-- Emits everything held back, unless the buffer has been drained before. -/
def drain (emit : α → σ → Outcome × σ) (b : RecordBuffer α) (s : σ) :
    Bool × RecordBuffer α × σ :=
  if b.drained then (true, b, s) else flush emit b.scope { b with state := b.state.mark } s

/-- Drains the buffer if it belongs to the scope and has not been drained. -/
def drainScope (emit : α → σ → Outcome × σ) (scope : Nat) (b : RecordBuffer α) (s : σ) :
    Bool × RecordBuffer α × σ :=
  if b.state = .armed scope then flush emit scope { b with state := b.state.mark } s
  else (true, b, s)

/-- The buffer with its sizes and its state. -/
def description (b : RecordBuffer α) : String :=
  "RecordBuffer \x7b capacity: " ++ Numeral.ofNat b.capacity
    ++ ", len: " ++ Numeral.ofNat b.len
    ++ ", drained: " ++ (if b.drained then "true" else "false")
    ++ ", scope: " ++ Numeral.ofNat b.scope ++ " \x7d"

end RecordBuffer

end LogAdmission
