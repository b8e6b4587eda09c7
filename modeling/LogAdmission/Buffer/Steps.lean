import LogAdmission.Buffer.Basic

/-!
# Atomic steps on a buffer

Calls on one buffer may overlap. Atomic are reading or changing the state word
(scope and drained mark together), pushing to or popping from the queue, a step
on the overflow list under its lock, and handing an entry to its handler. A
phase holds what a call knows between two of its steps.
-/

namespace LogAdmission

/-- A buffer together with the lock of its overflow list. -/
structure SharedBuffer (α : Type) where
  buffer : RecordBuffer α
  /-- The caller that holds the lock from one step to the next. -/
  holder : Option Nat := none

/-- Where a call on a buffer stands between two atomic steps. -/
inductive Phase (α : Type) where
  /-- An append, about to read the scope of the buffer. -/
  | finding (x : α)
  /-- An append under a scope, about to read the state word. -/
  | checking (scope : Nat) (x : α)
  /-- About to hand an entry to its handler, since the scope has been drained. -/
  | passing (x : Tagged α)
  /-- About to push an entry to the queue. -/
  | pushing (x : Tagged α)
  /-- Found the queue full and is about to take the lock. -/
  | locking (x : Tagged α)
  /-- Holds the lock and is about to pop the oldest entry. -/
  | evicting (x : Tagged α)
  /-- Holds the lock and is about to put the oldest entry into the overflow. -/
  | spilling (x oldest : Tagged α)
  /-- Has pushed and is about to read the state word once more. -/
  | rechecking (scope : Nat)
  /-- A drain of whatever scope, about to set the drained mark. -/
  | marking
  /-- A drain of one scope, about to set its drained mark. -/
  | switching (scope : Nat)
  /-- A flush, about to take the overflow list. -/
  | taking (scope : Nat)
  /-- A flush, with what it took from the overflow list. -/
  | emitting (scope : Nat) (taken : List (Tagged α))
  /-- A flush, about to pop from the queue. -/
  | popping (scope : Nat)
  /-- A flush, about to hand a popped entry to its handler. -/
  | handing (scope : Nat) (x : Tagged α)
  /-- A reset, about to clear the state word. What follows it is kept in `next`. -/
  | clearing (next : Option Nat)
  /-- A reset, about to pop an entry to discard it. -/
  | emptying (next : Option Nat)
  /-- A reset, about to clear the overflow list. -/
  | wiping (next : Option Nat)
  /-- About to give the buffer to a scope after its reset. -/
  | arming (scope : Nat)
  | finished

/-- What a step does to the outside. -/
inductive Effect (α : Type) where
  /-- The drained mark of a scope was set. -/
  | drained (scope : Nat)
  /-- An entry was handed to its handler. -/
  | emitted (x : Tagged α)

namespace SharedBuffer

variable {α : Type}

/-- The shared buffer with its buffer changed. -/
def update (b : SharedBuffer α) (f : RecordBuffer α → RecordBuffer α) : SharedBuffer α :=
  { b with buffer := f b.buffer }

/-- One atomic step of caller `me`, or nothing while the lock that it needs is held. -/
def step (me : Nat) (b : SharedBuffer α) :
    Phase α → Option (SharedBuffer α × Phase α × List (Effect α))
  | .finding x => some (b, .checking b.buffer.scope x, [])
  | .checking scope x =>
    if b.buffer.scope ≠ scope then some (b, .finished, [])
    else if b.buffer.drained then some (b, .passing ⟨scope, x⟩, [])
    else some (b, .pushing ⟨scope, x⟩, [])
  | .passing x => some (b, .finished, [.emitted x])
  | .pushing x =>
    if b.buffer.queue.length < b.buffer.capacity then
      some (b.update fun c => { c with queue := c.queue ++ [x] }, .rechecking x.scope, [])
    else some (b, .locking x, [])
  | .locking x =>
    match b.holder with
    | none => some ({ b with holder := some me }, .evicting x, [])
    | some _ => none
  | .evicting x =>
    match b.buffer.queue with
    | [] => some ({ b with holder := none }, .pushing x, [])
    | oldest :: rest =>
      some (b.update fun c => { c with queue := rest }, .spilling x oldest, [])
  | .spilling x oldest =>
    some
      ({ buffer := { b.buffer with overflow := b.buffer.overflow ++ [oldest] }, holder := none },
        .pushing x, [])
  | .rechecking scope =>
    if b.buffer.state = (StateWord.armed scope).mark then some (b, .taking scope, [])
    else some (b, .finished, [])
  | .marking =>
    if b.buffer.drained then some (b, .finished, [])
    else
      some (b.update fun c => { c with state := c.state.mark }, .taking b.buffer.scope,
        [.drained b.buffer.scope])
  | .switching scope =>
    if b.buffer.state = .armed scope then
      some (b.update fun c => { c with state := c.state.mark }, .taking scope, [.drained scope])
    else some (b, .finished, [])
  | .taking scope =>
    match b.holder with
    | none =>
      some (b.update fun c => { c with overflow := [] }, .emitting scope b.buffer.overflow, [])
    | some _ => none
  | .emitting scope [] => some (b, .popping scope, [])
  | .emitting scope (x :: rest) =>
    some (b, .emitting scope rest, if x.scope = scope then [.emitted x] else [])
  | .popping scope =>
    match b.buffer.queue with
    | [] => some (b, .finished, [])
    | x :: rest =>
      some (b.update fun c => { c with queue := rest },
        if x.scope = scope then .handing scope x else .popping scope, [])
  | .handing scope x => some (b, .popping scope, [.emitted x])
  | .clearing next =>
    some (b.update fun c => { c with state := .armed 0 }, .emptying next, [])
  | .emptying next =>
    match b.buffer.queue with
    | [] => some (b, .wiping next, [])
    | _ :: rest => some (b.update fun c => { c with queue := rest }, .emptying next, [])
  | .wiping next =>
    match b.holder with
    | none =>
      some (b.update fun c => { c with overflow := [] },
        match next with
        | some scope => .arming scope
        | none => .finished, [])
    | some _ => none
  | .arming scope =>
    some (b.update fun c => { c with state := .armed scope }, .finished, [])
  | .finished => none

end SharedBuffer

/-- Callers that share one buffer. -/
structure Crew (α : Type) where
  shared : SharedBuffer α
  /-- For each caller the calls that it still has to make, of which the first has begun. -/
  callers : List (List (Phase α))
  /-- What happened, in order. -/
  history : List (Effect α) := []

namespace Crew

variable {α : Type}

/-- Lets caller `i` take a step, if it can. -/
def step (c : Crew α) (i : Nat) : Crew α :=
  match c.callers[i]? with
  | some (.finished :: later) => { c with callers := c.callers.set i later }
  | some (phase :: later) =>
    match c.shared.step i phase with
    | some (shared, phase, effects) =>
      { shared := shared
        callers := c.callers.set i (phase :: later)
        history := c.history ++ effects }
    | none => c
  | _ => c

/-- Lets callers take steps in the order of a schedule. -/
def run (c : Crew α) (schedule : List Nat) : Crew α :=
  schedule.foldl step c

/-- Whether every caller has made all its calls. -/
def finished (c : Crew α) : Bool :=
  c.callers.all (·.isEmpty)

/-- The entries handed to their handlers, in order. -/
def emitted (c : Crew α) : List α :=
  c.history.filterMap fun
    | .emitted x => some x.entry
    | .drained _ => none

end Crew

end LogAdmission
