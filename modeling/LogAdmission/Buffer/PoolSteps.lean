import LogAdmission.Buffer.Steps
import LogAdmission.Context

/-!
# Atomic steps on a pool

Scopes of one pool may be opened, used and released by many callers at once.
Opening a scope takes an idle buffer or a new one, then a number, and then arms
the buffer; releasing a scope resets its buffer and puts it back if there is
room. Contexts outlive their scopes, so calls for a released scope may still be
under way on a buffer that serves another one.
-/

namespace LogAdmission

/-- A call that a caller of a pool can make. -/
inductive Request (α : Type) where
  | openScope
  /-- Holds back an entry under a scope. -/
  | append (target : Binding) (x : α)
  /-- Emits what a scope holds back. -/
  | drain (target : Binding)
  /-- Closes a scope that has not been released. -/
  | release (target : Binding)

/-- What a caller does when its call on a buffer is finished. -/
inductive Sequel where
  | rest
  /-- Hands out the context and the guard of a new scope. -/
  | handOut (scope : Nat)
  /-- Puts the buffer back into the pool. -/
  | putBack

/-- Where a caller of a pool stands between two atomic steps. -/
inductive PoolPhase (α : Type) where
  | free
  /-- About to take an idle buffer. -/
  | acquiring
  /-- About to take a scope number for a buffer. -/
  | numbering (buffer : Nat)
  /-- Inside a call on a buffer. -/
  | calling (buffer : Nat) (phase : Phase α) (sequel : Sequel)
  /-- About to put a buffer back. -/
  | returning (buffer : Nat)

/-- The callers of a pool. -/
structure PoolCrew (α : Type) where
  size : Nat
  capacity : Nat
  capacity_pos : 0 < capacity
  nextScope : Nat := 1
  idle : List Nat := []
  /-- All buffers, in the order in which they were created. -/
  buffers : List (SharedBuffer α) := []
  callers : List (PoolPhase α)
  /-- The scopes opened so far, latest first. -/
  opened : List Binding := []
  /-- The scopes whose guards have not been released. -/
  guarded : List Binding := []
  /-- What happened, in order. -/
  history : List (Effect α) := []

/-- A caller begins a call, or takes the next step of its call. -/
inductive Move (α : Type) where
  | start (caller : Nat) (request : Request α)
  | step (caller : Nat)

namespace PoolCrew

variable {α : Type}

/-- Puts a caller into a phase. -/
def put (c : PoolCrew α) (i : Nat) (phase : PoolPhase α) : PoolCrew α :=
  { c with callers := c.callers.set i phase }

/-- Begins a call of a free caller. Entries are appended and drained only under scopes
that have been opened, and a guard is released only once. -/
def start (c : PoolCrew α) (i : Nat) : Request α → Option (PoolCrew α)
  | .openScope => some (c.put i .acquiring)
  | .append target x =>
    if target ∈ c.opened then
      some (c.put i (.calling target.buffer (.checking target.scope x) .rest))
    else none
  | .drain target =>
    if target ∈ c.opened then
      some (c.put i (.calling target.buffer (.switching target.scope) .rest))
    else none
  | .release target =>
    if target ∈ c.guarded then
      some ({ c with guarded := c.guarded.erase target }.put i
        (.calling target.buffer (.clearing none) .putBack))
    else none

/-- Ends a call on a buffer. -/
def finish (c : PoolCrew α) (i buffer : Nat) : Sequel → PoolCrew α
  | .rest => c.put i .free
  | .handOut scope =>
    { c with
      opened := ⟨buffer, scope⟩ :: c.opened
      guarded := ⟨buffer, scope⟩ :: c.guarded }.put i .free
  | .putBack => c.put i (.returning buffer)

/-- Takes the next step of a caller, or nothing if it is free or has to wait. -/
def advance (c : PoolCrew α) (i : Nat) : PoolPhase α → Option (PoolCrew α)
  | .free => none
  | .acquiring =>
    match c.idle with
    | b :: rest => some ({ c with idle := rest }.put i (.numbering b))
    | [] =>
      let new : SharedBuffer α :=
        { buffer := { capacity := c.capacity, capacity_pos := c.capacity_pos } }
      some ({ c with buffers := c.buffers ++ [new] }.put i (.numbering c.buffers.length))
  | .numbering b =>
    some ({ c with nextScope := c.nextScope + 1 }.put i
      (.calling b (.clearing (some c.nextScope)) (.handOut c.nextScope)))
  | .calling b .finished sequel => some (c.finish i b sequel)
  | .calling b phase sequel =>
    match c.buffers[b]? with
    | none => none
    | some shared =>
      match shared.step i phase with
      | none => none
      | some (shared, phase, effects) =>
        some ({ c with
          buffers := c.buffers.set b shared
          history := c.history ++ effects }.put i (.calling b phase sequel))
  | .returning b =>
    if c.idle.length < c.size then some ({ c with idle := c.idle ++ [b] }.put i .free)
    else some (c.put i .free)

/-- Makes a move, if it is possible. -/
def move? (c : PoolCrew α) : Move α → Option (PoolCrew α)
  | .start i request =>
    match c.callers[i]? with
    | some .free => c.start i request
    | _ => none
  | .step i =>
    match c.callers[i]? with
    | some phase => c.advance i phase
    | none => none

/-- Makes moves in order, leaving out those that are not possible. -/
def run (c : PoolCrew α) (moves : List (Move α)) : PoolCrew α :=
  moves.foldl (fun c m => (c.move? m).getD c) c

/-- Whether no call is under way. -/
def quiet (c : PoolCrew α) : Bool :=
  c.callers.all fun
    | .free => true
    | _ => false

/-- Whether a scope is open. -/
def isOpen (c : PoolCrew α) (b : Binding) : Bool :=
  match c.buffers[b.buffer]? with
  | some shared => shared.buffer.scope = b.scope
  | none => false

/-- The entries handed to their handlers, in order. -/
def emitted (c : PoolCrew α) : List α :=
  c.history.filterMap fun
    | .emitted x => some x.entry
    | .drained _ => none

end PoolCrew

end LogAdmission
