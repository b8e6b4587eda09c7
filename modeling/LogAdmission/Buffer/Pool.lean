import LogAdmission.Buffer.Basic

/-!
# Buffer pools

Buffers that are not in use wait in a pool, first in and first out. A pool also
numbers the scopes that its buffers are given to, from one.
-/

namespace LogAdmission

/-- The idle buffers, by number, of one family of handlers. -/
structure Pool where
  size : Nat
  bufferCapacity : Nat
  bufferCapacity_pos : 0 < bufferCapacity
  nextScope : Nat := 1
  idle : List Nat := []

namespace Pool

/-- The largest size of a pool. A place in it takes 16 bytes, and all of them together at
most `2 ^ 63 - 8`. -/
def maxSize : Nat := (Nat.pow 2 63 - 8) / 16

/-- Takes the buffer that has been idle longest, and the next scope number. -/
def acquire (p : Pool) : Option Nat × Nat × Pool :=
  (p.idle.head?, p.nextScope, { p with idle := p.idle.drop 1, nextScope := p.nextScope + 1 })

/-- Takes back a buffer, unless the pool is full. The flag tells whether there was room. -/
def release (p : Pool) (buffer : Nat) : Bool × Pool :=
  if p.idle.length < p.size then (true, { p with idle := p.idle ++ [buffer] })
  else (false, p)

end Pool

end LogAdmission
