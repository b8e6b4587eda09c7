import LogAdmission.Instant

/-!
# Counters

A counter numbers the calls of a window. A window opens with the first call at
or after the end of the window before it.
-/

namespace LogAdmission

/-- The number of calls in the current window, and the tick at which it ends. -/
structure Counter where
  resetAt : Nat := 0
  count : Nat := 0
  deriving DecidableEq

namespace Counter

/-- The end of a window opened at `now`; the clock does not go beyond its last tick. -/
def windowEnd (now interval : Nat) : Nat :=
  Nat.min (now + interval) lastTick

/-- Counts a call at `now` and tells its number in its window. -/
def increment (c : Counter) (now interval : Nat) : Nat × Counter :=
  if now < c.resetAt then (c.count + 1, { c with count := c.count + 1 })
  else (1, ⟨windowEnd now interval, 1⟩)

end Counter

end LogAdmission
