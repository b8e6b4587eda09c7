/-!
# Instants and durations

Times are nanoseconds before or after the epoch, and reckoning with them is exact.
Callers can name instants before the end of second `2 ^ 63 - 1`, and lengths of time
of less than `2 ^ 64` seconds. The clock that rate limits use is narrower: it stands
still at zero before the epoch, and at its last tick from then on.
-/

namespace LogAdmission

/-- A point in time, in nanoseconds after the epoch. -/
structure Instant where
  nanos : Int
  deriving DecidableEq

/-- The number of nanoseconds in a second. -/
def nanosPerSecond : Nat := 1000000000

/-- The last tick of the bounded clock. -/
def lastTick : Nat := Nat.pow 2 63 - 1

namespace Instant

/-- The instant `seconds` after the epoch and `nanos` later. -/
def ofSeconds (seconds : Int) (nanos : Nat) : Instant :=
  ⟨seconds * nanosPerSecond + nanos⟩

/-- The instant `nanos` nanoseconds later. -/
def later (t : Instant) (nanos : Nat) : Instant :=
  ⟨t.nanos + nanos⟩

/-- The instant, if callers can name it. -/
def named? (t : Instant) : Option Instant :=
  if t.nanos < (Nat.pow 2 63 * nanosPerSecond : Nat) then some t else none

/-- The reading of the bounded clock. -/
def tick (t : Instant) : Nat :=
  Nat.min t.nanos.toNat lastTick

end Instant

/-- A length of time in nanoseconds. -/
structure Duration where
  nanos : Nat
  deriving DecidableEq

namespace Duration

/-- The length of `seconds` seconds and `nanos` nanoseconds. -/
def ofSeconds (seconds nanos : Nat) : Duration :=
  ⟨seconds * nanosPerSecond + nanos⟩

/-- The length of time, if callers can name it. -/
def named? (d : Duration) : Option Duration :=
  if d.nanos < Nat.pow 2 64 * nanosPerSecond then some d else none

/-- The length in ticks of the bounded clock. -/
def ticks (d : Duration) : Nat :=
  Nat.min d.nanos lastTick

end Duration

end LogAdmission
