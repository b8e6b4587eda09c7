import LogAdmission.Counter.Shard
import LogAdmission.Record

/-!
# Rate limits

In each window of a shard the first records pass, and after them every so many.
-/

namespace LogAdmission

/-- The limits of one rate limiter. -/
structure Limits where
  first : Nat
  every : Nat
  interval : Duration
  deriving DecidableEq

namespace Limits

/-- Whether the record with number `n` of its window passes. With `every` zero nothing
passes after the first records. -/
def passes (l : Limits) (n : Nat) : Bool :=
  n ≤ l.first || (l.every ≠ 0 && (n - l.first) % l.every = 0)

/-- Counts a record and tells whether it passes. -/
def tally (l : Limits) (r : Record) (table : CounterTable) : Bool × CounterTable :=
  let shard := shardOf r.level r.message
  let (n, counter) := (table shard).increment r.time.tick l.interval.ticks
  (l.passes n, table.put shard counter)

end Limits

end LogAdmission
