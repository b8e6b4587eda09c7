import LogAdmission.Cells
import LogAdmission.Counter.Basic
import LogAdmission.Level
import LogAdmission.Text.Utf8

/-!
# Shards

Records are counted by level and message. Each level bucket has 4096 counters,
and a hash of the message picks one of them, so distinct messages may share a
counter.
-/

namespace LogAdmission

/-- The number of counters of one level bucket. -/
def shardsPerLevel : Nat := 4096

/-- The bucket of a level: severities beyond the outermost named levels count as
those, and the levels of one gap share a bucket. -/
def levelBucket (l : Level) : Nat :=
  ((l.clamp.severity.toInt - Level.trace.severity.toInt) / Level.gap.toInt).toNat

/-- The number of level buckets. -/
def levelBuckets : Nat := levelBucket Level.error + 1

/-- A 32-bit hash of bytes: each byte is mixed in by exclusive or and the result is
multiplied by a prime. -/
def hash32 (bytes : List UInt8) : UInt32 :=
  bytes.foldl (fun hash b => (hash ^^^ b.toUInt32) * 16777619) 2166136261

/-- The number of the counter for a level and a message. -/
def shardOf (l : Level) (message : String) : Nat :=
  levelBucket l * shardsPerLevel
    + (hash32 (Text.bytes message)).toNat % shardsPerLevel

theorem levelBuckets_eq : levelBuckets = 5 := by decide

/-- One counter for each shard. -/
abbrev CounterTable := Cells Counter

namespace CounterTable

/-- The table before the first call. -/
def fresh : CounterTable := fun _ => {}

end CounterTable

end LogAdmission
