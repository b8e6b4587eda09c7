import LogAdmission.Handler.Basic
import LogAdmission.Notice

/-!
# Building handlers

Rate limiters and sampling buffers are built from options. A missing handler or
sampler is an error; numbers that must not be zero fall back to their defaults,
and a notice tells so.
-/

namespace LogAdmission

/-- Why a handler cannot be built. -/
inductive BuildError where
  | missingHandler
  | missingSampler
  deriving DecidableEq

namespace BuildError

/-- The wording of the error. -/
def message : BuildError → String
  | missingHandler => "cannot create handler without a downstream handler"
  | missingSampler => "cannot create handler without a sampler"

end BuildError

/-- A number that falls back to a default when it is zero, with the notice for that. -/
def orDefault (value default : Nat) (what : String) (shown : FieldValue) : Nat × List Notice :=
  if value = 0 then (default, [.defaulted what shown]) else (value, [])

/-- The options of a rate limiter. -/
structure LimiterOptions where
  first : Nat := 100
  every : Nat := 100
  interval : Duration := .ofSeconds 1 0

namespace LimiterOptions

/-- The limits that the options ask for. -/
def limits (o : LimiterOptions) : Limits × List Notice :=
  let (first, firstNotices) :=
    orDefault o.first 100 "rate limiter `first`" (.uint 100)
  let (interval, intervalNotices) :=
    orDefault o.interval.nanos nanosPerSecond "rate limiter interval" (.debug "1s")
  (⟨first, o.every, ⟨interval⟩⟩, firstNotices ++ intervalNotices)

end LimiterOptions

/-- The options of a sampling buffer. -/
structure SamplingOptions where
  minimum : Level := .error
  bufferCapacity : Nat := 8
  poolSize : Nat := 64

namespace SamplingOptions

/-- The pool that the options ask for. -/
def pool (o : SamplingOptions) : Pool × List Notice :=
  let (capacity, capacityNotices) :=
    orDefault o.bufferCapacity 8 "buffer capacity" (.uint 8)
  let (size, sizeNotices) :=
    orDefault o.poolSize 64 "buffer pool size" (.uint 64)
  if h : 0 < capacity then
    ({ size := size, bufferCapacity := capacity, bufferCapacity_pos := h },
      capacityNotices ++ sizeNotices)
  else
    ({ size := size, bufferCapacity := 8, bufferCapacity_pos := by decide },
      capacityNotices ++ sizeNotices)

end SamplingOptions

/-- What building a handler comes to once its options are settled. -/
structure Construction (κ σ : Type) where
  /-- The notices about the options, given before anything is built. -/
  notices : List Notice
  /-- The handler, unless what was asked for is too large. -/
  handler : Option (Handler κ σ)
  store : Store κ σ

namespace Store

variable {κ σ : Type}

/-- Adds a rate limiter with counters of its own in front of a chain. -/
def addLimiter (st : Store κ σ) (limits : Limits) (next : Handler κ σ) :
    Handler κ σ × Store κ σ :=
  let tables := st.downstream.tables.put st.freshTable .fresh
  (.limited limits st.freshTable next,
    { st with
      downstream := { st.downstream with tables := tables }
      freshTable := st.freshTable + 1 })

/-- Adds a sampling buffer with a pool of its own in front of a chain. -/
def addSampling (st : Store κ σ) (sampler : Sampler σ) (minimum : Level) (pool : Pool)
    (next : Handler κ σ) : Handler κ σ × Store κ σ :=
  (.sampled ⟨sampler, minimum, st.freshPool⟩ next,
    { st with pools := st.pools.put st.freshPool pool, freshPool := st.freshPool + 1 })

/-- Builds a rate limiter. -/
def buildLimiter (st : Store κ σ) (next : Option (Handler κ σ)) (o : LimiterOptions) :
    Except BuildError (Construction κ σ) :=
  match next with
  | none => .error .missingHandler
  | some next =>
    let (limits, notices) := o.limits
    let (h, st) := st.addLimiter limits next
    .ok ⟨notices, some h, st⟩

/-- Builds a sampling buffer. A missing handler is noticed before a missing sampler. -/
def buildSampling (st : Store κ σ) (next : Option (Handler κ σ)) (sampler : Option (Sampler σ))
    (o : SamplingOptions) : Except BuildError (Construction κ σ) :=
  match next, sampler with
  | none, _ => .error .missingHandler
  | some _, none => .error .missingSampler
  | some next, some sampler =>
    let (pool, notices) := o.pool
    if pool.size ≤ Pool.maxSize then
      let (h, st) := st.addSampling sampler o.minimum pool next
      .ok ⟨notices, some h, st⟩
    else .ok ⟨notices, none, st⟩

end Store

end LogAdmission
