import LogAdmission.Double.Read
import LogAdmission.Host
import LogAdmission.Sink.Endpoint
import LogAdmission.Trace.Root

/-!
# A simulated service

Two hundred requests with random latencies are served and logged through a whole
chain: records of sampled traces pass, those of other requests are held back until
a warning, a rate limiter thins out what is left, and lines are written in the end.
-/

namespace LogAdmission.Requests

/-- The service between two requests. -/
structure Service where
  host : Host Endpoint World
  /-- The pool of the sampling buffer. -/
  pool : Nat
  generator : Generator

/-- The number of requests of a run. -/
def count : Nat := 200

/-- The share of sampled traces when the first argument does not give one. -/
def defaultRatio : Double :=
  .ofRatio false 1 10

/-- The share of sampled traces; further arguments do not count. -/
def ratioOfArgs (args : List String) : Double :=
  (args.head?.bind Double.read?).getD defaultRatio

/-- The limits of the service's rate limiter. -/
def limits : Limits :=
  ⟨20, 50, .ofSeconds 1 0⟩

/-- The service before the first request. -/
def Service.start (now : Instant) : Service :=
  let (writer, world) := ({} : World).addWriter "stderr" []
  let store : Store Endpoint World := .ofWorld world
  let (limiter, store) :=
    store.addLimiter limits (.sink (.text { writer := writer, minimum := .debug }))
  let pool := store.freshPool
  let (chain, store) :=
    store.addSampling .byTrace .warn
      { size := 64, bufferCapacity := 8, bufferCapacity_pos := Nat.succ_pos _ } limiter
  let host : Host Endpoint World := { store := store, now := now }
  ⟨host.install [chain], pool, .ofSeed 42⟩

/-- Emits an event with a message and one field in the current span. -/
def logEvent (host : Host Endpoint World) (level : EventLevel) (message : String) (f : Field) :
    Host Endpoint World :=
  (host.emit .current level [⟨"message", .debug message⟩, f]).2

/-- The severity of a latency, if it is worth a record of its own. -/
def latencyEvent (latency : Double) : Option (EventLevel × String) :=
  if (Double.ofNat 450).numLt latency then some (.error, "upstream too slow")
  else if (Double.ofNat 300).numLt latency then some (.warn, "slow request")
  else none

/-- Does the work of one request. -/
def work (s : Service) (request : Nat) : Service :=
  let host :=
    logEvent s.host .debug "parsing request" ⟨"request", .uint (UInt64.ofNat request)⟩
  let (share, generator) := s.generator.unit
  let latency := share.timesNat 500
  let f : Field := ⟨"latency_ms", .double latency⟩
  let host := logEvent host .info "fetched upstream" f
  let host :=
    match latencyEvent latency with
    | some (level, message) => logEvent host level message f
    | none => host
  { s with host := host, generator := generator }

/-- Serves one request in a span and a scope of its own. -/
def serve (ratio : Double) (s : Service) (request : Nat) : Service :=
  let (trace, generator) := TraceContext.root ratio s.generator
  let (created, host) := s.host.createSpan? .current
  let span := created.getD .empty
  match host.openScope? s.pool (Context.empty.withTrace trace) with
  | none => { s with host := host, generator := generator }
  | some (cx, guard, host) =>
    let (_, host) := host.attachContext span cx
    let (_, host) := host.enterSpan span
    let s := work { s with host := host, generator := generator } request
    let (_, host) := s.host.exitSpan span
    let (_, host) := host.closeScope guard
    let (_, host) := host.dropSpan span
    { s with host := host }

/-- The lines written since they were last taken. -/
def takeLines (s : Service) : List String × Service :=
  let (items, world) := s.host.store.world.takeReceived
  let lines := items.filterMap fun (_, item) =>
    match item with
    | .piece bytes => some (Text.shown bytes)
    | .record .. => none
  (lines, { s with host := { s.host with store := s.host.store.mapWorld fun _ => world } })

/-- All lines of a run that happens at one instant. -/
def lines (now : Instant) (ratio : Double) : List String :=
  (takeLines ((List.range count).foldl (serve ratio) (.start now))).1

end LogAdmission.Requests
