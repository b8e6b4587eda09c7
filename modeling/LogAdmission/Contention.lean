import LogAdmission.Buffer.PoolSteps
import LogAdmission.Counter.Race
import LogAdmission.RateLimit

/-!
# Contention

Three situations in which many callers act at once, played out step by step with
the callers taking turns: calls that open a window together, appends beside a
drain, and records of a scope beside its release.
-/

namespace LogAdmission.Contention

/-- Lets callers take turns for a number of rounds, or until they are done. -/
def takeTurns {S : Type} (step : S → Nat → S) (finished : S → Bool) (callers : Nat) :
    (rounds : Nat) → S → S
  | 0, s => s
  | rounds + 1, s =>
    if finished s then s
    else takeTurns step finished callers rounds ((List.range callers).foldl step s)

/-! ## Opening windows together -/

/-- Plays one window: all callers count a record at the same time. Tells how many of
the records pass, and the counter afterwards. -/
def playWindow (limits : Limits) (callers : Nat) (now : Nat) (c : Counter) : Nat × Counter :=
  let race :=
    takeTurns (Race.step limits.interval.ticks) Race.finished callers 6
      (.start c (List.replicate callers now))
  ((race.numbers.filter limits.passes).length, race.counter)

/-- Plays windows one second apart, the first one second after the epoch, on the counter
for a level and a message. -/
def firstPassers (limits : Limits) (callers windows : Nat) (level : Level) (message : String) :
    List Nat :=
  let play (state : List Nat × CounterTable) (w : Nat) : List Nat × CounterTable :=
    let shard := shardOf level message
    let now := (Instant.ofSeconds (w + 1) 0).tick
    let (passed, counter) := playWindow limits callers now (state.2 shard)
    (passed :: state.1, state.2.put shard counter)
  ((List.range windows).foldl play ([], .fresh)).1.reverse

/-! ## Appending beside a drain -/

/-- The name of an entry: the caller and the position among its entries. -/
def entryName (caller i : Nat) : String :=
  Numeral.ofNat caller ++ "-" ++ Numeral.ofNat i

/-- Rounds enough for the appends and drains of a play: an entry is pushed or finds the
queue full because another entry was pushed, and is emitted once. -/
def enoughRounds (callers entries : Nat) : Nat :=
  16 * (callers + 2) * (entries + callers + 2)

/-- Callers that append `each` entries beside one that drains. -/
def drainCrew (callers each : Nat) (b : RecordBuffer String) : Crew String :=
  let appends (caller : Nat) : List (Phase String) :=
    (List.range each).map fun i => .finding (entryName caller i)
  { shared := { buffer := b }
    callers := (List.range callers).map appends ++ [[.marking]] }

/-- Plays appends beside a drain. -/
def playDrain (callers each : Nat) (b : RecordBuffer String) : Crew String :=
  takeTurns Crew.step Crew.finished (callers + 1) (enoughRounds callers (callers * each))
    (drainCrew callers each b)

/-! ## Logging beside a release -/

/-- The requests that a caller still has to make, beside the state of the pool. -/
structure Script where
  crew : PoolCrew String
  requests : List (List (Request String))

namespace Script

/-- Lets a caller take a step of its call, or begin its next one. -/
def step (s : Script) (i : Nat) : Script :=
  match s.crew.callers[i]?, s.requests[i]? with
  | some .free, some (request :: later) =>
    match s.crew.move? (.start i request) with
    | some crew => ⟨crew, s.requests.set i later⟩
    | none => s
  | _, _ => { s with crew := (s.crew.move? (.step i)).getD s.crew }

def finished (s : Script) : Bool :=
  s.crew.quiet && s.requests.all (·.isEmpty)

/-- Adds requests of one caller and plays until all are done. -/
def play (s : Script) (rounds : Nat) (requests : List (List (Request String))) : Script :=
  takeTurns step finished requests.length rounds { s with requests := requests }

end Script

/-- What is seen after a scope was released under way and a new one was opened. -/
structure ReleaseReport where
  emitted : List String
  oldBuffered : Bool
  newBuffered : Bool

/-- Plays records of one scope beside its release and the opening of the next, then logs
`new` below the minimum level and `flush` at that level through the new scope. -/
def playRelease (callers each capacity : Nat) (h : 0 < capacity) : ReleaseReport :=
  let rounds := enoughRounds callers (callers * each)
  let others := List.replicate callers ([] : List (Request String))
  let start : Script :=
    ⟨{ size := 64, capacity := capacity, capacity_pos := h,
       callers := List.replicate (callers + 1) .free }, []⟩
  let old : Binding := ⟨0, 1⟩
  let opened := start.play rounds (others ++ [[.openScope]])
  let records (caller : Nat) : List (Request String) :=
    (List.range each).map fun i => .append old (entryName caller i)
  let raced :=
    opened.play rounds ((List.range callers).map records ++ [[.release old, .openScope]])
  let new := raced.crew.opened.headD old
  let done := raced.play rounds (others ++ [[.append new "new", .drain new]])
  ⟨done.crew.emitted ++ ["flush"], done.crew.isOpen old, done.crew.isOpen new⟩

end LogAdmission.Contention
