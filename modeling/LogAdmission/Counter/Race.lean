import LogAdmission.Cells
import LogAdmission.Counter.Basic

/-!
# Counting at the same time

Many callers may count on one counter at once. Each reads and writes the counter
in atomic steps, and between two steps of one caller the others may take any
number of theirs. Only the caller that replaces the end of the window it has
read opens the next window; the others join it.
-/

namespace LogAdmission

/-- Where a caller stands between two atomic steps. -/
inductive CountPhase where
  /-- About to read the end of the window. -/
  | reading
  /-- About to store one as the count, having read the end `seen`. -/
  | restarting (seen : Nat)
  /-- About to replace the end `seen` by the end of its own window. -/
  | claiming (seen : Nat)
  /-- About to add one to the count; `late` after an attempt to open a window. -/
  | joining (late : Bool)
  /-- Done, having opened a window. -/
  | opened
  /-- Done with number `n`; `late` after an attempt to open a window. -/
  | joined (n : Nat) (late : Bool)
  deriving DecidableEq

namespace CountPhase

/-- The number that a caller was given, once it is done. -/
def number? : CountPhase → Option Nat
  | opened => some 1
  | joined n _ => some n
  | _ => none

/-- One atomic step of a caller at the time `now`. -/
def step (now interval : Nat) (c : Counter) : CountPhase → CountPhase × Counter
  | reading => (if now < c.resetAt then joining false else restarting c.resetAt, c)
  | restarting seen => (claiming seen, { c with count := 1 })
  | claiming seen =>
    if c.resetAt = seen then (opened, { c with resetAt := Counter.windowEnd now interval })
    else (joining true, c)
  | joining late => (joined (c.count + 1) late, { c with count := c.count + 1 })
  | opened => (opened, c)
  | joined n late => (joined n late, c)

end CountPhase

/-- One call: its time and where it stands. -/
structure CountCall where
  now : Nat
  phase : CountPhase := .reading
  deriving DecidableEq

/-- A counter and the calls made on it. -/
structure Race where
  counter : Counter
  calls : List CountCall
  /-- The calls that opened a window, by position, latest first. -/
  openers : List Nat := []
  deriving DecidableEq

namespace Race

/-- The race before its first step: one call for each time. -/
def start (c : Counter) (times : List Nat) : Race :=
  { counter := c, calls := times.map fun now => { now := now } }

/-- Lets the call at position `i` take a step. -/
def step (interval : Nat) (r : Race) (i : Nat) : Race :=
  match r.calls[i]? with
  | none => r
  | some call =>
    let (phase, counter) := call.phase.step call.now interval r.counter
    { counter := counter
      calls := r.calls.set i { call with phase := phase }
      openers := if phase = .opened ∧ call.phase ≠ .opened then i :: r.openers else r.openers }

/-- Lets calls take steps in the order of a schedule. -/
def run (interval : Nat) (r : Race) (schedule : List Nat) : Race :=
  schedule.foldl (step interval) r

/-- Whether every call is done. -/
def finished (r : Race) : Bool :=
  r.calls.all fun call => call.phase.number?.isSome

/-- The numbers given to the calls that are done. -/
def numbers (r : Race) : List Nat :=
  r.calls.filterMap (·.phase.number?)

end Race

end LogAdmission
