import LogAdmission.Requests
import Std.Time.DateTime.Timestamp

/-!
# Command line

Runs the simulated service. The first argument is the share of sampled traces;
lines go to the standard error stream.
-/

open LogAdmission

/-- The present time. -/
def LogAdmission.Requests.presentTime : IO Instant := do
  let now ← Std.Time.Timestamp.now
  pure ⟨now.toNanosecondsSinceUnixEpoch.val⟩

/-- Serves the requests one by one and writes their lines as they come. -/
def main (args : List String) : IO UInt32 := do
  let ratio := Requests.ratioOfArgs args
  let err ← IO.getStderr
  let mut service := Requests.Service.start (← Requests.presentTime)
  for request in List.range Requests.count do
    let now ← Requests.presentTime
    service := { service with host := { service.host with now := now } }
    let (lines, next) := Requests.takeLines (Requests.serve ratio service request)
    for line in lines do
      err.putStr line
    service := next
  pure 0
