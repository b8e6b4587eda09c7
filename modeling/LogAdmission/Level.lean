import LogAdmission.Text.Numeral

/-!
# Levels

The severity of a record. Five levels have names and stand four apart; every
other severity is written as the named level below it and the distance to it,
except that severities below the lowest name count down from that name.
-/

namespace LogAdmission

/-- How severe a record is. Larger is more severe. -/
structure Level where
  severity : Int8
  deriving DecidableEq

namespace Level

def trace : Level := ⟨-8⟩
def debug : Level := ⟨-4⟩
def info : Level := ⟨0⟩
def warn : Level := ⟨4⟩
def error : Level := ⟨8⟩

/-- The distance between two neighbouring named levels. -/
def gap : Int8 := 4

instance : Inhabited Level := ⟨info⟩

instance : LE Level := ⟨fun a b => a.severity.toInt ≤ b.severity.toInt⟩
instance : LT Level := ⟨fun a b => a.severity.toInt < b.severity.toInt⟩

instance : DecidableLE Level := fun a b =>
  inferInstanceAs (Decidable (a.severity.toInt ≤ b.severity.toInt))

instance : DecidableLT Level := fun a b =>
  inferInstanceAs (Decidable (a.severity.toInt < b.severity.toInt))

/-- The named level that a level is written from. -/
def base (l : Level) : String × Level :=
  if l < debug then ("TRACE", trace)
  else if l < info then ("DEBUG", debug)
  else if l < warn then ("INFO", info)
  else if l < error then ("WARN", warn)
  else ("ERROR", error)

/-- The written form: a name, then the signed distance to it unless that is zero. -/
def text (l : Level) : String :=
  let offset := l.severity.toInt - l.base.2.severity.toInt
  l.base.1 ++ if offset = 0 then "" else Numeral.signed offset

/-- The level with its severity as a number. -/
def description (l : Level) : String :=
  "Level(" ++ Numeral.ofInt l.severity.toInt ++ ")"

/-- How two levels compare. -/
def compare (a b : Level) : Ordering :=
  if a < b then .lt else if b < a then .gt else .eq

/-- The more severe of two levels. -/
def max (a b : Level) : Level :=
  if a ≤ b then b else a

/-- The level moved into the range from `trace` to `error`. -/
def clamp (l : Level) : Level :=
  if l < trace then trace else if error < l then error else l

end Level

end LogAdmission
