import LogAdmission.Double.Round

/-!
# Pseudo-random draws

A generator whose state steps by a fixed odd number, so that it passes through
all 64-bit words before it repeats. Each word drawn is the state multiplied by
a scrambled copy of itself, folded to 64 bits. Draws that have to avoid a value
are repeated until they do.
-/

namespace LogAdmission

/-- The state of a generator. -/
structure Generator where
  state : UInt64
  deriving DecidableEq

namespace Generator

/-- The generator started from a seed. -/
def ofSeed (seed : UInt64) : Generator :=
  ⟨seed⟩

/-- The next word. -/
def next (g : Generator) : UInt64 × Generator :=
  let s := g.state + 0x2d358dccaa6c78a5
  let product := s.toNat * (s ^^^ 0x8bb84b93962eacc9).toNat
  (UInt64.ofNat (product % Nat.pow 2 64) ^^^ UInt64.ofNat (product / Nat.pow 2 64), ⟨s⟩)

/-- Draws at most `limit` times, until a draw yields a value. -/
def drawUntil {α : Type} (draw : Generator → Option α × Generator) (fallback : α) :
    (limit : Nat) → Generator → α × Generator
  | 0, g => (fallback, g)
  | limit + 1, g =>
    match draw g with
    | (some a, g) => (a, g)
    | (none, g) => drawUntil draw fallback limit g

/-- After this many draws the generator has been in every state. -/
def period : Nat := Nat.pow 2 64

/-- A double from zero up to, and without, one: 63 bits of a word, rounded. -/
def unit (g : Generator) : Double × Generator :=
  drawUntil
    (fun g =>
      let (word, g) := g.next
      let x := Double.ofRatio false (word.toNat / 2) (Nat.pow 2 63)
      (if x = Double.ofNat 1 then none else some x, g))
    (Double.ofNat 0) period g

/-- A positive number below `2 ^ 64`. -/
def positive64 (g : Generator) : Nat × Generator :=
  drawUntil
    (fun g =>
      let (word, g) := g.next
      (if word = 0 then none else some word.toNat, g))
    1 period g

/-- A positive number below `2 ^ 128`, its high half drawn first. -/
def positive128 (g : Generator) : Nat × Generator :=
  drawUntil
    (fun g =>
      let (high, g) := g.next
      let (low, g) := g.next
      (if high = 0 ∧ low = 0 then none else some (high.toNat * Nat.pow 2 64 + low.toNat), g))
    1 period g

end Generator

end LogAdmission
