/-!
# State words

The scope that a buffer belongs to and its drained mark share one 64-bit word, so that
both are read, compared and changed in one step. A word determines the two and is
determined by them; scopes from `2 ^ 63` on do not fit.
-/

namespace LogAdmission

/-- A scope in the upper bits, and the drained mark in the lowest. -/
structure StateWord where
  bits : UInt64
  deriving DecidableEq

namespace StateWord

/-- One more than the largest scope that fits into a word. -/
def scopeBound : Nat := Nat.pow 2 63

theorem scopeBound_pos : 0 < scopeBound := by decide

/-- The word of a buffer that belongs to a scope and has not been drained. -/
def armed (scope : Nat) : StateWord :=
  ⟨UInt64.ofNat scope <<< 1⟩

/-- The word with the drained mark set. -/
def mark (w : StateWord) : StateWord :=
  ⟨w.bits ||| 1⟩

def scope (w : StateWord) : Nat :=
  (w.bits >>> 1).toNat

def drained (w : StateWord) : Bool :=
  w.bits &&& 1 != 0

theorem scope_eq (w : StateWord) : w.scope = w.bits.toNat / 2 := by
  simp [scope, UInt64.toNat_shiftRight, Nat.shiftRight_eq_div_pow]

theorem drained_iff (w : StateWord) : w.drained = true ↔ w.bits.toNat % 2 = 1 := by
  have hbit : (w.bits &&& 1).toNat = w.bits.toNat % 2 := by simp
  have hzero : w.bits &&& 1 = 0 ↔ (w.bits &&& 1).toNat = 0 := by
    rw [← UInt64.toNat_inj]; rfl
  rw [drained, bne_iff_ne, ne_eq, hzero, hbit]
  omega

/-- The scope and the mark tell the whole word. -/
theorem ext_parts {v w : StateWord} (hs : v.scope = w.scope) (hd : v.drained = w.drained) :
    v = w := by
  have hmark : v.bits.toNat % 2 = 1 ↔ w.bits.toNat % 2 = 1 := by
    rw [← drained_iff, ← drained_iff, hd]
  rw [scope_eq, scope_eq] at hs
  have hbits : v.bits = w.bits := by
    rw [← UInt64.toNat_inj]
    omega
  cases v
  cases w
  simp_all

/-- A scope that does not fit loses its highest bits. -/
theorem toNat_armed (scope : Nat) :
    (armed scope).bits.toNat = 2 * (scope % scopeBound) := by
  simp only [armed, UInt64.toNat_shiftLeft, UInt64.toNat_ofNat', UInt64.toNat_one,
    Nat.shiftLeft_eq, scopeBound, Nat.pow_eq, Nat.reducePow, Nat.reduceMod]
  omega

@[simp] theorem scope_armed {scope : Nat} (h : scope < scopeBound) :
    (armed scope).scope = scope := by
  rw [scope_eq, toNat_armed, Nat.mod_eq_of_lt h]
  omega

@[simp] theorem drained_armed (scope : Nat) : (armed scope).drained = false := by
  rw [Bool.eq_false_iff, ne_eq, drained_iff, toNat_armed]
  omega

@[simp] theorem scope_mark (w : StateWord) : w.mark.scope = w.scope := by
  rw [scope_eq, scope_eq, mark, UInt64.toNat_or, Nat.or_div_two]
  simp

@[simp] theorem drained_mark (w : StateWord) : w.mark.drained = true := by
  rw [drained_iff, mark, UInt64.toNat_or, Nat.or_mod_two_eq_one]
  simp

/-- To compare a word with an armed one is to compare the scope and the mark. -/
theorem eq_armed_iff {w : StateWord} {scope : Nat} (h : scope < scopeBound) :
    w = armed scope ↔ w.scope = scope ∧ w.drained = false := by
  constructor
  · rintro rfl
    exact ⟨scope_armed h, drained_armed scope⟩
  · rintro ⟨hs, hd⟩
    exact ext_parts (hs.trans (scope_armed h).symm) (hd.trans (drained_armed scope).symm)

/-- The same for a drained one. -/
theorem eq_mark_armed_iff {w : StateWord} {scope : Nat} (h : scope < scopeBound) :
    w = (armed scope).mark ↔ w.scope = scope ∧ w.drained = true := by
  constructor
  · rintro rfl
    exact ⟨by rw [scope_mark, scope_armed h], drained_mark _⟩
  · rintro ⟨hs, hd⟩
    exact ext_parts (by rw [hs, scope_mark, scope_armed h]) (by rw [hd, drained_mark])

end StateWord

end LogAdmission
