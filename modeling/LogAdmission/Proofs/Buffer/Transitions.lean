import LogAdmission.Buffer.Steps

/-!
# What a step on a buffer can do

All steps of calls on a shared buffer in one list, each with what it finds and what it
leaves behind. Proofs about overlapping calls go through this list instead of the steps
themselves.
-/

namespace LogAdmission

variable {α : Type}

namespace SharedBuffer

/-- A step of caller `me` from a phase: the buffer, the phase and the effects it leads to. -/
inductive Transition (me : Nat) (b : SharedBuffer α) :
    Phase α → SharedBuffer α → Phase α → List (Effect α) → Prop where
  | find (x : α) : Transition me b (.finding x) b (.checking b.buffer.scope x) []
  /-- The scope has been released. -/
  | turnAway (scope : Nat) (x : α) (hscope : b.buffer.scope ≠ scope) :
      Transition me b (.checking scope x) b .finished []
  | forward (scope : Nat) (x : α) (hscope : b.buffer.scope = scope)
      (hdrained : b.buffer.drained = true) :
      Transition me b (.checking scope x) b (.passing ⟨scope, x⟩) []
  | accept (scope : Nat) (x : α) (hscope : b.buffer.scope = scope)
      (hdrained : b.buffer.drained = false) :
      Transition me b (.checking scope x) b (.pushing ⟨scope, x⟩) []
  | pass (x : Tagged α) : Transition me b (.passing x) b .finished [.emitted x]
  | push (x : Tagged α) (hroom : b.buffer.queue.length < b.buffer.capacity) :
      Transition me b (.pushing x)
        { b with buffer := { b.buffer with queue := b.buffer.queue ++ [x] } }
        (.rechecking x.scope) []
  | findFull (x : Tagged α) (hfull : b.buffer.capacity ≤ b.buffer.queue.length) :
      Transition me b (.pushing x) b (.locking x) []
  | lock (x : Tagged α) (hfree : b.holder = none) :
      Transition me b (.locking x) { b with holder := some me } (.evicting x) []
  | unlock (x : Tagged α) (hempty : b.buffer.queue = []) :
      Transition me b (.evicting x) { b with holder := none } (.pushing x) []
  | evict (x oldest : Tagged α) (rest : List (Tagged α))
      (hqueue : b.buffer.queue = oldest :: rest) :
      Transition me b (.evicting x) { b with buffer := { b.buffer with queue := rest } }
        (.spilling x oldest) []
  | spill (x oldest : Tagged α) :
      Transition me b (.spilling x oldest)
        { buffer := { b.buffer with overflow := b.buffer.overflow ++ [oldest] }, holder := none }
        (.pushing x) []
  | catchUp (scope : Nat) (hstate : b.buffer.state = (StateWord.armed scope).mark) :
      Transition me b (.rechecking scope) b (.taking scope) []
  | settle (scope : Nat) (hstate : b.buffer.state ≠ (StateWord.armed scope).mark) :
      Transition me b (.rechecking scope) b .finished []
  | findMarked (hdrained : b.buffer.drained = true) : Transition me b .marking b .finished []
  | mark (hdrained : b.buffer.drained = false) :
      Transition me b .marking
        { b with buffer := { b.buffer with state := b.buffer.state.mark } }
        (.taking b.buffer.scope) [.drained b.buffer.scope]
  | switch (scope : Nat) (hstate : b.buffer.state = .armed scope) :
      Transition me b (.switching scope)
        { b with buffer := { b.buffer with state := b.buffer.state.mark } }
        (.taking scope) [.drained scope]
  | findSwitched (scope : Nat) (hstate : b.buffer.state ≠ .armed scope) :
      Transition me b (.switching scope) b .finished []
  | take (scope : Nat) (hfree : b.holder = none) :
      Transition me b (.taking scope) { b with buffer := { b.buffer with overflow := [] } }
        (.emitting scope b.buffer.overflow) []
  | emptied (scope : Nat) : Transition me b (.emitting scope []) b (.popping scope) []
  | emit (scope : Nat) (x : Tagged α) (rest : List (Tagged α)) (hscope : x.scope = scope) :
      Transition me b (.emitting scope (x :: rest)) b (.emitting scope rest) [.emitted x]
  /-- An entry of another scope is discarded. -/
  | skip (scope : Nat) (x : Tagged α) (rest : List (Tagged α)) (hscope : x.scope ≠ scope) :
      Transition me b (.emitting scope (x :: rest)) b (.emitting scope rest) []
  | leave (scope : Nat) (hempty : b.buffer.queue = []) :
      Transition me b (.popping scope) b .finished []
  | pop (scope : Nat) (x : Tagged α) (rest : List (Tagged α))
      (hqueue : b.buffer.queue = x :: rest) (hscope : x.scope = scope) :
      Transition me b (.popping scope) { b with buffer := { b.buffer with queue := rest } }
        (.handing scope x) []
  /-- An entry of another scope is discarded. -/
  | popOther (scope : Nat) (x : Tagged α) (rest : List (Tagged α))
      (hqueue : b.buffer.queue = x :: rest) (hscope : x.scope ≠ scope) :
      Transition me b (.popping scope) { b with buffer := { b.buffer with queue := rest } }
        (.popping scope) []
  | hand (scope : Nat) (x : Tagged α) :
      Transition me b (.handing scope x) b (.popping scope) [.emitted x]
  | clear (next : Option Nat) :
      Transition me b (.clearing next)
        { b with buffer := { b.buffer with state := .armed 0 } } (.emptying next) []
  | discard (next : Option Nat) (x : Tagged α) (rest : List (Tagged α))
      (hqueue : b.buffer.queue = x :: rest) :
      Transition me b (.emptying next) { b with buffer := { b.buffer with queue := rest } }
        (.emptying next) []
  | discarded (next : Option Nat) (hempty : b.buffer.queue = []) :
      Transition me b (.emptying next) b (.wiping next) []
  | wipe (hfree : b.holder = none) :
      Transition me b (.wiping none) { b with buffer := { b.buffer with overflow := [] } }
        .finished []
  | wipeFor (scope : Nat) (hfree : b.holder = none) :
      Transition me b (.wiping (some scope))
        { b with buffer := { b.buffer with overflow := [] } } (.arming scope) []
  | arm (scope : Nat) :
      Transition me b (.arming scope)
        { b with buffer := { b.buffer with state := .armed scope } } .finished []

variable {me : Nat} {b b' : SharedBuffer α} {p p' : Phase α} {effects : List (Effect α)}

private theorem parts_eq {b₁ b₂ : SharedBuffer α} {p₁ p₂ : Phase α} {e₁ e₂ : List (Effect α)}
    (h : some (b₁, p₁, e₁) = some (b₂, p₂, e₂)) : b₁ = b₂ ∧ p₁ = p₂ ∧ e₁ = e₂ := by
  simpa using h

/-- Every step is in the list. -/
theorem transition_of_step (h : b.step me p = some (b', p', effects)) :
    b.Transition me p b' p' effects := by
  cases p with
  | finding x =>
      obtain ⟨rfl, rfl, rfl⟩ := parts_eq h
      exact .find x
  | checking scope x =>
      rw [step] at h
      split at h
      · rename_i hscope
        obtain ⟨rfl, rfl, rfl⟩ := parts_eq h
        exact .turnAway scope x hscope
      · rename_i hscope
        split at h
        · rename_i hd
          obtain ⟨rfl, rfl, rfl⟩ := parts_eq h
          exact .forward scope x (Decidable.not_not.mp hscope) hd
        · rename_i hd
          obtain ⟨rfl, rfl, rfl⟩ := parts_eq h
          exact .accept scope x (Decidable.not_not.mp hscope) (Bool.eq_false_iff.mpr hd)
  | passing x =>
      obtain ⟨rfl, rfl, rfl⟩ := parts_eq h
      exact .pass x
  | pushing x =>
      rw [step] at h
      split at h
      · rename_i hroom
        obtain ⟨rfl, rfl, rfl⟩ := parts_eq h
        exact .push x hroom
      · rename_i hfull
        obtain ⟨rfl, rfl, rfl⟩ := parts_eq h
        exact .findFull x (Nat.le_of_not_lt hfull)
  | locking x =>
      rw [step] at h
      split at h
      · rename_i hfree
        obtain ⟨rfl, rfl, rfl⟩ := parts_eq h
        exact .lock x hfree
      · cases h
  | evicting x =>
      rw [step] at h
      split at h
      · rename_i hempty
        obtain ⟨rfl, rfl, rfl⟩ := parts_eq h
        exact .unlock x hempty
      · rename_i oldest rest hqueue
        obtain ⟨rfl, rfl, rfl⟩ := parts_eq h
        exact .evict x oldest rest hqueue
  | spilling x oldest =>
      obtain ⟨rfl, rfl, rfl⟩ := parts_eq h
      exact .spill x oldest
  | rechecking scope =>
      rw [step] at h
      split at h
      · rename_i hstate
        obtain ⟨rfl, rfl, rfl⟩ := parts_eq h
        exact .catchUp scope hstate
      · rename_i hstate
        obtain ⟨rfl, rfl, rfl⟩ := parts_eq h
        exact .settle scope hstate
  | marking =>
      rw [step] at h
      split at h
      · rename_i hd
        obtain ⟨rfl, rfl, rfl⟩ := parts_eq h
        exact .findMarked hd
      · rename_i hd
        obtain ⟨rfl, rfl, rfl⟩ := parts_eq h
        exact .mark (Bool.eq_false_iff.mpr hd)
  | switching scope =>
      rw [step] at h
      split at h
      · rename_i hstate
        obtain ⟨rfl, rfl, rfl⟩ := parts_eq h
        exact .switch scope hstate
      · rename_i hstate
        obtain ⟨rfl, rfl, rfl⟩ := parts_eq h
        exact .findSwitched scope hstate
  | taking scope =>
      rw [step] at h
      split at h
      · rename_i hfree
        obtain ⟨rfl, rfl, rfl⟩ := parts_eq h
        exact .take scope hfree
      · cases h
  | emitting scope taken =>
      cases taken with
      | nil =>
          obtain ⟨rfl, rfl, rfl⟩ := parts_eq h
          exact .emptied scope
      | cons x rest =>
          by_cases hscope : x.scope = scope
          · rw [step, if_pos hscope] at h
            obtain ⟨rfl, rfl, rfl⟩ := parts_eq h
            exact .emit scope x rest hscope
          · rw [step, if_neg hscope] at h
            obtain ⟨rfl, rfl, rfl⟩ := parts_eq h
            exact .skip scope x rest hscope
  | popping scope =>
      rw [step] at h
      split at h
      · rename_i hempty
        obtain ⟨rfl, rfl, rfl⟩ := parts_eq h
        exact .leave scope hempty
      · rename_i x rest hqueue
        by_cases hscope : x.scope = scope
        · rw [if_pos hscope] at h
          obtain ⟨rfl, rfl, rfl⟩ := parts_eq h
          exact .pop scope x rest hqueue hscope
        · rw [if_neg hscope] at h
          obtain ⟨rfl, rfl, rfl⟩ := parts_eq h
          exact .popOther scope x rest hqueue hscope
  | handing scope x =>
      obtain ⟨rfl, rfl, rfl⟩ := parts_eq h
      exact .hand scope x
  | clearing next =>
      obtain ⟨rfl, rfl, rfl⟩ := parts_eq h
      exact .clear next
  | emptying next =>
      rw [step] at h
      split at h
      · rename_i hempty
        obtain ⟨rfl, rfl, rfl⟩ := parts_eq h
        exact .discarded next hempty
      · rename_i x rest hqueue
        obtain ⟨rfl, rfl, rfl⟩ := parts_eq h
        exact .discard next x rest hqueue
  | wiping next =>
      cases hfree : b.holder with
      | some other =>
          simp only [step, hfree] at h
          cases h
      | none =>
          simp only [step, hfree] at h
          obtain ⟨rfl, rfl, rfl⟩ := parts_eq h
          cases next with
          | none => exact .wipe hfree
          | some scope => exact .wipeFor scope hfree
  | arming scope =>
      obtain ⟨rfl, rfl, rfl⟩ := parts_eq h
      exact .arm scope
  | finished => cases h

end SharedBuffer

end LogAdmission
