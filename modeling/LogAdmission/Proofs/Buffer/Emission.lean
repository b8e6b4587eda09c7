import LogAdmission.Buffer.Basic

/-!
# Emission

What emitting entries in order comes to, and each operation of a buffer in these terms.
A buffer is seen here as its scope, its drained mark and the list of what it holds back
(`Holds`); how that list is divided between queue and overflow does not matter.
-/

namespace LogAdmission

variable {α σ : Type}

/-- What comes of emitting entries in order, up to a call that is aborted. -/
structure Emission (α σ : Type) where
  /-- Whether all calls returned. -/
  finished : Bool
  /-- The entries whose calls were made. -/
  made : List α
  /-- The state of the outside afterwards. -/
  outside : σ

/-- The outside after calls for the given entries. -/
def replay (emit : α → σ → Outcome × σ) (xs : List α) (s : σ) : σ :=
  xs.foldl (fun s x => (emit x s).2) s

/-- Emits entries in order. Errors are ignored; an aborted call is the last one. -/
def emission (emit : α → σ → Outcome × σ) : List α → σ → Emission α σ
  | [], s => ⟨true, [], s⟩
  | x :: rest, s =>
    match emit x s with
    | (.aborted, s) => ⟨false, [x], s⟩
    | (_, s) =>
      let e := emission emit rest s
      ⟨e.finished, x :: e.made, e.outside⟩

namespace Emission

variable {emit : α → σ → Outcome × σ}

theorem emission_cons_aborted {x : α} {s : σ} (rest : List α) (h : (emit x s).1 = .aborted) :
    emission emit (x :: rest) s = ⟨false, [x], (emit x s).2⟩ := by
  rcases hc : emit x s with ⟨outcome, s'⟩
  rw [hc] at h
  subst h
  simp [emission, hc]

theorem emission_cons_of_ne {x : α} {s : σ} (rest : List α) (h : (emit x s).1 ≠ .aborted) :
    emission emit (x :: rest) s =
      ⟨(emission emit rest (emit x s).2).finished, x :: (emission emit rest (emit x s).2).made,
        (emission emit rest (emit x s).2).outside⟩ := by
  rcases hc : emit x s with ⟨outcome, s'⟩
  rw [hc] at h
  cases outcome with
  | aborted => exact absurd rfl h
  | ok => simp [emission, hc]
  | failed e => simp [emission, hc]

/-- The outside is left as by the calls that were made. -/
theorem outside_eq_replay (xs : List α) (s : σ) :
    (emission emit xs s).outside = replay emit (emission emit xs s).made s := by
  induction xs generalizing s with
  | nil => rfl
  | cons x rest ih =>
      by_cases ha : (emit x s).1 = .aborted
      · rw [emission_cons_aborted rest ha]
        rfl
      · rw [emission_cons_of_ne rest ha]
        exact ih (emit x s).2

/-- Only entries given are emitted. -/
theorem mem_of_mem_made {xs : List α} {s : σ} {x : α} (h : x ∈ (emission emit xs s).made) :
    x ∈ xs := by
  induction xs generalizing s with
  | nil => exact h
  | cons y rest ih =>
      by_cases ha : (emit y s).1 = .aborted
      · rw [emission_cons_aborted rest ha] at h
        rw [List.mem_singleton.mp h]
        exact List.mem_cons_self
      · rw [emission_cons_of_ne rest ha] at h
        rcases List.mem_cons.mp h with rfl | hmem
        · exact List.mem_cons_self
        · exact List.mem_cons_of_mem y (ih hmem)

/-- Unless a call is aborted every entry is emitted, once and in order. -/
theorem made_of_finished {xs : List α} {s : σ} (h : (emission emit xs s).finished = true) :
    (emission emit xs s).made = xs := by
  induction xs generalizing s with
  | nil => rfl
  | cons x rest ih =>
      by_cases ha : (emit x s).1 = .aborted
      · rw [emission_cons_aborted rest ha] at h
        exact absurd h Bool.false_ne_true
      · rw [emission_cons_of_ne rest ha] at h ⊢
        rw [ih h]

/-- Emitting two lists one after the other is emitting both together. -/
theorem emission_append (xs ys : List α) (s : σ) :
    emission emit (xs ++ ys) s =
      if (emission emit xs s).finished then
        let e := emission emit ys (emission emit xs s).outside
        ⟨e.finished, xs ++ e.made, e.outside⟩
      else emission emit xs s := by
  induction xs generalizing s with
  | nil => simp [emission]
  | cons x rest ih =>
      by_cases ha : (emit x s).1 = .aborted
      · rw [List.cons_append, emission_cons_aborted _ ha, emission_cons_aborted _ ha]
        simp
      · rw [List.cons_append, emission_cons_of_ne _ ha, emission_cons_of_ne _ ha, ih]
        split <;> simp_all

end Emission

namespace RecordBuffer

open Emission

variable {emit : α → σ → Outcome × σ} {b : RecordBuffer α} {scope : Nat}

/-- A buffer that belongs to a scope and holds back the given entries for it. -/
structure Holds (b : RecordBuffer α) (scope : Nat) (drained : Bool) (pending : List α) :
    Prop where
  scope_eq : b.scope = scope
  drained_eq : b.drained = drained
  pending_eq : b.pending = pending.map (Tagged.mk scope)
  nil_of_drained : drained = true → pending = []

/-- Entries of the scope itself are all emitted; nothing is left if the calls return. -/
theorem emitAll_map (emit : α → σ → Outcome × σ) (scope : Nat) (xs : List α) (s : σ) :
    ∃ rest, emitAll emit scope (xs.map (Tagged.mk scope)) s =
        ((emission emit xs s).finished, rest, (emission emit xs s).outside) ∧
      ((emission emit xs s).finished = true → rest = []) := by
  induction xs generalizing s with
  | nil => exact ⟨[], rfl, fun _ => rfl⟩
  | cons x tail ih =>
      rcases hc : emit x s with ⟨outcome, s'⟩
      cases outcome with
      | aborted =>
          refine ⟨tail.map (Tagged.mk scope), ?_, ?_⟩
          · simp [emitAll, emission, hc]
          · simp [emission, hc]
      | ok =>
          obtain ⟨rest, heq, hnil⟩ := ih s'
          exact ⟨rest, by simp [emitAll, emission, hc, heq], by simpa [emission, hc] using hnil⟩
      | failed e =>
          obtain ⟨rest, heq, hnil⟩ := ih s'
          exact ⟨rest, by simp [emitAll, emission, hc, heq], by simpa [emission, hc] using hnil⟩

/-- A flush emits what the buffer holds back, and empties it if the calls return. -/
theorem flush_eq (emit : α → σ → Outcome × σ) {pending : List α}
    (h : b.pending = pending.map (Tagged.mk scope)) (s : σ) :
    ∃ b', flush emit scope b s =
        ((emission emit pending s).finished, b', (emission emit pending s).outside) ∧
      ((emission emit pending s).finished = true →
        b' = { b with overflow := [], queue := [] }) := by
  -- the overflow is the older part of what is held back, the queue the newer one
  obtain ⟨xs, ys, rfl, hover, hqueue⟩ := List.append_eq_map_iff.mp h
  obtain ⟨rest, heq, -⟩ := emitAll_map emit scope xs s
  rw [emission_append]
  cases hx : (emission emit xs s).finished with
  | false =>
      -- the rest of the overflow is lost, and the queue is not reached
      refine ⟨{ b with overflow := [] }, ?_, ?_⟩
      · simp [flush, ← hover, heq, hx]
      · simp [hx]
  | true =>
      obtain ⟨left, heq', hnil⟩ :=
        emitAll_map emit scope ys (emission emit xs s).outside
      refine ⟨{ b with overflow := [], queue := left }, ?_, ?_⟩
      · simp [flush, ← hover, ← hqueue, heq, hx, heq']
      · intro hy
        rw [hnil (by simpa using hy)]

/-! ## Aborted calls

Emitting ends early only by a call that is aborted, and then that call is the last one. So what
such calls leave behind is what a drain leaves behind that did not finish. -/

section Aborted

variable {P : σ → Prop} (haborts : ∀ x s, (emit x s).1 = .aborted → P (emit x s).2)
include haborts

theorem emitAll_aborted {xs : List (Tagged α)} {s : σ}
    (h : (emitAll emit scope xs s).1 = false) : P (emitAll emit scope xs s).2.2 := by
  induction xs generalizing s with
  | nil => cases h
  | cons x rest ih =>
      by_cases hx : x.scope = scope
      · have hcall := haborts x.entry s
        rcases hc : emit x.entry s with ⟨outcome, s'⟩
        rw [hc] at hcall
        simp only [emitAll, hx, if_true, hc] at h ⊢
        cases outcome with
        | aborted => exact hcall rfl
        | ok => exact ih h
        | failed e => exact ih h
      · simp only [emitAll, hx, if_false] at h ⊢
        exact ih h

theorem flush_aborted {s : σ} (h : (flush emit scope b s).1 = false) :
    P (flush emit scope b s).2.2 := by
  have hover : (emitAll emit scope b.overflow s).1 = false →
      P (emitAll emit scope b.overflow s).2.2 := emitAll_aborted haborts
  rcases ho : emitAll emit scope b.overflow s with ⟨finished, rest, s'⟩
  rw [ho] at hover
  simp only [flush, ho] at h ⊢
  cases finished with
  | false => exact hover rfl
  | true => exact emitAll_aborted haborts h

theorem drainScope_aborted {s : σ} (h : (b.drainScope emit scope s).1 = false) :
    P (b.drainScope emit scope s).2.2 := by
  unfold drainScope at h ⊢
  split at h
  · rename_i harmed
    rw [if_pos harmed]
    exact flush_aborted haborts h
  · cases h

end Aborted

/-! ## Operations -/

theorem holds_ofCapacity (capacity : Nat) (hpos : 0 < capacity) :
    (ofCapacity capacity hpos : RecordBuffer α).Holds 0 false [] :=
  ⟨StateWord.scope_armed StateWord.scopeBound_pos, StateWord.drained_armed 0, rfl, fun _ => rfl⟩

theorem holds_reset (b : RecordBuffer α) : b.reset.Holds 0 false [] :=
  ⟨StateWord.scope_armed StateWord.scopeBound_pos, StateWord.drained_armed 0, rfl, fun _ => rfl⟩

theorem holds_arm (b : RecordBuffer α) (h : scope < StateWord.scopeBound) :
    (b.arm scope).Holds scope false [] :=
  ⟨StateWord.scope_armed h, StateWord.drained_armed scope, rfl, fun _ => rfl⟩

theorem scope_hold (b : RecordBuffer α) (x : Tagged α) : (b.hold x).scope = b.scope := by
  unfold hold
  split <;> rfl

theorem drained_hold (b : RecordBuffer α) (x : Tagged α) : (b.hold x).drained = b.drained := by
  unfold hold
  split <;> rfl

theorem Holds.hold {pending : List α} (h : b.Holds scope false pending) (x : α) :
    (b.hold ⟨scope, x⟩).Holds scope false (pending ++ [x]) where
  scope_eq := by rw [scope_hold, h.scope_eq]
  drained_eq := by rw [drained_hold, h.drained_eq]
  pending_eq := by rw [pending_hold, h.pending_eq]; simp
  nil_of_drained := fun hd => absurd hd Bool.false_ne_true

theorem appendTo_of_ne (x : α) (s : σ) (h : b.scope ≠ scope) :
    b.appendTo emit scope x s = (.ok, b, s) := by
  rw [appendTo, if_pos h]

theorem Holds.appendTo_armed {pending : List α} (h : b.Holds scope false pending) (x : α)
    (s : σ) : b.appendTo emit scope x s = (.ok, b.hold ⟨scope, x⟩, s) := by
  rw [appendTo, if_neg (not_not_intro h.scope_eq), h.drained_eq, if_neg Bool.false_ne_true]

theorem Holds.appendTo_drained {pending : List α} (h : b.Holds scope true pending) (x : α)
    (s : σ) : b.appendTo emit scope x s = ((emit x s).1, b, (emit x s).2) := by
  rw [appendTo, if_neg (not_not_intro h.scope_eq), h.drained_eq, if_pos rfl]

theorem drain_of_drained (s : σ) (h : b.drained = true) : b.drain emit s = (true, b, s) := by
  rw [drain, if_pos h]

/-- The first drain emits what the buffer holds back. -/
theorem Holds.drain_armed (emit : α → σ → Outcome × σ) {pending : List α}
    (h : b.Holds scope false pending) (s : σ) :
    ∃ b', b.drain emit s =
        ((emission emit pending s).finished, b', (emission emit pending s).outside) ∧
      ((emission emit pending s).finished = true →
        b' = { b with state := b.state.mark, overflow := [], queue := [] }) := by
  obtain ⟨b', heq, hb'⟩ := flush_eq (b := { b with state := b.state.mark }) emit h.pending_eq s
  refine ⟨b', ?_, hb'⟩
  rw [drain, h.drained_eq, if_neg Bool.false_ne_true, h.scope_eq]
  exact heq

/-- A drained buffer holds nothing back, and keeps its scope. -/
theorem Holds.marked {pending : List α} {drained : Bool} (h : b.Holds scope drained pending) :
    ({ b with state := b.state.mark, overflow := [], queue := [] } : RecordBuffer α).Holds
      scope true [] where
  scope_eq := (StateWord.scope_mark _).trans h.scope_eq
  drained_eq := StateWord.drained_mark _
  pending_eq := rfl
  nil_of_drained := fun _ => rfl

/-- To drain a scope is to drain the buffer, if it belongs to that scope. -/
theorem drainScope_eq (emit : α → σ → Outcome × σ) (b : RecordBuffer α) (s : σ)
    (hfits : scope < StateWord.scopeBound) :
    b.drainScope emit scope s = if b.scope = scope then b.drain emit s else (true, b, s) := by
  unfold drainScope drain
  by_cases hs : b.scope = scope
  · cases hd : b.drained with
    | false =>
        rw [if_pos ((StateWord.eq_armed_iff hfits).mpr ⟨hs, hd⟩), if_pos hs,
          if_neg Bool.false_ne_true, hs]
    | true =>
        have hne : b.state ≠ .armed scope := fun heq =>
          Bool.false_ne_true (((StateWord.eq_armed_iff hfits).mp heq).2.symm.trans hd)
        rw [if_neg hne, if_pos hs, if_pos rfl]
  · have hne : b.state ≠ .armed scope := fun heq =>
      hs ((StateWord.eq_armed_iff hfits).mp heq).1
    rw [if_neg hne, if_neg hs]

end RecordBuffer

end LogAdmission
