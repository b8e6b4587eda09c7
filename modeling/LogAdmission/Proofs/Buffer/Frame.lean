import LogAdmission.Proofs.Buffer.Emission

/-!
# What buffers leave alone

A change of the outside that the emission of no entry notices can be made before or after
an operation of the buffer, and an operation leaves nothing in the buffer but what was
there and what it was given. The operations of a scope leave the buffer to it.
-/

namespace LogAdmission

variable {α σ : Type}

/-- Emitting an entry of the given kind does not notice a change of the outside. -/
def Blind (emit : α → σ → Outcome × σ) (change : σ → σ) (kind : α → Prop) : Prop :=
  ∀ x, kind x → ∀ s, emit x (change s) = ((emit x s).1, change (emit x s).2)

namespace RecordBuffer

variable {emit : α → σ → Outcome × σ} {change : σ → σ} {kind : α → Prop}

/-- Every entry held back is of the given kind. -/
def All (kind : α → Prop) (b : RecordBuffer α) : Prop :=
  (∀ x ∈ b.overflow, kind x.entry) ∧ ∀ x ∈ b.queue, kind x.entry

theorem emitAll_blind (h : Blind emit change kind) (scope : Nat) (xs : List (Tagged α))
    (hxs : ∀ x ∈ xs, kind x.entry) (s : σ) :
    emitAll emit scope xs (change s) =
      ((emitAll emit scope xs s).1, (emitAll emit scope xs s).2.1,
        change (emitAll emit scope xs s).2.2) := by
  induction xs generalizing s with
  | nil => rfl
  | cons x rest ih =>
      -- an entry of another scope is not emitted; after an abort nothing more is
      have hrest : ∀ y ∈ rest, kind y.entry := fun y hy => hxs y (List.mem_cons_of_mem x hy)
      have hx := h x.entry (hxs x List.mem_cons_self) s
      by_cases hscope : x.scope = scope
      · rcases hc : emit x.entry s with ⟨outcome, s'⟩
        rw [hc] at hx
        cases outcome with
        | aborted => simp [emitAll, hscope, hx, hc]
        | ok => simp [emitAll, hscope, hx, hc, ih hrest s']
        | failed e => simp [emitAll, hscope, hx, hc, ih hrest s']
      · simp [emitAll, hscope, ih hrest s]

/-- What is left after an aborted call was there before. -/
theorem emitAll_subset (emit : α → σ → Outcome × σ) (scope : Nat) (xs : List (Tagged α)) (s : σ) :
    (emitAll emit scope xs s).2.1 ⊆ xs := by
  induction xs generalizing s with
  | nil => exact List.Subset.refl _
  | cons x rest ih =>
      have hrest : ∀ s', (emitAll emit scope rest s').2.1 ⊆ x :: rest := fun s' =>
        List.Subset.trans (ih s') (List.subset_cons_self x rest)
      by_cases hscope : x.scope = scope
      · rcases hc : emit x.entry s with ⟨outcome, s'⟩
        cases outcome with
        | aborted => simp [emitAll, hscope, hc]
        | ok => simpa [emitAll, hscope, hc] using hrest s'
        | failed e => simpa [emitAll, hscope, hc] using hrest s'
      · simpa [emitAll, hscope] using hrest s

theorem flush_blind (h : Blind emit change kind) (scope : Nat) {b : RecordBuffer α}
    (hb : b.All kind) (s : σ) :
    flush emit scope b (change s) =
      ((flush emit scope b s).1, (flush emit scope b s).2.1,
        change (flush emit scope b s).2.2) := by
  have hover := emitAll_blind h scope b.overflow hb.1 s
  rcases he : emitAll emit scope b.overflow s with ⟨finished, rest, s'⟩
  rw [he] at hover
  cases finished with
  | false => simp only [flush, hover, he]
  | true => simp only [flush, hover, he, emitAll_blind h scope b.queue hb.2 s']

theorem All.flush {b : RecordBuffer α} (hb : b.All kind) (emit : α → σ → Outcome × σ)
    (scope : Nat) (s : σ) : (flush emit scope b s).2.1.All kind := by
  unfold RecordBuffer.flush
  rcases emitAll emit scope b.overflow s with ⟨finished, rest, s'⟩
  cases finished with
  | false => exact ⟨nofun, hb.2⟩
  | true =>
      have hsubset := emitAll_subset emit scope b.queue s'
      rcases emitAll emit scope b.queue s' with ⟨finished', rest', s''⟩
      exact ⟨nofun, fun x hx => hb.2 x (hsubset hx)⟩

/-! ## The operations of a scope -/

theorem drainScope_blind (h : Blind emit change kind) (scope : Nat) {b : RecordBuffer α}
    (hb : b.All kind) (s : σ) :
    b.drainScope emit scope (change s) =
      ((b.drainScope emit scope s).1, (b.drainScope emit scope s).2.1,
        change (b.drainScope emit scope s).2.2) := by
  unfold drainScope
  split
  · exact flush_blind (b := { b with state := b.state.mark }) h scope hb s
  · rfl

theorem All.drainScope {b : RecordBuffer α} (hb : b.All kind) (emit : α → σ → Outcome × σ)
    (scope : Nat) (s : σ) : (b.drainScope emit scope s).2.1.All kind := by
  unfold RecordBuffer.drainScope
  split
  · exact All.flush (b := { b with state := b.state.mark }) hb emit scope s
  · exact hb

theorem appendTo_blind (h : Blind emit change kind) (scope : Nat) {x : α} (hx : kind x)
    (b : RecordBuffer α) (s : σ) :
    b.appendTo emit scope x (change s) =
      ((b.appendTo emit scope x s).1, (b.appendTo emit scope x s).2.1,
        change (b.appendTo emit scope x s).2.2) := by
  unfold appendTo
  split
  · rfl
  · split
    · rw [h x hx s]
    · rfl

theorem All.hold {b : RecordBuffer α} (hb : b.All kind) (scope : Nat) {x : α} (hx : kind x) :
    (b.hold ⟨scope, x⟩).All kind := by
  have hlast : ∀ ys : List (Tagged α), (∀ y ∈ ys, kind y.entry) →
      ∀ y ∈ ys ++ [⟨scope, x⟩], kind y.entry := by
    intro ys hys y hy
    rcases List.mem_append.mp hy with hold | hnew
    · exact hys y hold
    · rw [List.mem_singleton.mp hnew]
      exact hx
  unfold RecordBuffer.hold
  split
  · exact ⟨hb.1, hlast b.queue hb.2⟩
  · refine ⟨?_, hlast _ fun y hy => hb.2 y (List.mem_of_mem_drop hy)⟩
    intro y hy
    rcases List.mem_append.mp hy with hold | hspilled
    · exact hb.1 y hold
    · exact hb.2 y (List.mem_of_mem_take hspilled)

theorem All.appendTo {b : RecordBuffer α} (hb : b.All kind) (emit : α → σ → Outcome × σ)
    (scope : Nat) {x : α} (hx : kind x) (s : σ) : (b.appendTo emit scope x s).2.1.All kind := by
  unfold RecordBuffer.appendTo
  split
  · exact hb
  · split
    · exact hb
    · exact hb.hold scope hx

/-! ## The scope -/

theorem state_flush (emit : α → σ → Outcome × σ) (scope : Nat) (b : RecordBuffer α) (s : σ) :
    (flush emit scope b s).2.1.state = b.state := by
  unfold flush
  rcases emitAll emit scope b.overflow s with ⟨finished, rest, s'⟩
  cases finished <;> rfl

theorem scope_drainScope (emit : α → σ → Outcome × σ) (scope : Nat) (b : RecordBuffer α) (s : σ) :
    (b.drainScope emit scope s).2.1.scope = b.scope := by
  unfold drainScope
  split
  · rw [RecordBuffer.scope, state_flush]
    exact StateWord.scope_mark b.state
  · rfl

theorem scope_appendTo (emit : α → σ → Outcome × σ) (scope : Nat) (x : α) (b : RecordBuffer α)
    (s : σ) : (b.appendTo emit scope x s).2.1.scope = b.scope := by
  unfold appendTo
  split
  · rfl
  · split
    · rfl
    · exact scope_hold b ⟨scope, x⟩

end RecordBuffer

end LogAdmission
