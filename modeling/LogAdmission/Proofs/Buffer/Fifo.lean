import LogAdmission.Proofs.Buffer.Emission
import LogAdmission.Proofs.Runs

/-!
# Buffers lose nothing and keep the order

A buffer under any sequence of calls behaves like one without bounds (`Deferral`), which
is no more than a scope, a drained mark and a list: whatever is held back is emitted by
the first drain, each entry once and in the order of arrival, or discarded by a reset.
The queue stays within its capacity, and only a full queue spills (`Mirrors`).
-/

namespace LogAdmission

variable {α σ : Type}

/-- A call on a buffer. -/
inductive BufferCall (α : Type) where
  | append (x : α)
  | appendTo (scope : Nat) (x : α)
  | drain
  | drainScope (scope : Nat)
  | reset
  | arm (scope : Nat)

/-- The outcome of a call that ignores errors. -/
def Outcome.ofFinished (finished : Bool) : Outcome :=
  if finished then .ok else .aborted

namespace BufferCall

/-- Whether the scope that a call names fits into a state word. -/
def Fits : BufferCall α → Prop
  | append _ | drain | reset => True
  | appendTo scope _ | drainScope scope | arm scope => scope < StateWord.scopeBound

/-- Makes a call on a buffer. -/
def onBuffer (emit : α → σ → Outcome × σ) :
    BufferCall α → RecordBuffer α × σ → Outcome × (RecordBuffer α × σ)
  | append x, (b, s) => b.append emit x s
  | appendTo scope x, (b, s) => b.appendTo emit scope x s
  | drain, (b, s) =>
    let (finished, b, s) := b.drain emit s
    (.ofFinished finished, b, s)
  | drainScope scope, (b, s) =>
    let (finished, b, s) := b.drainScope emit scope s
    (.ofFinished finished, b, s)
  | reset, (b, s) => (.ok, b.reset, s)
  | arm scope, (b, s) => (.ok, b.arm scope, s)

end BufferCall

/-! ## The unbounded buffer -/

/-- A buffer without bounds, with what it has emitted so far and the outside. -/
structure Deferral (α σ : Type) where
  scope : Nat := 0
  drained : Bool := false
  pending : List α := []
  emitted : List α := []
  outside : σ

namespace Deferral

variable (emit : α → σ → Outcome × σ)

/-- Adds an entry of the owning scope at the end, or emits it at once after the drain.
Entries of other scopes are dropped. -/
def accept (scope : Nat) (x : α) (d : Deferral α σ) : Outcome × Deferral α σ :=
  if d.scope ≠ scope then (.ok, d)
  else if d.drained then
    ((emit x d.outside).1,
      { d with emitted := d.emitted ++ [x], outside := (emit x d.outside).2 })
  else (.ok, { d with pending := d.pending ++ [x] })

/-- Emits everything in order, the first time. Errors do not matter; a call that is aborted
is the last one. -/
def discharge (d : Deferral α σ) : Outcome × Deferral α σ :=
  if d.drained then (.ok, d)
  else
    let e := emission emit d.pending d.outside
    if e.finished then
      (.ok,
        { d with
          drained := true
          pending := []
          emitted := d.emitted ++ d.pending
          outside := replay emit d.pending d.outside })
    else
      (.aborted,
        { d with
          drained := true
          pending := []
          emitted := d.emitted ++ e.made
          outside := e.outside })

/-- Discards everything and changes hands. -/
def handTo (scope : Nat) (d : Deferral α σ) : Deferral α σ :=
  { d with scope := scope, drained := false, pending := [] }

end Deferral

/-- Makes a call on a buffer without bounds. -/
def BufferCall.onDeferral (emit : α → σ → Outcome × σ) :
    BufferCall α → Deferral α σ → Outcome × Deferral α σ
  | append x, d => d.accept emit d.scope x
  | appendTo scope x, d => d.accept emit scope x
  | drain, d => d.discharge emit
  | drainScope scope, d => if d.scope = scope then d.discharge emit else (.ok, d)
  | reset, d => (.ok, d.handTo 0)
  | arm scope, d => (.ok, d.handTo scope)

/-- A buffer of the given capacity that stands for a buffer without bounds. -/
structure Mirrors (capacity : Nat) (b : RecordBuffer α) (d : Deferral α σ) : Prop where
  capacity_eq : b.capacity = capacity
  scope_eq : b.scope = d.scope
  drained_eq : b.drained = d.drained
  pending_eq : b.overflow ++ b.queue = d.pending.map (Tagged.mk d.scope)
  len_eq : b.len = d.pending.length
  queue_le : b.queue.length ≤ capacity
  full_of_overflow : b.overflow ≠ [] → b.queue.length = capacity ∧ b.drained = false
  empty_of_drained : b.drained = true → b.overflow = [] ∧ b.queue = []

/-! ## The shape of a buffer -/

namespace RecordBuffer

/-- A buffer whose queue is within its capacity and, while it has an overflow, full. -/
structure Shaped (capacity : Nat) (b : RecordBuffer α) : Prop where
  capacity_eq : b.capacity = capacity
  queue_le : b.queue.length ≤ capacity
  full_of_overflow : b.overflow ≠ [] → b.queue.length = capacity

theorem Shaped.emptied {capacity : Nat} {b b' : RecordBuffer α} (h : b.Shaped capacity)
    (hcap : b'.capacity = b.capacity) (hover : b'.overflow = []) (hqueue : b'.queue = []) :
    b'.Shaped capacity where
  capacity_eq := hcap.trans h.capacity_eq
  queue_le := by simp [hqueue]
  full_of_overflow := fun hne => absurd hover hne

theorem Shaped.hold {capacity : Nat} {b : RecordBuffer α} (h : b.Shaped capacity)
    (x : Tagged α) : (b.hold x).Shaped capacity := by
  have hpos := b.capacity_pos
  have hcap := h.capacity_eq
  have hle := h.queue_le
  unfold RecordBuffer.hold
  split
  · rename_i hroom
    -- with room in the queue there is no overflow yet
    refine ⟨hcap, ?_, ?_⟩
    · simp only [List.length_append, List.length_singleton]
      omega
    · intro hne
      have := h.full_of_overflow hne
      omega
  · rename_i hfull
    have hlen : (b.queue.drop 1 ++ [x]).length = capacity := by
      simp only [List.length_append, List.length_drop, List.length_singleton]
      omega
    exact ⟨hcap, Nat.le_of_eq hlen, fun _ => hlen⟩

end RecordBuffer

open RecordBuffer

/-- The relation that every call restores. -/
structure Tracks (capacity : Nat) (b : RecordBuffer α) (d : Deferral α σ) : Prop where
  shaped : b.Shaped capacity
  holds : b.Holds d.scope d.drained d.pending

namespace Tracks

variable {emit : α → σ → Outcome × σ} {capacity : Nat} {b : RecordBuffer α} {d : Deferral α σ}

theorem mirrors (h : Tracks capacity b d) : Mirrors capacity b d where
  capacity_eq := h.shaped.capacity_eq
  scope_eq := h.holds.scope_eq
  drained_eq := h.holds.drained_eq
  pending_eq := h.holds.pending_eq
  len_eq := by rw [← length_pending, h.holds.pending_eq, List.length_map]
  queue_le := h.shaped.queue_le
  full_of_overflow := by
    intro hne
    refine ⟨h.shaped.full_of_overflow hne, ?_⟩
    -- a drained buffer would hold nothing, and so would have no overflow
    cases hd : b.drained with
    | false => rfl
    | true =>
        have hnil := h.holds.nil_of_drained (h.holds.drained_eq ▸ hd)
        have hpend := h.holds.pending_eq
        rw [hnil] at hpend
        exact absurd (List.append_eq_nil_iff.mp hpend).1 hne
  empty_of_drained := by
    intro hd
    have hnil := h.holds.nil_of_drained (h.holds.drained_eq ▸ hd)
    have hpend := h.holds.pending_eq
    rw [hnil] at hpend
    exact List.append_eq_nil_iff.mp hpend

/-- What a call must bring about: the same outcome and the same outside, and buffers that
are related again unless the call is aborted. -/
def Kept (capacity : Nat) (real : Outcome × (RecordBuffer α × σ))
    (ideal : Outcome × Deferral α σ) : Prop :=
  real.1 = ideal.1 ∧ real.2.2 = ideal.2.outside ∧
    (real.1 ≠ .aborted → Tracks capacity real.2.1 ideal.2)

theorem appendTo (h : Tracks capacity b d) (scope : Nat) (x : α) :
    Kept capacity (b.appendTo emit scope x d.outside) (d.accept emit scope x) := by
  unfold Deferral.accept
  by_cases hs : d.scope = scope
  · subst hs
    rw [if_neg (not_not_intro rfl)]
    have hh := h.holds
    cases hd : d.drained with
    | false =>
        rw [hd] at hh
        rw [hh.appendTo_armed, if_neg Bool.false_ne_true]
        refine ⟨rfl, rfl, fun _ => ⟨h.shaped.hold _, ?_⟩⟩
        simpa [hd] using hh.hold x
    | true =>
        rw [hd] at hh
        rw [hh.appendTo_drained, if_pos rfl]
        exact ⟨rfl, rfl, fun _ => ⟨h.shaped, by simpa [hd] using hh⟩⟩
  · rw [appendTo_of_ne x d.outside (by rw [h.holds.scope_eq]; exact hs), if_pos hs]
    exact ⟨rfl, rfl, fun _ => h⟩

theorem drain (h : Tracks capacity b d) :
    Kept capacity
      (.ofFinished (b.drain emit d.outside).1, (b.drain emit d.outside).2.1,
        (b.drain emit d.outside).2.2)
      (d.discharge emit) := by
  have hh := h.holds
  unfold Deferral.discharge
  cases hd : d.drained with
  | true =>
      rw [drain_of_drained _ (hh.drained_eq.trans hd), if_pos rfl]
      exact ⟨rfl, rfl, fun _ => h⟩
  | false =>
      rw [hd] at hh
      obtain ⟨b', heq, hb'⟩ := hh.drain_armed emit d.outside
      rw [heq, if_neg Bool.false_ne_true]
      cases hf : (emission emit d.pending d.outside).finished with
      | false =>
          simp only [hf]
          exact ⟨rfl, rfl, fun hne => absurd rfl hne⟩
      | true =>
          -- no call was aborted, so that every pending entry was emitted
          have hside : (emission emit d.pending d.outside).outside =
              replay emit d.pending d.outside := by
            rw [Emission.outside_eq_replay, Emission.made_of_finished hf]
          simp only [hf, hside, if_true]
          rw [hb' hf]
          exact ⟨rfl, rfl, fun _ => ⟨h.shaped.emptied rfl rfl rfl, hh.marked⟩⟩

theorem drainScope (h : Tracks capacity b d) {scope : Nat}
    (hfits : scope < StateWord.scopeBound) :
    Kept capacity
      (.ofFinished (b.drainScope emit scope d.outside).1, (b.drainScope emit scope d.outside).2.1,
        (b.drainScope emit scope d.outside).2.2)
      (if d.scope = scope then d.discharge emit else (.ok, d)) := by
  rw [drainScope_eq emit b d.outside hfits, h.holds.scope_eq]
  by_cases hs : d.scope = scope
  · rw [if_pos hs, if_pos hs]
    exact h.drain
  · rw [if_neg hs, if_neg hs]
    exact ⟨rfl, rfl, fun _ => h⟩

theorem reset (h : Tracks capacity b d) : Tracks capacity b.reset (d.handTo 0) :=
  ⟨h.shaped.emptied rfl rfl rfl, holds_reset b⟩

theorem arm (h : Tracks capacity b d) {scope : Nat} (hfits : scope < StateWord.scopeBound) :
    Tracks capacity (b.arm scope) (d.handTo scope) :=
  ⟨h.shaped.emptied rfl rfl rfl, holds_arm b hfits⟩

/-- Every call restores the relation. -/
theorem onBuffer (emit : α → σ → Outcome × σ) (h : Tracks capacity b d) (call : BufferCall α)
    (hfits : call.Fits) :
    Kept capacity (call.onBuffer emit (b, d.outside)) (call.onDeferral emit d) := by
  cases call with
  | append x =>
      have hscope : b.append emit x d.outside = b.appendTo emit d.scope x d.outside := by
        rw [append, h.holds.scope_eq]
      simp only [BufferCall.onBuffer, BufferCall.onDeferral, hscope]
      exact h.appendTo d.scope x
  | appendTo scope x => exact h.appendTo scope x
  | drain => exact h.drain
  | drainScope scope => exact h.drainScope hfits
  | reset => exact ⟨rfl, rfl, fun _ => h.reset⟩
  | arm scope => exact ⟨rfl, rfl, fun _ => h.arm hfits⟩

end Tracks

theorem replay_append (emit : α → σ → Outcome × σ) (xs ys : List α) (s : σ) :
    replay emit (xs ++ ys) s = replay emit ys (replay emit xs s) :=
  List.foldl_append

/-- The outside of an unbounded buffer is what its emissions have made of it. -/
theorem BufferCall.onDeferral_replay {emit : α → σ → Outcome × σ} {s : σ} (call : BufferCall α)
    (d : Deferral α σ) (h : d.outside = replay emit d.emitted s) :
    (call.onDeferral emit d).2.outside = replay emit (call.onDeferral emit d).2.emitted s := by
  have haccept : ∀ scope x,
      (d.accept emit scope x).2.outside = replay emit (d.accept emit scope x).2.emitted s := by
    intro scope x
    unfold Deferral.accept
    split
    · exact h
    · split
      · rw [replay_append, ← h]
        rfl
      · exact h
  have hdischarge :
      (d.discharge emit).2.outside = replay emit (d.discharge emit).2.emitted s := by
    unfold Deferral.discharge
    split
    · exact h
    · simp only []
      split
      · rw [replay_append, ← h]
      · rw [replay_append, ← h]
        exact Emission.outside_eq_replay d.pending d.outside
  cases call with
  | append x => exact haccept d.scope x
  | appendTo scope x => exact haccept scope x
  | drain => exact hdischarge
  | drainScope scope =>
      simp only [BufferCall.onDeferral]
      split
      · exact hdischarge
      · exact h
  | reset => exact h
  | arm scope => exact h

/-- **A buffer is a lossless queue with one drain.** Under any calls, starting from a new
buffer, the outcomes are those of a buffer without bounds, the outside is what the
emissions of that buffer make of it, and the two mirror each other unless a handler
aborted a call. -/
theorem history_lossless (emit : α → σ → Outcome × σ) (capacity : Nat) (hpos : 0 < capacity)
    (calls : List (BufferCall α)) (hfits : ∀ call ∈ calls, call.Fits) (s : σ) :
    let real := performAll (BufferCall.onBuffer emit) calls (ofCapacity capacity hpos, s)
    let ideal := performAll (BufferCall.onDeferral emit) calls { outside := s }
    real.1 = ideal.1 ∧ real.2.2 = replay emit ideal.2.emitted s ∧
      (.aborted ∉ real.1 → Mirrors capacity real.2.1 ideal.2) := by
  intro real ideal
  let R : List (BufferCall α) → RecordBuffer α × σ → Deferral α σ → Prop := fun rest st d =>
    (∀ call ∈ rest, call.Fits) ∧ st.2 = d.outside ∧ Tracks capacity st.1 d
  have hstart : R calls (ofCapacity capacity hpos, s) { outside := s } :=
    ⟨hfits, rfl, ⟨rfl, Nat.zero_le _, fun hne => absurd rfl hne⟩, holds_ofCapacity capacity hpos⟩
  have hstep : ∀ {call rest st d}, R (call :: rest) st d →
      (call.onBuffer emit st).1 = (call.onDeferral emit d).1 ∧
        (call.onBuffer emit st).2.2 = (call.onDeferral emit d).2.outside ∧
        ((call.onBuffer emit st).1 ≠ .aborted →
          R rest (call.onBuffer emit st).2 (call.onDeferral emit d).2) := by
    rintro call rest ⟨b, s'⟩ d ⟨hf, rfl, htracks⟩
    obtain ⟨hout, hside, hkept⟩ :=
      htracks.onBuffer emit call (hf call List.mem_cons_self)
    exact ⟨hout, hside, fun hne =>
      ⟨fun c hc => hf c (List.mem_cons_of_mem _ hc), hside, hkept hne⟩⟩
  obtain ⟨hout, hside, hrel⟩ := performAll_simulates
    (V := fun (st : RecordBuffer α × σ) (d : Deferral α σ) => st.2 = d.outside)
    (fun h => h.2.1) hstep calls hstart
  have hreplay : ideal.2.outside = replay emit ideal.2.emitted s :=
    performAll_preserves (P := fun d : Deferral α σ => d.outside = replay emit d.emitted s)
      (fun call _ d => call.onDeferral_replay d) rfl
  exact ⟨hout, hside.trans hreplay, fun hno => (hrel hno).2.2.mirrors⟩

/-- Five entries through a queue of two places, the second of which fails, then a scope that
is taken over by another one. -/
theorem history_lossless_spill :
    let emit : Nat → List Nat → Outcome × List Nat := fun x log =>
      (if x = 2 then .failed .format else .ok, log ++ [x])
    let calls : List (BufferCall Nat) :=
      [.append 1, .append 2, .append 3, .append 4, .append 5, .drain, .append 6, .drain,
        .arm 7, .appendTo 7 8, .appendTo 9 10, .drainScope 9, .arm 9, .appendTo 9 2,
        .drainScope 9, .appendTo 9 2]
    let real := performAll (BufferCall.onBuffer emit) calls (ofCapacity 2 Nat.two_pos, [])
    (∀ call ∈ calls, call.Fits) ∧ real.2.2 = [1, 2, 3, 4, 5, 6, 2, 2] ∧
      real.1 = List.replicate 15 .ok ++ [.failed .format] := by
  intro emit calls real
  have hfits : ∀ call ∈ calls, call.Fits := by
    simp [calls, BufferCall.Fits, StateWord.scopeBound]
  obtain ⟨hout, hside, -⟩ := history_lossless emit 2 Nat.two_pos calls hfits []
  exact ⟨hfits, hside.trans (by decide), hout.trans (by decide)⟩

end LogAdmission
