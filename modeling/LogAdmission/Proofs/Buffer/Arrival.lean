import LogAdmission.Proofs.Buffer.Order

/-!
# The order of arrival

When the one caller that appends to a buffer and the callers that drain it overlap freely,
the entries do not always reach their handlers in the order of arrival.
Once a drain has set its mark, an append hands over its entry at once and may overtake
entries that the drain has yet to emit; and it may spill an entry into the overflow list when
the drain has taken that already. The order is kept caller by caller (`InTurn`), and as a
whole if no append goes on while another caller flushes (`InLine`).
-/

namespace LogAdmission

variable {α : Type}

namespace Phase

/-- A phase of a flush that has taken the overflow list. -/
def HasTaken : Phase α → Prop
  | emitting _ _ | popping _ | handing _ _ => True
  | _ => False

/-- A phase in which a call holds the lock of the overflow list. -/
def Locks : Phase α → Prop
  | evicting _ | spilling _ _ => True
  | _ => False

/-- The entries that a flush has taken out of the buffer and is about to hand over. -/
def taken : Phase α → List α
  | emitting _ taken => taken.map (·.entry)
  | handing _ x => [x.entry]
  | _ => []

theorem taken_of_not_flushes {p : Phase α} (h : ¬ p.Flushes) : p.taken = [] := by
  cases p with
  | emitting | handing => exact absurd trivial h
  | _ => rfl

theorem Flushes.delivers {p : Phase α} (h : p.Flushes) : p.Delivers := by
  cases p with
  | taking | emitting | popping | handing => trivial
  | _ => exact absurd h id

/-- A flush comes for the queue. -/
theorem Flushes.sweeps {p : Phase α} (h : p.Flushes) : p.ComesForQueue := by
  cases p with
  | taking | emitting | popping | handing => trivial
  | _ => exact absurd h id

theorem ComesForOverflow.queue {p : Phase α} (h : p.ComesForOverflow) : p.ComesForQueue := by
  cases p with
  | pushing | locking | evicting | spilling | rechecking | taking => trivial
  | _ => exact absurd h id

theorem ComesForQueue.appends_or_flushes {p : Phase α} (h : p.ComesForQueue) :
    p.Appends ∨ p.Flushes := by
  cases p with
  | pushing | locking | evicting | spilling | rechecking => exact .inl trivial
  | taking | emitting | popping | handing => exact .inr trivial
  | _ => exact absurd h id

theorem HasTaken.not_appends {p : Phase α} (h : p.HasTaken) : ¬ p.Appends := by
  cases p with
  | emitting | popping | handing => exact id
  | _ => exact absurd h id

theorem HasTaken.flushes {p : Phase α} (h : p.HasTaken) : p.Flushes := by
  cases p with
  | emitting | popping | handing => trivial
  | _ => exact absurd h id

theorem locks_of_spilled {p : Phase α} (h : p.spilled ≠ []) : p.Locks := by
  cases p with
  | spilling => trivial
  | _ => exact absurd rfl h

end Phase

namespace SharedBuffer

open Phase

variable {me : Nat} {b b' : SharedBuffer α} {p p' : Phase α} {effects : List (Effect α)}
  {s w : List α}

/-- The caller that has taken the lock holds it. -/
theorem Transition.holder_of_locks (h : b.Transition me p b' p' effects)
    (hlock : p.Locks → b.holder = some me) (hp' : p'.Locks) : b'.holder = some me := by
  cases h with
  | lock => rfl
  | evict => exact hlock trivial
  | _ => exact absurd hp' id

/-- Nobody else takes it or gives it up. -/
theorem Transition.holder_of_other (h : b.Transition me p b' p' effects) {other : Nat}
    (hheld : b.holder = some other) (hp : ¬ p.Locks) : b'.holder = some other := by
  cases h with
  | lock x hfree => exact absurd (hheld.symm.trans hfree) nofun
  | unlock | spill => exact absurd trivial hp
  | _ => exact hheld

/-- A flush leaves the overflow list empty when it takes it. -/
theorem Transition.cleared (h : b.Transition me p b' p' effects) (hp' : p'.HasTaken) :
    (b.holder = none ∧ b'.buffer.overflow = []) ∨
      (p.HasTaken ∧ b'.buffer.overflow = b.buffer.overflow) := by
  cases h with
  | take scope hfree => exact .inl ⟨hfree, rfl⟩
  | emptied | emit | skip | pop | popOther | hand => exact .inr ⟨trivial, rfl⟩
  | _ => exact absurd hp' id

/-- A call that neither appends nor flushes and finds the buffer drained ends at once. -/
theorem Transition.of_other (h : b.Transition me p b' p' effects) (hp : p.Plain)
    (happ : ¬ p.Appends) (hflush : ¬ p.Flushes) (hd : b.buffer.drained = true) :
    b' = b ∧ p' = .finished ∧ effects = [] := by
  cases h with
  | findMarked => exact ⟨rfl, rfl, rfl⟩
  | mark hdrained => exact absurd (hd.symm.trans hdrained) nofun
  | switch | findSwitched | clear | discard | discarded | wipe | wipeFor | arm =>
      exact absurd hp id
  | find | turnAway | forward | accept | pass | push | findFull | lock | unlock | evict | spill
  | catchUp | settle => exact absurd trivial happ
  | take | emptied | emit | skip | leave | pop | popOther | hand => exact absurd trivial hflush

/-- A step keeps all entries in line: those handed over, those in the hands of a flush and
the others. -/
theorem Transition.line_eq (h : b.Transition me p b' p' effects) (hb : b.Plain) (hp : p.Plain)
    (hs : p.Appends → s = [])
    (hpass : ∀ x, p = .passing x → b.buffer.overflow = [] ∧ b.buffer.queue = [])
    (hclear : p.HasTaken → b.buffer.overflow = [] ∧ s = []) :
    effects.filterMap Effect.entry? ++ p'.taken ++ b'.line (p'.spilled ++ s) (p'.waiting ++ w) =
      p.taken ++ b.line (p.spilled ++ s) (p.waiting ++ w) := by
  cases h with
  | turnAway scope x hscope =>
      obtain rfl : scope = 0 := hp
      exact absurd hb.scope_eq hscope
  | pass x =>
      obtain ⟨hover, hqueue⟩ := hpass x rfl
      obtain rfl := hs trivial
      simp [line, row, waiting, spilled, taken, hover, hqueue, Effect.entry?]
  | push x hroom => simp [line, row, waiting, spilled, taken]
  | evict x oldest rest hqueue =>
      obtain rfl := hs trivial
      simp [line, row, waiting, spilled, taken, hqueue]
  | spill x oldest =>
      obtain rfl := hs trivial
      simp [line, row, waiting, spilled, taken]
  | take scope hfree => simp [line, row, waiting, spilled, taken]
  | emit scope x rest hscope =>
      simp [line, row, waiting, spilled, taken, Effect.entry?]
  | skip scope x rest hscope =>
      exact absurd ((hp.2 x List.mem_cons_self).trans hp.1.symm) hscope
  | pop scope x rest hqueue hscope =>
      obtain ⟨hover, rfl⟩ := hclear trivial
      simp [line, row, waiting, spilled, taken, hover, hqueue]
  | popOther scope x rest hqueue hscope =>
      obtain rfl : scope = 0 := hp
      exact absurd (hb.queue x (hqueue ▸ List.mem_cons_self)) hscope
  | hand scope x =>
      simp [line, row, waiting, spilled, taken, Effect.entry?]
  | mark hdrained => simp [line, row, waiting, spilled, taken, Effect.entry?]
  | switch | findSwitched | clear | discard | discarded | wipe | wipeFor | arm =>
      exact absurd hp id
  | _ => rfl

end SharedBuffer

namespace Crew

open SharedBuffer

variable {entries : List α} {c c' : Crew α} {i : Nat} {p p' : Phase α} {later : List (Phase α)}
  {shared : SharedBuffer α} {effects : List (Effect α)}

/-- Some caller other than the first is in the middle of a flush. -/
def FlushBeside (c : Crew α) : Prop :=
  ∃ own ∈ c.callers.tail, ∃ p ∈ own.head?, p.Flushes

/-- Along the schedule, the first caller takes no step while another one flushes. -/
def Apart : Crew α → List Nat → Prop
  | _, [] => True
  | c, i :: rest => (i = 0 → ¬ c.FlushBeside) ∧ Apart (c.step i) rest

instance (c : Crew α) : Decidable c.FlushBeside :=
  inferInstanceAs (Decidable (∃ own ∈ c.callers.tail, ∃ p ∈ own.head?, p.Flushes))

instance decidableApart : (c : Crew α) → (schedule : List Nat) → Decidable (c.Apart schedule)
  | _, [] => isTrue trivial
  | c, i :: rest =>
    have := decidableApart (c.step i) rest
    inferInstanceAs (Decidable (_ ∧ _))

theorem flushBeside_of_getElem? (hzero : i ≠ 0) (hi : c.callers[i]? = some (p :: later))
    (hp : p.Flushes) : c.FlushBeside := by
  obtain ⟨k, rfl⟩ := Nat.exists_eq_succ_of_ne_zero hzero
  have htail : c.callers.tail[k]? = some (p :: later) := List.getElem?_tail.trans hi
  exact ⟨p :: later, List.mem_of_getElem? htail, p, rfl, hp⟩

/-- What the entries of one caller keep while it takes no step beside a flush of another. -/
structure InLine (entries : List α) (c : Crew α) : Prop where
  manned : c.Manned
  overflow_swept : c.shared.buffer.drained = true → c.shared.buffer.overflow ≠ [] →
    c.HasCaller Phase.ComesForOverflow
  queue_swept : c.shared.buffer.drained = true → c.shared.buffer.queue ≠ [] →
    c.HasCaller Phase.ComesForQueue
  locked : ∀ (i : Nat) (p : Phase α) (later : List (Phase α)),
    c.callers[i]? = some (p :: later) → p.Locks → c.shared.holder = some i
  unmarked : c.shared.buffer.drained = false →
    ∀ (i : Nat) (p : Phase α) (later : List (Phase α)),
      c.callers[i]? = some (p :: later) → ¬ p.Delivers
  /-- At most one caller flushes. -/
  alone : ∀ (i j : Nat) (p q : Phase α) (later rest : List (Phase α)),
    c.callers[i]? = some (p :: later) → c.callers[j]? = some (q :: rest) →
      p.Flushes → q.Flushes → i = j
  cleared : ∀ (i : Nat) (p : Phase α) (later : List (Phase α)),
    c.callers[i]? = some (p :: later) → p.HasTaken →
      c.shared.buffer.overflow = [] ∧ c.spilled = []
  idle : (∀ (i : Nat) (p : Phase α) (later : List (Phase α)),
    c.callers[i]? = some (p :: later) → ¬ p.Flushes) →
      c.emitted ++ c.shared.line c.spilled c.waiting = entries
  busy : ∀ (i : Nat) (p : Phase α) (later : List (Phase α)),
    c.callers[i]? = some (p :: later) → p.Flushes →
      c.emitted ++ (p.taken ++ c.shared.line c.spilled c.waiting) = entries

/-- While nobody holds the lock, no entry is on its way to the overflow list. -/
theorem InLine.spilled_eq (h : c.InLine entries) (hfree : c.shared.holder = none) :
    c.spilled = [] := by
  cases hown : c.callers[0]? with
  | none => rw [spilled, hown]; rfl
  | some own =>
      rw [spilled, hown, Option.getD_some, List.flatMap_eq_nil_iff]
      intro q hq
      apply Classical.byContradiction
      intro hne
      cases own with
      | nil => cases hq
      | cons p later =>
          rcases List.mem_cons.mp hq with rfl | hq
          · have hheld := h.locked 0 q later hown (Phase.locks_of_spilled hne)
            exact Option.some_ne_none 0 (hheld.symm.trans hfree)
          · rcases h.manned.later 0 p later hown q hq with ⟨-, x, rfl⟩ | rfl
            · exact hne rfl
            · exact hne rfl

/-- Nothing changes when a caller that does not sweep the buffer turns to a call that neither
delivers nor locks. -/
theorem InLine.still (h : c.InLine entries) (hi : c.callers[i]? = some (p :: later))
    {own : List (Phase α)} (hmanned : (c.moved i own c.shared []).Manned)
    (hsweep : ¬ p.ComesForQueue)
    (hown : ∀ q ∈ own.head?, ¬ q.Delivers ∧ ¬ q.Locks)
    (hw : (c.moved i own c.shared []).waiting = c.waiting)
    (hs : (c.moved i own c.shared []).spilled = c.spilled) :
    (c.moved i own c.shared []).InLine entries := by
  have hemitted : (c.moved i own c.shared []).emitted = c.emitted := by
    rw [emitted_moved]
    exact List.append_nil _
  have hback : ∀ (j : Nat) (q : Phase α) (rest : List (Phase α)),
      (c.moved i own c.shared []).callers[j]? = some (q :: rest) →
      c.callers[j]? = some (q :: rest) ∨ (¬ q.Delivers ∧ ¬ q.Locks) := by
    intro j q rest hj
    rcases mem_replaced hj with ⟨-, rfl⟩ | ⟨-, hj⟩
    · exact .inr (hown q rfl)
    · exact .inl hj
  refine ⟨hmanned, fun hd hne => (h.overflow_swept hd hne).set hi (fun hp => hsweep hp.queue) rfl,
    fun hd hne => (h.queue_swept hd hne).set hi hsweep rfl, ?_, ?_, ?_, ?_, ?_, ?_⟩
  · intro j q rest hj hq
    rcases hback j q rest hj with hj | ⟨-, hno⟩
    · exact h.locked j q rest hj hq
    · exact absurd hq hno
  · intro hd j q rest hj
    rcases hback j q rest hj with hj | ⟨hno, -⟩
    · exact h.unmarked hd j q rest hj
    · exact hno
  · intro j k q r rest rest' hj hk hq hr
    rcases hback j q rest hj with hj | ⟨hno, -⟩
    · rcases hback k r rest' hk with hk | ⟨hno, -⟩
      · exact h.alone j k q r rest rest' hj hk hq hr
      · exact absurd hr.delivers hno
    · exact absurd hq.delivers hno
  · intro j q rest hj hq
    rw [hs]
    rcases hback j q rest hj with hj | ⟨hno, -⟩
    · exact h.cleared j q rest hj hq
    · exact absurd hq.flushes.delivers hno
  · intro hnobody
    rw [hemitted, hw, hs]
    apply h.idle
    intro j q rest hj hq
    by_cases hij : i = j
    · subst hij
      rw [hi] at hj
      obtain ⟨rfl, -⟩ := List.cons.inj (Option.some.inj hj)
      exact hsweep hq.sweeps
    · exact hnobody j q rest ((List.getElem?_set_ne hij).trans hj) hq
  · intro j q rest hj hq
    rw [hemitted, hw, hs]
    rcases hback j q rest hj with hj | ⟨hno, -⟩
    · exact h.busy j q rest hj hq
    · exact absurd hq.delivers hno

/-- The end of a call changes nothing. -/
theorem InLine.drop (h : c.InLine entries) (hi : c.callers[i]? = some (.finished :: later)) :
    (c.moved i later c.shared []).InLine entries := by
  obtain ⟨hw, hs⟩ := share_drop hi
  refine h.still hi (h.manned.drop hi) id ?_ hw hs
  intro q hq
  rcases h.manned.later i _ later hi q (List.mem_of_mem_head? hq) with ⟨-, x, rfl⟩ | rfl
  · exact ⟨id, id⟩
  · exact ⟨id, id⟩

/-- Beside the flush of another caller only a drain that comes too late can go on. -/
theorem InLine.beside (h : c.InLine entries) (hi : c.callers[i]? = some (p :: later))
    (hstep : c.shared.step i p = some (shared, p', effects)) (hflush : ¬ p.Flushes)
    (hapart : i = 0 → ¬ c.FlushBeside) {k : Nat} {r : Phase α} {rest : List (Phase α)}
    (hk : c.callers[k]? = some (r :: rest)) (hr : r.Flushes) :
    ¬ p.Appends ∧ shared = c.shared ∧ p' = .finished ∧ effects = [] := by
  have hki : k ≠ i := by
    rintro rfl
    rw [hi] at hk
    obtain ⟨rfl, -⟩ := List.cons.inj (Option.some.inj hk)
    exact hflush hr
  have hzero : i ≠ 0 := by
    rintro rfl
    exact hapart rfl (flushBeside_of_getElem? hki hk hr)
  have hd : c.shared.buffer.drained = true := by
    rw [← Bool.not_eq_false]
    intro hd
    exact h.unmarked hd k r rest hk hr.delivers
  have happ : ¬ p.Appends := fun happ => hzero (h.manned.appends i p later hi happ)
  exact ⟨happ, (transition_of_step hstep).of_other (h.manned.phase_plain i p later hi) happ
    hflush hd⟩

/-- Nobody will come for a drained buffer that a direct append finds without a flush: it is
empty. -/
theorem InLine.empty_of_passing (h : c.InLine entries) {x : Tagged α}
    (hi : c.callers[i]? = some (.passing x :: later))
    (hnobody : ∀ (j : Nat) (q : Phase α) (rest : List (Phase α)),
      c.callers[j]? = some (q :: rest) → ¬ q.Flushes) :
    c.shared.buffer.overflow = [] ∧ c.shared.buffer.queue = [] := by
  have hd : c.shared.buffer.drained = true := by
    rw [← Bool.not_eq_false]
    intro hd
    exact h.unmarked hd i _ later hi trivial
  have hzero : i = 0 := h.manned.appends i _ later hi trivial
  -- only the first caller appends, and it is not the one that comes
  have hnone : ¬ c.HasCaller Phase.ComesForQueue := by
    rintro ⟨j, q, rest, hj, hq⟩
    have happ := hq.appends_or_flushes.resolve_right (hnobody j q rest hj)
    obtain rfl : j = 0 := h.manned.appends j q rest hj happ
    subst hzero
    rw [hi] at hj
    obtain ⟨rfl, -⟩ := List.cons.inj (Option.some.inj hj)
    exact hq
  have hover : ¬ c.HasCaller Phase.ComesForOverflow :=
    fun ⟨j, q, rest, hj, hq⟩ => hnone ⟨j, q, rest, hj, hq.queue⟩
  exact ⟨Decidable.not_not.mp fun hne => hover (h.overflow_swept hd hne),
    Decidable.not_not.mp fun hne => hnone (h.queue_swept hd hne)⟩

/-- Nobody flushes if no other caller does. -/
theorem not_flushes_of_alone (hi : c.callers[i]? = some (p :: later))
    (hquiet : ∀ (j : Nat) (q : Phase α) (rest : List (Phase α)),
      j ≠ i → c.callers[j]? = some (q :: rest) → ¬ q.Flushes) (hp : ¬ p.Flushes)
    (j : Nat) (q : Phase α) (rest : List (Phase α)) (hj : c.callers[j]? = some (q :: rest)) :
    ¬ q.Flushes := by
  by_cases hji : j = i
  · subst hji
    rw [hi] at hj
    obtain ⟨rfl, -⟩ := List.cons.inj (Option.some.inj hj)
    exact hp
  · exact hquiet j q rest hji hj

/-- Without a flush of another caller, a step moves the one line in which all entries stand. -/
theorem InLine.line_eq (h : c.InLine entries) (hi : c.callers[i]? = some (p :: later))
    (hstep : c.shared.step i p = some (shared, p', effects))
    (hnobody : ¬ p.Flushes → ∀ (j : Nat) (q : Phase α) (rest : List (Phase α)),
      c.callers[j]? = some (q :: rest) → ¬ q.Flushes) :
    (c.moved i (p' :: later) shared effects).emitted ++ (p'.taken ++
      (c.moved i (p' :: later) shared effects).shared.line
        (c.moved i (p' :: later) shared effects).spilled
        (c.moved i (p' :: later) shared effects).waiting) = entries := by
  have htrans := transition_of_step hstep
  obtain ⟨w, s, hw, hs, hnone, hmoved⟩ := h.manned.share hi htrans.appends
  obtain ⟨hw', hs'⟩ := hmoved shared effects
  have hold : c.emitted ++ (p.taken ++ c.shared.line c.spilled c.waiting) = entries := by
    by_cases hp : p.Flushes
    · exact h.busy i p later hi hp
    · rw [Phase.taken_of_not_flushes hp]
      exact h.idle (hnobody hp)
  have hpass : ∀ x, p = .passing x →
      c.shared.buffer.overflow = [] ∧ c.shared.buffer.queue = [] := by
    rintro x rfl
    exact h.empty_of_passing hi (hnobody id)
  have hclear : p.HasTaken → c.shared.buffer.overflow = [] ∧ s = [] := by
    intro hp
    obtain ⟨hover, hnospill⟩ := h.cleared i p later hi hp
    exact ⟨hover, (List.append_eq_nil_iff.mp (hs.symm.trans hnospill)).2⟩
  have hline := htrans.line_eq (w := w) h.manned.plain (h.manned.phase_plain i p later hi) hnone
    hpass hclear
  calc
    _ = c.emitted ++ (effects.filterMap Effect.entry? ++ p'.taken ++
          shared.line (p'.spilled ++ s) (p'.waiting ++ w)) := by
      rw [hw', hs', emitted_moved, List.append_assoc, List.append_assoc]
      rfl
    _ = c.emitted ++ (p.taken ++ c.shared.line c.spilled c.waiting) := by rw [hline, hw, hs]
    _ = entries := hold

/-- Without a flush of another caller, a step keeps the entries in line. -/
theorem InLine.advance_alone (h : c.InLine entries) (hi : c.callers[i]? = some (p :: later))
    (hstep : c.shared.step i p = some (shared, p', effects))
    (hquiet : ∀ (j : Nat) (q : Phase α) (rest : List (Phase α)),
      j ≠ i → c.callers[j]? = some (q :: rest) → ¬ q.Flushes) :
    (c.moved i (p' :: later) shared effects).InLine entries := by
  have hplain := h.manned.phase_plain i p later hi
  have htrans := transition_of_step hstep
  have hsound := step_sound h.manned.plain hplain hstep
  have hline := h.line_eq hi hstep (not_flushes_of_alone hi hquiet)
  have hself : (c.moved i (p' :: later) shared effects).callers[i]? = some (p' :: later) :=
    getElem?_replaced _ hi
  -- whoever flushes is the caller that has taken the step
  have honly : ∀ (j : Nat) (q : Phase α) (rest : List (Phase α)),
      (c.moved i (p' :: later) shared effects).callers[j]? = some (q :: rest) → q.Flushes →
        j = i ∧ q = p' := by
    intro j q rest hj hq
    rcases mem_replaced hj with ⟨rfl, heq⟩ | ⟨hji, hj⟩
    · exact ⟨rfl, (List.cons.inj heq).1⟩
    · exact absurd hq (hquiet j q rest hji hj)
  refine ⟨h.manned.advance hi hstep, ?_, ?_, ?_, ?_, ?_, ?_, ?_, ?_⟩
  · intro hd hne
    rcases hsound.overflow hd hne with hp' | ⟨hp, hd, hne⟩
    · exact ⟨i, p', later, hself, hp'⟩
    · exact (h.overflow_swept hd hne).set hi hp rfl
  · intro hd hne
    rcases hsound.queue hd hne with hp' | ⟨hp, hd, hne⟩
    · exact ⟨i, p', later, hself, hp'⟩
    · exact (h.queue_swept hd hne).set hi hp rfl
  · intro j q rest hj hq
    rcases mem_replaced hj with ⟨rfl, heq⟩ | ⟨hji, hj⟩
    · obtain ⟨rfl, -⟩ := List.cons.inj heq.symm
      exact htrans.holder_of_locks (h.locked j p later hi) hq
    · have hheld := h.locked j q rest hj hq
      apply htrans.holder_of_other hheld
      intro hp
      exact hji (Option.some.inj (hheld.symm.trans (h.locked i p later hi hp)))
  · intro hd' j q rest hj
    have hd : c.shared.buffer.drained = false := by
      rw [Bool.eq_false_iff]
      intro hd
      exact absurd (hd'.symm.trans (hsound.drained hd)) nofun
    rcases mem_replaced hj with ⟨-, heq⟩ | ⟨-, hj⟩
    · obtain ⟨rfl, -⟩ := List.cons.inj heq.symm
      exact (htrans.undrained h.manned.plain hplain hd' (h.unmarked hd i p later hi)).2
    · exact h.unmarked hd j q rest hj
  · intro j k q r rest rest' hj hk hq hr
    exact (honly j q rest hj hq).1.trans (honly k r rest' hk hr).1.symm
  · intro j q rest hj hq
    obtain ⟨rfl, rfl⟩ := honly j q rest hj hq.flushes
    obtain ⟨w, s, -, hs, -, hmoved⟩ := h.manned.share hi htrans.appends
    rw [(hmoved shared effects).2, Phase.spilled_of_not_appends hq.not_appends, List.nil_append]
    -- nothing is on its way to the overflow list when the flush has just taken it
    have hspilled : shared.buffer.overflow = [] ∧ c.spilled = [] := by
      rcases htrans.cleared hq with ⟨hfree, hover⟩ | ⟨hp, hover⟩
      · exact ⟨hover, h.spilled_eq hfree⟩
      · obtain ⟨hempty, hnone⟩ := h.cleared j p later hi hp
        exact ⟨hover.trans hempty, hnone⟩
    exact ⟨hspilled.1, (List.append_eq_nil_iff.mp (hs.symm.trans hspilled.2)).2⟩
  · intro hidle
    rw [Phase.taken_of_not_flushes (hidle i p' later hself)] at hline
    exact hline
  · intro j q rest hj hq
    obtain ⟨rfl, rfl⟩ := honly j q rest hj hq
    exact hline

/-- A step of a call keeps the entries in line, unless the first caller takes it beside the
flush of another one. -/
theorem InLine.advance (h : c.InLine entries) (hi : c.callers[i]? = some (p :: later))
    (hstep : c.shared.step i p = some (shared, p', effects))
    (hapart : i = 0 → ¬ c.FlushBeside) :
    (c.moved i (p' :: later) shared effects).InLine entries := by
  have hplain := h.manned.phase_plain i p later hi
  have htrans := transition_of_step hstep
  obtain ⟨w, s, hw, hs, hnone, hmoved⟩ := h.manned.share hi htrans.appends
  obtain ⟨hw', hs'⟩ := hmoved shared effects
  by_cases hothers : ∃ (k : Nat) (r : Phase α) (rest : List (Phase α)),
      k ≠ i ∧ c.callers[k]? = some (r :: rest) ∧ r.Flushes
  · obtain ⟨k, r, rest, hki, hk, hr⟩ := hothers
    have hflush : ¬ p.Flushes := fun hp => hki (h.alone k i r p rest later hk hi hr hp)
    obtain ⟨happ, hshared, rfl, rfl⟩ := h.beside hi hstep hflush hapart hk hr
    rw [Phase.waiting_of_not_appends happ] at hw
    rw [Phase.spilled_of_not_appends happ] at hs
    have hmanned := h.manned.advance hi hstep
    subst hshared
    refine h.still hi hmanned
      (fun hp => hp.appends_or_flushes.elim happ hflush) ?_ (hw'.trans hw.symm) (hs'.trans hs.symm)
    intro q hq
    obtain rfl : Phase.finished = q := Option.some.inj hq
    exact ⟨id, id⟩
  · -- nobody else flushes, so the entries stand in one line before and after the step
    have hquiet : ∀ (j : Nat) (q : Phase α) (rest : List (Phase α)),
        j ≠ i → c.callers[j]? = some (q :: rest) → ¬ q.Flushes :=
      fun j q rest hj hq hflush => hothers ⟨j, q, rest, hj, hq, hflush⟩
    exact h.advance_alone hi hstep hquiet

theorem InLine.step (h : c.InLine entries) (i : Nat) (hapart : i = 0 → ¬ c.FlushBeside) :
    (c.step i).InLine entries := by
  rcases c.step_cases i with heq | ⟨later, hi, heq⟩ | ⟨p, later, shared, p', effects, hi, hs, heq⟩
  · rw [heq]
    exact h
  · have hdrop := h.drop hi
    rw [moved, List.append_nil, ← heq] at hdrop
    exact hdrop
  · rw [heq]
    exact h.advance hi hs hapart

theorem InLine.run (h : c.InLine entries) {schedule : List Nat} (hapart : c.Apart schedule) :
    (c.run schedule).InLine entries := by
  induction schedule generalizing c with
  | nil => exact h
  | cons i rest ih => exact ih (h.step i hapart.1) hapart.2

/-- What has been handed over comes first in the line. -/
theorem InLine.isPrefix (h : c.InLine entries) : List.IsPrefix c.emitted entries := by
  by_cases hflush : ∃ (i : Nat) (p : Phase α) (later : List (Phase α)),
      c.callers[i]? = some (p :: later) ∧ p.Flushes
  · obtain ⟨i, p, later, hi, hp⟩ := hflush
    exact ⟨_, h.busy i p later hi hp⟩
  · exact ⟨_, h.idle fun i p later hi hp => hflush ⟨i, p, later, hi, hp⟩⟩

theorem oneAppender_inLine (capacity : Nat) (hpos : 0 < capacity) (entries : List α)
    (drains : List Nat) : (oneAppender capacity hpos entries drains).InLine entries := by
  have hline := oneAppender_line capacity hpos entries drains
  have hquiet : ∀ (i : Nat) (p : Phase α) (later : List (Phase α)),
      (oneAppender capacity hpos entries drains).callers[i]? = some (p :: later) →
        ¬ p.Delivers ∧ ¬ p.Locks := by
    intro i p later hi
    rcases oneAppender_phase hi p List.mem_cons_self with ⟨-, x, rfl⟩ | rfl
    · exact ⟨id, id⟩
    · exact ⟨id, id⟩
  exact {
    manned := oneAppender_manned capacity hpos entries drains
    overflow_swept := fun _ hne => absurd rfl hne
    queue_swept := fun _ hne => absurd rfl hne
    locked := fun i p later hi hp => absurd hp (hquiet i p later hi).2
    unmarked := fun _ i p later hi => (hquiet i p later hi).1
    alone := fun i _ p _ later _ hi _ hp _ => absurd hp.delivers (hquiet i p later hi).1
    cleared := fun i p later hi hp => absurd hp.flushes.delivers (hquiet i p later hi).1
    idle := fun _ => hline
    busy := fun i p later hi hp => absurd hp.delivers (hquiet i p later hi).1 }

/-- The calls append just the entries. -/
theorem oneAppender_entries (entries : List α) (drains : List Nat) :
    ((entries.map BareCall.append :: drains.map fun n => List.replicate n .drain).flatMap
      fun own => own.filterMap BareCall.entry?) = entries := by
  have hnone : ((drains.map fun n => List.replicate n (BareCall.drain : BareCall α)).flatMap
      fun own => own.filterMap BareCall.entry?) = [] := by
    rw [List.flatMap_map, List.flatMap_eq_nil_iff]
    intro n _
    exact List.filterMap_replicate_of_none rfl
  rw [List.flatMap_cons, hnone, List.append_nil, List.filterMap_map]
  exact List.filterMap_some

/-- **The order of arrival.** One caller appends entries to a new buffer and the others drain
it any number of times. However their steps interleave, every caller hands over entries in
the order in which they were appended. If the first caller takes no step while another one
flushes, then all of them together do so, without leaving one out, and once every call
has returned and a drain was among them, all entries have been handed over. -/
theorem handed_in_order_apart (capacity : Nat) (hpos : 0 < capacity) (entries : List α)
    (drains : List Nat) (schedule : List Nat) :
    let c : Crew α := oneAppender capacity hpos entries drains
    (∀ i, (handedBy i c schedule).Sublist entries) ∧
      (c.Apart schedule →
        List.IsPrefix (c.run schedule).emitted entries ∧
          ((∃ n ∈ drains, 0 < n) → (c.run schedule).finished = true →
            (c.run schedule).emitted = entries)) := by
  intro c
  refine ⟨fun i => ?_, fun hapart => ?_⟩
  · exact ((oneAppender_inTurn capacity hpos entries drains).run schedule).sublist i
  · have hfront := ((oneAppender_inLine capacity hpos entries drains).run hapart).isPrefix
    refine ⟨hfront, fun ⟨n, hn, hpositive⟩ hdone => ?_⟩
    have hdrain : ∃ own ∈ entries.map BareCall.append ::
        drains.map fun n => List.replicate n .drain, BareCall.drain ∈ own :=
      ⟨List.replicate n .drain, List.mem_cons_of_mem _ (List.mem_map_of_mem hn),
        List.mem_replicate.mpr ⟨Nat.ne_of_gt hpositive, rfl⟩⟩
    have hall := (((start_accounted capacity hpos hdrain).run schedule).of_finished hdone).1
    exact hfront.eq_of_length
      (hall.length_eq.trans (congrArg List.length (oneAppender_entries entries drains)))

/-- A drain comes between the second append and the third. -/
def apartSchedule : List Nat :=
  List.replicate 14 0 ++ List.replicate 8 1 ++ List.replicate 4 0

/-- Nobody overtakes anybody. -/
theorem handed_in_order_apart_between :
    let c : Crew Nat := oneAppender 1 Nat.one_pos [1, 2, 3] [1]
    (c.Apart apartSchedule ∧ (c.run apartSchedule).finished = true) ∧
      handedBy 0 c apartSchedule = [3] ∧ handedBy 1 c apartSchedule = [1, 2] ∧
      (∀ i, (handedBy i c apartSchedule).Sublist [1, 2, 3]) ∧
      (c.run apartSchedule).emitted = [1, 2, 3] := by
  intro c
  have hapart : c.Apart apartSchedule := by decide +kernel
  have hdone : (c.run apartSchedule).finished = true := by decide +kernel
  obtain ⟨hturn, hline⟩ := handed_in_order_apart 1 Nat.one_pos [1, 2, 3] [1] apartSchedule
  exact ⟨⟨hapart, hdone⟩, by decide +kernel, by decide +kernel, hturn,
    (hline hapart).2 ⟨1, List.mem_singleton_self 1, Nat.one_pos⟩ hdone⟩

/-- The first caller pushes two entries into a queue of one place and hands over a third one
while the drain has set its mark and not begun to flush. -/
def directSchedule : List Nat :=
  List.replicate 14 0 ++ [1] ++ List.replicate 4 0 ++ List.replicate 8 1

/-- The drain takes the empty overflow list just before the second entry spills the first one
into it, and pops the second. The first is left to the flush of its own caller. -/
def spillSchedule : List Nat :=
  List.replicate 7 0 ++ [1, 1] ++ List.replicate 5 0 ++ List.replicate 5 1 ++ List.replicate 6 0

/-- Beside a drain an entry overtakes others, both when it is handed over at once and when all
of them have been held back. -/
theorem drain_overtaken :
    let direct : Crew Nat := (oneAppender 1 Nat.one_pos [1, 2, 3] [1]).run directSchedule
    let spilled : Crew Nat := (oneAppender 1 Nat.one_pos [1, 2] [1]).run spillSchedule
    (direct.finished = true ∧ direct.emitted = [3, 1, 2]) ∧
      spilled.finished = true ∧ spilled.emitted = [2, 1] := by
  decide +kernel

end Crew

end LogAdmission
