import LogAdmission.Proofs.Buffer.Overlap

/-!
# The order of emission beside a drain

One caller appends entries to a buffer that belongs to no scope, and others drain it, step
by step. Beside a drain the entries may overtake each other, but not within what one caller
hands over: whatever a call may still hand over stands in line behind what its caller has
handed over already (`InTurn`).
-/

namespace LogAdmission

variable {α : Type}

namespace Phase

/-- A phase of an append, up to its second look at the state word. -/
def Appends : Phase α → Prop
  | finding _ | checking _ _ | passing _ | pushing _ | locking _ | evicting _ | spilling _ _
  | rechecking _ => True
  | _ => False

/-- A phase of a flush. -/
def Flushes : Phase α → Prop
  | taking _ | emitting _ _ | popping _ | handing _ _ => True
  | _ => False

instance : (p : Phase α) → Decidable p.Flushes
  | taking _ | emitting _ _ | popping _ | handing _ _ => isTrue trivial
  | finding _ | checking _ _ | passing _ | pushing _ | locking _ | evicting _ | spilling _ _
  | rechecking _ | marking | switching _ | clearing _ | emptying _ | wiping _ | arming _
  | finished => isFalse id

/-- A phase in which a call may hand over entries that it finds in the buffer or holds. -/
def Delivers : Phase α → Prop
  | passing _ => True
  | p => p.Flushes

/-- The entry that an append has neither pushed nor handed to its handler. -/
def waiting : Phase α → List α
  | finding x | checking _ x => [x]
  | passing x | pushing x | locking x | evicting x | spilling x _ => [x.entry]
  | _ => []

/-- The entry on its way from the queue to the overflow list. -/
def spilled : Phase α → List α
  | spilling _ oldest => [oldest.entry]
  | _ => []

theorem waiting_of_not_appends {p : Phase α} (h : ¬ p.Appends) : p.waiting = [] := by
  cases p with
  | finding | checking | passing | pushing | locking | evicting | spilling =>
      exact absurd trivial h
  | _ => rfl

theorem spilled_of_not_appends {p : Phase α} (h : ¬ p.Appends) : p.spilled = [] := by
  cases p with
  | spilling => exact absurd trivial h
  | _ => rfl

end Phase

namespace SharedBuffer

open Phase

/-- The entries in the queue and behind them those that are still to be appended. -/
def row (b : SharedBuffer α) (waiting : List α) : List α :=
  b.buffer.queue.map (·.entry) ++ waiting

/-- All entries in the order of arrival. -/
def line (b : SharedBuffer α) (spilled waiting : List α) : List α :=
  b.buffer.overflow.map (·.entry) ++ spilled ++ b.row waiting

/-- What a caller may still hand to handlers, in order. -/
def reach (b : SharedBuffer α) (spilled waiting : List α) : Phase α → List α
  | .pushing _ | .locking _ | .evicting _ | .spilling _ _ | .rechecking _ | .taking _ =>
    b.line spilled waiting
  | .emitting _ taken => taken.map (·.entry) ++ b.row waiting
  | .popping _ => b.row waiting
  | .handing _ x => x.entry :: b.row waiting
  | _ => waiting

variable {me : Nat} {b b' : SharedBuffer α} {p p' : Phase α} {effects : List (Effect α)}
  {s w : List α}

theorem row_sublist_line (b : SharedBuffer α) (s w : List α) :
    (b.row w).Sublist (b.line s w) :=
  List.sublist_append_right _ _

theorem waiting_sublist_row (b : SharedBuffer α) (w : List α) : w.Sublist (b.row w) :=
  List.sublist_append_right _ _

/-- A call that does not append does not begin to. -/
theorem Transition.appends (h : b.Transition me p b' p' effects) (hp' : p'.Appends) :
    p.Appends := by
  cases h with
  | find | turnAway | forward | accept | pass | push | findFull | lock | unlock | evict | spill
  | catchUp | settle => trivial
  | _ => exact absurd hp' id

/-- A step of an append or a drain only takes entries out of the row. -/
theorem Transition.row_sublist (h : b.Transition me p b' p' effects) :
    (b'.row (p'.waiting ++ w)).Sublist (b.row (p.waiting ++ w)) := by
  cases h with
  | push x hroom => simp [row, waiting]
  | evict x oldest rest hqueue => simp [row, waiting, hqueue]
  | pop scope x rest hqueue hscope => simp [row, waiting, hqueue]
  | popOther scope x rest hqueue hscope => simp [row, waiting, hqueue]
  | discard next x rest hqueue => simp [row, waiting, hqueue]
  | turnAway scope x hscope => simp [row, waiting]
  | pass x => simp [row, waiting]
  | _ => exact List.Sublist.refl _

/-- It only takes entries out of the line: a spill moves one within it. -/
theorem Transition.line_sublist (h : b.Transition me p b' p' effects)
    (hs : p.Appends → s = []) :
    (b'.line (p'.spilled ++ s) (p'.waiting ++ w)).Sublist
      (b.line (p.spilled ++ s) (p.waiting ++ w)) := by
  cases h with
  | push x hroom => simp [line, row, waiting, spilled]
  | evict x oldest rest hqueue =>
      obtain rfl := hs trivial
      simp [line, row, waiting, spilled, hqueue]
  | spill x oldest =>
      obtain rfl := hs trivial
      simp [line, row, waiting, spilled]
  | take scope hfree => simp [line, row, waiting, spilled]
  | pop scope x rest hqueue hscope => simp [line, row, waiting, spilled, hqueue]
  | popOther scope x rest hqueue hscope => simp [line, row, waiting, spilled, hqueue]
  | discard next x rest hqueue => simp [line, row, waiting, spilled, hqueue]
  | turnAway scope x hscope => simp [line, row, waiting, spilled]
  | pass x => simp [line, row, waiting, spilled]
  | wipe hfree => simp [line, row, waiting, spilled]
  | wipeFor scope hfree => simp [line, row, waiting, spilled]
  | _ => exact List.Sublist.refl _

/-- It only takes away entries that are still to be appended. -/
theorem Transition.waiting_sublist (h : b.Transition me p b' p' effects) :
    (p'.waiting ++ w).Sublist (p.waiting ++ w) := by
  cases h with
  | push | turnAway | pass => exact List.sublist_append_right _ _
  | _ => exact List.Sublist.refl _

/-- As long as the buffer is not drained, nothing is handed over. -/
theorem Transition.undrained (h : b.Transition me p b' p' effects) (hb : b.Plain) (hp : p.Plain)
    (hd : b'.buffer.drained = false) (hquiet : ¬ p.Delivers) : effects = [] ∧ ¬ p'.Delivers := by
  cases h with
  | forward scope x hscope hdrained => exact absurd (hd.symm.trans hdrained) nofun
  | catchUp scope hstate =>
      obtain rfl : scope = 0 := hp
      exact absurd (hd.symm.trans (hb.state_eq_iff.mp hstate)) nofun
  | mark => exact absurd (hd.symm.trans (StateWord.drained_mark _)) nofun
  | pass | take | emptied | emit | skip | leave | pop | popOther | hand =>
      exact absurd trivial hquiet
  | switch | findSwitched | clear | discard | discarded | wipe | wipeFor | arm =>
      exact absurd hp id
  | _ => exact ⟨rfl, id⟩

/-- Only setting the mark makes a buffer drained. -/
theorem Transition.of_marked (h : b.Transition me p b' p' effects) (hp : p.Plain)
    (hd : b.buffer.drained = false) (hd' : b'.buffer.drained = true) :
    p' = .taking b.buffer.scope ∧ effects = [.drained b.buffer.scope] ∧
      b'.buffer.overflow = b.buffer.overflow ∧ b'.buffer.queue = b.buffer.queue := by
  cases h with
  | mark => exact ⟨rfl, rfl, rfl, rfl⟩
  | switch | clear | arm => exact absurd hp id
  | _ => exact absurd (hd.symm.trans hd') nofun

/-- The reach of a caller shrinks when the entries before it do. -/
theorem reach_sublist_reach {s' w' : List α} (hline : (b'.line s' w').Sublist (b.line s w))
    (hrow : (b'.row w').Sublist (b.row w)) (hwaiting : w'.Sublist w) (p : Phase α) :
    (b'.reach s' w' p).Sublist (b.reach s w p) := by
  cases p with
  | pushing | locking | evicting | spilling | rechecking | taking => exact hline
  | emitting scope taken => exact hrow.append_left _
  | popping => exact hrow
  | handing scope x => exact hrow.cons_cons _
  | _ => exact hwaiting

/-- A caller that has nothing in its hands reaches no further than the line. -/
theorem reach_sublist_line (b : SharedBuffer α) (s w : List α) (hp : ¬ p.Delivers) :
    (b.reach s w p).Sublist (b.line s w) := by
  cases p with
  | pushing | locking | evicting | spilling | rechecking => exact List.Sublist.refl _
  | passing | taking | emitting | popping | handing => exact absurd trivial hp
  | _ => exact (waiting_sublist_row b w).trans (row_sublist_line b s w)

/-- On a drained buffer, what a caller hands over stands before all that it may hand over
later. -/
theorem Transition.reach_sublist (h : b.Transition me p b' p' effects) (hp : p.Plain)
    (hd : b.buffer.drained = true) (hs : p.Appends → s = []) :
    (effects.filterMap Effect.entry? ++ b'.reach (p'.spilled ++ s) (p'.waiting ++ w) p').Sublist
      (b.reach (p.spilled ++ s) (p.waiting ++ w) p) := by
  cases h with
  | accept scope x hscope hdrained => exact absurd (hd.symm.trans hdrained) nofun
  | mark hdrained => exact absurd (hd.symm.trans hdrained) nofun
  | push x hroom => simp [reach, line, row, waiting, spilled]
  | evict x oldest rest hqueue =>
      obtain rfl := hs trivial
      simp [reach, line, row, waiting, spilled, hqueue]
  | spill x oldest =>
      obtain rfl := hs trivial
      simp [reach, line, row, waiting, spilled]
  | settle scope hstate =>
      exact (waiting_sublist_row b _).trans (row_sublist_line b _ _)
  | turnAway scope x hscope => simp [reach, waiting]
  | take scope hfree => simp [reach, line, row, waiting, spilled]
  | leave scope hempty => exact waiting_sublist_row b _
  | pop scope x rest hqueue hscope => simp [reach, row, waiting, hqueue]
  | popOther scope x rest hqueue hscope => simp [reach, row, waiting, hqueue]
  | skip scope x rest hscope => simp [reach, row, waiting]
  | switch | findSwitched | clear | discard | discarded | wipe | wipeFor | arm =>
      exact absurd hp id
  | _ => exact List.Sublist.refl _

end SharedBuffer

namespace Crew

open SharedBuffer

/-- The callers at the beginning: the first one appends the entries in order, and every
other one drains the buffer some number of times. -/
def oneAppender (capacity : Nat) (hpos : 0 < capacity) (entries : List α) (drains : List Nat) :
    Crew α :=
  start capacity hpos (entries.map .append :: drains.map fun n => List.replicate n .drain)

/-- The entries that caller `i` hands to handlers while the crew follows a schedule. -/
def handedBy (i : Nat) : Crew α → List Nat → List α
  | _, [] => []
  | c, j :: rest =>
    (if j = i then (c.step j).emitted.drop c.emitted.length else []) ++ handedBy i (c.step j) rest

/-- The entries that the first caller has still to push or to hand over. -/
def waiting (c : Crew α) : List α :=
  (c.callers[0]?.getD []).flatMap Phase.waiting

/-- The entry that the first caller is moving to the overflow list. -/
def spilled (c : Crew α) : List α :=
  (c.callers[0]?.getD []).flatMap Phase.spilled

/-- Only the first caller appends, and calls that have not begun are at their beginning. -/
structure Manned (c : Crew α) : Prop where
  plain : c.shared.Plain
  phase_plain : ∀ (i : Nat) (p : Phase α) (later : List (Phase α)),
    c.callers[i]? = some (p :: later) → p.Plain
  appends : ∀ (i : Nat) (p : Phase α) (later : List (Phase α)),
    c.callers[i]? = some (p :: later) → p.Appends → i = 0
  later : ∀ (i : Nat) (p : Phase α) (later : List (Phase α)),
    c.callers[i]? = some (p :: later) → ∀ q ∈ later, (i = 0 ∧ ∃ x, q = .finding x) ∨ q = .marking

variable {entries : List α} {c c' : Crew α} {i : Nat} {p p' : Phase α} {later : List (Phase α)}
  {shared : SharedBuffer α} {effects : List (Effect α)}

/-- The crew after the step of a call. -/
def moved (c : Crew α) (i : Nat) (own : List (Phase α)) (shared : SharedBuffer α)
    (effects : List (Effect α)) : Crew α :=
  { shared := shared, callers := c.callers.set i own, history := c.history ++ effects }

theorem emitted_moved (c : Crew α) (i : Nat) (own : List (Phase α)) (shared : SharedBuffer α)
    (effects : List (Effect α)) :
    (c.moved i own shared effects).emitted = c.emitted ++ effects.filterMap Effect.entry? :=
  List.filterMap_append

theorem Manned.drop (h : c.Manned) (hi : c.callers[i]? = some (.finished :: later)) :
    (c.moved i later c.shared []).Manned := by
  have hlater := h.later i _ later hi
  refine ⟨h.plain, ?_, ?_, ?_⟩
  · intro j q rest hj
    rcases mem_replaced hj with ⟨-, rfl⟩ | ⟨-, hj⟩
    · rcases hlater q List.mem_cons_self with ⟨-, x, rfl⟩ | rfl
      · trivial
      · trivial
    · exact h.phase_plain j q rest hj
  · intro j q rest hj hq
    rcases mem_replaced hj with ⟨rfl, rfl⟩ | ⟨-, hj⟩
    · rcases hlater q List.mem_cons_self with ⟨hzero, -⟩ | rfl
      · exact hzero
      · exact absurd hq id
    · exact h.appends j q rest hj hq
  · intro j q rest hj r hr
    rcases mem_replaced hj with ⟨rfl, rfl⟩ | ⟨-, hj⟩
    · exact hlater r (List.mem_cons_of_mem _ hr)
    · exact h.later j q rest hj r hr

theorem Manned.advance (h : c.Manned) (hi : c.callers[i]? = some (p :: later))
    (hstep : c.shared.step i p = some (shared, p', effects)) :
    (c.moved i (p' :: later) shared effects).Manned := by
  have hsound := step_sound h.plain (h.phase_plain i p later hi) hstep
  refine ⟨hsound.plain, ?_, ?_, ?_⟩
  · intro j q rest hj
    rcases mem_replaced hj with ⟨-, heq⟩ | ⟨-, hj⟩
    · obtain ⟨rfl, rfl⟩ := List.cons.inj heq.symm
      exact hsound.phase_plain
    · exact h.phase_plain j q rest hj
  · intro j q rest hj hq
    rcases mem_replaced hj with ⟨rfl, heq⟩ | ⟨-, hj⟩
    · obtain ⟨rfl, rfl⟩ := List.cons.inj heq.symm
      exact h.appends j p later hi ((transition_of_step hstep).appends hq)
    · exact h.appends j q rest hj hq
  · intro j q rest hj
    rcases mem_replaced hj with ⟨rfl, heq⟩ | ⟨-, hj⟩
    · obtain ⟨rfl, rfl⟩ := List.cons.inj heq.symm
      exact h.later j p later hi
    · exact h.later j q rest hj

/-- What waits and what is on its way, apart from what the caller that takes a step has. -/
theorem Manned.share (h : c.Manned) (hi : c.callers[i]? = some (p :: later))
    (hp' : p'.Appends → p.Appends) :
    ∃ w s, c.waiting = p.waiting ++ w ∧ c.spilled = p.spilled ++ s ∧
      (p.Appends → s = []) ∧ ∀ shared effects,
        (c.moved i (p' :: later) shared effects).waiting = p'.waiting ++ w ∧
          (c.moved i (p' :: later) shared effects).spilled = p'.spilled ++ s := by
  by_cases hzero : i = 0
  · subst hzero
    have hself : (c.callers.set 0 (p' :: later))[0]? = some (p' :: later) :=
      getElem?_replaced _ hi
    have hnone : later.flatMap Phase.spilled = [] := by
      rw [List.flatMap_eq_nil_iff]
      intro q hq
      rcases h.later 0 p later hi q hq with ⟨-, x, rfl⟩ | rfl
      · rfl
      · rfl
    refine ⟨later.flatMap Phase.waiting, later.flatMap Phase.spilled, ?_, ?_, fun _ => hnone, ?_⟩
    · rw [waiting, hi]
      rfl
    · rw [spilled, hi]
      rfl
    · intro shared effects
      constructor
      · rw [waiting, moved, hself]
        rfl
      · rw [spilled, moved, hself]
        rfl
  · -- another caller neither has such entries nor changes those of the first
    have hp : ¬ p.Appends := fun hp => hzero (h.appends i p later hi hp)
    have hne : ¬ p'.Appends := fun hp'' => hp (hp' hp'')
    refine ⟨c.waiting, c.spilled, ?_, ?_, fun happ => absurd happ hp, ?_⟩
    · rw [Phase.waiting_of_not_appends hp]
      rfl
    · rw [Phase.spilled_of_not_appends hp]
      rfl
    · intro shared effects
      constructor
      · rw [waiting, moved, List.getElem?_set_ne hzero, Phase.waiting_of_not_appends hne]
        rfl
      · rw [spilled, moved, List.getElem?_set_ne hzero, Phase.spilled_of_not_appends hne]
        rfl

/-- The end of a call changes neither. -/
theorem share_drop (hi : c.callers[i]? = some (.finished :: later)) :
    (c.moved i later c.shared []).waiting = c.waiting ∧
      (c.moved i later c.shared []).spilled = c.spilled := by
  by_cases hzero : i = 0
  · subst hzero
    have hself : (c.callers.set 0 later)[0]? = some later := getElem?_replaced _ hi
    exact ⟨by rw [waiting, waiting, moved, hself, hi]; rfl,
      by rw [spilled, spilled, moved, hself, hi]; rfl⟩
  · have hother : (c.callers.set i later)[0]? = c.callers[0]? := List.getElem?_set_ne hzero
    exact ⟨by rw [waiting, waiting, moved, hother], by rw [spilled, spilled, moved, hother]⟩

/-! ## Caller by caller -/

/-- What caller `i` may still hand to handlers, in order. -/
def reachOf (c : Crew α) (i : Nat) : List α :=
  match c.callers[i]? with
  | some (p :: _) => c.shared.reach c.spilled c.waiting p
  | _ => c.waiting

/-- What the callers have handed over so far is in the order of the entries, and so is
whatever each of them may hand over after it. -/
structure InTurn (entries : List α) (handed : Nat → List α) (c : Crew α) : Prop where
  manned : c.Manned
  /-- Before a drain nothing is handed over. -/
  unmarked : c.shared.buffer.drained = false →
    (∀ i, handed i = []) ∧
      (∀ (i : Nat) (p : Phase α) (later : List (Phase α)),
        c.callers[i]? = some (p :: later) → ¬ p.Delivers) ∧
      (c.shared.line c.spilled c.waiting).Sublist entries
  marked : c.shared.buffer.drained = true → ∀ i, (handed i ++ c.reachOf i).Sublist entries

variable {handed : Nat → List α}

theorem reachOf_eq (hi : c.callers[i]? = some (p :: later)) :
    c.reachOf i = c.shared.reach c.spilled c.waiting p := by
  rw [reachOf, hi]

/-- Whoever has not begun its next call reaches what waits. -/
theorem reachOf_of_later {own : List (Phase α)} (hi : c.callers[i]? = some own)
    (hown : ∀ q ∈ own, (i = 0 ∧ ∃ x, q = .finding x) ∨ q = .marking) : c.reachOf i = c.waiting := by
  cases own with
  | nil => rw [reachOf, hi]
  | cons q rest =>
      rw [reachOf_eq hi]
      rcases hown q List.mem_cons_self with ⟨-, x, rfl⟩ | rfl
      · rfl
      · rfl

/-- A caller that has nothing in its hands reaches no further than the line. -/
theorem reachOf_sublist_line (hquiet : ∀ (p : Phase α) (later : List (Phase α)),
    c.callers[i]? = some (p :: later) → ¬ p.Delivers) :
    (c.reachOf i).Sublist (c.shared.line c.spilled c.waiting) := by
  unfold reachOf
  split
  · rename_i q rest hi
    exact reach_sublist_line c.shared c.spilled c.waiting (hquiet q rest hi)
  · exact (waiting_sublist_row c.shared c.waiting).trans
      (row_sublist_line c.shared c.spilled c.waiting)

/-- What the other callers reach shrinks with the line. -/
theorem reachOf_moved_sublist (own : List (Phase α)) (shared : SharedBuffer α)
    (effects : List (Effect α)) {j : Nat} (hij : i ≠ j)
    (hline : ((c.moved i own shared effects).shared.line (c.moved i own shared effects).spilled
      (c.moved i own shared effects).waiting).Sublist (c.shared.line c.spilled c.waiting))
    (hrow : ((c.moved i own shared effects).shared.row
      (c.moved i own shared effects).waiting).Sublist (c.shared.row c.waiting))
    (hwaiting : (c.moved i own shared effects).waiting.Sublist c.waiting) :
    ((c.moved i own shared effects).reachOf j).Sublist (c.reachOf j) := by
  have hj : (c.moved i own shared effects).callers[j]? = c.callers[j]? :=
    List.getElem?_set_ne hij
  unfold reachOf
  rw [hj]
  split
  · exact reach_sublist_reach hline hrow hwaiting _
  · exact hwaiting

theorem InTurn.drop (h : c.InTurn entries handed) (hi : c.callers[i]? = some (.finished :: later)) :
    (c.moved i later c.shared []).InTurn entries handed := by
  obtain ⟨hw, hs⟩ := share_drop hi
  have hmanned := h.manned.drop hi
  have hlater := h.manned.later i _ later hi
  refine ⟨hmanned, ?_, ?_⟩
  · intro hd
    obtain ⟨hnone, hquiet, hline⟩ := h.unmarked hd
    refine ⟨hnone, ?_, by rw [hw, hs]; exact hline⟩
    intro j q rest hj
    rcases mem_replaced hj with ⟨-, rfl⟩ | ⟨-, hj⟩
    · rcases hlater q List.mem_cons_self with ⟨-, x, rfl⟩ | rfl
      · exact id
      · exact id
    · exact hquiet j q rest hj
  · intro hd j
    have hold := h.marked hd j
    by_cases hij : i = j
    · subst hij
      have hself : (c.moved i later c.shared []).callers[i]? = some later :=
        getElem?_replaced _ hi
      rw [reachOf_of_later hself hlater, hw]
      rw [reachOf_eq hi] at hold
      exact hold
    · have hreach := reachOf_moved_sublist (c := c) later c.shared [] hij
        (hw ▸ hs ▸ List.Sublist.refl _) (hw ▸ List.Sublist.refl _) (hw ▸ List.Sublist.refl _)
      exact (hreach.append_left _).trans hold

/-- A step of a call keeps the callers in turn. -/
theorem InTurn.advance (h : c.InTurn entries handed) (hi : c.callers[i]? = some (p :: later))
    (hstep : c.shared.step i p = some (shared, p', effects)) :
    (c.moved i (p' :: later) shared effects).InTurn entries
      (fun j => handed j ++ if i = j then effects.filterMap Effect.entry? else []) := by
  have hplain := h.manned.phase_plain i p later hi
  have htrans := transition_of_step hstep
  have hsound := step_sound h.manned.plain hplain hstep
  obtain ⟨w, s, hw, hs, hnone, hmoved⟩ := h.manned.share hi htrans.appends
  obtain ⟨hw', hs'⟩ := hmoved shared effects
  have hline := htrans.line_sublist (w := w) hnone
  have hrow := htrans.row_sublist (w := w)
  have hwaiting := htrans.waiting_sublist (w := w)
  have hself : (c.moved i (p' :: later) shared effects).callers[i]? = some (p' :: later) :=
    getElem?_replaced _ hi
  have hothers : ∀ j, i ≠ j →
      ((c.moved i (p' :: later) shared effects).reachOf j).Sublist (c.reachOf j) := by
    intro j hij
    apply reachOf_moved_sublist (p' :: later) shared effects hij
    · rw [hw', hs', hw, hs]
      exact hline
    · rw [hw', hw]
      exact hrow
    · rw [hw', hw]
      exact hwaiting
  refine ⟨h.manned.advance hi hstep, ?_, ?_⟩
  · intro hd'
    have hd : c.shared.buffer.drained = false := by
      rw [Bool.eq_false_iff]
      intro hd
      exact absurd (hd'.symm.trans (hsound.drained hd)) nofun
    obtain ⟨hnothing, hquiet, hold⟩ := h.unmarked hd
    obtain ⟨rfl, hp'⟩ := htrans.undrained h.manned.plain hplain hd' (hquiet i p later hi)
    refine ⟨?_, ?_, ?_⟩
    · intro j
      simp [hnothing j]
    · intro j q rest hj
      rcases mem_replaced hj with ⟨-, heq⟩ | ⟨-, hj⟩
      · obtain ⟨rfl, rfl⟩ := List.cons.inj heq.symm
        exact hp'
      · exact hquiet j q rest hj
    · rw [hw', hs']
      rw [hw, hs] at hold
      exact hline.trans hold
  · intro hd' j
    cases hd : c.shared.buffer.drained with
    | true =>
        have hold := h.marked hd j
        by_cases hij : i = j
        · subst hij
          rw [if_pos rfl, List.append_assoc, reachOf_eq hself, hw', hs']
          rw [reachOf_eq hi, hw, hs] at hold
          exact ((htrans.reach_sublist hplain hd hnone).append_left _).trans hold
        · rw [if_neg hij, List.append_nil]
          exact ((hothers j hij).append_left _).trans hold
    | false =>
        -- the step sets the mark: nobody has handed over anything, and all entries are in line
        obtain ⟨hnothing, hquiet, hold⟩ := h.unmarked hd
        obtain ⟨rfl, rfl, -, -⟩ := htrans.of_marked hplain hd hd'
        have hhanded : (handed j ++ if i = j then
            [Effect.drained c.shared.buffer.scope].filterMap Effect.entry? else []) =
            ([] : List α) := by
          rw [hnothing j]
          split
          · rfl
          · rfl
        rw [hhanded, List.nil_append]
        rw [hw, hs] at hold
        by_cases hij : i = j
        · subst hij
          rw [reachOf_eq hself, hw', hs']
          exact hline.trans hold
        · have hreach := reachOf_sublist_line (hquiet j)
          rw [hw, hs] at hreach
          exact ((hothers j hij).trans hreach).trans hold

theorem InTurn.step (h : c.InTurn entries handed) (i : Nat) :
    (c.step i).InTurn entries
      (fun j => handed j ++ if i = j then (c.step i).emitted.drop c.emitted.length else []) := by
  have hnew : ∀ new, (c.step i).emitted = c.emitted ++ new →
      (c.step i).emitted.drop c.emitted.length = new := by
    intro new heq
    rw [heq, List.drop_left]
  have hsame : (fun j => handed j ++ if i = j then ([] : List α) else []) = handed := by
    funext j
    simp
  rcases c.step_cases i with heq | ⟨later, hi, heq⟩ | ⟨p, later, shared, p', effects, hi, hs, heq⟩
  · rw [hnew [] (by rw [heq, List.append_nil]), hsame, heq]
    exact h
  · have hdrop := h.drop hi
    rw [moved, List.append_nil, ← heq] at hdrop
    rw [hnew [] (by rw [heq, List.append_nil]; rfl), hsame]
    exact hdrop
  · have hmoved := h.advance hi hs
    rw [hnew _ (by rw [heq]; exact emitted_moved c i (p' :: later) shared effects), heq]
    exact hmoved

theorem InTurn.run (h : c.InTurn entries handed) (schedule : List Nat) :
    (c.run schedule).InTurn entries (fun j => handed j ++ handedBy j c schedule) := by
  induction schedule generalizing c handed with
  | nil => simpa [Crew.run, handedBy] using h
  | cons i rest ih =>
      have hrest := ih (h.step i)
      simp only [List.append_assoc] at hrest
      exact hrest

/-- What a caller has handed over is in order. -/
theorem InTurn.sublist (h : c.InTurn entries handed) (j : Nat) : (handed j).Sublist entries := by
  cases hd : c.shared.buffer.drained with
  | true => exact (List.sublist_append_left _ _).trans (h.marked hd j)
  | false =>
      rw [(h.unmarked hd).1 j]
      exact List.nil_sublist _

/-! ## At the start -/

/-- Each caller is at the beginning of its calls. -/
theorem oneAppender_phase {capacity : Nat} {hpos : 0 < capacity} {drains : List Nat}
    {own : List (Phase α)}
    (hi : (oneAppender capacity hpos entries drains).callers[i]? = some own) :
    ∀ q ∈ own, (i = 0 ∧ ∃ x, q = .finding x) ∨ q = .marking := by
  intro q hq
  cases i with
  | zero =>
      obtain rfl := Option.some.inj hi
      obtain ⟨call, hcall, rfl⟩ := List.mem_map.mp hq
      obtain ⟨x, -, rfl⟩ := List.mem_map.mp hcall
      exact .inl ⟨rfl, x, rfl⟩
  | succ i =>
      rw [oneAppender, start, List.map_cons, List.getElem?_cons_succ] at hi
      obtain ⟨calls, hcalls, rfl⟩ := List.mem_map.mp (List.mem_of_getElem? hi)
      obtain ⟨n, -, rfl⟩ := List.mem_map.mp hcalls
      obtain ⟨call, hcall, rfl⟩ := List.mem_map.mp hq
      rw [(List.mem_replicate.mp hcall).2]
      exact .inr rfl

theorem oneAppender_manned (capacity : Nat) (hpos : 0 < capacity) (entries : List α)
    (drains : List Nat) : (oneAppender capacity hpos entries drains).Manned where
  plain := ⟨StateWord.scope_armed StateWord.scopeBound_pos, nofun, nofun⟩
  phase_plain := by
    intro i p later hi
    rcases oneAppender_phase hi p List.mem_cons_self with ⟨-, x, rfl⟩ | rfl
    · trivial
    · trivial
  appends := by
    intro i p later hi hp
    rcases oneAppender_phase hi p List.mem_cons_self with ⟨hzero, -⟩ | rfl
    · exact hzero
    · exact absurd hp id
  later := fun i p later hi q hq => oneAppender_phase hi q (List.mem_cons_of_mem _ hq)

/-- All entries are still to be appended. -/
theorem oneAppender_line (capacity : Nat) (hpos : 0 < capacity) (entries : List α)
    (drains : List Nat) :
    (oneAppender capacity hpos entries drains).shared.line
      (oneAppender capacity hpos entries drains).spilled
      (oneAppender capacity hpos entries drains).waiting = entries := by
  have hwaiting : (oneAppender capacity hpos entries drains).waiting = entries := by
    simp [oneAppender, start, waiting, List.flatMap_map, BareCall.phase, Phase.waiting]
  have hspilled : (oneAppender capacity hpos entries drains).spilled = [] := by
    simp [oneAppender, start, spilled, BareCall.phase, Phase.spilled]
  rw [hwaiting, hspilled]
  rfl

theorem oneAppender_inTurn (capacity : Nat) (hpos : 0 < capacity) (entries : List α)
    (drains : List Nat) :
    (oneAppender capacity hpos entries drains).InTurn entries (fun _ => []) where
  manned := oneAppender_manned capacity hpos entries drains
  unmarked := by
    intro _
    refine ⟨fun _ => rfl, ?_, ?_⟩
    · intro i p later hi
      rcases oneAppender_phase hi p List.mem_cons_self with ⟨-, x, rfl⟩ | rfl
      · exact id
      · exact id
    · simp only [oneAppender_line, List.Sublist.refl]
  marked := fun hd => absurd (hd.symm.trans (StateWord.drained_armed 0)) nofun

end Crew

end LogAdmission
