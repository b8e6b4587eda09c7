import LogAdmission.Proofs.Buffer.Transitions
import LogAdmission.Proofs.Replaced

/-!
# Overlapping calls emit every entry once

Appends and drains of any number of callers on a buffer that belongs to no scope, step
by step. An entry is at every moment in exactly one place: in the hands of a caller, in
the buffer, or emitted (`Crew.Accounted.conserved`). Once the buffer is drained, whatever
it still holds has a caller that will come for it (`overflow_swept`, `queue_swept`), so
nothing is left when all calls have returned.
-/

namespace LogAdmission

variable {α : Type}

/-- A call on a buffer of which nothing but its entries is known to the caller. -/
inductive BareCall (α : Type) where
  | append (x : α)
  | drain

namespace BareCall

/-- Where a call begins. -/
def phase : BareCall α → Phase α
  | append x => .finding x
  | drain => .marking

/-- The entry that a call appends. -/
def entry? : BareCall α → Option α
  | append x => some x
  | drain => none

end BareCall

/-- The entry that an effect hands to its handler. -/
def Effect.entry? : Effect α → Option α
  | .emitted x => some x.entry
  | .drained _ => none

/-! ## What a call knows -/

namespace Phase

/-- The entries in the hands of a call. -/
def carried : Phase α → List α
  | finding x | checking _ x => [x]
  | passing x | pushing x | locking x | evicting x | handing _ x => [x.entry]
  | spilling x oldest => [x.entry, oldest.entry]
  | emitting _ taken => taken.map (·.entry)
  | _ => []

/-- A phase of an append or a drain, of scope zero only. -/
def Plain : Phase α → Prop
  | finding _ | marking | finished => True
  | checking scope _ | rechecking scope | taking scope | popping scope => scope = 0
  | passing x | pushing x | locking x | evicting x => x.scope = 0
  | spilling x oldest => x.scope = 0 ∧ oldest.scope = 0
  | emitting scope taken => scope = 0 ∧ ∀ x ∈ taken, x.scope = 0
  | handing scope x => scope = 0 ∧ x.scope = 0
  | switching _ | clearing _ | emptying _ | wiping _ | arming _ => False

/-- The call will take the overflow list of a drained buffer. -/
def ComesForOverflow : Phase α → Prop
  | pushing _ | locking _ | evicting _ | spilling _ _ | rechecking _ | taking _ => True
  | _ => False

/-- The call will empty the queue of a drained buffer. -/
def ComesForQueue : Phase α → Prop
  | emitting _ _ | popping _ | handing _ _ => True
  | p => p.ComesForOverflow

end Phase

namespace SharedBuffer

/-- A buffer of scope zero with entries of scope zero only. -/
structure Plain (b : SharedBuffer α) : Prop where
  scope_eq : b.buffer.scope = 0
  queue : ∀ x ∈ b.buffer.queue, x.scope = 0
  overflow : ∀ x ∈ b.buffer.overflow, x.scope = 0

/-- The entries in the buffer. -/
def stored (b : SharedBuffer α) : List α :=
  b.buffer.pending.map (·.entry)

/-- The second look at the state word of such a buffer finds out whether it is drained. -/
theorem Plain.state_eq_iff {b : SharedBuffer α} (h : b.Plain) :
    b.buffer.state = (StateWord.armed 0).mark ↔ b.buffer.drained = true := by
  rw [StateWord.eq_mark_armed_iff StateWord.scopeBound_pos]
  exact ⟨fun hw => hw.2, fun hd => ⟨h.scope_eq, hd⟩⟩

/-- What one step of a call brings about. -/
structure Sound (b : SharedBuffer α) (p : Phase α) (b' : SharedBuffer α) (p' : Phase α)
    (effects : List (Effect α)) : Prop where
  plain : b'.Plain
  phase_plain : p'.Plain
  conserved : (p'.carried ++ b'.stored ++ effects.filterMap Effect.entry?).Perm
    (p.carried ++ b.stored)
  drained : b.buffer.drained = true → b'.buffer.drained = true
  marked : p = .marking → b'.buffer.drained = true
  overflow : b'.buffer.drained = true → b'.buffer.overflow ≠ [] →
    p'.ComesForOverflow ∨
      (¬ p.ComesForOverflow ∧ b.buffer.drained = true ∧ b.buffer.overflow ≠ [])
  queue : b'.buffer.drained = true → b'.buffer.queue ≠ [] →
    p'.ComesForQueue ∨ (¬ p.ComesForQueue ∧ b.buffer.drained = true ∧ b.buffer.queue ≠ [])

/-- A step that leaves the buffer as it is. -/
theorem Sound.of_buffer_eq {b b' : SharedBuffer α} {p p' : Phase α} {effects : List (Effect α)}
    (hb : b.Plain) (heq : b'.buffer = b.buffer) (hp' : p'.Plain)
    (hc : (p'.carried ++ effects.filterMap Effect.entry?).Perm p.carried)
    (hm : p = .marking → b.buffer.drained = true)
    (hover : b.buffer.drained = true → p.ComesForOverflow → p'.ComesForOverflow)
    (hqueue : b.buffer.drained = true → p.ComesForQueue → p'.ComesForQueue) :
    b.Sound p b' p' effects where
  plain := ⟨heq ▸ hb.scope_eq, heq ▸ hb.queue, heq ▸ hb.overflow⟩
  phase_plain := hp'
  conserved := by
    have hstored : b'.stored = b.stored := by rw [stored, stored, heq]
    rw [hstored, List.append_assoc]
    calc
      (p'.carried ++ (b.stored ++ effects.filterMap Effect.entry?)).Perm
          (p'.carried ++ (effects.filterMap Effect.entry? ++ b.stored)) :=
        List.Perm.append_left _ List.perm_append_comm
      _ = p'.carried ++ effects.filterMap Effect.entry? ++ b.stored :=
        (List.append_assoc _ _ _).symm
      List.Perm _ (p.carried ++ b.stored) := hc.append_right _
  drained := fun hd => heq ▸ hd
  marked := fun h => heq ▸ hm h
  overflow := by
    rw [heq]
    intro hd hne
    by_cases h : p.ComesForOverflow
    · exact .inl (hover hd h)
    · exact .inr ⟨h, hd, hne⟩
  queue := by
    rw [heq]
    intro hd hne
    by_cases h : p.ComesForQueue
    · exact .inl (hqueue hd h)
    · exact .inr ⟨h, hd, hne⟩

open Phase

variable {b b' : SharedBuffer α} {p p' : Phase α} {effects : List (Effect α)}

/-- Who has pushed an entry looks at the state word again, and comes for what a drained
buffer holds. -/
theorem Sound.push (hb : b.Plain) {x : Tagged α} (hx : x.scope = 0) :
    b.Sound (.pushing x) (b.update fun c => { c with queue := c.queue ++ [x] })
      (.rechecking x.scope) [] where
  plain := by
    refine ⟨hb.scope_eq, ?_, hb.overflow⟩
    intro y hy
    rcases List.mem_append.mp hy with hold | hnew
    · exact hb.queue y hold
    · exact List.mem_singleton.mp hnew ▸ hx
  phase_plain := hx
  conserved := by
    simp only [carried, stored, update, RecordBuffer.pending, List.map_append, List.map_cons,
      List.map_nil, List.filterMap_nil, List.append_nil, List.nil_append, ← List.append_assoc]
    exact List.perm_append_singleton _ _
  drained := id
  marked := nofun
  overflow _ _ := .inl trivial
  queue _ _ := .inl trivial

/-- Between the pop and the push onto the overflow list the entry is in the hands of the
caller that spills it. -/
theorem Sound.evict (hb : b.Plain) {x oldest : Tagged α} {rest : List (Tagged α)}
    (hx : x.scope = 0) (hqueue : b.buffer.queue = oldest :: rest) :
    b.Sound (.evicting x) (b.update fun c => { c with queue := rest }) (.spilling x oldest)
      [] where
  plain := ⟨hb.scope_eq, fun y hy => hb.queue y (hqueue ▸ List.mem_cons_of_mem _ hy), hb.overflow⟩
  phase_plain := ⟨hx, hb.queue oldest (hqueue ▸ List.mem_cons_self)⟩
  conserved := by
    simp [carried, stored, update, RecordBuffer.pending, hqueue, List.perm_middle.symm]
  drained := id
  marked := nofun
  overflow _ _ := .inl trivial
  queue _ _ := .inl trivial

theorem Sound.spill (hb : b.Plain) {x oldest : Tagged α} (hx : x.scope = 0)
    (holdest : oldest.scope = 0) :
    b.Sound (.spilling x oldest)
      { buffer := { b.buffer with overflow := b.buffer.overflow ++ [oldest] }, holder := none }
      (.pushing x) [] where
  plain := by
    refine ⟨hb.scope_eq, hb.queue, ?_⟩
    intro y hy
    rcases List.mem_append.mp hy with hold | hnew
    · exact hb.overflow y hold
    · exact List.mem_singleton.mp hnew ▸ holdest
  phase_plain := hx
  conserved := by
    simp [carried, stored, RecordBuffer.pending, List.perm_middle]
  drained := id
  marked := nofun
  overflow _ _ := .inl trivial
  queue _ _ := .inl trivial

/-- Who sets the drained mark comes for everything. -/
theorem Sound.mark (hb : b.Plain) :
    b.Sound .marking (b.update fun c => { c with state := c.state.mark })
      (.taking b.buffer.scope) [.drained b.buffer.scope] where
  plain := ⟨(StateWord.scope_mark _).trans hb.scope_eq, hb.queue, hb.overflow⟩
  phase_plain := hb.scope_eq
  conserved := by
    simp [carried, stored, update, RecordBuffer.pending, List.filterMap_cons, Effect.entry?]
  drained _ := StateWord.drained_mark _
  marked _ := StateWord.drained_mark _
  overflow _ _ := .inl trivial
  queue _ _ := .inl trivial

/-- A flush that has taken the overflow list still comes for the queue. -/
theorem Sound.take (hb : b.Plain) :
    b.Sound (.taking 0) (b.update fun c => { c with overflow := [] })
      (.emitting 0 b.buffer.overflow) [] where
  plain := ⟨hb.scope_eq, hb.queue, nofun⟩
  phase_plain := ⟨rfl, hb.overflow⟩
  conserved := by
    simp [carried, stored, update, RecordBuffer.pending]
  drained := id
  marked := nofun
  overflow _ hne := absurd rfl hne
  queue _ _ := .inl trivial

theorem Sound.pop (hb : b.Plain) {x : Tagged α} {rest : List (Tagged α)}
    (hqueue : b.buffer.queue = x :: rest) :
    b.Sound (.popping 0) (b.update fun c => { c with queue := rest }) (.handing 0 x) [] where
  plain := ⟨hb.scope_eq, fun y hy => hb.queue y (hqueue ▸ List.mem_cons_of_mem _ hy), hb.overflow⟩
  phase_plain := ⟨rfl, hb.queue x (hqueue ▸ List.mem_cons_self)⟩
  conserved := by
    simp [carried, stored, update, RecordBuffer.pending, hqueue, List.perm_middle.symm]
  drained := id
  marked := nofun
  overflow hd hne := .inr ⟨id, hd, hne⟩
  queue _ _ := .inl trivial

/-- A flush ends when it finds the queue empty. -/
theorem Sound.leave (hb : b.Plain) (hqueue : b.buffer.queue = []) :
    b.Sound (.popping 0) b .finished [] where
  plain := hb
  phase_plain := trivial
  conserved := by simp [carried]
  drained := id
  marked := nofun
  overflow hd hne := .inr ⟨id, hd, hne⟩
  queue _ hne := absurd hqueue hne

/-- Every step of an append or a drain is sound. -/
theorem step_sound {me : Nat} (hb : b.Plain) (hp : p.Plain)
    (h : b.step me p = some (b', p', effects)) : b.Sound p b' p' effects := by
  cases transition_of_step h with
  | find x =>
      exact .of_buffer_eq hb rfl hb.scope_eq (.refl _) (by simp) (fun _ h => h) (fun _ h => h)
  | turnAway scope x hscope =>
      obtain rfl : scope = 0 := hp
      exact absurd hb.scope_eq hscope
  | forward scope x =>
      exact .of_buffer_eq hb rfl hp (.refl _) (by simp) (fun _ => False.elim) (fun _ => False.elim)
  | accept scope x =>
      exact .of_buffer_eq hb rfl hp (.refl _) (by simp) (fun _ => False.elim) (fun _ => False.elim)
  | pass x =>
      exact .of_buffer_eq hb rfl trivial (.refl _) (by simp) (fun _ h => h) (fun _ h => h)
  | push x => exact .push hb hp
  | findFull | lock | unlock | catchUp =>
      exact .of_buffer_eq hb rfl hp (.refl _) (by simp) (fun _ h => h) (fun _ h => h)
  | evict x oldest rest hqueue => exact .evict hb hp hqueue
  | spill x oldest => exact .spill hb hp.1 hp.2
  | settle scope hstate =>
      obtain rfl : scope = 0 := hp
      rw [ne_eq, hb.state_eq_iff] at hstate
      -- nobody needs to come as long as the buffer is not drained
      exact .of_buffer_eq hb rfl trivial (.refl _) (by simp)
        (fun hd => absurd hd hstate) (fun hd => absurd hd hstate)
  | findMarked hdrained =>
      exact .of_buffer_eq hb rfl trivial (.refl _) (fun _ => hdrained) (fun _ => False.elim)
        (fun _ => False.elim)
  | mark => exact .mark hb
  | take scope =>
      obtain rfl : scope = 0 := hp
      exact .take hb
  | emptied scope =>
      exact .of_buffer_eq hb rfl hp.1 (.refl _) (by simp) (fun _ => False.elim) (fun _ h => h)
  | emit scope x rest =>
      refine .of_buffer_eq hb rfl ⟨hp.1, fun y hy => hp.2 y (List.mem_cons_of_mem _ hy)⟩ ?_
        (by simp) (fun _ => False.elim) (fun _ h => h)
      exact List.perm_append_singleton _ _
  | skip scope x rest hscope =>
      exact absurd ((hp.2 x List.mem_cons_self).trans hp.1.symm) hscope
  | leave scope hempty =>
      obtain rfl : scope = 0 := hp
      exact .leave hb hempty
  | pop scope x rest hqueue =>
      obtain rfl : scope = 0 := hp
      exact .pop hb hqueue
  | popOther scope x rest hqueue hscope =>
      obtain rfl : scope = 0 := hp
      exact absurd (hb.queue x (hqueue ▸ List.mem_cons_self)) hscope
  | hand scope x =>
      exact .of_buffer_eq hb rfl hp.1 (.refl _) (by simp) (fun _ => False.elim) (fun _ h => h)
  | switch | findSwitched | clear | discard | discarded | wipe | wipeFor | arm =>
      exact absurd hp id

end SharedBuffer

/-! ## What a crew keeps -/

namespace Crew

/-- The callers at the beginning, each with its calls, and a new buffer. -/
def start (capacity : Nat) (hpos : 0 < capacity) (calls : List (List (BareCall α))) : Crew α :=
  { shared := { buffer := .ofCapacity capacity hpos }
    callers := calls.map fun own => own.map BareCall.phase }

/-- The entries in the hands of the callers, those of later calls included. -/
def carried (c : Crew α) : List α :=
  c.callers.flatMap fun own => own.flatMap Phase.carried

/-- Some caller is in a phase of the given kind. -/
def HasCaller (c : Crew α) (kind : Phase α → Prop) : Prop :=
  ∃ (i : Nat) (p : Phase α) (later : List (Phase α)),
    c.callers[i]? = some (p :: later) ∧ kind p

/-- What every step of a crew keeps: no entry is lost or doubled, and whatever a drained
buffer holds has a caller that comes for it. -/
structure Accounted (all : List α) (c : Crew α) : Prop where
  plain : c.shared.Plain
  phases_plain : ∀ own ∈ c.callers, ∀ p ∈ own, p.Plain
  conserved : (c.carried ++ c.shared.stored ++ c.emitted).Perm all
  overflow_swept : c.shared.buffer.drained = true → c.shared.buffer.overflow ≠ [] →
    c.HasCaller Phase.ComesForOverflow
  queue_swept : c.shared.buffer.drained = true → c.shared.buffer.queue ≠ [] →
    c.HasCaller Phase.ComesForQueue
  drain_comes : c.shared.buffer.drained = true ∨ ∃ own ∈ c.callers, .marking ∈ own

theorem emitted_eq (c : Crew α) : c.emitted = c.history.filterMap Effect.entry? := rfl

/-- A step of a crew: none, the end of a call, or a step of a call. -/
theorem step_cases (c : Crew α) (i : Nat) :
    c.step i = c ∨
    (∃ later, c.callers[i]? = some (.finished :: later) ∧
      c.step i = { c with callers := c.callers.set i later }) ∨
    (∃ p later shared p' effects, c.callers[i]? = some (p :: later) ∧
      c.shared.step i p = some (shared, p', effects) ∧
      c.step i =
        { shared := shared
          callers := c.callers.set i (p' :: later)
          history := c.history ++ effects }) := by
  unfold step
  split
  · rename_i later hi
    exact .inr (.inl ⟨later, hi, rfl⟩)
  · rename_i p later hnot hi
    cases hs : c.shared.step i p with
    | none => exact .inl rfl
    | some result =>
        obtain ⟨shared, p', effects⟩ := result
        exact .inr (.inr ⟨p, later, shared, p', effects, hi, hs, rfl⟩)
  · exact .inl rfl

variable {all : List α} {c c' : Crew α} {i : Nat}

/-- A caller in a phase of a kind is still there after another one has moved on. -/
theorem HasCaller.set {kind : Phase α → Prop} {p : Phase α} {later new : List (Phase α)}
    (h : c.HasCaller kind) (hi : c.callers[i]? = some (p :: later)) (hp : ¬ kind p)
    (hc' : c'.callers = c.callers.set i new) : c'.HasCaller kind := by
  obtain ⟨j, q, rest, hj, hq⟩ := h
  -- the caller that moved on is not the one that comes, for its phase is of another kind
  refine ⟨j, q, rest, ?_, hq⟩
  have hne : i ≠ j := by
    rintro rfl
    rw [hi] at hj
    injection hj with hj
    injection hj with hpq
    exact hp (hpq ▸ hq)
  rw [hc', List.getElem?_set_ne hne, hj]

/-- A caller with a drain before it keeps it while others, or its earlier calls, go on. -/
theorem marking_set {p : Phase α} {later : List (Phase α)} (front : List (Phase α))
    (hi : c.callers[i]? = some (p :: later)) (hp : p ≠ .marking)
    (h : ∃ own ∈ c.callers, .marking ∈ own) :
    ∃ own ∈ c.callers.set i (front ++ later), .marking ∈ own := by
  obtain ⟨own, hown, hmark⟩ := h
  obtain ⟨j, hj⟩ := List.mem_iff_getElem?.mp hown
  by_cases hij : i = j
  · subst hij
    rw [hi] at hj
    injection hj with hj
    subst hj
    refine ⟨front ++ later, List.mem_iff_getElem?.mpr ⟨i, getElem?_replaced _ hi⟩, ?_⟩
    rcases List.mem_cons.mp hmark with heq | hlater
    · exact absurd heq.symm hp
    · exact List.mem_append_right _ hlater
  · refine ⟨own, List.mem_iff_getElem?.mpr ⟨j, ?_⟩, hmark⟩
    rw [List.getElem?_set_ne hij, hj]

/-- The end of a call changes nothing of it. -/
theorem Accounted.drop (h : c.Accounted all) {later : List (Phase α)}
    (hi : c.callers[i]? = some (.finished :: later)) :
    ({ c with callers := c.callers.set i later } : Crew α).Accounted all where
  plain := h.plain
  phases_plain := by
    intro own hown
    rcases List.mem_or_eq_of_mem_set hown with hown | rfl
    · exact h.phases_plain own hown
    · intro q hq
      exact h.phases_plain _ (List.mem_of_getElem? hi) q (List.mem_cons_of_mem _ hq)
  conserved := by
    have hset := flatMap_replaced (fun own => own.flatMap Phase.carried) later hi
    have hcarried : ((c.callers.set i later).flatMap fun own => own.flatMap Phase.carried).Perm
        c.carried := (List.perm_append_left_iff (later.flatMap Phase.carried)).mp hset
    exact ((hcarried.append_right _).append_right _).trans h.conserved
  overflow_swept := fun hd hne => (h.overflow_swept hd hne).set hi id rfl
  queue_swept := fun hd hne => (h.queue_swept hd hne).set hi id rfl
  drain_comes := h.drain_comes.imp_right (marking_set [] hi nofun)

/-- A step of a call keeps the account. -/
theorem Accounted.advance (h : c.Accounted all) {p p' : Phase α} {later : List (Phase α)}
    {shared : SharedBuffer α} {effects : List (Effect α)}
    (hi : c.callers[i]? = some (p :: later))
    (hstep : c.shared.step i p = some (shared, p', effects)) :
    ({ shared := shared
       callers := c.callers.set i (p' :: later)
       history := c.history ++ effects } : Crew α).Accounted all := by
  have hmem := List.mem_of_getElem? hi
  have hsound : c.shared.Sound p shared p' effects :=
    SharedBuffer.step_sound h.plain (h.phases_plain _ hmem p List.mem_cons_self) hstep
  have hhere : (c.callers.set i (p' :: later))[i]? = some (p' :: later) :=
    getElem?_replaced _ hi
  refine ⟨hsound.plain, ?_, ?_, ?_, ?_, ?_⟩
  · intro own hown
    rcases List.mem_or_eq_of_mem_set hown with hown | rfl
    · exact h.phases_plain own hown
    · intro q hq
      rcases List.mem_cons.mp hq with rfl | hq
      · exact hsound.phase_plain
      · exact h.phases_plain _ hmem q (List.mem_cons_of_mem _ hq)
  · -- counting one entry: what the caller gave up has gone to the buffer or been emitted
    classical
    have hset := flatMap_replaced (fun own => own.flatMap Phase.carried) (p' :: later) hi
    have hcons := hsound.conserved
    have hall := h.conserved
    rw [emitted_eq] at hall ⊢
    rw [List.perm_iff_count] at hset hcons hall ⊢
    intro a
    have h1 := hset a
    have h2 := hcons a
    have h3 := hall a
    simp only [carried, List.flatMap_cons, List.count_append, List.filterMap_append] at h1 h2 h3 ⊢
    omega
  · -- either this caller comes for the overflow, or it did not before and somebody else does
    intro hd hne
    rcases hsound.overflow hd hne with hp' | ⟨hp, hd, hne⟩
    · exact ⟨i, p', later, hhere, hp'⟩
    · exact (h.overflow_swept hd hne).set hi hp rfl
  · intro hd hne
    rcases hsound.queue hd hne with hp' | ⟨hp, hd, hne⟩
    · exact ⟨i, p', later, hhere, hp'⟩
    · exact (h.queue_swept hd hne).set hi hp rfl
  · -- the drain that is to come is not lost before it has set the mark
    rcases h.drain_comes with hd | hmark
    · exact .inl (hsound.drained hd)
    · by_cases hp : p = .marking
      · exact .inl (hsound.marked hp)
      · exact .inr (marking_set [p'] hi hp hmark)

theorem Accounted.step (h : c.Accounted all) (i : Nat) : (c.step i).Accounted all := by
  rcases c.step_cases i with heq | ⟨later, hi, heq⟩ | ⟨p, later, shared, p', effects, hi, hs, heq⟩
  · rw [heq]
    exact h
  · rw [heq]
    exact h.drop hi
  · rw [heq]
    exact h.advance hi hs

theorem Accounted.run (h : c.Accounted all) (schedule : List Nat) :
    (c.run schedule).Accounted all := by
  induction schedule generalizing c with
  | nil => exact h
  | cons i rest ih => exact ih (h.step i)

/-! ## From the first step to the last -/

theorem flatMap_phase_carried (own : List (BareCall α)) :
    own.flatMap (fun call => call.phase.carried) = own.filterMap BareCall.entry? := by
  induction own with
  | nil => rfl
  | cons call rest ih =>
      rw [List.flatMap_cons, ih]
      cases call <;> rfl

theorem start_accounted (capacity : Nat) (hpos : 0 < capacity)
    {calls : List (List (BareCall α))} (hdrain : ∃ own ∈ calls, .drain ∈ own) :
    (start capacity hpos calls).Accounted
      (calls.flatMap fun own => own.filterMap BareCall.entry?) where
  plain := ⟨StateWord.scope_armed StateWord.scopeBound_pos, nofun, nofun⟩
  phases_plain := by
    intro own hown p hp
    obtain ⟨tasks, -, rfl⟩ := List.mem_map.mp hown
    obtain ⟨call, -, rfl⟩ := List.mem_map.mp hp
    cases call <;> trivial
  conserved := by
    have hcarried : (start capacity hpos calls).carried =
        calls.flatMap fun own => own.filterMap BareCall.entry? := by
      simp only [start, carried, List.flatMap_map, flatMap_phase_carried]
    rw [hcarried]
    simp [start, SharedBuffer.stored, RecordBuffer.pending, RecordBuffer.ofCapacity, emitted]
  overflow_swept := fun _ hne => absurd rfl hne
  queue_swept := fun _ hne => absurd rfl hne
  drain_comes := by
    obtain ⟨own, hown, hmem⟩ := hdrain
    exact .inr ⟨own.map BareCall.phase, List.mem_map_of_mem hown,
      List.mem_map.mpr ⟨.drain, hmem, rfl⟩⟩

/-- A crew that has finished has no caller in any phase. -/
theorem callers_of_finished (h : c.finished = true) : ∀ own ∈ c.callers, own = [] := by
  intro own hown
  exact List.isEmpty_iff.mp (List.all_eq_true.mp h own hown)

theorem not_hasCaller_of_finished (h : c.finished = true) (kind : Phase α → Prop) :
    ¬ c.HasCaller kind := by
  rintro ⟨i, p, later, hi, -⟩
  exact absurd (callers_of_finished h _ (List.mem_of_getElem? hi)) nofun

/-- When all calls have returned the buffer is drained, and nobody comes for what it would
still hold: it is empty, and every entry has been emitted. -/
theorem Accounted.of_finished (h : c.Accounted all) (hdone : c.finished = true) :
    c.emitted.Perm all ∧ c.shared.buffer.queue = [] ∧ c.shared.buffer.overflow = [] := by
  have hd : c.shared.buffer.drained = true := by
    rcases h.drain_comes with hd | ⟨own, hown, hmark⟩
    · exact hd
    · rw [callers_of_finished hdone own hown] at hmark
      exact absurd hmark nofun
  have hqueue : c.shared.buffer.queue = [] := by
    apply Classical.byContradiction
    intro hne
    exact not_hasCaller_of_finished hdone _ (h.queue_swept hd hne)
  have hover : c.shared.buffer.overflow = [] := by
    apply Classical.byContradiction
    intro hne
    exact not_hasCaller_of_finished hdone _ (h.overflow_swept hd hne)
  have hcarried : c.carried = [] := by
    rw [carried, List.flatMap_eq_nil_iff]
    intro own hown
    rw [callers_of_finished hdone own hown]
    rfl
  refine ⟨?_, hqueue, hover⟩
  have hall := h.conserved
  simpa [hcarried, SharedBuffer.stored, RecordBuffer.pending, hqueue, hover] using hall

/-- **Appends beside drains emit every entry exactly once.** Whatever calls any number of
callers make, one drain at least among them, and however their steps interleave: when all
calls have returned, the entries handed to their handlers are those appended, each as
often as it was appended, and the buffer is empty. -/
theorem overlapping_emit_once (capacity : Nat) (hpos : 0 < capacity)
    (calls : List (List (BareCall α))) (hdrain : ∃ own ∈ calls, .drain ∈ own)
    (schedule : List Nat) (hdone : ((start capacity hpos calls).run schedule).finished = true) :
    let c := (start capacity hpos calls).run schedule
    c.emitted.Perm (calls.flatMap fun own => own.filterMap BareCall.entry?) ∧
      c.shared.buffer.queue = [] ∧ c.shared.buffer.overflow = [] :=
  ((start_accounted capacity hpos hdrain).run schedule).of_finished hdone

/-- Two callers that append beside one that drains. -/
def lateCalls : List (List (BareCall Nat)) := [[.append 1, .append 2], [.append 3], [.drain]]

/-- Both appends look at the state word before the drain sets its mark and push after it. -/
def lateSchedule : List Nat :=
  [0, 0, 1, 1] ++ List.replicate 5 2 ++ [1, 0, 0, 0, 0] ++ (List.replicate 20 [0, 1]).flatten

/-- A queue of one place. One of the late appends spills the entry of the other, and each
flushes what it finds. -/
theorem overlapping_emit_once_late_appends :
    (∃ own ∈ lateCalls, .drain ∈ own) ∧
      ((start 1 Nat.one_pos lateCalls).run lateSchedule).finished = true ∧
      ((start 1 Nat.one_pos lateCalls).run lateSchedule).emitted.Perm [1, 2, 3] ∧
      ((start 1 Nat.one_pos lateCalls).run lateSchedule).shared.buffer.queue = [] ∧
      ((start 1 Nat.one_pos lateCalls).run lateSchedule).shared.buffer.overflow = [] := by
  have hdrain : ∃ own ∈ lateCalls, .drain ∈ own := ⟨[.drain], by simp [lateCalls]⟩
  have hdone : ((start 1 Nat.one_pos lateCalls).run lateSchedule).finished = true := by
    decide +kernel
  have hall : (lateCalls.flatMap fun own => own.filterMap BareCall.entry?) = [1, 2, 3] := rfl
  have hempty := overlapping_emit_once 1 Nat.one_pos lateCalls hdrain lateSchedule hdone
  rw [hall] at hempty
  exact ⟨hdrain, hdone, hempty⟩

end Crew

end LogAdmission
