import LogAdmission.Proofs.Pool.Account
import LogAdmission.Proofs.Pool.Ownership

/-!
# What a drained scope delivers

A scope may lose entries to calls that its buffer has kept from an earlier scope: a flush of
the earlier scope discards whatever it finds under another tag, and an append may spill an
entry into the overflow list when the flush of the scope has taken that already. Other calls
of earlier scopes do no harm, not even those that push late entries into the queue. If no
spill and no flush of another scope is under way on the buffer while the scope has it, then
its drain delivers every entry exactly once (`Served`).
-/

namespace LogAdmission

variable {α : Type}

namespace Phase

/-- The call will take the overflow list of a buffer drained for the scope. -/
def SweepsOverflow (scope : Nat) : Phase α → Prop
  | pushing x | locking x | evicting x | spilling x _ => x.scope = scope
  | rechecking k | taking k => k = scope
  | _ => False

/-- The call will empty the queue of a buffer drained for the scope. -/
def SweepsQueue (scope : Nat) : Phase α → Prop
  | emitting k _ | popping k | handing k _ => k = scope
  | p => p.SweepsOverflow scope

/-- A spill or a flush of another scope. -/
def disturbs (scope : Nat) : Phase α → Bool
  | evicting x | spilling x _ => x.scope ≠ scope
  | taking k | emitting k _ | popping k | handing k _ => k ≠ scope
  | _ => false

end Phase

namespace SharedBuffer

open Phase

/-- The state word is that of the scope, before or after its drain. -/
def Serves (scope : Nat) (b : SharedBuffer α) : Prop :=
  b.buffer.state = .armed scope ∨ b.buffer.state = (StateWord.armed scope).mark

/-- What a step leaves to a scope that has the buffer. -/
structure Spares (scope : Nat) (b : SharedBuffer α) (p : Phase α) (b' : SharedBuffer α)
    (p' : Phase α) (effects : List (Effect α)) : Prop where
  serves : b'.Serves scope
  marked : b.buffer.state = (StateWord.armed scope).mark ∨ .drained scope ∈ effects →
    b'.buffer.state = (StateWord.armed scope).mark
  overflow : b'.buffer.state = (StateWord.armed scope).mark →
    (∃ x ∈ b'.buffer.overflow, x.scope = scope) →
      p'.SweepsOverflow scope ∨
        (¬ p.SweepsOverflow scope ∧ b.buffer.state = (StateWord.armed scope).mark ∧
          ∃ x ∈ b.buffer.overflow, x.scope = scope)
  queue : b'.buffer.state = (StateWord.armed scope).mark →
    (∃ x ∈ b'.buffer.queue, x.scope = scope) →
      p'.SweepsQueue scope ∨
        (¬ p.SweepsQueue scope ∧ b.buffer.state = (StateWord.armed scope).mark ∧
          ∃ x ∈ b.buffer.queue, x.scope = scope)

variable {me : Nat} {b b' : SharedBuffer α} {p p' : Phase α} {effects : List (Effect α)}
  {scope : Nat} {given : Nat → Prop}

/-- A step that changes neither the word nor adds entries of the scope, and after which the
call goes on to sweep the buffer if it did before. -/
theorem Spares.of_state_eq (hb : b.Serves scope) (hstate : b'.buffer.state = b.buffer.state)
    (heffects : .drained scope ∉ effects)
    (hover : b.buffer.state = (StateWord.armed scope).mark →
      (∃ x ∈ b'.buffer.overflow, x.scope = scope) → p'.SweepsOverflow scope ∨
        (¬ p.SweepsOverflow scope ∧ ∃ x ∈ b.buffer.overflow, x.scope = scope))
    (hqueue : b.buffer.state = (StateWord.armed scope).mark →
      (∃ x ∈ b'.buffer.queue, x.scope = scope) → p'.SweepsQueue scope ∨
        (¬ p.SweepsQueue scope ∧ ∃ x ∈ b.buffer.queue, x.scope = scope)) :
    b.Spares scope p b' p' effects where
  serves := by rwa [Serves, hstate]
  marked := by
    rw [hstate]
    exact fun h => h.resolve_right heffects
  overflow := by
    rw [hstate]
    exact fun hm hx => (hover hm hx).imp_right fun ⟨hp, hx⟩ => ⟨hp, hm, hx⟩
  queue := by
    rw [hstate]
    exact fun hm hx => (hqueue hm hx).imp_right fun ⟨hp, hx⟩ => ⟨hp, hm, hx⟩

/-- A step that leaves the buffer as it is. -/
theorem Spares.of_same (hb : b.Serves scope) (hstate : b'.buffer = b.buffer)
    (heffects : .drained scope ∉ effects)
    (hover : b.buffer.state = (StateWord.armed scope).mark →
      p.SweepsOverflow scope → p'.SweepsOverflow scope)
    (hqueue : b.buffer.state = (StateWord.armed scope).mark →
      p.SweepsQueue scope → p'.SweepsQueue scope) :
    b.Spares scope p b' p' effects := by
  refine .of_state_eq hb (congrArg RecordBuffer.state hstate) heffects ?_ ?_
  · intro hm hx
    rw [hstate] at hx
    by_cases hp : p.SweepsOverflow scope
    · exact .inl (hover hm hp)
    · exact .inr ⟨hp, hx⟩
  · intro hm hx
    rw [hstate] at hx
    by_cases hp : p.SweepsQueue scope
    · exact .inl (hqueue hm hp)
    · exact .inr ⟨hp, hx⟩

/-- A call that neither spills nor flushes for another scope spares the scope. -/
theorem Transition.spares (h : b.Transition me p b' p' effects) (hb : b.Serves scope)
    (hscope : scope < StateWord.scopeBound) (hp : p.Within given)
    (hgiven : ∀ k, given k → k < StateWord.scopeBound) (hcalm : p.disturbs scope = false) :
    b.Spares scope p b' p' effects := by
  cases h with
  | turnAway | forward | accept | pass | findSwitched =>
      exact .of_same hb rfl (by simp) (fun _ h => absurd h id) (fun _ h => absurd h id)
  | findFull | lock | unlock | catchUp =>
      exact .of_same hb rfl (by simp) (fun _ h => h) (fun _ h => h)
  | settle k hstate =>
      -- the scope itself finds out that its buffer has been drained
      exact .of_same hb rfl (by simp) (fun hm h => absurd (h ▸ hm) hstate)
        (fun hm h => absurd (h ▸ hm) hstate)
  | emptied | emit | skip | hand =>
      exact .of_same hb rfl (by simp) (fun _ h => absurd h id) (fun _ h => h)
  | push x hroom =>
      refine .of_state_eq hb rfl (by simp) ?_ ?_
      · intro _ hx
        by_cases hown : x.scope = scope
        · exact .inl hown
        · exact .inr ⟨hown, hx⟩
      · rintro - ⟨y, hy, heq⟩
        by_cases hown : x.scope = scope
        · exact .inl hown
        · rcases List.mem_append.mp hy with hold | hnew
          · exact .inr ⟨hown, y, hold, heq⟩
          · exact absurd (List.mem_singleton.mp hnew ▸ heq) hown
  | evict x oldest rest hqueue =>
      have hown : x.scope = scope := Decidable.not_not.mp (of_decide_eq_false hcalm)
      exact .of_state_eq hb rfl (by simp) (fun _ _ => .inl hown) (fun _ _ => .inl hown)
  | spill x oldest =>
      have hown : x.scope = scope := Decidable.not_not.mp (of_decide_eq_false hcalm)
      exact .of_state_eq hb rfl (by simp) (fun _ _ => .inl hown) (fun _ _ => .inl hown)
  | switch k hstate =>
      -- only the scope itself drains its buffer
      have hown : k = scope := by
        rw [Serves, hstate] at hb
        rcases hb with heq | heq
        · have hparts := (StateWord.eq_armed_iff hscope).mp heq
          rw [StateWord.scope_armed (hgiven k hp)] at hparts
          exact hparts.1
        · have hparts := (StateWord.eq_mark_armed_iff hscope).mp heq
          exact absurd ((StateWord.drained_armed k).symm.trans hparts.2) nofun
      have hmark : b.buffer.state.mark = (StateWord.armed scope).mark := by rw [hstate, hown]
      exact ⟨.inr hmark, fun _ => hmark, fun _ _ => .inl hown, fun _ _ => .inl hown⟩
  | take k hfree =>
      have hown : k = scope := Decidable.not_not.mp (of_decide_eq_false hcalm)
      exact .of_state_eq hb rfl (by simp) (fun _ ⟨_, hx, _⟩ => absurd hx nofun)
        (fun _ _ => .inl hown)
  | leave k hempty =>
      exact .of_state_eq hb rfl (by simp) (fun _ hx => .inr ⟨id, hx⟩)
        (fun _ ⟨_, hx, _⟩ => absurd (hempty ▸ hx) nofun)
  | pop k x rest hqueue hx =>
      have hown : k = scope := Decidable.not_not.mp (of_decide_eq_false hcalm)
      exact .of_state_eq hb rfl (by simp) (fun _ hx => .inr ⟨id, hx⟩) (fun _ _ => .inl hown)
  | popOther k x rest hqueue hx =>
      have hown : k = scope := Decidable.not_not.mp (of_decide_eq_false hcalm)
      exact .of_state_eq hb rfl (by simp) (fun _ hx => .inr ⟨id, hx⟩) (fun _ _ => .inl hown)
  | find | findMarked | mark | clear | discard | discarded | wipe | wipeFor | arm =>
      exact absurd hp id

/-- What such a call drops is not of the scope. -/
theorem loss_spares (hb : b.Serves scope) (hscope : scope < StateWord.scopeBound)
    (hp : p.Within given) (hcalm : p.disturbs scope = false) {x : Tagged α} (hx : x ∈ b.loss p) :
    x.scope ≠ scope := by
  have hown : b.buffer.scope = scope := by
    show b.buffer.state.scope = scope
    rcases hb with heq | heq
    · rw [heq, StateWord.scope_armed hscope]
    · rw [heq, StateWord.scope_mark, StateWord.scope_armed hscope]
  cases p with
  | checking k y =>
      rw [loss] at hx
      split at hx
      · cases hx
      · rename_i hne
        obtain rfl := List.mem_singleton.mp hx
        exact fun heq => hne (hown.trans heq.symm)
  | emitting k taken =>
      obtain rfl : k = scope := Decidable.not_not.mp (of_decide_eq_false hcalm)
      cases taken with
      | nil => cases hx
      | cons y rest =>
          rw [loss] at hx
          split at hx
          · cases hx
          · rename_i hne
            obtain rfl := List.mem_singleton.mp hx
            exact hne
  | popping k =>
      obtain rfl : k = scope := Decidable.not_not.mp (of_decide_eq_false hcalm)
      exact of_decide_eq_true (List.mem_filter.mp hx).2
  | emptying | wiping => exact absurd hp id
  | _ => cases hx

/-- What a step drops was in the hands of the call or in the buffer. -/
theorem mem_loss {x : Tagged α} (hx : x ∈ b.loss p) :
    x ∈ p.held ∨ x ∈ b.buffer.overflow ∨ x ∈ b.buffer.queue := by
  cases p with
  | checking k y =>
      rw [loss] at hx
      split at hx
      · cases hx
      · exact .inl hx
  | emitting k taken =>
      cases taken with
      | nil => cases hx
      | cons y rest =>
          rw [loss] at hx
          split at hx
          · cases hx
          · exact .inl (List.mem_singleton.mp hx ▸ List.mem_cons_self)
  | popping k => exact .inr (.inr (List.mem_of_mem_take (List.mem_filter.mp hx).1))
  | emptying next => exact .inr (.inr (List.mem_of_mem_take hx))
  | wiping next => exact .inr (.inl hx)
  | _ => cases hx

end SharedBuffer

theorem Phase.Within.held {given : Nat → Prop} {p : Phase α} (h : p.Within given) {x : Tagged α}
    (hx : x ∈ p.held) : given x.scope := by
  cases p with
  | checking | passing | pushing | locking | evicting =>
      obtain rfl := List.mem_singleton.mp hx
      exact h
  | handing =>
      obtain rfl := List.mem_singleton.mp hx
      exact h.2
  | spilling y oldest =>
      rcases List.mem_cons.mp hx with rfl | hx
      · exact h.1
      · obtain rfl := List.mem_singleton.mp hx
        exact h.2
  | emitting => exact h.2 x hx
  | _ => exact absurd hx nofun

theorem Phase.Resets.held_eq {next : Option Nat} {p : Phase α} (h : p.Resets next) :
    p.held = [] := by
  cases p with
  | clearing | emptying | wiping | arming | finished => rfl
  | _ => exact absurd h id

/-- A spill or a flush of another scope on the buffer of the scope. -/
def PoolPhase.disturbs (target : Binding) : PoolPhase α → Bool
  | calling b p _ => b = target.buffer && p.disturbs target.scope
  | _ => false

namespace PoolCrew

open Phase

/-- Some caller is in a call on the buffer, in a phase of a kind. -/
def HasCaller (c : PoolCrew α) (b : Nat) (kind : Phase α → Prop) : Prop :=
  ∃ (i : Nat) (p : Phase α) (sequel : Sequel),
    c.callers[i]? = some (.calling b p sequel) ∧ kind p

/-- What a scope with a guard can rely on: the state word is its own, whatever its drained
buffer holds for it has a caller that comes for it, and none of its entries is lost. -/
structure Served (target : Binding) (c : PoolCrew α) (all : List (Tagged α)) : Prop where
  serves : ∀ s, c.buffers[target.buffer]? = some s → s.Serves target.scope
  marked : .drained target.scope ∈ c.history → ∀ s, c.buffers[target.buffer]? = some s →
    s.buffer.state = (StateWord.armed target.scope).mark
  overflow_swept : ∀ s, c.buffers[target.buffer]? = some s →
    s.buffer.state = (StateWord.armed target.scope).mark →
    (∃ x ∈ s.buffer.overflow, x.scope = target.scope) →
    c.HasCaller target.buffer (SweepsOverflow target.scope)
  queue_swept : ∀ s, c.buffers[target.buffer]? = some s →
    s.buffer.state = (StateWord.armed target.scope).mark →
    (∃ x ∈ s.buffer.queue, x.scope = target.scope) →
    c.HasCaller target.buffer (SweepsQueue target.scope)
  kept : ∃ lost, c.Accounts all lost ∧ ∀ x ∈ lost, x.scope ≠ target.scope

/-- While the scope has its guard, no spill and no flush of another scope is under way on its
buffer. -/
def Calm (target : Binding) (c : PoolCrew α) : Prop :=
  target ∈ c.guarded → ∀ phase ∈ c.callers, phase.disturbs target = false

/-- Along a run, whenever a move is made, the scope is not disturbed. -/
def Undisturbed (target : Binding) : PoolCrew α → List (Move α) → Prop
  | _, [] => True
  | c, m :: rest => c.Calm target ∧ Undisturbed target ((c.move? m).getD c) rest

instance (target : Binding) (c : PoolCrew α) : Decidable (c.Calm target) :=
  inferInstanceAs (Decidable (target ∈ c.guarded → ∀ phase ∈ c.callers, _ = false))

instance decidableUndisturbed (target : Binding) :
    (c : PoolCrew α) → (moves : List (Move α)) → Decidable (c.Undisturbed target moves)
  | _, [] => isTrue trivial
  | c, m :: rest =>
    have := decidableUndisturbed target ((c.move? m).getD c) rest
    inferInstanceAs (Decidable (_ ∧ _))

variable {c c' : PoolCrew α} {i : Nat} {m : Move α} {all : List (Tagged α)} {target : Binding}

theorem Calm.phase (hcalm : c.Calm target) (hguarded : target ∈ c.guarded) {p : Phase α}
    {sequel : Sequel} (hi : c.callers[i]? = some (.calling target.buffer p sequel)) :
    p.disturbs target.scope = false := by
  simpa [PoolPhase.disturbs] using hcalm hguarded _ (List.mem_of_getElem? hi)

/-- A caller in a phase of a kind is still there after another one has moved on. -/
theorem HasCaller.replaced {b : Nat} {kind : Phase α → Prop} {old new : PoolPhase α}
    (h : c.HasCaller b kind) (hi : c.callers[i]? = some old)
    (hold : ∀ p sequel, old = .calling b p sequel → ¬ kind p)
    (hcallers : c'.callers = c.callers.set i new) : c'.HasCaller b kind := by
  obtain ⟨j, p, sequel, hj, hp⟩ := h
  refine ⟨j, p, sequel, ?_, hp⟩
  have hij : i ≠ j := by
    rintro rfl
    exact hold p sequel (Option.some.inj (hi.symm.trans hj)) hp
  rw [hcallers, List.getElem?_set_ne hij, hj]

/-- A move that does not touch the buffer of the scope keeps what it relies on. -/
theorem Served.aside (h : c.Served target all) {old new : PoolPhase α} {now : List (Tagged α)}
    (hi : c.callers[i]? = some old) (hcallers : c'.callers = c.callers.set i new)
    (hold : ∀ p sequel, old = .calling target.buffer p sequel → p = .finished)
    (hbuffer : ∀ s, c'.buffers[target.buffer]? = some s → c.buffers[target.buffer]? = some s)
    (hhistory : .drained target.scope ∈ c'.history → .drained target.scope ∈ c.history)
    (hkept : ∃ lost, c'.Accounts now lost ∧ ∀ x ∈ lost, x.scope ≠ target.scope) :
    c'.Served target now where
  serves := fun s hs => h.serves s (hbuffer s hs)
  marked := fun hd s hs => h.marked (hhistory hd) s (hbuffer s hs)
  overflow_swept := fun s hs hm hx =>
    (h.overflow_swept s (hbuffer s hs) hm hx).replaced hi
      (fun p sequel heq => hold p sequel heq ▸ id) hcallers
  queue_swept := fun s hs hm hx =>
    (h.queue_swept s (hbuffer s hs) hm hx).replaced hi
      (fun p sequel heq => hold p sequel heq ▸ id) hcallers
  kept := hkept

/-- What a call has in its hands belongs to scopes that were opened on its buffer. -/
theorem Numbered.held_opened (hn : c.Numbered all) {b : Nat} {p : Phase α} {sequel : Sequel}
    (hi : c.callers[i]? = some (.calling b p sequel)) {x : Tagged α} (hx : x ∈ p.held) :
    ⟨b, x.scope⟩ ∈ c.opened := by
  have hfits := hn.fits i b p sequel hi
  cases sequel with
  | rest => exact hfits.held hx
  | handOut | putBack => exact absurd hx (Phase.Resets.held_eq hfits ▸ List.not_mem_nil)

/-- What the calls on other buffers drop is of other scopes. -/
theorem Numbered.loss_of_other (hn : c.Numbered all) (hopened : target ∈ c.opened) {b : Nat}
    {p : Phase α} {sequel : Sequel} {s : SharedBuffer α}
    (hi : c.callers[i]? = some (.calling b p sequel)) (hb : c.buffers[b]? = some s)
    (hother : b ≠ target.buffer) {x : Tagged α} (hx : x ∈ s.loss p) :
    x.scope ≠ target.scope := by
  have hgiven : ⟨b, x.scope⟩ ∈ c.opened := by
    rcases SharedBuffer.mem_loss hx with hheld | hover | hqueue
    · exact hn.held_opened hi hheld
    · exact (hn.stored b s hb).1 x hover
    · exact (hn.stored b s hb).2 x hqueue
  intro heq
  exact hother (hn.buffer_unique (heq ▸ hgiven) hopened)

/-- A call on the buffer of a scope with a guard is that of a context. -/
theorem Owned.sequel_eq (ho : c.Owned) (hguarded : target ∈ c.guarded) {p : Phase α}
    {sequel : Sequel} (hi : c.callers[i]? = some (.calling target.buffer p sequel)) :
    sequel = .rest := by
  apply Classical.byContradiction
  intro hne
  exact absurd ((PoolPhase.owns_of_ne_rest hne).symm.trans (ho.not_owns hguarded hi)) nofun

/-- While the scope is not disturbed, no move drops an entry of it. -/
theorem Served.loss_spares (h : c.Served target all) (hn : c.Numbered all) (ho : c.Owned)
    (hfew : c.nextScope ≤ StateWord.scopeBound) (hguarded : target ∈ c.guarded)
    (hcalm : c.Calm target) (ht : c.Turn i m c') {x : Tagged α} (hx : x ∈ c.loss m) :
    x.scope ≠ target.scope := by
  have hopened : ⟨target.buffer, target.scope⟩ ∈ c.opened := hn.guarded hguarded
  rcases ht.loss_cases with hnone | ⟨b, p, sequel, s, hi, hb, hloss⟩
  · exact absurd hx (hnone ▸ List.not_mem_nil)
  · rw [hloss] at hx
    by_cases hbuffer : b = target.buffer
    · subst hbuffer
      obtain rfl := ho.sequel_eq hguarded hi
      exact SharedBuffer.loss_spares (h.serves s hb)
        (Nat.lt_of_lt_of_le (hn.lt_nextScope hopened) hfew) (hn.fits i _ p .rest hi)
        (hcalm.phase hguarded hi) hx
    · exact hn.loss_of_other hopened hi hb hbuffer hx

/-- A step of a call on the buffer of the scope. -/
theorem Served.call (h : c.Served target all) (hn : c.Numbered all) (ho : c.Owned)
    (hfew : c.nextScope ≤ StateWord.scopeBound) (hguarded : target ∈ c.guarded)
    (hcalm : c.Calm target) {p p' : Phase α} {sequel : Sequel} {s s' : SharedBuffer α}
    {effects : List (Effect α)} {now : List (Tagged α)}
    (hi : c.callers[i]? = some (.calling target.buffer p sequel))
    (hb : c.buffers[target.buffer]? = some s) (hstep : s.Transition i p s' p' effects)
    (hcallers : c'.callers = c.callers.set i (.calling target.buffer p' sequel))
    (hbuffers : c'.buffers = c.buffers.set target.buffer s')
    (hhistory : c'.history = c.history ++ effects)
    (hkept : ∃ lost, c'.Accounts now lost ∧ ∀ x ∈ lost, x.scope ≠ target.scope) :
    c'.Served target now := by
  obtain rfl := ho.sequel_eq hguarded hi
  have hgiven : ∀ k, ⟨target.buffer, k⟩ ∈ c.opened → k < StateWord.scopeBound :=
    fun k hk => Nat.lt_of_lt_of_le (hn.lt_nextScope hk) hfew
  have hspares := hstep.spares (h.serves s hb) (hgiven _ (hn.guarded hguarded))
    (hn.fits i _ p .rest hi) hgiven (hcalm.phase hguarded hi)
  have hhere : c'.callers[i]? = some (.calling target.buffer p' .rest) := by
    rw [hcallers]
    exact getElem?_replaced _ hi
  have hnow : ∀ r, c'.buffers[target.buffer]? = some r → r = s' := by
    intro r hr
    rw [hbuffers, getElem?_replaced s' hb] at hr
    exact (Option.some.inj hr).symm
  have hothers : ∀ {kind : Phase α → Prop}, c.HasCaller target.buffer kind → ¬ kind p →
      c'.HasCaller target.buffer kind := by
    intro kind hcaller hp
    refine hcaller.replaced hi (fun q sequel heq => ?_) hcallers
    obtain ⟨-, rfl, -⟩ := PoolPhase.calling.inj heq
    exact hp
  refine ⟨?_, ?_, ?_, ?_, hkept⟩
  · intro r hr
    exact hnow r hr ▸ hspares.serves
  · intro hd r hr
    rw [hnow r hr]
    rw [hhistory] at hd
    rcases List.mem_append.mp hd with hold | hnew
    · exact hspares.marked (.inl (h.marked hold s hb))
    · exact hspares.marked (.inr hnew)
  · intro r hr hm hx
    rw [hnow r hr] at hm hx
    rcases hspares.overflow hm hx with hp' | ⟨hp, hm, hx⟩
    · exact ⟨i, p', .rest, hhere, hp'⟩
    · exact hothers (h.overflow_swept s hb hm hx) hp
  · intro r hr hm hx
    rw [hnow r hr] at hm hx
    rcases hspares.queue hm hx with hp' | ⟨hp, hm, hx⟩
    · exact ⟨i, p', .rest, hhere, hp'⟩
    · exact hothers (h.queue_swept s hb hm hx) hp

/-- Every move keeps what an undisturbed scope relies on. -/
theorem Served.turn (h : c.Served target all) (hn : c.Numbered all) (ho : c.Owned)
    (hfew : c.nextScope ≤ StateWord.scopeBound) (hguarded : target ∈ c.guarded)
    (hcalm : c.Calm target) (ht : c.Turn i m c') : c'.Served target (all ++ m.appended) := by
  have hkept : ∃ lost, c'.Accounts (all ++ m.appended) lost ∧
      ∀ x ∈ lost, x.scope ≠ target.scope := by
    obtain ⟨lost, haccounts, hspared⟩ := h.kept
    refine ⟨_, haccounts.turn hn ht, fun x hx => ?_⟩
    rcases List.mem_append.mp hx with hold | hnew
    · exact hspared x hold
    · exact h.loss_spares hn ho hfew hguarded hcalm ht hnew
  cases ht with
  | openScope hi | append target' x hi hopened | drain target' hi hopened
  | release target' hi hguarded' | reuse b rest hi hidle | number b hi | putBack b hi hroom
  | letGo b hi hfull => exact h.aside hi rfl nofun (fun _ hs => hs) id hkept
  | create hi hidle =>
      refine h.aside hi rfl nofun (fun s hs => ?_) id hkept
      rwa [List.getElem?_append_left (ho.guarded_lt_length hguarded)] at hs
  | endCall b hi | handOut b scope hi | endReset b hi =>
      refine h.aside hi rfl (fun p sequel heq => ?_) (fun _ hs => hs) id hkept
      exact (PoolPhase.calling.inj heq).2.1.symm
  | call b p p' sequel s s' effects hi hb hstep =>
      by_cases hbuffer : b = target.buffer
      · subst hbuffer
        exact h.call hn ho hfew hguarded hcalm hi hb hstep rfl rfl rfl hkept
      · refine h.aside hi rfl (fun q sequel' heq => ?_) (fun r hr => ?_) (fun hd => ?_) hkept
        · exact absurd (PoolPhase.calling.inj heq).1 hbuffer
        · rwa [List.getElem?_set_ne hbuffer] at hr
        · rcases List.mem_append.mp hd with hold | hnew
          · exact hold
          · have hgiven := ((hn.of_call hi hb hstep).2 _ hnew).2
            exact absurd (hn.buffer_unique hgiven (hn.guarded hguarded)) hbuffer

/-- A scope that is handed out can rely on its buffer. -/
theorem Numbered.served (hn : c.Numbered all) (hready : c.Ready) {b k : Nat}
    {lost : List (Tagged α)} (haccounts : c.Accounts all lost)
    (hi : c.callers[i]? = some (.calling b .finished (.handOut k)))
    (ht : c.Turn i m c') (hbuffers : c'.buffers = c.buffers) (hhistory : c'.history = c.history) :
    c'.Served ⟨b, k⟩ (all ++ m.appended) := by
  obtain ⟨-, hnot⟩ := hn.not_opened hi
  have harmed : ∀ s, c'.buffers[b]? = some s → s.buffer.state = .armed k := by
    rw [hbuffers]
    exact hready i b k hi
  have hunmarked : ∀ s, c'.buffers[b]? = some s →
      s.buffer.state ≠ (StateWord.armed k).mark := by
    intro s hs hm
    have heq := congrArg StateWord.drained ((harmed s hs).symm.trans hm)
    rw [StateWord.drained_armed, StateWord.drained_mark] at heq
    exact absurd heq nofun
  refine ⟨fun s hs => .inl (harmed s hs), fun hd => ?_,
    fun s hs hm => absurd hm (hunmarked s hs), fun s hs hm => absurd hm (hunmarked s hs), ?_⟩
  · rw [hhistory] at hd
    obtain ⟨a, ha⟩ := hn.drained k hd
    exact absurd ha (hnot a)
  · refine ⟨_, haccounts.turn hn ht, fun x hx heq => ?_⟩
    -- an entry of the scope would have been appended before the scope was opened
    have hall : x ∈ all ++ m.appended :=
      (haccounts.turn hn ht).subset (List.mem_append_right _ hx)
    obtain ⟨a, ha⟩ := hn.appended_turn ht x hall
    have hscope : x.scope = k := heq
    rw [hscope] at ha
    exact hnot a ha

/-- All that is kept for a scope along a run. -/
structure Tended (target : Binding) (c : PoolCrew α) (all : List (Tagged α)) : Prop where
  numbered : c.Numbered all
  owned : c.Owned
  ready : c.Ready
  accounts : ∃ lost, c.Accounts all lost
  served : target ∈ c.guarded → c.Served target all

theorem Tended.turn (h : c.Tended target all) (hfew : c.nextScope ≤ StateWord.scopeBound)
    (hcalm : c.Calm target) (ht : c.Turn i m c') : c'.Tended target (all ++ m.appended) := by
  obtain ⟨lost, haccounts⟩ := h.accounts
  refine ⟨h.numbered.turn ht, h.owned.turn ht, h.ready.turn h.numbered h.owned hfew ht,
    ⟨_, haccounts.turn h.numbered ht⟩, fun hguarded => ?_⟩
  by_cases hbefore : target ∈ c.guarded
  · exact (h.served hbefore).turn h.numbered h.owned hfew hbefore hcalm ht
  · -- the scope is handed out by this move
    cases ht with
    | handOut b k hi =>
        obtain rfl : target = ⟨b, k⟩ :=
          (List.mem_cons.mp hguarded).resolve_right hbefore
        exact h.numbered.served h.ready haccounts hi (.handOut b k hi) rfl rfl
    | release target' hi hguarded' => exact absurd (List.mem_of_mem_erase hguarded) hbefore
    | _ => exact absurd hguarded hbefore

theorem Tended.run (h : c.Tended target all) {moves : List (Move α)}
    (hfew : (c.run moves).nextScope ≤ StateWord.scopeBound)
    (hcalm : c.Undisturbed target moves) :
    (c.run moves).Tended target (all ++ c.appended moves) := by
  induction moves generalizing c all with
  | nil => simpa [PoolCrew.run, appended] using h
  | cons m rest ih =>
      rw [run_cons] at hfew ⊢
      obtain ⟨hnow, hlater⟩ := hcalm
      rw [appended]
      cases hm : c.move? m with
      | none =>
          rw [hm] at hfew hlater
          exact ih h hfew hlater
      | some c' =>
          rw [hm] at hfew hlater
          obtain ⟨i, ht⟩ := turn_of_move hm
          have hbound := Nat.le_trans ht.nextScope_le (Nat.le_trans (nextScope_le_run c' rest) hfew)
          have hrest := ih (h.turn hbound hnow ht) hfew hlater
          rw [List.append_assoc] at hrest
          exact hrest

theorem fresh_tended (size capacity : Nat) (hpos : 0 < capacity) (callers : Nat)
    (target : Binding) : (fresh size capacity hpos callers : PoolCrew α).Tended target [] where
  numbered := fresh_numbered size capacity hpos callers
  owned := fresh_owned size capacity hpos callers
  ready := fresh_ready size capacity hpos callers
  accounts := ⟨[], fresh_accounts size capacity hpos callers⟩
  served := fun h => absurd h nofun

theorem callers_of_quiet (h : c.quiet = true) {phase : PoolPhase α} (hphase : phase ∈ c.callers) :
    phase = .free := by
  have hfree := List.all_eq_true.mp h phase hphase
  cases phase with
  | free => rfl
  | _ => exact absurd hfree nofun

/-- When no call is under way, a scope that is drained and has its guard has nothing left in
a buffer. -/
theorem Tended.stored_of_quiet (h : c.Tended target all) (hguarded : target ∈ c.guarded)
    (hdrained : .drained target.scope ∈ c.history) (hquiet : c.quiet = true) :
    ∀ x ∈ c.stored, x.scope ≠ target.scope := by
  have hserved := h.served hguarded
  have hnobody : ∀ kind, ¬ c.HasCaller target.buffer kind := by
    rintro kind ⟨i, p, sequel, hi, -⟩
    exact absurd (callers_of_quiet hquiet (List.mem_of_getElem? hi)) nofun
  intro x hx heq
  obtain ⟨s, hs, hpending⟩ := List.mem_flatMap.mp hx
  obtain ⟨b, hb⟩ := List.mem_iff_getElem?.mp hs
  have hholds := h.numbered.stored b s hb
  have hwhere := List.mem_append.mp hpending
  have hgiven : ⟨b, x.scope⟩ ∈ c.opened := hwhere.elim (hholds.1 x) (hholds.2 x)
  obtain rfl : b = target.buffer :=
    h.numbered.buffer_unique (heq ▸ hgiven) (h.numbered.guarded hguarded)
  have hm := hserved.marked hdrained s hb
  rcases hwhere with hover | hqueue
  · exact hnobody _ (hserved.overflow_swept s hb hm ⟨x, hover, heq⟩)
  · exact hnobody _ (hserved.queue_swept s hb hm ⟨x, hqueue, heq⟩)

/-- **A drained scope delivers every entry exactly once, unless an earlier scope of its buffer
disturbs it.** Callers open, use and release scopes of a pool, contexts of released scopes
included, fewer than `2 ^ 63` scopes being opened. If a scope keeps its guard, has been
drained when no call is under way any more, and was not disturbed by a spill or a flush of
another scope on its buffer, then the entries handed over under it are those that were
appended under it, each as often as it was appended. -/
theorem delivered_undisturbed (size capacity : Nat) (hpos : 0 < capacity) (callers : Nat)
    (moves : List (Move α)) (target : Binding)
    (hfew : ((fresh size capacity hpos callers : PoolCrew α).run moves).nextScope ≤
      StateWord.scopeBound)
    (hguarded : target ∈ ((fresh size capacity hpos callers : PoolCrew α).run moves).guarded)
    (hdrained : .drained target.scope ∈
      ((fresh size capacity hpos callers : PoolCrew α).run moves).history)
    (hquiet : ((fresh size capacity hpos callers : PoolCrew α).run moves).quiet = true)
    (hcalm : (fresh size capacity hpos callers : PoolCrew α).Undisturbed target moves) :
    let c : PoolCrew α := fresh size capacity hpos callers
    ((c.run moves).handed.filter fun x => x.scope = target.scope).Perm
      ((c.appended moves).filter fun x => x.scope = target.scope) := by
  intro c
  have htended := (fresh_tended size capacity hpos callers target).run hfew hcalm
  obtain ⟨lost, haccounts, hspared⟩ := (htended.served hguarded).kept
  have hstored := htended.stored_of_quiet hguarded hdrained hquiet
  have hheld : (c.run moves).held = [] := by
    rw [held, List.flatMap_eq_nil_iff]
    intro phase hphase
    rw [callers_of_quiet hquiet hphase]
    rfl
  have hfilter := List.Perm.filter (fun x : Tagged α => x.scope = target.scope) haccounts
  have hnone : ∀ {l : List (Tagged α)}, (∀ x ∈ l, x.scope ≠ target.scope) →
      (l.filter fun x => x.scope = target.scope) = [] := fun h =>
    List.filter_eq_nil_iff.mpr fun x hx => by simpa using h x hx
  rw [List.filter_append, List.filter_append, List.filter_append, hheld, hnone hstored,
    hnone hspared] at hfilter
  simpa using hfilter

/-- A scope is released while an append under it has yet to push its entry, which then lands
in the queue of the next scope and is spilled by an entry of that one. -/
def lateGuestMoves : List (Move Nat) :=
  alone 0 .openScope 7 ++ alone 1 (.append ⟨0, 1⟩ 10) 1 ++ alone 0 (.release ⟨0, 1⟩) 5 ++
    alone 0 .openScope 7 ++ List.replicate 3 (.step 1) ++ alone 0 (.append ⟨0, 2⟩ 20) 4 ++
    alone 0 (.append ⟨0, 2⟩ 30) 8 ++ alone 0 (.drain ⟨0, 2⟩) 11

/-- Both entries of the second scope are delivered. -/
theorem delivered_undisturbed_late_guest :
    let c : PoolCrew Nat := fresh 1 2 Nat.two_pos 2
    ((c.run lateGuestMoves).nextScope ≤ StateWord.scopeBound ∧
      ⟨0, 2⟩ ∈ (c.run lateGuestMoves).guarded ∧ .drained 2 ∈ (c.run lateGuestMoves).history ∧
      (c.run lateGuestMoves).quiet = true ∧ c.Undisturbed ⟨0, 2⟩ lateGuestMoves) ∧
      c.appended lateGuestMoves = [⟨1, 10⟩, ⟨2, 20⟩, ⟨2, 30⟩] ∧
      ((c.run lateGuestMoves).handed.filter fun x => x.scope = 2).Perm
        ((c.appended lateGuestMoves).filter fun x => x.scope = 2) := by
  intro c
  have hfew : (c.run lateGuestMoves).nextScope ≤ StateWord.scopeBound := by decide +kernel
  have hguarded : ⟨0, 2⟩ ∈ (c.run lateGuestMoves).guarded := by decide +kernel
  have hdrained : .drained 2 ∈ (c.run lateGuestMoves).history := by decide +kernel
  have hquiet : (c.run lateGuestMoves).quiet = true := by decide +kernel
  have hcalm : c.Undisturbed ⟨0, 2⟩ lateGuestMoves := by decide +kernel
  exact ⟨⟨hfew, hguarded, hdrained, hquiet, hcalm⟩, by decide +kernel,
    delivered_undisturbed 1 2 Nat.two_pos 2 lateGuestMoves ⟨0, 2⟩ hfew hguarded hdrained hquiet
      hcalm⟩

/-- The drain of the first scope is about to empty the queue when the scope is released, and
goes on when the second scope has held back an entry. -/
def staleFlushMoves : List (Move Nat) :=
  alone 0 .openScope 7 ++ alone 1 (.drain ⟨0, 1⟩) 3 ++ alone 0 (.release ⟨0, 1⟩) 5 ++
    alone 0 .openScope 7 ++ alone 0 (.append ⟨0, 2⟩ 20) 4 ++ List.replicate 3 (.step 1) ++
    alone 0 (.drain ⟨0, 2⟩) 5

/-- An append of the first scope is about to push its entry when the scope is released. It
spills the entry of the second scope when the drain of that scope has taken the overflow
list. -/
def staleSpillMoves : List (Move Nat) :=
  alone 0 .openScope 7 ++ alone 1 (.append ⟨0, 1⟩ 10) 1 ++ alone 0 (.release ⟨0, 1⟩) 5 ++
    alone 0 .openScope 7 ++ alone 0 (.append ⟨0, 2⟩ 20) 4 ++ alone 0 (.drain ⟨0, 2⟩) 2 ++
    List.replicate 7 (.step 1) ++ List.replicate 4 (.step 0)

/-- An open scope that is drained loses an entry to a flush, or to an append, of the scope that
had its buffer before. -/
theorem scope_robbed :
    let c : PoolCrew Nat := fresh 1 1 Nat.one_pos 2
    ((c.run staleFlushMoves).quiet = true ∧ ⟨0, 2⟩ ∈ (c.run staleFlushMoves).guarded ∧
      .drained 2 ∈ (c.run staleFlushMoves).history ∧ ⟨2, 20⟩ ∈ c.appended staleFlushMoves ∧
      (c.run staleFlushMoves).emitted = []) ∧
      (c.run staleSpillMoves).quiet = true ∧ ⟨0, 2⟩ ∈ (c.run staleSpillMoves).guarded ∧
      .drained 2 ∈ (c.run staleSpillMoves).history ∧ ⟨2, 20⟩ ∈ c.appended staleSpillMoves ∧
      (c.run staleSpillMoves).emitted = [] := by
  decide +kernel

end PoolCrew

end LogAdmission
