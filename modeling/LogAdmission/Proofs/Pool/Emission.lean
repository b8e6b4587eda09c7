import LogAdmission.Proofs.Pool.Account

/-!
# Nothing is emitted without a drain of its scope

Whoever hands an entry to its handler has either set the drained mark of its scope or seen it
set (`Phase.Backed`), since the state word tells the scope together with the mark and entries
of other scopes are dropped. This holds also while calls for a released scope are under
way on a buffer that serves another one (`Lawful`).
-/

namespace LogAdmission

variable {α : Type}

/-- What a call may hand over belongs to a drained scope. -/
def Phase.Backed (drained : Nat → Prop) : Phase α → Prop
  | passing x => drained x.scope
  | taking scope | emitting scope _ | popping scope => drained scope
  | handing scope x => drained scope ∧ drained x.scope
  | _ => True

theorem Phase.Backed.mono {drained wider : Nat → Prop} {p : Phase α} (h : p.Backed drained)
    (hwider : ∀ k, drained k → wider k) : p.Backed wider := by
  cases p with
  | passing | taking | emitting | popping => exact hwider _ h
  | handing => exact ⟨hwider _ h.1, hwider _ h.2⟩
  | _ => trivial

namespace SharedBuffer

open Phase

/-- The mark of a buffer is that of its scope. -/
def Marked (drained : Nat → Prop) (b : SharedBuffer α) : Prop :=
  b.buffer.drained = true → drained b.buffer.scope

variable {me : Nat} {b b' : SharedBuffer α} {p p' : Phase α} {effects : List (Effect α)}
  {given drained later : Nat → Prop}

/-- The scope of a word that compares equal to a drained one has been drained. -/
theorem Marked.of_state (h : b.Marked drained) {scope : Nat} (hscope : scope < StateWord.scopeBound)
    (hstate : b.buffer.state = (StateWord.armed scope).mark) : drained scope := by
  obtain ⟨heq, hd⟩ := (StateWord.eq_mark_armed_iff hscope).mp hstate
  exact heq ▸ h hd

/-- A step hands over an entry of a drained scope only, and so will the call go on. -/
theorem Transition.backed (h : b.Transition me p b' p' effects) (hp : p.Backed drained)
    (hb : b.Marked drained) (hwithin : p.Within given)
    (hgiven : ∀ k, given k → k < StateWord.scopeBound) (hlater : ∀ k, drained k → later k)
    (hnew : ∀ k, .drained k ∈ effects → later k) :
    p'.Backed later ∧ b'.Marked later ∧ ∀ x, .emitted x ∈ effects → drained x.scope := by
  have hb' : b.Marked later := fun hd => hlater _ (hb hd)
  cases h with
  | turnAway | accept | findFull | unlock | spill | settle | findSwitched | lock | evict | push
  | leave => exact ⟨trivial, hb', nofun⟩
  | forward scope x hscope hdrained => exact ⟨hscope ▸ hb' hdrained, hb', nofun⟩
  | pass x =>
      refine ⟨trivial, hb', fun y hy => ?_⟩
      obtain rfl : y = x := by simpa using hy
      exact hp
  | catchUp scope hstate => exact ⟨hlater _ (hb.of_state (hgiven _ hwithin) hstate), hb', nofun⟩
  | switch scope hstate =>
      have hscope := hgiven _ hwithin
      refine ⟨hnew scope List.mem_cons_self, fun _ => ?_, by simp⟩
      have heq : b.buffer.state.mark.scope = scope := by
        rw [StateWord.scope_mark, hstate, StateWord.scope_armed hscope]
      show later b.buffer.state.mark.scope
      rw [heq]
      exact hnew scope List.mem_cons_self
  | take | emptied | skip | popOther => exact ⟨hlater _ hp, hb', nofun⟩
  | emit scope x rest hscope =>
      refine ⟨hlater _ hp, hb', fun y hy => ?_⟩
      obtain rfl : y = x := by simpa using hy
      exact hscope ▸ hp
  | pop scope x rest hqueue hscope => exact ⟨⟨hlater _ hp, hscope ▸ hlater _ hp⟩, hb', nofun⟩
  | hand scope x =>
      refine ⟨hlater _ hp.1, hb', fun y hy => ?_⟩
      obtain rfl : y = x := by simpa using hy
      exact hp.2
  | find | findMarked | mark | clear | discard | discarded | wipe | wipeFor | arm =>
      exact absurd hwithin id

/-- A reset takes the mark away and gives no other. -/
theorem Transition.marked_of_resets (h : b.Transition me p b' p' effects) {next : Option Nat}
    (hp : p.Resets next) (hb : b.Marked drained) : p'.Backed drained ∧ b'.Marked drained := by
  cases h with
  | clear | arm =>
      exact ⟨trivial, fun hd => absurd (hd.symm.trans (StateWord.drained_armed _)) nofun⟩
  | discard | discarded | wipe | wipeFor => exact ⟨trivial, hb⟩
  | _ => exact absurd hp id

end SharedBuffer

/-- Every entry handed over comes after a drain of its scope. -/
def Earned (history : List (Effect α)) : Prop :=
  ∀ (before : List (Effect α)) (x : Tagged α) (after : List (Effect α)),
    history = before ++ .emitted x :: after → .drained x.scope ∈ before

theorem Earned.append {history effects : List (Effect α)} (h : Earned history)
    (hnew : ∀ x, .emitted x ∈ effects → .drained x.scope ∈ history) :
    Earned (history ++ effects) := by
  intro before x after heq
  -- where the entry stands: among the new effects or in the old history
  rcases List.append_eq_append_iff.mp heq with ⟨middle, rfl, heffects⟩ | ⟨middle, hbefore, htail⟩
  · exact List.mem_append_left _ (hnew x (heffects ▸ List.mem_append_right _ List.mem_cons_self))
  · cases middle with
    | nil =>
        rw [List.append_nil] at hbefore
        rw [List.nil_append] at htail
        exact hbefore ▸ hnew x (htail ▸ List.mem_cons_self)
    | cons e rest =>
        obtain ⟨rfl, -⟩ := List.cons.inj htail
        exact h before x rest hbefore

namespace PoolCrew

/-- What the drained marks of a pool keep, as long as the numbers of scopes fit. -/
structure Lawful (c : PoolCrew α) : Prop where
  backed : ∀ (i b : Nat) (p : Phase α) (sequel : Sequel),
    c.callers[i]? = some (.calling b p sequel) → p.Backed fun k => .drained k ∈ c.history
  marked : ∀ (b : Nat) (s : SharedBuffer α),
    c.buffers[b]? = some s → s.Marked fun k => .drained k ∈ c.history
  earned : Earned c.history

variable {c c' : PoolCrew α} {i : Nat} {m : Move α} {all : List (Tagged α)}

/-- A move that is no step of a call on a buffer keeps it. -/
theorem Lawful.aside (h : c.Lawful) {new : PoolPhase α}
    (hcallers : c'.callers = c.callers.set i new)
    (hnew : ∀ b p sequel, new = .calling b p sequel → p.Backed fun k => .drained k ∈ c.history)
    (hmarked : ∀ (b : Nat) (s : SharedBuffer α),
      c'.buffers[b]? = some s → s.Marked fun k => .drained k ∈ c.history)
    (hhistory : c'.history = c.history) : c'.Lawful := by
  refine ⟨?_, hhistory ▸ hmarked, hhistory ▸ h.earned⟩
  intro j b p sequel hj
  rw [hcallers] at hj
  rw [hhistory]
  rcases mem_replaced hj with ⟨-, heq⟩ | ⟨-, hj⟩
  · exact hnew b p sequel heq.symm
  · exact h.backed j b p sequel hj

/-- What a step of a call leaves behind. -/
theorem Lawful.of_call (h : c.Lawful) (hn : c.Numbered all)
    (hfew : c.nextScope ≤ StateWord.scopeBound) {b : Nat} {p p' : Phase α} {sequel : Sequel}
    {s s' : SharedBuffer α} {effects : List (Effect α)}
    (hi : c.callers[i]? = some (.calling b p sequel)) (hb : c.buffers[b]? = some s)
    (hstep : s.Transition i p s' p' effects) :
    (p'.Backed fun k => .drained k ∈ c.history ++ effects) ∧
      (s'.Marked fun k => .drained k ∈ c.history ++ effects) ∧
      ∀ x, .emitted x ∈ effects → .drained x.scope ∈ c.history := by
  have hfits := hn.fits i b p sequel hi
  have hmarked := h.marked b s hb
  have hreset : ∀ next, p.Resets next →
      (p'.Backed fun k => .drained k ∈ c.history ++ effects) ∧
        (s'.Marked fun k => .drained k ∈ c.history ++ effects) ∧
        ∀ x, .emitted x ∈ effects → .drained x.scope ∈ c.history := by
    intro next hp
    obtain ⟨-, -, rfl⟩ := hstep.resets hp (hn.stored b s hb)
    obtain ⟨hp', hs'⟩ := hstep.marked_of_resets hp hmarked
    rw [List.append_nil]
    exact ⟨hp', hs', nofun⟩
  cases sequel with
  | rest =>
      exact hstep.backed (h.backed i b p .rest hi) hmarked hfits
        (fun k hk => Nat.lt_of_lt_of_le (hn.lt_nextScope hk) hfew)
        (fun k hk => List.mem_append_left _ hk) (fun k hk => List.mem_append_right _ hk)
  | handOut scope => exact hreset _ hfits
  | putBack => exact hreset _ hfits

/-- Every move keeps it. -/
theorem Lawful.turn (h : c.Lawful) (hn : c.Numbered all)
    (hfew : c.nextScope ≤ StateWord.scopeBound) (ht : c.Turn i m c') : c'.Lawful := by
  cases ht with
  | openScope | reuse | endCall | handOut | endReset | putBack | letGo =>
      exact h.aside rfl nofun h.marked rfl
  | append | drain | release | number =>
      refine h.aside rfl ?_ h.marked rfl
      intro b p sequel heq
      obtain ⟨rfl, rfl, rfl⟩ := PoolPhase.calling.inj heq
      trivial
  | create hi hidle =>
      refine h.aside rfl nofun ?_ rfl
      intro b s hs
      rw [List.getElem?_append] at hs
      split at hs
      · exact h.marked b s hs
      · obtain rfl := List.mem_singleton.mp (List.mem_of_getElem? hs)
        intro hd
        exact absurd ((StateWord.drained_armed 0).symm.trans hd) Bool.false_ne_true
  | call b p p' sequel s s' effects hi hb hstep =>
      obtain ⟨hp', hs', hnew⟩ := h.of_call hn hfew hi hb hstep
      refine ⟨?_, ?_, h.earned.append hnew⟩
      · intro j a q sequel' hj
        rcases mem_replaced hj with ⟨-, heq⟩ | ⟨-, hj⟩
        · obtain ⟨-, rfl, -⟩ := PoolPhase.calling.inj heq
          exact hp'
        · exact (h.backed j a q sequel' hj).mono fun k hk => List.mem_append_left _ hk
      · intro a r hr
        rcases mem_replaced hr with ⟨-, rfl⟩ | ⟨-, hr⟩
        · exact hs'
        · exact fun hd => List.mem_append_left _ (h.marked a r hr hd)

theorem fresh_lawful (size capacity : Nat) (hpos : 0 < capacity) (callers : Nat) :
    (fresh size capacity hpos callers : PoolCrew α).Lawful where
  backed := fun _ _ _ _ hj => absurd (fresh_callers hj) nofun
  marked := fun _ _ hs => absurd hs nofun
  earned := fun before _ _ heq => absurd heq (by simp [fresh])

/-! ## Drains -/

/-- The move switches a buffer from armed to drained for a scope. -/
def Switches (c : PoolCrew α) (m : Move α) (scope : Nat) : Prop :=
  ∃ (i b : Nat) (s : SharedBuffer α) (c' : PoolCrew α) (s' : SharedBuffer α),
    m = .step i ∧ c.callers[i]? = some (.calling b (.switching scope) .rest) ∧
      c.buffers[b]? = some s ∧ s.buffer.state = .armed scope ∧
      c.move? m = some c' ∧ c'.buffers[b]? = some s' ∧
      s'.buffer.state = (StateWord.armed scope).mark

/-- Only such a move lets a scope count as drained. -/
theorem Numbered.switches (hn : c.Numbered all) (hmove : c.move? m = some c')
    (ht : c.Turn i m c') {k : Nat} (hk : .drained k ∈ c'.history) :
    .drained k ∈ c.history ∨ c.Switches m k := by
  cases ht with
  | call b p p' sequel s s' effects hi hb hstep =>
      rcases List.mem_append.mp hk with hold | hnew
      · exact .inl hold
      · obtain ⟨rfl, -⟩ := (hn.of_call hi hb hstep).2 k hnew
        cases hstep with
        | switch scope hstate =>
            obtain rfl : k = scope := by simpa using hnew
            exact .inr ⟨i, b, s, _, _, rfl, hi, hb, hstate, hmove, getElem?_replaced _ hb,
              congrArg StateWord.mark hstate⟩
        | mark => exact absurd (hn.fits i b _ .rest hi) id
        | pass | emit | hand => exact absurd hnew (by simp)
        | _ => exact absurd hnew nofun
  | _ => exact .inl hk

/-- A scope counts as drained only after a drain that has switched its buffer. -/
theorem Numbered.switched (hn : c.Numbered all) {moves : List (Move α)} {k : Nat}
    (hk : .drained k ∈ (c.run moves).history) :
    .drained k ∈ c.history ∨
      ∃ before m after, moves = before ++ m :: after ∧ (c.run before).Switches m k := by
  induction moves generalizing c all with
  | nil => exact .inl hk
  | cons m rest ih =>
      rw [run_cons] at hk
      cases hm : c.move? m with
      | none =>
          rw [hm] at hk
          rcases ih hn hk with hold | ⟨before, m', after, rfl, hswitch⟩
          · exact .inl hold
          · refine .inr ⟨m :: before, m', after, rfl, ?_⟩
            rwa [run_cons, hm]
      | some c' =>
          rw [hm] at hk
          obtain ⟨i, ht⟩ := turn_of_move hm
          rcases ih (hn.turn ht) hk with hold | ⟨before, m', after, rfl, hswitch⟩
          · rcases hn.switches hm ht hold with hold | hswitch
            · exact .inl hold
            · exact .inr ⟨[], m, rest, rfl, hswitch⟩
          · refine .inr ⟨m :: before, m', after, rfl, ?_⟩
            rwa [run_cons, hm]

/-! ## Whole runs -/

/-- Numbers only grow, so they fit all along a run if they do at its end. -/
theorem lawful_run (size capacity : Nat) (hpos : 0 < capacity) (callers : Nat)
    (moves : List (Move α))
    (hfew : ((fresh size capacity hpos callers : PoolCrew α).run moves).nextScope ≤
      StateWord.scopeBound) :
    ((fresh size capacity hpos callers : PoolCrew α).run moves).Lawful := by
  have hkept := run_keeps
    (P := fun c all => c.Numbered all ∧ (c.nextScope ≤ StateWord.scopeBound → c.Lawful))
    (fun ⟨hn, hlawful⟩ ht => ⟨hn.turn ht, fun hfew' =>
      have hfew := Nat.le_trans ht.nextScope_le hfew'
      (hlawful hfew).turn hn hfew ht⟩)
    moves ⟨fresh_numbered size capacity hpos callers,
      fun _ => fresh_lawful size capacity hpos callers⟩
  exact hkept.2 hfew

theorem accounts_run (size capacity : Nat) (hpos : 0 < capacity) (callers : Nat)
    (moves : List (Move α)) :
    ∃ lost, ((fresh size capacity hpos callers : PoolCrew α).run moves).Accounts
      ((fresh size capacity hpos callers).appended moves) lost := by
  have hkept := run_keeps
    (P := fun c all => c.Numbered all ∧ ∃ lost, c.Accounts all lost)
    (fun ⟨hn, lost, haccounts⟩ ht => ⟨hn.turn ht, _, haccounts.turn hn ht⟩)
    moves ⟨fresh_numbered size capacity hpos callers, [],
      fresh_accounts size capacity hpos callers⟩
  exact hkept.2

/-- **Nothing is emitted without a drain of its scope, and nothing twice.** However many
callers open, use and release the scopes of a pool, contexts of released scopes included, and
however their steps interleave, fewer than `2 ^ 63` scopes being opened: an entry is handed
over only after a drain that has switched the buffer from armed to drained for the scope
under which the entry was appended, and at most once for every time that it was appended. A
scope that is not drained emits nothing. -/
theorem emitted_only_after_drain (size capacity : Nat) (hpos : 0 < capacity) (callers : Nat)
    (moves : List (Move α))
    (hfew : ((fresh size capacity hpos callers : PoolCrew α).run moves).nextScope ≤
      StateWord.scopeBound) :
    let c : PoolCrew α := fresh size capacity hpos callers
    (∀ before x after, (c.run moves).history = before ++ .emitted x :: after →
        .drained x.scope ∈ before) ∧
      (∀ k, .drained k ∈ (c.run moves).history → ∃ before m after,
        moves = before ++ m :: after ∧ (c.run before).Switches m k) ∧
      (∃ rest, ((c.run moves).handed ++ rest).Perm (c.appended moves)) ∧
      ∀ k, .drained k ∉ (c.run moves).history → ∀ x ∈ (c.run moves).handed, x.scope ≠ k := by
  intro c
  have hearned := (lawful_run size capacity hpos callers moves hfew).earned
  refine ⟨hearned, fun k hk => ?_, ?_, ?_⟩
  · exact ((fresh_numbered size capacity hpos callers).switched hk).resolve_left nofun
  · obtain ⟨lost, haccounts⟩ := accounts_run size capacity hpos callers moves
    refine ⟨(c.run moves).held ++ (c.run moves).stored ++ lost, ?_⟩
    have hmoved : ((c.run moves).handed ++
        ((c.run moves).held ++ (c.run moves).stored ++ lost)).Perm
          ((c.run moves).held ++ (c.run moves).stored ++ (c.run moves).handed ++ lost) := by
      rw [← List.append_assoc]
      exact List.perm_append_comm.append_right lost
    exact hmoved.trans haccounts
  · rintro k hk x hx rfl
    obtain ⟨e, he, htagged⟩ := List.mem_filterMap.mp hx
    obtain ⟨before, after, hsplit⟩ := List.append_of_mem he
    cases e with
    | drained j => exact absurd htagged nofun
    | emitted y =>
        obtain rfl : y = x := Option.some.inj htagged
        exact hk (hsplit ▸ List.mem_append_left _ (hearned before y after hsplit))

/-- An append under the first scope looks at the state word before the scope is released and
pushes its entry when the buffer serves the second one, which is drained later. -/
def lateMoves : List (Move Nat) :=
  alone 0 .openScope 7 ++ alone 1 (.append ⟨0, 1⟩ 10) 1 ++ alone 0 (.release ⟨0, 1⟩) 5 ++
    alone 0 .openScope 7 ++ List.replicate 3 (.step 1) ++ alone 0 (.append ⟨0, 2⟩ 20) 8 ++
    alone 0 (.drain ⟨0, 2⟩) 9

/-- The late entry is spilled by that of the second scope and dropped by its flush. -/
theorem emitted_only_after_drain_recycled :
    let c : PoolCrew Nat := fresh 1 1 Nat.one_pos 2
    (c.run lateMoves).nextScope ≤ StateWord.scopeBound ∧
      (c.run lateMoves).quiet = true ∧
      c.appended lateMoves = [⟨1, 10⟩, ⟨2, 20⟩] ∧
      (c.run lateMoves).history = [.drained 2, .emitted ⟨2, 20⟩] ∧
      (∀ before x after, (c.run lateMoves).history = before ++ .emitted x :: after →
        .drained x.scope ∈ before) ∧
      (∀ k, .drained k ∈ (c.run lateMoves).history → ∃ before m after,
        lateMoves = before ++ m :: after ∧ (c.run before).Switches m k) ∧
      (∃ rest, ((c.run lateMoves).handed ++ rest).Perm (c.appended lateMoves)) ∧
      ∀ k, .drained k ∉ (c.run lateMoves).history →
        ∀ x ∈ (c.run lateMoves).handed, x.scope ≠ k := by
  have hfew : ((fresh 1 1 Nat.one_pos 2 : PoolCrew Nat).run lateMoves).nextScope ≤
      StateWord.scopeBound := by decide +kernel
  exact ⟨hfew, by decide +kernel, by decide +kernel, by decide +kernel,
    emitted_only_after_drain 1 1 Nat.one_pos 2 lateMoves hfew⟩

end PoolCrew

end LogAdmission
