import LogAdmission.Proofs.Pool.Scopes

/-!
# Who has a buffer

A buffer has at most one owner: the pool while it is idle, a caller that opens or releases a
scope on it, or the guard of a scope (`Owned.tokens`). Calls of contexts own nothing, and may
be under way on a buffer whoever has it; they do not change the scope of its state word. So a
scope finds its buffer armed when it is handed out (`Ready`).
-/

namespace LogAdmission

variable {α : Type}

/-- The caller has taken the buffer to open or to release a scope. -/
def PoolPhase.owns (buffer : Nat) : PoolPhase α → Bool
  | numbering b | returning b | calling b _ (.handOut _) | calling b _ .putBack => b = buffer
  | _ => false

theorem PoolPhase.owns_calling (a b : Nat) (p p' : Phase α) (sequel : Sequel) :
    (calling b p' sequel).owns a = (calling b p sequel).owns a := by
  cases sequel with
  | rest | handOut | putBack => rfl

/-- Whoever does not simply rest after its call owns the buffer. -/
theorem PoolPhase.owns_of_ne_rest {b : Nat} {p : Phase α} {sequel : Sequel}
    (h : sequel ≠ .rest) : (calling b p sequel).owns b = true := by
  cases sequel with
  | rest => exact absurd rfl h
  | handOut | putBack => exact decide_eq_true rfl

/-- The numbers of armed words tell them apart. -/
theorem StateWord.armed_injective {j k : Nat} (hj : j < scopeBound) (hk : k < scopeBound)
    (h : armed j = armed k) : j = k := by
  rw [← scope_armed hj, h, scope_armed hk]

/-- A call under other scopes leaves an armed word as it is. -/
theorem SharedBuffer.Transition.armed_kept {me : Nat} {b b' : SharedBuffer α} {p p' : Phase α}
    {effects : List (Effect α)} {given : Nat → Prop} {k : Nat}
    (h : b.Transition me p b' p' effects) (hp : p.Within given)
    (hb : b.buffer.state = .armed k) (hother : ∀ j, given j → StateWord.armed k ≠ .armed j) :
    b'.buffer.state = .armed k := by
  cases h with
  | switch scope hstate => exact absurd (hb.symm.trans hstate) (hother scope hp)
  | mark | clear | arm => exact absurd hp id
  | _ => exact hb

/-- A reset that has come to its end for a scope has just armed the buffer. -/
theorem SharedBuffer.Transition.armed_of_resets {me : Nat} {b b' : SharedBuffer α} {p : Phase α}
    {effects : List (Effect α)} {k : Nat} (h : b.Transition me p b' .finished effects)
    (hp : p.Resets (some k)) : b'.buffer.state = .armed k := by
  cases h with
  | arm scope =>
      have hnext : some k = some scope := hp
      exact congrArg StateWord.armed (Option.some.inj hnext).symm
  | wipe => exact absurd hp nofun
  | _ => exact absurd hp id

namespace PoolCrew

/-- The number of those who have a buffer. -/
def owners (c : PoolCrew α) (b : Nat) : Nat :=
  c.idle.count b + c.callers.countP (PoolPhase.owns b) +
    c.guarded.countP fun o => o.buffer = b

/-- A buffer has at most one owner, and one that has not been created has none. -/
def Owned (c : PoolCrew α) : Prop :=
  ∀ b, c.owners b ≤ if b < c.buffers.length then 1 else 0

/-- A scope that is about to be handed out finds its buffer armed. -/
def Ready (c : PoolCrew α) : Prop :=
  ∀ (i b k : Nat), c.callers[i]? = some (.calling b .finished (.handOut k)) →
    ∀ s, c.buffers[b]? = some s → s.buffer.state = .armed k

variable {c c' : PoolCrew α} {i j b : Nat} {m : Move α} {all : List (Tagged α)}
  {phase other : PoolPhase α}

theorem Owned.owners_le_one (h : c.Owned) (b : Nat) : c.owners b ≤ 1 := by
  have hb := h b
  split at hb
  · exact hb
  · omega

theorem countP_owns_pos (hi : c.callers[i]? = some phase) (hphase : phase.owns b = true) :
    0 < c.callers.countP (PoolPhase.owns b) :=
  List.countP_pos_iff.mpr ⟨_, List.mem_of_getElem? hi, hphase⟩

/-- Two callers do not own the same buffer. -/
theorem Owned.caller_unique (h : c.Owned) (hi : c.callers[i]? = some phase)
    (hphase : phase.owns b = true) (hj : c.callers[j]? = some other)
    (hother : other.owns b = true) : i = j := by
  apply Classical.byContradiction
  intro hij
  -- without the first caller, the second one is still there
  have hset := countP_replaced (PoolPhase.owns b) hi .free
  have hpos : 0 < (c.callers.set i .free).countP (PoolPhase.owns b) :=
    List.countP_pos_iff.mpr
      ⟨_, List.mem_of_getElem? ((List.getElem?_set_ne hij).trans hj), hother⟩
  have hone := h.owners_le_one b
  rw [hphase] at hset
  simp only [PoolPhase.owns, if_true, Bool.false_eq_true, if_false, owners] at hset hone
  omega

/-- Nobody owns the buffer of a scope that has a guard. -/
theorem Owned.not_owns (h : c.Owned) {o : Binding} (ho : o ∈ c.guarded)
    (hi : c.callers[i]? = some phase) : phase.owns o.buffer = false := by
  rw [Bool.eq_false_iff]
  intro hphase
  have hcaller := countP_owns_pos hi hphase
  have hguard : 0 < c.guarded.countP fun a => a.buffer = o.buffer :=
    List.countP_pos_iff.mpr ⟨o, ho, by simp⟩
  have hone := h.owners_le_one o.buffer
  rw [owners] at hone
  omega

theorem Owned.guarded_lt_length (h : c.Owned) {o : Binding} (ho : o ∈ c.guarded) :
    o.buffer < c.buffers.length := by
  have hguard : 0 < c.guarded.countP fun a => a.buffer = o.buffer :=
    List.countP_pos_iff.mpr ⟨o, ho, by simp⟩
  have hb := h o.buffer
  rw [owners] at hb
  split at hb
  · assumption
  · omega

/-- A buffer that somebody owns has been created. -/
theorem Owned.lt_length (h : c.Owned) (hi : c.callers[i]? = some phase)
    (hphase : phase.owns b = true) : b < c.buffers.length := by
  have hcaller := countP_owns_pos hi hphase
  have hb := h b
  rw [owners] at hb
  split at hb
  · assumption
  · omega

/-- Every move keeps the owners apart. -/
theorem Owned.turn (h : c.Owned) (ht : c.Turn i m c') : c'.Owned := by
  intro b
  have hb := h b
  unfold owners at hb ⊢
  cases ht with
  | openScope hi | append target x hi hopened | drain target hi hopened | number n hi
  | endCall n hi | endReset n hi =>
      rw [countP_replaced_same hi]
      · exact hb
      · rfl
  | call n p p' sequel s s' effects hi hs hstep =>
      rw [countP_replaced_same hi (PoolPhase.owns_calling b n p p' sequel)]
      simpa using hb
  | release target hi hguarded =>
      have hset := countP_replaced (PoolPhase.owns b) hi
        (.calling target.buffer (.clearing none) .putBack)
      have herase := (List.perm_cons_erase hguarded).countP_eq fun o => o.buffer = b
      simp only [PoolPhase.owns, decide_eq_true_eq, Bool.false_eq_true, if_false] at hset
      simp only [List.countP_cons, decide_eq_true_eq] at herase
      dsimp only
      omega
  | reuse n rest hi hidle =>
      have hset := countP_replaced (PoolPhase.owns b) hi (.numbering n)
      simp only [PoolPhase.owns, decide_eq_true_eq, Bool.false_eq_true, if_false] at hset
      simp only [hidle, List.count_cons, beq_iff_eq] at hb
      dsimp only
      omega
  | create hi hidle =>
      have hset := countP_replaced (PoolPhase.owns b) hi (.numbering c.buffers.length)
      simp only [PoolPhase.owns, decide_eq_true_eq, Bool.false_eq_true, if_false] at hset
      simp only [List.length_append, List.length_singleton]
      -- the new buffer has had no owner
      split at hb
      · rename_i hlt
        rw [if_neg (Nat.ne_of_gt hlt)] at hset
        rw [if_pos (Nat.lt_succ_of_lt hlt)]
        omega
      · rename_i hge
        split at hset
        · rename_i heq
          rw [if_pos (by omega)]
          omega
        · rename_i hne
          omega
  | handOut n scope hi =>
      have hset := countP_replaced (PoolPhase.owns b) hi .free
      simp only [PoolPhase.owns, decide_eq_true_eq, Bool.false_eq_true, if_false] at hset
      simp only [List.countP_cons, decide_eq_true_eq]
      omega
  | putBack n hi hroom =>
      have hset := countP_replaced (PoolPhase.owns b) hi .free
      simp only [PoolPhase.owns, decide_eq_true_eq, Bool.false_eq_true, if_false] at hset
      simp only [List.count_append, List.count_cons, List.count_nil, beq_iff_eq]
      omega
  | letGo n hi hfull =>
      have hset := countP_replaced (PoolPhase.owns b) hi .free
      simp only [PoolPhase.owns, decide_eq_true_eq, Bool.false_eq_true, if_false] at hset
      dsimp only
      omega

theorem fresh_owned (size capacity : Nat) (hpos : 0 < capacity) (callers : Nat) :
    (fresh size capacity hpos callers : PoolCrew α).Owned := by
  intro b
  have hnone : (List.replicate callers (PoolPhase.free : PoolPhase α)).countP
      (PoolPhase.owns b) = 0 :=
    List.countP_eq_zero.mpr fun phase hphase => by
      rw [(List.mem_replicate.mp hphase).2]
      exact nofun
  simp [owners, fresh, hnone]

/-- A move that changes no buffer brings no caller to the end of a reset. -/
theorem Ready.aside (h : c.Ready) {new : PoolPhase α}
    (hcallers : c'.callers = c.callers.set i new)
    (hnew : ∀ b k, new ≠ .calling b .finished (.handOut k))
    (hbuffers : ∀ (j b k : Nat) (s : SharedBuffer α),
      c.callers[j]? = some (.calling b .finished (.handOut k)) → c'.buffers[b]? = some s →
        c.buffers[b]? = some s) : c'.Ready := by
  intro j b k hj s hs
  rw [hcallers] at hj
  rcases mem_replaced hj with ⟨-, heq⟩ | ⟨-, hj⟩
  · exact absurd heq.symm (hnew b k)
  · exact h j b k hj s (hbuffers j b k s hj hs)

/-- Every move keeps the buffers of scopes that are about to be handed out armed. -/
theorem Ready.turn (h : c.Ready) (hn : c.Numbered all) (ho : c.Owned)
    (hfew : c.nextScope ≤ StateWord.scopeBound) (ht : c.Turn i m c') : c'.Ready := by
  cases ht with
  | openScope | append | drain | release | reuse | number | endCall | handOut | endReset
  | putBack | letGo => exact h.aside rfl nofun fun _ _ _ _ _ hs => hs
  | create hi hidle =>
      refine h.aside rfl nofun fun j b k s hj hs => ?_
      have hlt := ho.lt_length hj (PoolPhase.owns_of_ne_rest nofun)
      rwa [List.getElem?_append_left hlt] at hs
  | call a p p' sequel s₀ s₁ effects hi ha hstep =>
      intro j b k hj s hs
      have hfits := hn.fits i a p sequel hi
      rcases mem_replaced hj with ⟨rfl, heq⟩ | ⟨hji, hold⟩
      · -- the caller itself comes to the end of its reset
        obtain ⟨rfl, rfl, rfl⟩ := PoolPhase.calling.inj heq
        rcases mem_replaced hs with ⟨-, rfl⟩ | ⟨hne, -⟩
        · exact hstep.armed_of_resets hfits
        · exact absurd rfl hne
      · rcases mem_replaced hs with ⟨rfl, rfl⟩ | ⟨-, hs⟩
        · -- another caller takes a step on the buffer: it does not own it
          have hrest : sequel = .rest := by
            apply Classical.byContradiction
            intro hne
            exact hji (ho.caller_unique hold (PoolPhase.owns_of_ne_rest nofun) hi
              (PoolPhase.owns_of_ne_rest hne))
          subst hrest
          obtain ⟨hlt, hnot⟩ := hn.not_opened hold
          refine hstep.armed_kept hfits (h j b k hold s₀ ha) fun l hl heq => ?_
          have hkl := StateWord.armed_injective (Nat.lt_of_lt_of_le hlt hfew)
            (Nat.lt_of_lt_of_le (hn.lt_nextScope hl) hfew) heq
          exact hnot b (hkl ▸ hl)
        · exact h j b k hold s hs

theorem fresh_ready (size capacity : Nat) (hpos : 0 < capacity) (callers : Nat) :
    (fresh size capacity hpos callers : PoolCrew α).Ready :=
  fun _ _ _ hj => absurd (fresh_callers hj) nofun

end PoolCrew

end LogAdmission
