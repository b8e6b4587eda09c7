import LogAdmission.Proofs.Pool.Turns
import LogAdmission.Proofs.Replaced

/-!
# Scope numbers

A scope is opened under a number that no other scope has (`Numbered.tickets`), and every tag
that is found at a buffer, in its queue or its overflow list or in the hands of a call on it,
is the number of a scope that was opened on this buffer (`Numbered.fits`, `stored`).
-/

namespace LogAdmission

variable {α : Type}

namespace Phase

/-- A phase of an append, a drain or a flush under scopes of a kind. -/
def Within (given : Nat → Prop) : Phase α → Prop
  | checking scope _ | rechecking scope | switching scope | taking scope | popping scope =>
    given scope
  | passing x | pushing x | locking x | evicting x => given x.scope
  | spilling x oldest => given x.scope ∧ given oldest.scope
  | emitting scope taken => given scope ∧ ∀ x ∈ taken, given x.scope
  | handing scope x => given scope ∧ given x.scope
  | finished => True
  | finding _ | marking | clearing _ | emptying _ | wiping _ | arming _ => False

/-- A phase of a reset, after which the buffer is given to the scope `next`, if any. -/
def Resets (next : Option Nat) : Phase α → Prop
  | clearing n | emptying n | wiping n => n = next
  | arming scope => next = some scope
  | finished => True
  | _ => False

variable {given wider : Nat → Prop}

theorem Within.mono {p : Phase α} (h : p.Within given) (hwider : ∀ k, given k → wider k) :
    p.Within wider := by
  cases p with
  | checking | rechecking | switching | taking | popping | passing | pushing | locking
  | evicting => exact hwider _ h
  | spilling | handing => exact ⟨hwider _ h.1, hwider _ h.2⟩
  | emitting => exact ⟨hwider _ h.1, fun x hx => hwider _ (h.2 x hx)⟩
  | finished => trivial
  | finding | marking | clearing | emptying | wiping | arming => exact h

end Phase

namespace SharedBuffer

open Phase

variable {me : Nat} {b b' : SharedBuffer α} {p p' : Phase α} {effects : List (Effect α)}
  {given : Nat → Prop}

/-- The entries in the buffer are of scopes of a kind. -/
def Holds (given : Nat → Prop) (b : SharedBuffer α) : Prop :=
  (∀ x ∈ b.buffer.overflow, given x.scope) ∧ ∀ x ∈ b.buffer.queue, given x.scope

theorem Holds.of_queue (h : b.Holds given) {queue : List (Tagged α)}
    (hqueue : ∀ x ∈ queue, given x.scope) :
    ({ b with buffer := { b.buffer with queue := queue } } : SharedBuffer α).Holds given :=
  ⟨h.1, hqueue⟩

theorem Holds.tail (h : b.Holds given) {x : Tagged α} {rest : List (Tagged α)}
    (hqueue : b.buffer.queue = x :: rest) :
    given x.scope ∧ ∀ y ∈ rest, given y.scope :=
  ⟨h.2 x (hqueue ▸ List.mem_cons_self), fun y hy => h.2 y (hqueue ▸ List.mem_cons_of_mem _ hy)⟩

/-- A step of such a call leads to no other scopes. -/
theorem Transition.within (h : b.Transition me p b' p' effects) (hp : p.Within given)
    (hb : b.Holds given) :
    p'.Within given ∧ b'.Holds given ∧ ∀ k, .drained k ∈ effects → given k := by
  cases h with
  | turnAway | pass | settle | findSwitched | leave => exact ⟨trivial, hb, nofun⟩
  | forward | accept | findFull | catchUp => exact ⟨hp, hb, nofun⟩
  | push x hroom =>
      refine ⟨hp, hb.of_queue fun y hy => ?_, nofun⟩
      rcases List.mem_append.mp hy with hold | hnew
      · exact hb.2 y hold
      · exact List.mem_singleton.mp hnew ▸ hp
  | lock | unlock => exact ⟨hp, hb, nofun⟩
  | evict x oldest rest hqueue =>
      obtain ⟨holdest, hrest⟩ := hb.tail hqueue
      exact ⟨⟨hp, holdest⟩, hb.of_queue hrest, nofun⟩
  | spill x oldest =>
      refine ⟨hp.1, ⟨fun y hy => ?_, hb.2⟩, nofun⟩
      rcases List.mem_append.mp hy with hold | hnew
      · exact hb.1 y hold
      · exact List.mem_singleton.mp hnew ▸ hp.2
  | switch scope hstate =>
      refine ⟨hp, hb, fun k hk => ?_⟩
      obtain rfl : k = scope := by simpa using hk
      exact hp
  | take scope hfree => exact ⟨⟨hp, hb.1⟩, ⟨nofun, hb.2⟩, nofun⟩
  | emptied => exact ⟨hp.1, hb, nofun⟩
  | emit scope x rest hscope =>
      exact ⟨⟨hp.1, fun y hy => hp.2 y (List.mem_cons_of_mem _ hy)⟩, hb, by simp⟩
  | skip scope x rest hscope =>
      exact ⟨⟨hp.1, fun y hy => hp.2 y (List.mem_cons_of_mem _ hy)⟩, hb, nofun⟩
  | pop scope x rest hqueue hscope =>
      obtain ⟨hx, hrest⟩ := hb.tail hqueue
      exact ⟨⟨hp, hx⟩, hb.of_queue hrest, nofun⟩
  | popOther scope x rest hqueue hscope =>
      exact ⟨hp, hb.of_queue (hb.tail hqueue).2, nofun⟩
  | hand => exact ⟨hp.1, hb, by simp⟩
  | find | findMarked | mark | clear | discard | discarded | wipe | wipeFor | arm =>
      exact absurd hp id

/-- A reset goes on to the next of its phases; it only takes entries away and shows nothing
to the outside. -/
theorem Transition.resets (h : b.Transition me p b' p' effects) {next : Option Nat}
    (hp : p.Resets next) (hb : b.Holds given) :
    p'.Resets next ∧ b'.Holds given ∧ effects = [] := by
  cases h with
  | clear | discarded => exact ⟨hp, hb, rfl⟩
  | discard n x rest hqueue => exact ⟨hp, hb.of_queue (hb.tail hqueue).2, rfl⟩
  | wipe => exact ⟨trivial, ⟨nofun, hb.2⟩, rfl⟩
  | wipeFor => exact ⟨hp.symm, ⟨nofun, hb.2⟩, rfl⟩
  | arm => exact ⟨trivial, hb, rfl⟩
  | _ => exact absurd hp id

end SharedBuffer

/-- The phases of a call by what its caller does afterwards. -/
def Sequel.Fits (given : Nat → Prop) : Sequel → Phase α → Prop
  | rest, p => p.Within given
  | handOut scope, p => p.Resets (some scope)
  | putBack, p => p.Resets none

theorem Sequel.Fits.mono {given wider : Nat → Prop} {sequel : Sequel} {p : Phase α}
    (h : sequel.Fits given p) (hwider : ∀ k, given k → wider k) : sequel.Fits wider p := by
  cases sequel with
  | rest => exact Phase.Within.mono h hwider
  | handOut | putBack => exact h

/-- The caller is opening the scope. -/
def PoolPhase.opens (scope : Nat) : PoolPhase α → Bool
  | calling _ _ (.handOut k) => k = scope
  | _ => false

theorem PoolPhase.opens_calling (k b : Nat) (p p' : Phase α) (sequel : Sequel) :
    (calling b p' sequel).opens k = (calling b p sequel).opens k := by
  cases sequel with
  | rest | handOut | putBack => rfl

namespace PoolCrew

/-- What the numbers of scopes keep in every run. -/
structure Numbered (c : PoolCrew α) (all : List (Tagged α)) : Prop where
  /-- A number is given to one scope, opened or about to be. -/
  tickets : ∀ k, c.opened.countP (fun o => o.scope = k) + c.callers.countP (PoolPhase.opens k) ≤
    if k < c.nextScope then 1 else 0
  fits : ∀ (i b : Nat) (p : Phase α) (sequel : Sequel),
    c.callers[i]? = some (.calling b p sequel) → sequel.Fits (fun k => ⟨b, k⟩ ∈ c.opened) p
  stored : ∀ (b : Nat) (s : SharedBuffer α),
    c.buffers[b]? = some s → s.Holds fun k => ⟨b, k⟩ ∈ c.opened
  guarded : c.guarded ⊆ c.opened
  appended : ∀ x ∈ all, ∃ b, ⟨b, x.scope⟩ ∈ c.opened
  drained : ∀ k, .drained k ∈ c.history → ∃ b, ⟨b, k⟩ ∈ c.opened

variable {c c' : PoolCrew α} {i : Nat} {m : Move α} {all : List (Tagged α)}

/-- The numbers of opened scopes have been given. -/
theorem Numbered.lt_nextScope (h : c.Numbered all) {b k : Nat} (hk : ⟨b, k⟩ ∈ c.opened) :
    k < c.nextScope := by
  have hticket := h.tickets k
  have hone : 0 < c.opened.countP (fun o => o.scope = k) :=
    List.countP_pos_iff.mpr ⟨_, hk, by simp⟩
  split at hticket
  · assumption
  · omega

/-- A scope has one buffer. -/
theorem Numbered.buffer_unique (h : c.Numbered all) {a b k : Nat} (ha : ⟨a, k⟩ ∈ c.opened)
    (hb : ⟨b, k⟩ ∈ c.opened) : a = b := by
  have hticket := h.tickets k
  have hone : c.opened.countP (fun o => o.scope = k) ≤ 1 := by
    split at hticket
    · omega
    · omega
  exact congrArg Binding.buffer (eq_of_countP_le_one hone ha hb (by simp) (by simp))

/-- A scope that is about to be handed out has not been opened before. -/
theorem Numbered.not_opened (h : c.Numbered all) {b k : Nat} {p : Phase α}
    (hi : c.callers[i]? = some (.calling b p (.handOut k))) : k < c.nextScope ∧
      ∀ a, ⟨a, k⟩ ∉ c.opened := by
  have hticket := h.tickets k
  have hone : 0 < c.callers.countP (PoolPhase.opens k) :=
    List.countP_pos_iff.mpr ⟨_, List.mem_of_getElem? hi, by simp [PoolPhase.opens]⟩
  split at hticket
  · rename_i hlt
    refine ⟨hlt, fun a ha => ?_⟩
    have hother : 0 < c.opened.countP (fun o => o.scope = k) :=
      List.countP_pos_iff.mpr ⟨_, ha, by simp⟩
    omega
  · omega

theorem Numbered.tickets_turn (h : c.Numbered all) (ht : c.Turn i m c') (k : Nat) :
    c'.opened.countP (fun o => o.scope = k) + c'.callers.countP (PoolPhase.opens k) ≤
      if k < c'.nextScope then 1 else 0 := by
  have hticket := h.tickets k
  cases ht with
  | number b hi =>
      -- the number that is given now has not been given before
      have hset := countP_replaced (PoolPhase.opens k) hi
        (.calling b (.clearing (some c.nextScope)) (.handOut c.nextScope))
      simp only [PoolPhase.opens, decide_eq_true_eq, Bool.false_eq_true, if_false] at hset
      dsimp only
      split at hticket
      · rename_i hlt
        rw [if_neg (Nat.ne_of_gt hlt)] at hset
        rw [if_pos (Nat.lt_succ_of_lt hlt)]
        omega
      · rename_i hge
        by_cases heq : c.nextScope = k
        · rw [if_pos heq] at hset
          rw [if_pos (heq ▸ Nat.lt_succ_self _)]
          omega
        · rw [if_neg heq] at hset
          omega
  | handOut b scope hi =>
      have hset := countP_replaced (PoolPhase.opens k) hi .free
      simp only [PoolPhase.opens, decide_eq_true_eq, Bool.false_eq_true, if_false] at hset
      simp only [List.countP_cons, decide_eq_true_eq]
      omega
  | openScope hi | append target x hi hopened | drain target hi hopened
  | release target hi hguarded | reuse b rest hi hidle | create hi hidle | endCall b hi
  | endReset b hi | putBack b hi hroom | letGo b hi hfull =>
      rw [countP_replaced_same hi]
      · exact hticket
      · rfl
  | call b p p' sequel s s' effects hi hb hstep =>
      rw [countP_replaced_same hi (PoolPhase.opens_calling k b p p' sequel)]
      exact hticket

/-- A call that begins or goes on fits what its caller does afterwards. -/
theorem Numbered.fits_turn (h : c.Numbered all) (ht : c.Turn i m c') {j b : Nat} {p : Phase α}
    {sequel : Sequel} (hj : c'.callers[j]? = some (.calling b p sequel)) :
    sequel.Fits (fun k => ⟨b, k⟩ ∈ c'.opened) p := by
  have hold : ∀ {new : PoolPhase α}, (c.callers.set i new)[j]? = some (.calling b p sequel) →
      new = .calling b p sequel ∨ sequel.Fits (fun k => ⟨b, k⟩ ∈ c'.opened) p := by
    intro new hset
    rcases mem_replaced hset with ⟨-, heq⟩ | ⟨-, hj⟩
    · exact .inl heq.symm
    · exact .inr ((h.fits j b p sequel hj).mono fun k hk => ht.opened_subset hk)
  cases ht with
  | openScope | reuse | create | endCall | handOut | endReset | putBack | letGo =>
      exact (hold hj).resolve_left nofun
  | append target x hi hopened =>
      rcases hold hj with heq | hfits
      · obtain ⟨rfl, rfl, rfl⟩ := PoolPhase.calling.inj heq
        exact hopened
      · exact hfits
  | drain target hi hopened =>
      rcases hold hj with heq | hfits
      · obtain ⟨rfl, rfl, rfl⟩ := PoolPhase.calling.inj heq
        exact hopened
      · exact hfits
  | release target hi hguarded =>
      rcases hold hj with heq | hfits
      · obtain ⟨rfl, rfl, rfl⟩ := PoolPhase.calling.inj heq
        rfl
      · exact hfits
  | number b hi =>
      rcases hold hj with heq | hfits
      · obtain ⟨rfl, rfl, rfl⟩ := PoolPhase.calling.inj heq
        rfl
      · exact hfits
  | call a q q' sequel' s s' effects hi hb hstep =>
      rcases hold hj with heq | hfits
      · obtain ⟨rfl, rfl, rfl⟩ := PoolPhase.calling.inj heq
        have hfits := h.fits i a q sequel' hi
        have hholds := h.stored a s hb
        cases sequel' with
        | rest => exact (hstep.within hfits hholds).1
        | handOut scope => exact (hstep.resets hfits hholds).1
        | putBack => exact (hstep.resets hfits hholds).1
      · exact hfits

/-- What a step of a call leaves in its buffer and shows to the outside. -/
theorem Numbered.of_call (h : c.Numbered all) {b : Nat} {p p' : Phase α} {sequel : Sequel}
    {s s' : SharedBuffer α} {effects : List (Effect α)}
    (hi : c.callers[i]? = some (.calling b p sequel)) (hb : c.buffers[b]? = some s)
    (hstep : s.Transition i p s' p' effects) :
    (s'.Holds fun k => ⟨b, k⟩ ∈ c.opened) ∧
      ∀ k, .drained k ∈ effects → sequel = .rest ∧ ⟨b, k⟩ ∈ c.opened := by
  have hfits := h.fits i b p sequel hi
  have hholds := h.stored b s hb
  cases sequel with
  | rest =>
      obtain ⟨-, hs', hdrained⟩ := hstep.within hfits hholds
      exact ⟨hs', fun k hk => ⟨rfl, hdrained k hk⟩⟩
  | handOut scope =>
      obtain ⟨-, hs', rfl⟩ := hstep.resets hfits hholds
      exact ⟨hs', nofun⟩
  | putBack =>
      obtain ⟨-, hs', rfl⟩ := hstep.resets hfits hholds
      exact ⟨hs', nofun⟩

theorem Numbered.stored_turn (h : c.Numbered all) (ht : c.Turn i m c') {b : Nat}
    {s : SharedBuffer α} (hs : c'.buffers[b]? = some s) :
    s.Holds fun k => ⟨b, k⟩ ∈ c.opened := by
  cases ht with
  | create hi hidle =>
      rw [List.getElem?_append] at hs
      split at hs
      · exact h.stored b s hs
      · obtain rfl : _ = s := List.mem_singleton.mp (List.mem_of_getElem? hs) |>.symm
        exact ⟨nofun, nofun⟩
  | call a p p' sequel s₀ s₁ effects hi hb hstep =>
      rcases mem_replaced hs with ⟨rfl, rfl⟩ | ⟨-, hs⟩
      · exact (h.of_call hi hb hstep).1
      · exact h.stored b s hs
  | _ => exact h.stored b s hs

theorem Numbered.guarded_turn (h : c.Numbered all) (ht : c.Turn i m c') :
    c'.guarded ⊆ c'.opened := by
  cases ht with
  | release target hi hguarded =>
      exact fun o ho => h.guarded (List.mem_of_mem_erase ho)
  | handOut b scope hi => exact List.cons_subset_cons _ h.guarded
  | _ => exact h.guarded

theorem Numbered.drained_turn (h : c.Numbered all) (ht : c.Turn i m c') {k : Nat}
    (hk : .drained k ∈ c'.history) : ∃ b, ⟨b, k⟩ ∈ c.opened := by
  cases ht with
  | call b p p' sequel s s' effects hi hb hstep =>
      rcases List.mem_append.mp hk with hold | hnew
      · exact h.drained k hold
      · exact ⟨b, ((h.of_call hi hb hstep).2 k hnew).2⟩
  | _ => exact h.drained k hk

theorem Numbered.appended_turn (h : c.Numbered all) (ht : c.Turn i m c') :
    ∀ x ∈ all ++ m.appended, ∃ b, ⟨b, x.scope⟩ ∈ c.opened := by
  intro x hx
  rcases List.mem_append.mp hx with hold | hnew
  · exact h.appended x hold
  · cases ht with
    | append target y hi hopened =>
        obtain rfl := List.mem_singleton.mp hnew
        exact ⟨target.buffer, hopened⟩
    | _ => exact absurd hnew nofun

/-- Every move keeps it. -/
theorem Numbered.turn (h : c.Numbered all) (ht : c.Turn i m c') :
    c'.Numbered (all ++ m.appended) where
  tickets := h.tickets_turn ht
  fits := fun _ _ _ _ hj => h.fits_turn ht hj
  stored := fun _ _ hs =>
    have hholds := h.stored_turn ht hs
    ⟨fun x hx => ht.opened_subset (hholds.1 x hx), fun x hx => ht.opened_subset (hholds.2 x hx)⟩
  guarded := h.guarded_turn ht
  appended := fun x hx => (h.appended_turn ht x hx).imp fun _ hb => ht.opened_subset hb
  drained := fun _ hk => (h.drained_turn ht hk).imp fun _ hb => ht.opened_subset hb

/-- All callers of a new pool are free. -/
theorem fresh_callers {size capacity : Nat} {hpos : 0 < capacity} {callers : Nat}
    {phase : PoolPhase α} (hi : (fresh size capacity hpos callers).callers[i]? = some phase) :
    phase = .free :=
  (List.mem_replicate.mp (List.mem_of_getElem? hi)).2

theorem fresh_numbered (size capacity : Nat) (hpos : 0 < capacity) (callers : Nat) :
    (fresh size capacity hpos callers : PoolCrew α).Numbered [] where
  tickets := by
    intro k
    have hnone : (List.replicate callers (PoolPhase.free : PoolPhase α)).countP
        (PoolPhase.opens k) = 0 :=
      List.countP_eq_zero.mpr fun phase hphase => by
        rw [(List.mem_replicate.mp hphase).2]
        exact nofun
    simp only [fresh, List.countP_nil, hnone]
    exact Nat.zero_le _
  fits := fun _ _ _ _ hj => absurd (fresh_callers hj) nofun
  stored := fun _ _ hs => absurd hs nofun
  guarded := List.Subset.refl _
  appended := nofun
  drained := nofun

end PoolCrew

end LogAdmission
