import LogAdmission.Proofs.Buffer.Overlap
import LogAdmission.Proofs.Pool.Scopes

/-!
# The account of a pool

Where the entries are whose appends have begun: in the hands of a call, in a buffer, handed
to their handlers, or lost. An entry is lost when its scope has been released, when a flush
of another scope finds it, or when its buffer is reset (`SharedBuffer.loss`). Nothing is ever
doubled (`Accounts.turn`).
-/

namespace LogAdmission

variable {α : Type}

/-- The entries in the hands of a call, each under its scope. -/
def Phase.held : Phase α → List (Tagged α)
  | checking scope x => [⟨scope, x⟩]
  | passing x | pushing x | locking x | evicting x | handing _ x => [x]
  | spilling x oldest => [x, oldest]
  | emitting _ taken => taken
  | _ => []

/-- The entry that an effect hands to its handler, under its scope. -/
def Effect.tagged? : Effect α → Option (Tagged α)
  | .emitted x => some x
  | .drained _ => none

namespace SharedBuffer

open Phase

/-- The entries that the next step of a call drops. -/
def loss (b : SharedBuffer α) : Phase α → List (Tagged α)
  | .checking scope x => if b.buffer.scope = scope then [] else [⟨scope, x⟩]
  | .emitting scope (x :: _) => if x.scope = scope then [] else [x]
  | .popping scope => (b.buffer.queue.take 1).filter fun x => x.scope ≠ scope
  | .emptying _ => b.buffer.queue.take 1
  | .wiping _ => b.buffer.overflow
  | _ => []

variable {me : Nat} {b b' : SharedBuffer α} {p p' : Phase α} {effects : List (Effect α)}

/-- After a step an entry is where it was, or it has been handed over or dropped. -/
theorem Transition.conserved (h : b.Transition me p b' p' effects) (hp : ∀ x, p ≠ .finding x) :
    (p'.held ++ b'.buffer.pending ++ effects.filterMap Effect.tagged? ++ b.loss p).Perm
      (p.held ++ b.buffer.pending) := by
  cases h with
  | find x => exact absurd rfl (hp x)
  | turnAway scope x hscope =>
      simp [held, loss, hscope, List.perm_append_singleton]
  | forward scope x hscope hdrained => simp [held, loss, hscope]
  | accept scope x hscope hdrained => simp [held, loss, hscope]
  | pass x => simp [held, loss, Effect.tagged?, List.perm_append_singleton]
  | push x hroom =>
      simp only [held, loss, RecordBuffer.pending, List.filterMap_nil, List.append_nil,
        List.nil_append, ← List.append_assoc]
      exact List.perm_append_singleton _ _
  | evict x oldest rest hqueue =>
      simp [held, loss, RecordBuffer.pending, hqueue, List.perm_middle.symm]
  | spill x oldest =>
      simp [held, loss, RecordBuffer.pending, List.perm_middle]
  | switch scope hstate =>
      simp [held, loss, Effect.tagged?, RecordBuffer.pending, List.filterMap_cons]
  | mark hdrained => simp [held, loss, Effect.tagged?, RecordBuffer.pending, List.filterMap_cons]
  | take scope hfree => simp [held, loss, RecordBuffer.pending]
  | emit scope x rest hscope =>
      simp only [held, loss, if_pos hscope, List.append_nil]
      exact List.perm_append_singleton _ _
  | skip scope x rest hscope =>
      simp only [held, loss, if_neg hscope, List.filterMap_nil, List.append_nil]
      exact List.perm_append_singleton _ _
  | leave scope hempty => simp [held, loss, hempty]
  | pop scope x rest hqueue hscope =>
      simp [held, loss, RecordBuffer.pending, hqueue, hscope, List.perm_middle.symm]
  | popOther scope x rest hqueue hscope =>
      have hdropped : b.loss (popping scope) = [x] := by simp [loss, hqueue, hscope]
      rw [hdropped]
      simp only [held, RecordBuffer.pending, hqueue, List.filterMap_nil, List.append_nil,
        List.nil_append, List.append_assoc]
      exact (List.perm_append_singleton x rest).append_left _
  | hand scope x => simp [held, loss, Effect.tagged?, List.perm_append_singleton]
  | discard next x rest hqueue =>
      have hdropped : b.loss (emptying next) = [x] := by simp [loss, hqueue]
      rw [hdropped]
      simp only [held, RecordBuffer.pending, hqueue, List.filterMap_nil, List.append_nil,
        List.nil_append, List.append_assoc]
      exact (List.perm_append_singleton x rest).append_left _
  | discarded next hempty => simp [held, loss, hempty]
  | wipe hfree =>
      simp only [held, loss, RecordBuffer.pending, List.filterMap_nil, List.append_nil,
        List.nil_append]
      exact List.perm_append_comm
  | wipeFor scope hfree =>
      simp only [held, loss, RecordBuffer.pending, List.filterMap_nil, List.append_nil,
        List.nil_append]
      exact List.perm_append_comm
  | _ => simp [held, loss, RecordBuffer.pending]

end SharedBuffer

/-- The entries in the hands of a caller. -/
def PoolPhase.held : PoolPhase α → List (Tagged α)
  | calling _ p _ => p.held
  | _ => []

namespace PoolCrew

/-- The entries in the hands of callers. -/
def held (c : PoolCrew α) : List (Tagged α) :=
  c.callers.flatMap PoolPhase.held

/-- The entries in the buffers. -/
def stored (c : PoolCrew α) : List (Tagged α) :=
  c.buffers.flatMap fun s => s.buffer.pending

/-- The entries handed to their handlers, in order, each under its scope. -/
def handed (c : PoolCrew α) : List (Tagged α) :=
  c.history.filterMap Effect.tagged?

/-- The entries that a move drops. -/
def loss (c : PoolCrew α) : Move α → List (Tagged α)
  | .start _ _ => []
  | .step i =>
    match c.callers[i]? with
    | some (.calling b p _) => (c.buffers[b]?.map fun s => s.loss p).getD []
    | _ => []

/-- The entries appended so far are accounted for, those that are lost among them. -/
def Accounts (c : PoolCrew α) (all lost : List (Tagged α)) : Prop :=
  (c.held ++ c.stored ++ c.handed ++ lost).Perm all

variable {c c' : PoolCrew α} {i : Nat} {m : Move α} {all lost : List (Tagged α)}

theorem loss_of_call {b : Nat} {p : Phase α} {sequel : Sequel} {s : SharedBuffer α}
    (hi : c.callers[i]? = some (.calling b p sequel)) (hb : c.buffers[b]? = some s) :
    c.loss (.step i) = s.loss p := by
  simp [loss, hi, hb]

/-- The end of a call drops nothing. -/
theorem loss_of_finished {b : Nat} {sequel : Sequel}
    (hi : c.callers[i]? = some (.calling b .finished sequel)) : c.loss (.step i) = [] := by
  rw [loss, hi]
  cases hb : c.buffers[b]? with
  | none => simp [hb]
  | some s => simp [hb, SharedBuffer.loss]

/-- Only a step of a call on a buffer drops entries. -/
theorem Turn.loss_cases (ht : c.Turn i m c') :
    c.loss m = [] ∨ ∃ (b : Nat) (p : Phase α) (sequel : Sequel) (s : SharedBuffer α),
      c.callers[i]? = some (.calling b p sequel) ∧ c.buffers[b]? = some s ∧
        c.loss m = s.loss p := by
  cases ht with
  | openScope | append | drain | release => exact .inl rfl
  | reuse b rest hi | create hi | number b hi | putBack b hi | letGo b hi =>
      exact .inl (by simp [loss, hi])
  | endCall b hi | handOut b scope hi | endReset b hi => exact .inl (loss_of_finished hi)
  | call b p p' sequel s s' effects hi hb hstep =>
      exact .inr ⟨b, p, sequel, s, hi, hb, loss_of_call hi hb⟩

/-- A move that is no step of a call on a buffer changes the account only by what it begins
to append. -/
theorem Accounts.aside (h : c.Accounts all lost) {old new : PoolPhase α}
    (hi : c.callers[i]? = some old) (hcallers : c'.callers = c.callers.set i new)
    (hheld : new.held = m.appended ++ old.held) (hstored : c'.stored = c.stored)
    (hhistory : c'.history = c.history) (hloss : c.loss m = []) :
    c'.Accounts (all ++ m.appended) (lost ++ c.loss m) := by
  classical
  have hset := flatMap_replaced PoolPhase.held new hi
  unfold Accounts at h ⊢
  rw [held, handed, hcallers, hstored, hhistory, hloss]
  rw [hheld] at hset
  rw [List.perm_iff_count] at hset h ⊢
  intro x
  have hset := hset x
  have h := h x
  simp only [held, handed, List.count_append, List.append_nil] at hset h ⊢
  omega

/-- So does a step of a call by what it drops. -/
theorem Accounts.call (h : c.Accounts all lost) {b : Nat} {p p' : Phase α} {sequel : Sequel}
    {s s' : SharedBuffer α} {effects : List (Effect α)}
    (hi : c.callers[i]? = some (.calling b p sequel)) (hb : c.buffers[b]? = some s)
    (hstep : s.Transition i p s' p' effects) (hp : ∀ x, p ≠ .finding x)
    (hcallers : c'.callers = c.callers.set i (.calling b p' sequel))
    (hbuffers : c'.buffers = c.buffers.set b s') (hhistory : c'.history = c.history ++ effects) :
    c'.Accounts all (lost ++ s.loss p) := by
  classical
  have hheld := flatMap_replaced PoolPhase.held (.calling b p' sequel) hi
  have hstored := flatMap_replaced (fun s : SharedBuffer α => s.buffer.pending) s' hb
  have hcons := hstep.conserved hp
  unfold Accounts at h ⊢
  rw [held, stored, handed, hcallers, hbuffers, hhistory]
  rw [List.perm_iff_count] at hheld hstored hcons h ⊢
  intro x
  have hheld := hheld x
  have hstored := hstored x
  have hcons := hcons x
  have h := h x
  simp only [held, stored, handed, PoolPhase.held, List.count_append, List.filterMap_append]
    at hheld hstored hcons h ⊢
  omega

/-- A call of a pool does not look for the scope of its buffer. -/
theorem Numbered.not_finding (h : c.Numbered all) {b : Nat} {p : Phase α} {sequel : Sequel}
    (hi : c.callers[i]? = some (.calling b p sequel)) (x : α) : p ≠ .finding x := by
  rintro rfl
  have hfits := h.fits i b _ sequel hi
  cases sequel with
  | rest | handOut | putBack => exact hfits

/-- Every move keeps the account. -/
theorem Accounts.turn (h : c.Accounts all lost) (hn : c.Numbered all) (ht : c.Turn i m c') :
    c'.Accounts (all ++ m.appended) (lost ++ c.loss m) := by
  cases ht with
  | openScope hi | append target x hi hopened | drain target hi hopened
  | release target hi hguarded => exact h.aside hi rfl rfl rfl rfl rfl
  | reuse b rest hi hidle => exact h.aside hi rfl rfl rfl rfl (by simp [loss, hi])
  | create hi hidle =>
      refine h.aside hi rfl rfl ?_ rfl (by simp [loss, hi])
      simp [stored, RecordBuffer.pending, RecordBuffer.ofCapacity]
  | number b hi | putBack b hi hroom | letGo b hi hfull =>
      exact h.aside hi rfl rfl rfl rfl (by simp [loss, hi])
  | endCall b hi | handOut b scope hi | endReset b hi =>
      exact h.aside hi rfl rfl rfl rfl (loss_of_finished hi)
  | call b p p' sequel s s' effects hi hb hstep =>
      have hnone : (Move.step i : Move α).appended = [] := rfl
      rw [loss_of_call hi hb, hnone, List.append_nil]
      exact h.call hi hb hstep (hn.not_finding hi) rfl rfl rfl

theorem fresh_accounts (size capacity : Nat) (hpos : 0 < capacity) (callers : Nat) :
    (fresh size capacity hpos callers : PoolCrew α).Accounts [] [] := by
  have hheld : (fresh size capacity hpos callers : PoolCrew α).held = [] := by
    rw [held, List.flatMap_eq_nil_iff]
    intro phase hphase
    rw [(List.mem_replicate.mp hphase).2]
    rfl
  rw [Accounts, hheld]
  exact .refl _

end PoolCrew

end LogAdmission
