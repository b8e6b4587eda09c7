import LogAdmission.Proofs.Handler.Frame
import LogAdmission.Proofs.Scopes.Sessions
import LogAdmission.Proofs.Tenancy.Leases

/-!
# Orderly tenancies

Buffers are shared by guards, contexts and pools, and outlive all of them in any order. Still no
buffer is in two hands, and a context is buffered exactly while the guard that was given out with
it is held (`Orderly`). The invariant that carries this puts together, for a custody of the
buffers, what is true of the leases, of the scope numbers and of the buffers that are out of use
(`Settled`). Every call restores it.
-/

namespace LogAdmission

open RecordBuffer

variable {κ σ : Type}

/-- Who has which buffer of a tenancy, and what that says of contexts. -/
structure Orderly (s : Tenancy κ σ) : Prop where
  /-- Each pool hands out its scope numbers from one on. -/
  scopes_eq : ∀ p, s.scopesOf p = List.range' 1 (s.scopesOf p).length
  apart : ∀ {j k : Nat} {l l' : Lease}, s.leases[j]? = some l → s.leases[k]? = some l' →
    l.held = true → l'.held = true → l.guard.buffer = l'.guard.buffer → j = k
  /-- A context is bound to the buffer of the guard that it was given out with. -/
  bound : ∀ l ∈ s.leases, l.context.binding = some ⟨l.guard.buffer, l.scope⟩
  own_scope : ∀ l ∈ s.leases, l.held = true → (s.store.buffers l.guard.buffer).scope = l.scope
  idle_nodup : ∀ p, (s.store.pools p).idle.Nodup
  idle_apart : ∀ {p q i}, i ∈ (s.store.pools p).idle → i ∈ (s.store.pools q).idle → p = q
  not_idle : ∀ l ∈ s.leases, l.held = true → ∀ p, l.guard.buffer ∉ (s.store.pools p).idle
  idle_le : ∀ p, (s.store.pools p).idle.length ≤ (s.store.pools p).size
  idle_clean : ∀ p, ∀ i ∈ (s.store.pools p).idle, (s.store.buffers i).drained = false ∧
    (s.store.buffers i).scope = 0 ∧ (s.store.buffers i).pending = []
  detached : ∀ i < s.store.freshBuffer, ∀ x ∈ (s.store.buffers i).pending, x.entry.Detached
  buffered_iff : ∀ cx, (s.store.view (s.context cx)).buffered = true ↔
    ∃ k l, cx.opening = some k ∧ s.leases[k]? = some l ∧ l.held = true

/-! ## The invariant -/

/-- What every call restores, for some custody of the buffers. -/
structure Settled (s : Tenancy κ σ) (c : Custody) : Prop where
  shelved : Shelved s.store c
  tenured : ∀ k l, s.leases[k]? = some l → Tenured s.store c k l
  consecutive : s.Consecutive
  tidy : s.store.Tidy

namespace Settled

variable {s : Tenancy κ σ} {c : Custody}

theorem start {st : Store κ σ} (h : st.Unopened) :
    Settled ⟨st, []⟩ ⟨fun _ => 0, fun _ => none⟩ where
  shelved := {
    idle := fun p i hi => by simp [h.idle_eq] at hi
    nodup := fun p => by simp [h.idle_eq] }
  tenured := by simp
  consecutive := ⟨fun _ => rfl, h.nextScope_eq⟩
  tidy := {
    idle_le := fun p => by simp [h.idle_eq]
    clean := fun p i hi => by simp [h.idle_eq] at hi
    detached := fun i hi => by simp [h.freshBuffer_eq] at hi }

/-- A context that a caller can pass on is bound by a lease, or not at all. -/
theorem binding_eq_some_iff (h : Settled s c) (cx : ScopedContext) (b : Binding) :
    (s.context cx).binding = some b ↔ ∃ k l, cx.opening = some k ∧ s.leases[k]? = some l ∧
      b = ⟨l.guard.buffer, l.scope⟩ := by
  unfold Tenancy.context
  cases hopening : cx.opening with
  | none => simp
  | some k =>
      cases hl : s.leases[k]? with
      | none => simp [hl]
      | some l => simp [hl, (h.tenured k l hl).bound, eq_comm]

/-- **From custody to order.** -/
theorem orderly (h : Settled s c) : Orderly s where
  scopes_eq := h.consecutive.scopes_eq
  apart := by
    intro j k l l' hl hl' hheld hheld' heq
    have hj := (h.tenured j l hl).holder_iff.mpr hheld
    have hk := (h.tenured k l' hl').holder_iff.mpr hheld'
    rw [heq, hk] at hj
    exact (Option.some.inj hj).symm
  bound := by
    intro l hmem
    obtain ⟨k, hk⟩ := List.mem_iff_getElem?.mp hmem
    exact (h.tenured k l hk).bound
  own_scope := by
    intro l hmem hheld
    obtain ⟨k, hk⟩ := List.mem_iff_getElem?.mp hmem
    exact (h.tenured k l hk).scope_iff.mpr hheld
  idle_nodup := h.shelved.nodup
  idle_apart := by
    intro p q i hp hq
    exact (h.shelved.idle p i hp).2.1.symm.trans (h.shelved.idle q i hq).2.1
  not_idle := by
    intro l hmem hheld p hidle
    obtain ⟨k, hk⟩ := List.mem_iff_getElem?.mp hmem
    have hholder := (h.tenured k l hk).holder_iff.mpr hheld
    rw [(h.shelved.idle p _ hidle).2.2] at hholder
    cases hholder
  idle_le := h.tidy.idle_le
  idle_clean := by
    intro p i hi
    have hholds := h.tidy.clean p i hi
    exact ⟨hholds.drained_eq, hholds.scope_eq, hholds.pending_eq⟩
  detached := by
    intro i hi x hx
    rcases List.mem_append.mp hx with hover | hqueue
    · exact (h.tidy.detached i hi).1 x hover
    · exact (h.tidy.detached i hi).2 x hqueue
  buffered_iff := by
    intro cx
    simp only [Store.buffered_view_iff, Store.liveScope_eq_some_iff]
    constructor
    · rintro ⟨b, hb, hscope⟩
      obtain ⟨k, l, hopening, hl, rfl⟩ := (h.binding_eq_some_iff cx b).mp hb
      exact ⟨k, l, hopening, hl, (h.tenured k l hl).scope_iff.mp hscope⟩
    · rintro ⟨k, l, hopening, hl, hheld⟩
      exact ⟨_, (h.binding_eq_some_iff cx _).mpr ⟨k, l, hopening, hl, rfl⟩,
        (h.tenured k l hl).scope_iff.mpr hheld⟩

/-! ## Calls -/

/-- The buffer of an open scope is used, and stays with it. -/
theorem use (h : Settled s c) {i : Nat} {b : RecordBuffer (Entry κ σ)}
    (hpos : (s.store.buffers i).scope ≠ 0) (hscope : b.scope = (s.store.buffers i).scope)
    (hall : (s.store.buffers i).All Entry.Detached → b.All Entry.Detached) (d : Downstream σ) :
    Settled { s with store := { s.store.putBuffer i b with downstream := d } } c where
  shelved := ⟨h.shelved.idle, h.shelved.nodup⟩
  tenured k l hl := (h.tenured k l hl).of_scopes rfl rfl
    (Cells.put_keeps s.store.buffers RecordBuffer.scope hscope)
  consecutive := ⟨h.consecutive.scopes_eq, h.consecutive.next_eq⟩
  tidy := h.tidy.use hpos hall d

theorem withDownstream (h : Settled s c) (d : Downstream σ) :
    Settled { s with store := { s.store with downstream := d } } c where
  shelved := ⟨h.shelved.idle, h.shelved.nodup⟩
  tenured k l hl := (h.tenured k l hl).of_scopes rfl rfl fun _ => rfl
  consecutive := ⟨h.consecutive.scopes_eq, h.consecutive.next_eq⟩
  tidy := ⟨h.tidy.idle_le, h.tidy.clean, h.tidy.detached⟩

/-- A record is handled, by any chain and in any context. -/
theorem handle [Sink κ σ] (h : Settled s c) (chain : Handler κ σ) (cx : ScopedContext)
    (r : Record) : Settled { s with store := (chain.handle (s.context cx) r s.store).2 } c := by
  have hlive : ∀ {st : Store κ σ} {b}, Settled ⟨st, s.leases⟩ c →
      st.liveScope (s.context cx) = some b → (st.buffers b.buffer).scope ≠ 0 := by
    intro st b hst hb
    obtain ⟨hbinding, hscope⟩ := (st.liveScope_eq_some_iff _ b).mp hb
    obtain ⟨k, l, -, hl, rfl⟩ := (h.binding_eq_some_iff cx b).mp hbinding
    rw [hscope]
    exact Nat.ne_of_gt (hst.tenured k l hl).given.pos
  apply Handler.handle_preserves (P := fun st => Settled ⟨st, s.leases⟩ c) (Q := fun _ => True)
    _ _ _ _ _ _ trivial h
  · exact fun _ _ _ _ => trivial
  · exact fun _ _ _ => trivial
  · exact fun _ _ => trivial
  · exact fun st d hst => hst.withDownstream d
  · intro st b next hb _ hst
    have hentry : (Entry.ofCall next (s.context cx) r).Detached := rfl
    exact hst.use (hlive hst hb) (scope_appendTo Entry.emit b.scope _ _ _)
      (fun hall => hall.appendTo Entry.emit b.scope hentry _) _
  · intro st b hb hst
    exact hst.use (hlive hst hb) (scope_drainScope Entry.emit b.scope _ _)
      (fun hall => hall.drainScope Entry.emit b.scope _) _

/-- A guard is given back. -/
theorem release (h : Settled s c) {k : Nat} {l : Lease} (hl : s.leases[k]? = some l)
    (hheld : l.held = true) :
    Settled ⟨(s.store.closeScope l.guard).2, s.leases.set k { l with held := false }⟩
      (c.free l.guard.buffer) := by
  have htenured := h.tenured k l hl
  have hholder := htenured.holder_iff.mpr hheld
  have hnext := Cells.put_keeps s.store.pools Pool.nextScope
    ((s.store.pools l.guard.pool).nextScope_release l.guard.buffer)
  have hmono : ∀ p, (s.store.pools p).nextScope ≤ (s.store.pools.put l.guard.pool
      ((s.store.pools l.guard.pool).release l.guard.buffer).2 p).nextScope :=
    fun p => Nat.le_of_eq (hnext p).symm
  constructor
  · have hshelved := h.shelved.free (b := (s.store.buffers l.guard.buffer).reset)
      htenured.given.fresh hholder
    rw [htenured.home_eq] at hshelved
    exact hshelved
  · intro j l' hj
    by_cases hjk : j = k
    · subst hjk
      rw [List.getElem?_set_self (List.getElem?_eq_some_iff.mp hl).1] at hj
      obtain rfl := Option.some.inj hj
      exact htenured.closed hmono
    · rw [List.getElem?_set_ne (Ne.symm hjk)] at hj
      exact (h.tenured j l' hj).free hholder hjk hmono
  · exact h.consecutive.giveBack hl hnext
  · exact h.tidy.free l.guard.buffer l.guard.pool

/-- A scope is opened with the buffer that its pool lends. -/
theorem lend (h : Settled s c) (hfew : s.leases.length + 1 < StateWord.scopeBound)
    {pool i freshBuffer : Nat} {b : RecordBuffer (Entry κ σ)}
    (hlends : s.store.Lends pool i b freshBuffer) (trace : Option TraceContext) :
    Settled
      ⟨{ s.store.putBuffer i (b.arm (s.store.pools pool).nextScope) with
          pools := s.store.pools.put pool (s.store.pools pool).acquire.2.2
          freshBuffer := freshBuffer },
        s.leases ++ [⟨⟨trace, some ⟨i, (s.store.pools pool).nextScope⟩⟩, ⟨pool, i⟩, true⟩]⟩
      (c.lend i pool s.leases.length) := by
  have havail := h.shelved.available hlends
  have hcount : (s.scopesOf pool).length ≤ s.leases.length := List.length_filterMap_le _ _
  have hnext := h.consecutive.next_eq pool
  have hfits : (s.store.pools pool).nextScope < StateWord.scopeBound := by omega
  have harmed := holds_arm b hfits
  constructor
  · exact h.shelved.lend havail
  · intro j l hj
    rcases Nat.lt_trichotomy j s.leases.length with hlt | rfl | hgt
    · rw [List.getElem?_append_left hlt] at hj
      exact (h.tenured j l hj).lend havail (Nat.ne_of_lt hlt) harmed.scope_eq
    · rw [List.getElem?_concat_length] at hj
      obtain rfl := Option.some.inj hj
      exact .lent havail (by omega) harmed.scope_eq trace
    · rw [List.getElem?_eq_none (by simp; omega)] at hj
      cases hj
  · exact h.consecutive.giveOut _ rfl rfl
  · exact h.tidy.lend havail b _

variable [Sink κ σ]

/-- **Step.** Every call leaves the tenancy settled, perhaps in another custody. -/
theorem perform (h : Settled s c) (call : ChainCall κ σ)
    (hfew : s.leases.length + (if call.opens then 1 else 0) < StateWord.scopeBound) :
    ∃ c', Settled (Tenancy.perform call s).2 c' := by
  cases call with
  | handle chain cx r => exact ⟨c, h.handle chain cx r⟩
  | enabled chain cx level => exact ⟨c, h⟩
  | outside change => exact ⟨c, h.withDownstream _⟩
  | release k =>
      simp only [Tenancy.perform]
      split
      · rename_i context guard hl
        exact ⟨_, h.release hl rfl⟩
      · exact ⟨c, h⟩
  | openScope chain stage cx =>
      simp only [Tenancy.perform]
      split
      · exact ⟨c, h⟩
      · rename_i pool _
        rcases s.store.openScope?_cases pool (s.context cx) with
          ⟨hnone, -⟩ | ⟨i, b, freshBuffer, hlends, hsome⟩
        · rw [hnone]
          exact ⟨c, h⟩
        · rw [hsome]
          exact ⟨_, h.lend hfew hlends (s.context cx).trace⟩

end Settled

namespace Tenancy

variable [Sink κ σ]

/-- Only openings give out leases. -/
theorem length_perform (call : ChainCall κ σ) (s : Tenancy κ σ) :
    (perform call s).2.leases.length ≤ s.leases.length + if call.opens then 1 else 0 := by
  cases call with
  | handle chain cx r => exact Nat.le_refl _
  | enabled chain cx level => exact Nat.le_refl _
  | outside change => exact Nat.le_refl _
  | release k =>
      simp only [perform]
      split
      · simp
      · exact Nat.le_add_right _ _
  | openScope chain stage cx =>
      simp only [perform]
      split
      · exact Nat.le_add_right _ _
      · split
        · exact Nat.le_add_right _ _
        · simp [ChainCall.opens]

/-- **Pools, leases and contexts stay in order.** From an unopened store, whatever scopes are
opened and given back, whatever is handled and asked of whichever chains, and in whichever
contexts, as long as the scope numbers fit into state words. -/
theorem orderly_run {st : Store κ σ} (hst : st.Unopened) (calls : List (ChainCall κ σ))
    (hfew : calls.countP ChainCall.opens < StateWord.scopeBound) :
    Orderly (run calls ⟨st, []⟩).2 := by
  let Few (rest : List (ChainCall κ σ)) (s : Tenancy κ σ) : Prop :=
    (∃ c, Settled s c) ∧ s.leases.length + rest.countP ChainCall.opens < StateWord.scopeBound
  have hstep : ∀ {call rest s}, Few (call :: rest) s → Few rest (perform call s).2 := by
    rintro call rest s ⟨⟨c, hc⟩, hfew⟩
    have hlength := length_perform call s
    rw [List.countP_cons] at hfew
    exact ⟨hc.perform call (by omega), by omega⟩
  have hstart : Few calls ⟨st, []⟩ :=
    ⟨⟨_, Settled.start hst⟩, by simpa using hfew⟩
  obtain ⟨⟨c, hc⟩, -⟩ := run_keeps hstep calls hstart
  exact hc.orderly

/-- Two scopes of a pool with one place overlap, so that the second buffer is dropped. The first
buffer is lent again, and the contexts of the scopes before it are still used, also by a chain
derived in the meantime. -/
theorem orderly_run_recycled :
    let pool : Pool := { size := 1, bufferCapacity := 1, bufferCapacity_pos := Nat.one_pos }
    let next : Handler Endpoint World := .sink (.recorder { name := "r" })
    let st := ((Store.ofWorld {}).addSampling .never .error pool next).2
    let chain : Handler Endpoint World := .sampled ⟨.never, .error, 0⟩ next
    let say (h : Handler Endpoint World) (opening : Nat) (level : Level) :=
      ChainCall.handle h { opening := some opening } ⟨level, "m", ⟨0⟩, []⟩
    let calls : List (ChainCall Endpoint World) :=
      [.openScope chain 0 {}, .openScope chain 0 { opening := some 0 }, say chain 0 .info,
        say chain 1 .info, say chain 1 .info, .release 0, .release 1, .openScope chain 0 {},
        say chain 0 .info, say (chain.withGroup "g") 2 .info, say chain 1 .error,
        .enabled chain { opening := some 2 } .info]
    let s := (run calls ⟨st, []⟩).2
    st.Unopened ∧ calls.countP ChainCall.opens < StateWord.scopeBound ∧ Orderly s ∧
      s.scopesOf 0 = [1, 2, 3] ∧ s.leases.map (·.guard.buffer) = [0, 1, 0] ∧
      (s.store.view (s.context { opening := some 0 })).buffered = false ∧
      (s.store.view (s.context { opening := some 2 })).buffered = true := by
  intro pool next st chain say calls s
  have hst : st.Unopened := (Store.unopened_ofWorld {}).addSampling .never .error next rfl rfl
  have hfew : calls.countP ChainCall.opens < StateWord.scopeBound := by
    have hcount : calls.countP ChainCall.opens = 3 := rfl
    rw [hcount]
    decide
  exact ⟨hst, hfew, orderly_run hst calls hfew, by decide +kernel, by decide +kernel,
    by decide +kernel, by decide +kernel⟩

end Tenancy

end LogAdmission
