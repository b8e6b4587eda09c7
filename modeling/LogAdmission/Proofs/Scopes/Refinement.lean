import LogAdmission.Proofs.Scopes.Custody

/-!
# Pooled buffers refine separate scopes

Every call on sampling buffers does over the store what it does on the machine without
buffers: however scopes overlap and buffers are lent again, and whatever contexts are used
after their release. The relation is `Refines`; each call restores it, with another custody
where a buffer changes hands.
-/

namespace LogAdmission

open RecordBuffer

variable {κ σ : Type}

/-- A session and a machine that have performed the same calls. -/
structure Refines (refused : Nat → Prop) (s : Session κ σ) (m : ScopeMachine κ σ)
    (c : Custody) : Prop where
  downstream_eq : s.store.downstream = m.downstream
  length_eq : s.openings.length = m.scopes.length
  linked : ∀ k o d, s.openings[k]? = some o → m.scopes[k]? = some d → Linked s.store c k o d
  shelved : Shelved s.store c
  next_pos : ∀ p, 0 < (s.store.pools p).nextScope
  next_le : ∀ p, (s.store.pools p).nextScope ≤ m.scopes.length + 1
  refused_iff : ∀ p, refused p ↔ maxCapacity < (s.store.pools p).bufferCapacity
  home_able : ∀ i, i < s.store.freshBuffer → ¬ refused (c.home i)

/-- An open scope of a context, as the store and as the machine see it. -/
structure Meets (s : Session κ σ) (m : ScopeMachine κ σ) (c : Custody) (cx : ScopedContext)
    (b : Binding) (k : Nat) (d : Deferred κ σ) : Prop where
  liveScope_eq : s.store.liveScope (s.context cx) = some b
  live_eq : m.live cx = some (k, d)
  opening_eq : ∃ trace, s.openings[k]? =
    some ⟨⟨trace, some b⟩, some ⟨c.home b.buffer, b.buffer⟩⟩
  scope_eq : m.scopes[k]? = some (some d)
  given : Given s.store c b
  holder_eq : c.holder b.buffer = some k
  holds : (s.store.buffers b.buffer).Holds b.scope d.drained d.pending

theorem Session.trace_context (s : Session κ σ) (cx : ScopedContext) :
    (s.context cx).trace = cx.trace := by
  unfold Session.context
  split <;> rfl

theorem ScopeMachine.setScope_self {m : ScopeMachine κ σ} {k : Nat} {d : Option (Deferred κ σ)}
    (h : m.scopes[k]? = some d) : m.setScope k d = m := by
  obtain ⟨hlt, rfl⟩ := List.getElem?_eq_some_iff.mp h
  rw [setScope, List.set_getElem_self]

namespace Refines

variable {refused : Nat → Prop} {s : Session κ σ} {m : ScopeMachine κ σ} {c : Custody}

/-- A context is of an open scope for both, or for neither. -/
theorem live (h : Refines refused s m c) (cx : ScopedContext) :
    (s.store.liveScope (s.context cx) = none ∧ m.live cx = none) ∨
      ∃ b k d, Meets s m c cx b k d := by
  have hnone : ∀ t : Option TraceContext, s.store.liveScope { trace := t } = none := fun _ => rfl
  cases hk : cx.opening with
  | none =>
      refine .inl ⟨?_, by simp [ScopeMachine.live, hk]⟩
      simp only [Session.context, hk, Option.bind_none]
      exact hnone cx.trace
  | some k =>
      cases ho : s.openings[k]? with
      | none =>
          -- an opening that was never made
          have hd : m.scopes[k]? = none := by
            rw [List.getElem?_eq_none_iff] at ho ⊢
            exact h.length_eq ▸ ho
          refine .inl ⟨?_, by simp [ScopeMachine.live, hk, hd]⟩
          simp only [Session.context, hk, Option.bind_some, ho]
          exact hnone cx.trace
      | some o =>
          have hlt : k < m.scopes.length := by
            rw [← h.length_eq]
            exact (List.getElem?_eq_some_iff.mp ho).1
          have hd : m.scopes[k]? = some m.scopes[k] := List.getElem?_eq_getElem hlt
          have hlinked := h.linked k o m.scopes[k] ho hd
          generalize m.scopes[k] = x at hd hlinked
          cases hlinked with
          | @held trace b d given holder holds =>
              refine .inr ⟨b, k, d, ?_, by simp [ScopeMachine.live, hk, hd], ⟨trace, ho⟩, hd,
                given, holder, holds⟩
              simp [Store.liveScope, Session.context, hk, ho, holds.scope_eq]
          | @released trace b given stale =>
              refine .inl ⟨?_, by simp [ScopeMachine.live, hk, hd]⟩
              simp [Store.liveScope, Session.context, hk, ho, stale]

/-- What is learned from a context is the same. -/
theorem view_eq (h : Refines refused s m c) (cx : ScopedContext) :
    s.store.view (s.context cx) = m.view cx := by
  unfold Store.view ScopeMachine.view
  rw [s.trace_context]
  rcases h.live cx with ⟨hs, hm⟩ | ⟨b, k, d, hmeets⟩
  · rw [hs, hm]
    rfl
  · rw [hmeets.liveScope_eq, hmeets.live_eq]
    rfl

/-- Something happens downstream. -/
theorem downstream (h : Refines refused s m c) (d : Downstream σ) (log : List (Happening κ σ)) :
    Refines refused { s with store := { s.store with downstream := d } }
      { m with downstream := d, log := log } c where
  downstream_eq := rfl
  length_eq := h.length_eq
  linked k o x ho hx := (h.linked k o x ho hx).of_eq rfl rfl rfl
  shelved := ⟨h.shelved.idle, h.shelved.nodup⟩
  next_pos := h.next_pos
  next_le := h.next_le
  refused_iff := h.refused_iff
  home_able := h.home_able

/-- An opening uses the buffer that it holds, and keeps its scope. -/
theorem use (h : Refines refused s m c) {cx : ScopedContext} {b : Binding} {k : Nat}
    {d : Deferred κ σ} (hmeets : Meets s m c cx b k d) (d' : Deferred κ σ)
    {buffer : RecordBuffer (Entry κ σ)} (hholds : buffer.Holds b.scope d'.drained d'.pending) :
    Refines refused { s with store := s.store.putBuffer b.buffer buffer }
      (m.setScope k (some d')) c where
  downstream_eq := h.downstream_eq
  length_eq := by
    rw [ScopeMachine.setScope, List.length_set]
    exact h.length_eq
  linked := by
    intro j o x ho hx
    have hscope : buffer.scope = (s.store.buffers b.buffer).scope :=
      hholds.scope_eq.trans hmeets.holds.scope_eq.symm
    by_cases hj : j = k
    · subst hj
      have hlt := (List.getElem?_eq_some_iff.mp hmeets.scope_eq).1
      rw [ScopeMachine.setScope, List.getElem?_set_self hlt] at hx
      obtain rfl := Option.some.inj hx
      obtain ⟨trace, hopening⟩ := hmeets.opening_eq
      obtain rfl := Option.some.inj (ho.symm.trans hopening)
      refine .held ⟨hmeets.given.fresh, hmeets.given.pos, hmeets.given.lt_next⟩
        hmeets.holder_eq ?_
      show (s.store.buffers.put b.buffer buffer b.buffer).Holds _ _ _
      rw [Cells.put_self]
      exact hholds
    · -- nobody else holds the buffer
      rw [ScopeMachine.setScope, List.getElem?_set_ne (Ne.symm hj)] at hx
      exact (h.linked j o x ho hx).putBuffer hmeets.holder_eq hj hscope
  shelved := ⟨h.shelved.idle, h.shelved.nodup⟩
  next_pos := h.next_pos
  next_le p := by
    rw [ScopeMachine.setScope, List.length_set]
    exact h.next_le p
  refused_iff := h.refused_iff
  home_able := h.home_able

/-- A held buffer is given back. -/
theorem free (h : Refines refused s m c) {k : Nat} {trace : Option TraceContext} {b : Binding}
    {d : Deferred κ σ}
    (ho : s.openings[k]? = some ⟨⟨trace, some b⟩, some ⟨c.home b.buffer, b.buffer⟩⟩)
    (hd : m.scopes[k]? = some (some d)) (given : Given s.store c b)
    (holder : c.holder b.buffer = some k) :
    Refines refused
      ⟨{ s.store.putBuffer b.buffer (s.store.buffers b.buffer).reset with
          pools := s.store.pools.put (c.home b.buffer)
            ((s.store.pools (c.home b.buffer)).release b.buffer).2 },
        s.openings.set k ⟨⟨trace, some b⟩, none⟩⟩
      (m.setScope k none) (c.free b.buffer) := by
  have hnext := Cells.put_keeps s.store.pools Pool.nextScope
    ((s.store.pools (c.home b.buffer)).nextScope_release b.buffer)
  have hcapacity := Cells.put_keeps s.store.pools Pool.bufferCapacity
    ((s.store.pools (c.home b.buffer)).bufferCapacity_release b.buffer)
  have hmono : ∀ p, (s.store.pools p).nextScope ≤ (s.store.pools.put (c.home b.buffer)
      ((s.store.pools (c.home b.buffer)).release b.buffer).2 p).nextScope :=
    fun p => Nat.le_of_eq (hnext p).symm
  exact {
    downstream_eq := h.downstream_eq
    length_eq := by simpa [ScopeMachine.setScope] using h.length_eq
    linked := by
      intro j o x hj hx
      by_cases hjk : j = k
      · subst hjk
        rw [List.getElem?_set_self (List.getElem?_eq_some_iff.mp ho).1] at hj
        rw [ScopeMachine.setScope, List.getElem?_set_self (List.getElem?_eq_some_iff.mp hd).1] at hx
        obtain rfl := Option.some.inj hj
        obtain rfl := Option.some.inj hx
        exact .closed given _ hmono
      · rw [List.getElem?_set_ne (Ne.symm hjk)] at hj
        rw [ScopeMachine.setScope, List.getElem?_set_ne (Ne.symm hjk)] at hx
        exact (h.linked j o x hj hx).free holder hjk hmono
    shelved := h.shelved.free given.fresh holder
    next_pos := fun p => Nat.lt_of_lt_of_eq (h.next_pos p) (hnext p).symm
    next_le := by
      intro p
      rw [ScopeMachine.setScope, List.length_set]
      exact Nat.le_trans (Nat.le_of_eq (hnext p)) (h.next_le p)
    refused_iff := fun p => (h.refused_iff p).trans (by rw [← hcapacity p])
    home_able := h.home_able }

/-- A buffer is lent under the next scope number of its pool. -/
theorem lend (h : Refines refused s m c) (hfew : m.scopes.length + 1 < StateWord.scopeBound)
    {i pool freshBuffer : Nat} (havail : Available s.store c pool i freshBuffer)
    (hable : ¬ refused pool) (trace : Option TraceContext) (b : RecordBuffer (Entry κ σ)) :
    Refines refused
      ⟨{ s.store.putBuffer i (b.arm (s.store.pools pool).nextScope) with
          pools := s.store.pools.put pool (s.store.pools pool).acquire.2.2
          freshBuffer := freshBuffer },
        s.openings ++ [⟨⟨trace, some ⟨i, (s.store.pools pool).nextScope⟩⟩, some ⟨pool, i⟩⟩]⟩
      { m with scopes := m.scopes ++ [some {}] } (c.lend i pool s.openings.length) := by
  have hle := h.next_le pool
  have harmed : (b.arm (s.store.pools pool).nextScope).Holds (s.store.pools pool).nextScope
      false [] := holds_arm b (by omega)
  have hcapacity := Cells.put_keeps s.store.pools Pool.bufferCapacity
    (x := (s.store.pools pool).acquire.2.2) rfl
  have hhome : (c.lend i pool s.openings.length).home i = pool := Cells.put_self _ _ _
  exact {
    downstream_eq := h.downstream_eq
    length_eq := by simp [h.length_eq]
    linked := by
      intro j o x hj hx
      rcases Nat.lt_trichotomy j s.openings.length with hlt | rfl | hgt
      · rw [List.getElem?_append_left hlt] at hj
        rw [List.getElem?_append_left (h.length_eq ▸ hlt)] at hx
        exact (h.linked j o x hj hx).lend havail harmed.scope_eq
      · rw [List.getElem?_concat_length] at hj
        rw [h.length_eq, List.getElem?_concat_length] at hx
        obtain rfl := Option.some.inj hj
        obtain rfl := Option.some.inj hx
        -- the new opening holds the buffer, under a scope number that fits into a state word
        have hguard : (⟨pool, i⟩ : Guard) = ⟨(c.lend i pool s.openings.length).home i, i⟩ := by
          rw [hhome]
        rw [hguard]
        refine .held ⟨havail.lt_fresh, h.next_pos pool, ?_⟩ (Cells.put_self _ _ _) ?_
        · show _ < (s.store.pools.put pool _ ((c.lend i pool _).home i)).nextScope
          rw [hhome, Cells.put_self]
          exact Nat.lt_succ_self _
        · show (s.store.buffers.put i _ i).Holds _ _ _
          rw [Cells.put_self]
          exact harmed
      · rw [List.getElem?_eq_none (by simp; omega)] at hj
        cases hj
    shelved := h.shelved.lend havail
    next_pos := fun q => Nat.lt_of_lt_of_le (h.next_pos q) (s.store.nextScope_le_lend pool q)
    next_le := by
      rw [List.length_append, List.length_singleton]
      exact Cells.put_forall (P := fun _ (x : Pool) => x.nextScope ≤ m.scopes.length + 1 + 1)
        (Nat.succ_le_succ hle) fun q _ => Nat.le_succ_of_le (h.next_le q)
    refused_iff := fun q => (h.refused_iff q).trans (by rw [← hcapacity q])
    home_able := by
      intro j hj
      by_cases hji : j = i
      · rw [hji, hhome]
        exact hable
      · have hold := (havail.only j hj).resolve_right hji
        show ¬ refused (c.home.put i pool j)
        rw [Cells.put_ne _ _ hji]
        exact h.home_able j hold }

/-! ## Calls -/

/-- What a call must bring about: the same outcome, the same downstream, and a relation
restored unless the call is aborted. -/
def Kept (refused : Nat → Prop) (real : Outcome × Session κ σ)
    (ideal : Outcome × ScopeMachine κ σ) : Prop :=
  real.1 = ideal.1 ∧ real.2.store.downstream = ideal.2.downstream ∧
    (real.1 ≠ .aborted → ∃ c, Refines refused real.2 ideal.2 c)

/-- Scope numbers fit into state words while there are few openings. -/
theorem fits (h : Refines refused s m c) (hfew : m.scopes.length < StateWord.scopeBound)
    {b : Binding} (hb : Given s.store c b) : b.scope < StateWord.scopeBound := by
  have hlt := hb.lt_next
  have hle := h.next_le (c.home b.buffer)
  omega

variable [Sink κ σ]

theorem forward (h : Refines refused s m c) {next : Handler κ σ} (hplain : next.Plain)
    (cx : ScopedContext) (r : Record) :
    Kept refused
      ((next.handle (s.context cx) r s.store).1,
        { s with store := (next.handle (s.context cx) r s.store).2 })
      (m.forward next (m.view cx) r) := by
  rw [hplain.handle_eq, h.view_eq, h.downstream_eq]
  exact ⟨rfl, rfl, fun _ => ⟨c, h.downstream _ _⟩⟩

/-- In an open scope a record below the minimum level is deferred, or follows what has been
emitted. -/
theorem append (h : Refines refused s m c) {cx : ScopedContext} {b : Binding} {k : Nat}
    {d : Deferred κ σ} (hmeets : Meets s m c cx b k d) (next : Handler κ σ) (r : Record) :
    let real := s.store.onBuffer b.buffer
      (appendTo Entry.emit b.scope (.ofCall next (s.context cx) r))
    Kept refused (real.1, { s with store := real.2 })
      (if d.drained then m.forward next ⟨cx.trace, false⟩ r
        else
          (.ok, m.setScope k (some ⟨d.pending ++ [⟨next, { trace := cx.trace }, r⟩], false⟩))) := by
  intro real
  have hentry : Entry.ofCall next (s.context cx) r = ⟨next, { trace := cx.trace }, r⟩ := by
    rw [Entry.ofCall, Context.detached, s.trace_context]
  have hh := hmeets.holds
  cases hd : d.drained with
  | true =>
      rw [hd] at hh
      have hreal : real = ((next.deliver ⟨cx.trace, false⟩ r s.store.downstream).1,
          { s.store.putBuffer b.buffer (s.store.buffers b.buffer) with
            downstream := (next.deliver ⟨cx.trace, false⟩ r s.store.downstream).2 }) := by
        simp only [real, Store.onBuffer, hentry, hh.appendTo_drained]
        rfl
      have huse := h.use hmeets d hmeets.holds
      rw [ScopeMachine.setScope_self hmeets.scope_eq] at huse
      rw [hreal, h.downstream_eq]
      exact ⟨rfl, rfl, fun _ => ⟨c, huse.downstream _ _⟩⟩
  | false =>
      rw [hd] at hh
      have hreal : real = (.ok, s.store.putBuffer b.buffer
          ((s.store.buffers b.buffer).hold ⟨b.scope, ⟨next, { trace := cx.trace }, r⟩⟩)) := by
        simp only [real, Store.onBuffer, hentry, hh.appendTo_armed]
        rfl
      rw [hreal]
      exact ⟨rfl, h.downstream_eq, fun _ => ⟨c, h.use hmeets ⟨_, false⟩ (hh.hold _)⟩⟩

/-- In an open scope a record from the minimum level on has everything deferred emitted. -/
theorem drain (h : Refines refused s m c) (hfew : m.scopes.length < StateWord.scopeBound)
    {cx : ScopedContext} {b : Binding} {k : Nat} {d : Deferred κ σ}
    (hmeets : Meets s m c cx b k d) :
    let real := s.store.onBuffer b.buffer (drainScope Entry.emit b.scope)
    let ideal := m.emitPending k d
    real.1 = ideal.1 ∧ real.2.downstream = ideal.2.downstream ∧
      (real.1 = true → Refines refused { s with store := real.2 } ideal.2 c) := by
  intro real ideal
  have hh := hmeets.holds
  have hscope := drainScope_eq Entry.emit (s.store.buffers b.buffer) s.store.downstream
    (h.fits hfew hmeets.given)
  rw [if_pos hh.scope_eq] at hscope
  cases hd : d.drained with
  | true =>
      -- the second drain of a scope does nothing, and nothing is pending any more
      have hnil := hh.nil_of_drained hd
      have hreal : real = (true, s.store.putBuffer b.buffer (s.store.buffers b.buffer)) := by
        simp only [real, Store.onBuffer, hscope, drain_of_drained _ (hh.drained_eq.trans hd)]
        rfl
      have hideal : ideal = (true, { m.setScope k (some d) with log := m.log }) := by
        obtain ⟨pending, drained⟩ := d
        simp only at hnil hd
        subst hnil hd
        simp [ideal, ScopeMachine.emitPending, emission, ScopeMachine.setScope]
      rw [hreal, hideal]
      exact ⟨rfl, h.downstream_eq, fun _ => h.use hmeets d hh⟩
  | false =>
      rw [hd] at hh
      obtain ⟨buffer, heq, hbuffer⟩ := hh.drain_armed Entry.emit s.store.downstream
      have hreal : real = ((emission Entry.emit d.pending s.store.downstream).finished,
          { s.store.putBuffer b.buffer buffer with
            downstream := (emission Entry.emit d.pending s.store.downstream).outside }) := by
        simp only [real, Store.onBuffer, hscope, heq]
        rfl
      rw [hreal, h.downstream_eq]
      refine ⟨rfl, rfl, ?_⟩
      intro hfinished
      have hholds : buffer.Holds b.scope true [] := by
        rw [hbuffer (h.downstream_eq ▸ hfinished)]
        exact hh.marked
      exact (h.use hmeets ⟨[], true⟩ hholds).downstream _ _

/-- Handling a record restores the relation. -/
theorem handle (h : Refines refused s m c) (hfew : m.scopes.length < StateWord.scopeBound)
    (policy : Policy σ) {next : Handler κ σ} (hplain : next.Plain) (cx : ScopedContext)
    (r : Record) :
    Kept refused (Session.perform (.handle policy next cx r) s) (m.handle policy next cx r) := by
  have hworld : s.store.world = m.downstream.world := by
    rw [Store.world, h.downstream_eq]
  simp only [Session.perform, Handler.handle, ScopeMachine.handle, hworld, h.view_eq]
  by_cases hsampled : policy.sampler m.downstream.world (m.view cx) = true
  · rw [if_pos hsampled, if_pos hsampled]
    exact h.forward hplain cx r
  rw [if_neg hsampled, if_neg hsampled]
  rcases h.live cx with ⟨hs, hm⟩ | ⟨b, k, d, hmeets⟩
  · simp only [hs, hm]
    by_cases hlow : r.level < policy.minimum
    · rw [if_pos hlow, if_pos hlow]
      exact ⟨rfl, h.downstream_eq, fun _ => ⟨c, h⟩⟩
    · rw [if_neg hlow, if_neg hlow]
      exact h.forward hplain cx r
  · simp only [hmeets.liveScope_eq, hmeets.live_eq]
    by_cases hlow : r.level < policy.minimum
    · rw [if_pos hlow, if_pos hlow]
      exact h.append hmeets next r
    · simp only [if_neg hlow]
      obtain ⟨hflag, hdown, hkept⟩ := h.drain hfew hmeets
      rcases hreal : s.store.onBuffer b.buffer (drainScope Entry.emit b.scope) with
        ⟨finished, store⟩
      rcases hideal : m.emitPending k d with ⟨finished', m'⟩
      simp only [hreal, hideal] at hflag hdown hkept ⊢
      subst hflag
      cases finished with
      | true => exact (hkept rfl).forward hplain cx r
      | false => exact ⟨rfl, hdown, fun hne => absurd rfl hne⟩

/-- Releasing a guard restores the relation. -/
theorem release (h : Refines refused s m c) (k : Nat) :
    Kept refused (Session.perform (.release k) s) (.ok, m.setScope k none) := by
  have hsame : m.setScope k none = m → Kept refused (.ok, s) (.ok, m.setScope k none) := by
    intro heq
    rw [heq]
    exact ⟨rfl, h.downstream_eq, fun _ => ⟨c, h⟩⟩
  cases ho : s.openings[k]? with
  | none =>
      simp only [Session.perform, ho]
      apply hsame
      rw [List.getElem?_eq_none_iff, h.length_eq] at ho
      rw [ScopeMachine.setScope, List.set_eq_of_length_le ho]
  | some o =>
      have hlt : k < m.scopes.length := by
        rw [← h.length_eq]
        exact (List.getElem?_eq_some_iff.mp ho).1
      have hd : m.scopes[k]? = some m.scopes[k] := List.getElem?_eq_getElem hlt
      have hlinked := h.linked k o m.scopes[k] ho hd
      generalize m.scopes[k] = x at hd hlinked
      cases hlinked with
      | released given stale =>
          simp only [Session.perform, ho]
          exact hsame (ScopeMachine.setScope_self hd)
      | @held trace b d given holder holds =>
          simp only [Session.perform, ho]
          exact ⟨rfl, h.downstream_eq, fun _ =>
            ⟨c.free b.buffer, h.free ho hd given holder⟩⟩

/-- Opening a scope restores the relation. -/
theorem openScope (h : Refines refused s m c) [DecidablePred refused]
    (hfew : m.scopes.length + 1 < StateWord.scopeBound) (pool : Nat) (cx : ScopedContext) :
    Kept refused (Session.perform (.openScope pool cx) s)
      (ScopeMachine.perform refused (.openScope pool cx) m) := by
  rcases s.store.openScope?_cases pool (s.context cx) with
    ⟨hnone, -, hbig⟩ | ⟨i, b, freshBuffer, hlends, hsome⟩
  · have hrefused : refused pool := (h.refused_iff pool).mpr hbig
    simp only [Session.perform, hnone, ScopeMachine.perform, if_pos hrefused]
    exact ⟨rfl, h.downstream_eq, fun hne => absurd rfl hne⟩
  · have hable : ¬ refused pool := by
      cases hlends with
      | idle hidle =>
          obtain ⟨hlt, hhome, -⟩ := h.shelved.idle pool _ (hidle ▸ List.mem_cons_self)
          exact hhome ▸ h.home_able _ hlt
      | new hidle hfits =>
          rw [h.refused_iff pool]
          exact Nat.not_lt_of_le hfits
    simp only [Session.perform, hsome, ScopeMachine.perform, if_neg hable]
    exact ⟨rfl, h.downstream_eq, fun _ => ⟨_,
      h.lend hfew (h.shelved.available hlends) hable (s.context cx).trace b⟩⟩

/-- Every call restores the relation. -/
theorem perform (h : Refines refused s m c) [DecidablePred refused] (call : ScopeCall κ σ)
    (hplain : call.Plain)
    (hfew : m.scopes.length + (if call.opens then 1 else 0) < StateWord.scopeBound) :
    Kept refused (Session.perform call s) (ScopeMachine.perform refused call m) := by
  cases call with
  | openScope pool cx => exact h.openScope hfew pool cx
  | handle policy next cx r => exact h.handle hfew policy hplain cx r
  | release k => exact h.release k
  | outside change =>
      have hchanged := h.downstream { s.store.downstream with world := change s.store.world }
        (m.log ++ [.change change])
      rw [Store.world, h.downstream_eq] at hchanged
      refine ⟨rfl, ?_, fun _ => ⟨c, ?_⟩⟩
      · show { s.store.downstream with world := change s.store.world } = _
        rw [Store.world, h.downstream_eq]
        rfl
      · simp only [Session.perform, Store.mapWorld, h.downstream_eq]
        exact hchanged

end Refines

end LogAdmission
