import LogAdmission.Proofs.Scopes.Machine

/-!
# Custody of pooled buffers

Buffers are lent again and again, and contexts keep their bindings to buffers that have long
been lent to somebody else. What keeps scopes apart is who has a buffer (`Custody`): it is
idle in the pool that it comes from, or one opening holds it, or it was dropped. `Linked`
says what an opening then knows of its buffer, and is preserved as the buffers change hands.
-/

namespace LogAdmission

variable {κ σ : Type}

/-- The pool that each buffer comes from, and the opening that holds it. -/
structure Custody where
  home : Cells Nat
  holder : Cells (Option Nat)

namespace Custody

/-- The custody after a buffer of a pool is lent for an opening. -/
def lend (c : Custody) (i pool k : Nat) : Custody :=
  ⟨c.home.put i pool, c.holder.put i (some k)⟩

/-- The custody after a buffer is given back. -/
def free (c : Custody) (i : Nat) : Custody :=
  { c with holder := c.holder.put i none }

end Custody

/-- A binding to a buffer that exists, for a scope that its pool has given out. -/
structure Given (st : Store κ σ) (c : Custody) (b : Binding) : Prop where
  fresh : b.buffer < st.freshBuffer
  pos : 0 < b.scope
  lt_next : b.scope < (st.pools (c.home b.buffer)).nextScope

/-- How an opening and its scope without buffers correspond. While the scope is open the
opening holds its buffer, and afterwards the buffer belongs to another scope. -/
inductive Linked (st : Store κ σ) (c : Custody) (k : Nat) :
    Opening → Option (Deferred κ σ) → Prop where
  | held {trace : Option TraceContext} {b : Binding} {d : Deferred κ σ} (given : Given st c b)
      (holder : c.holder b.buffer = some k)
      (holds : (st.buffers b.buffer).Holds b.scope d.drained d.pending) :
      Linked st c k ⟨⟨trace, some b⟩, some ⟨c.home b.buffer, b.buffer⟩⟩ (some d)
  | released {trace : Option TraceContext} {b : Binding} (given : Given st c b)
      (stale : (st.buffers b.buffer).scope ≠ b.scope) :
      Linked st c k ⟨⟨trace, some b⟩, none⟩ none

/-- Idle buffers are in the pool that they come from, in no other place of it, and nobody
holds them. -/
structure Shelved (st : Store κ σ) (c : Custody) : Prop where
  idle : ∀ p, ∀ i ∈ (st.pools p).idle, i < st.freshBuffer ∧ c.home i = p ∧ c.holder i = none
  nodup : ∀ p, (st.pools p).idle.Nodup

variable {st st' : Store κ σ} {c c' : Custody} {k : Nat} {o : Opening}
  {d : Option (Deferred κ σ)}

/-- A binding stays given while buffers stay in their pools and scope numbers go up. -/
theorem Given.mono {b : Binding} (h : Given st c b) (hfresh : st.freshBuffer ≤ st'.freshBuffer)
    (hhome : c'.home b.buffer = c.home b.buffer)
    (hnext : ∀ p, (st.pools p).nextScope ≤ (st'.pools p).nextScope) : Given st' c' b where
  fresh := Nat.lt_of_lt_of_le h.fresh hfresh
  pos := h.pos
  lt_next := by
    rw [hhome]
    exact Nat.lt_of_lt_of_le h.lt_next (hnext _)

/-- Downstream changes concern no buffer. -/
theorem Linked.of_eq (h : Linked st c k o d) (hbuffers : st'.buffers = st.buffers)
    (hpools : st'.pools = st.pools) (hfresh : st'.freshBuffer = st.freshBuffer) :
    Linked st' c k o d := by
  have hgiven : ∀ {b}, Given st c b → Given st' c b := fun hg =>
    hg.mono (Nat.le_of_eq hfresh.symm) rfl fun p => Nat.le_of_eq (by rw [hpools])
  cases h with
  | held given holder holds => exact .held (hgiven given) holder (by rw [hbuffers]; exact holds)
  | released given stale => exact .released (hgiven given) (by rw [hbuffers]; exact stale)

/-! ## A buffer is used -/

/-- What the holder of a buffer does to it without changing the scope does not concern any
other opening. -/
theorem Linked.putBuffer {i j : Nat} {b : RecordBuffer (Entry κ σ)} (h : Linked st c k o d)
    (hholder : c.holder i = some j) (hne : k ≠ j) (hscope : b.scope = (st.buffers i).scope) :
    Linked (st.putBuffer i b) c k o d := by
  have hgiven : ∀ {b'}, Given st c b' → Given (st.putBuffer i b) c b' := fun hg =>
    hg.mono (Nat.le_refl _) rfl fun _ => Nat.le_refl _
  cases h with
  | @held trace b' d given holder holds =>
      have hi : b'.buffer ≠ i := by
        rintro rfl
        rw [hholder] at holder
        exact hne (Option.some.inj holder).symm
      refine .held (hgiven given) holder ?_
      show (st.buffers.put i b b'.buffer).Holds _ _ _
      rw [Cells.put_ne _ _ hi]
      exact holds
  | @released trace b' given stale =>
      -- only the scope of the buffer matters here, and the holder does not change that
      refine .released (hgiven given) ?_
      show (st.buffers.put i b b'.buffer).scope ≠ b'.scope
      by_cases hi : b'.buffer = i
      · subst hi
        rw [Cells.put_self, hscope]
        exact stale
      · rw [Cells.put_ne _ _ hi]
        exact stale

/-! ## A buffer is given back -/

/-- The buffer of a released scope is of no scope, and the scope stays released. -/
theorem Linked.closed {trace : Option TraceContext} {b : Binding} (given : Given st c b)
    (p : Cells Pool) (hnext : ∀ q, (st.pools q).nextScope ≤ (p q).nextScope) :
    Linked { st.putBuffer b.buffer (st.buffers b.buffer).reset with pools := p }
      (c.free b.buffer) k ⟨⟨trace, some b⟩, none⟩ none := by
  refine .released (given.mono (Nat.le_refl _) rfl hnext) ?_
  show (st.buffers.put b.buffer (st.buffers b.buffer).reset b.buffer).scope ≠ b.scope
  rw [Cells.put_self, (RecordBuffer.holds_reset _).scope_eq]
  exact (Nat.ne_of_gt given.pos).symm

/-- A buffer that is given back was held by no other opening, and belongs to none of the
scopes released before. -/
theorem Linked.free {i j : Nat} {p : Cells Pool} (h : Linked st c k o d)
    (hholder : c.holder i = some j) (hne : k ≠ j)
    (hnext : ∀ q, (st.pools q).nextScope ≤ (p q).nextScope) :
    Linked { st.putBuffer i (st.buffers i).reset with pools := p } (c.free i) k o d := by
  cases h with
  | @held trace b d given holder holds =>
      have hi : b.buffer ≠ i := by
        rintro rfl
        rw [hholder] at holder
        exact hne (Option.some.inj holder).symm
      refine .held (given.mono (Nat.le_refl _) rfl hnext) ?_ ?_
      · show c.holder.put i none b.buffer = some k
        rw [Cells.put_ne _ _ hi]
        exact holder
      · show (st.buffers.put i _ b.buffer).Holds _ _ _
        rw [Cells.put_ne _ _ hi]
        exact holds
  | @released trace b given stale =>
      by_cases hi : b.buffer = i
      · subst hi
        exact .closed given p hnext
      · refine .released (given.mono (Nat.le_refl _) rfl hnext) ?_
        show (st.buffers.put i _ b.buffer).scope ≠ b.scope
        rw [Cells.put_ne _ _ hi]
        exact stale

theorem Pool.nextScope_release (p : Pool) (i : Nat) : (p.release i).2.nextScope = p.nextScope := by
  unfold Pool.release
  split <;> rfl

theorem Pool.bufferCapacity_release (p : Pool) (i : Nat) :
    (p.release i).2.bufferCapacity = p.bufferCapacity := by
  unfold Pool.release
  split <;> rfl

/-- A pool takes back a buffer at the end, or not at all. -/
theorem Pool.idle_release (p : Pool) (i : Nat) :
    (p.release i).2.idle = p.idle ++ [i] ∨ (p.release i).2.idle = p.idle := by
  unfold Pool.release
  split
  · exact .inl rfl
  · exact .inr rfl

/-- A buffer that is given back was in no pool. -/
theorem Shelved.free {i j : Nat} {b : RecordBuffer (Entry κ σ)} (h : Shelved st c)
    (hfresh : i < st.freshBuffer) (hholder : c.holder i = some j) :
    Shelved
      { st.putBuffer i b with
        pools := st.pools.put (c.home i) ((st.pools (c.home i)).release i).2 }
      (c.free i) := by
  -- a held buffer is in no pool, so that putting it back does not double it
  have hout : ∀ q, i ∉ (st.pools q).idle := by
    intro q hmem
    have hnone := (h.idle q i hmem).2.2
    rw [hholder] at hnone
    exact absurd hnone nofun
  have hkept : ∀ q, ∀ x ∈ (st.pools q).idle,
      x < st.freshBuffer ∧ c.home x = q ∧ (c.free i).holder x = none := by
    intro q x hx
    obtain ⟨hlt, hhome, hnone⟩ := h.idle q x hx
    have hne : x ≠ i := fun heq => hout q (heq ▸ hx)
    exact ⟨hlt, hhome, (Cells.put_ne _ _ hne).trans hnone⟩
  constructor
  · apply Cells.put_forall (P := fun q (p : Pool) => ∀ x ∈ p.idle,
      x < st.freshBuffer ∧ c.home x = q ∧ (c.free i).holder x = none)
    · intro x hx
      rcases (st.pools (c.home i)).idle_release i with heq | heq
      · rw [heq] at hx
        rcases List.mem_append.mp hx with hx | hx
        · exact hkept _ x hx
        · rw [List.mem_singleton.mp hx]
          exact ⟨hfresh, rfl, Cells.put_self _ _ _⟩
      · rw [heq] at hx
        exact hkept _ x hx
    · exact fun q _ => hkept q
  · apply Cells.put_forall (P := fun _ (p : Pool) => p.idle.Nodup)
    · rcases (st.pools (c.home i)).idle_release i with heq | heq
      · rw [heq, List.nodup_append]
        refine ⟨h.nodup _, List.pairwise_singleton _ _, ?_⟩
        intro x hx y hy heq
        rw [List.mem_singleton.mp hy] at heq
        exact hout _ (heq ▸ hx)
      · rw [heq]
        exact h.nodup _
    · exact fun q _ => h.nodup q

/-! ## A buffer is lent -/

/-- A buffer that a pool can lend: a new one, or an idle one that nobody else has. -/
structure Available (st : Store κ σ) (c : Custody) (pool i freshBuffer : Nat) : Prop where
  free : st.freshBuffer ≤ i ∨ c.holder i = none ∧ c.home i = pool
  lt_fresh : i < freshBuffer
  fresh_le : st.freshBuffer ≤ freshBuffer
  only : ∀ j, j < freshBuffer → j < st.freshBuffer ∨ j = i
  taken : i ∉ (st.pools pool).acquire.2.2.idle
  others : ∀ q, q ≠ pool → i ∉ (st.pools q).idle

theorem Shelved.available {pool i freshBuffer : Nat} {b : RecordBuffer (Entry κ σ)}
    (h : Shelved st c) (hlends : st.Lends pool i b freshBuffer) :
    Available st c pool i freshBuffer := by
  cases hlends with
  | @idle i rest hidle =>
      obtain ⟨hlt, hhome, hholder⟩ := h.idle pool i (hidle ▸ List.mem_cons_self)
      have hnodup := h.nodup pool
      rw [hidle, List.nodup_cons] at hnodup
      refine ⟨.inr ⟨hholder, hhome⟩, hlt, Nat.le_refl _, fun _ hj => .inl hj, ?_, ?_⟩
      · simpa [Pool.acquire, hidle] using hnodup.1
      · intro q hq hmem
        exact hq ((h.idle q i hmem).2.1.symm.trans hhome)
  | new hidle hfits =>
      refine ⟨.inl (Nat.le_refl _), Nat.lt_succ_self _, Nat.le_succ _,
        fun _ hj => Nat.lt_succ_iff_lt_or_eq.mp hj, ?_, ?_⟩
      · simp [Pool.acquire, hidle]
      · intro q _ hmem
        exact absurd (h.idle q _ hmem).1 (Nat.lt_irrefl _)

/-- Scope numbers of a pool go up when it lends a buffer. -/
theorem Store.nextScope_le_lend (st : Store κ σ) (pool q : Nat) :
    (st.pools q).nextScope ≤
      (st.pools.put pool (st.pools pool).acquire.2.2 q).nextScope :=
  Cells.put_forall (P := fun q (p : Pool) => (st.pools q).nextScope ≤ p.nextScope)
    (Nat.le_succ _) (fun _ _ => Nat.le_refl _) q

/-- Lending a buffer under the next scope number of its pool concerns no opening made
before. -/
theorem Linked.lend {i j pool freshBuffer : Nat} {b : RecordBuffer (Entry κ σ)}
    (h : Linked st c k o d) (havail : Available st c pool i freshBuffer)
    (hscope : b.scope = (st.pools pool).nextScope) :
    Linked
      { st.putBuffer i b with
        pools := st.pools.put pool (st.pools pool).acquire.2.2, freshBuffer := freshBuffer }
      (c.lend i pool j) k o d := by
  have hnext := st.nextScope_le_lend pool
  cases h with
  | @held trace b' d given holder holds =>
      -- the buffer lent is new or was idle, and this one is neither
      have hi : b'.buffer ≠ i := by
        rintro rfl
        rcases havail.free with hnew | ⟨hnone, -⟩
        · exact absurd given.fresh (Nat.not_lt_of_le hnew)
        · rw [holder] at hnone
          exact absurd hnone nofun
      have hhome : (c.lend i pool j).home b'.buffer = c.home b'.buffer :=
        Cells.put_ne _ _ hi
      rw [← hhome]
      refine .held (given.mono havail.fresh_le hhome hnext) ?_ ?_
      · show c.holder.put i (some j) b'.buffer = some k
        rw [Cells.put_ne _ _ hi]
        exact holder
      · show (st.buffers.put i b b'.buffer).Holds _ _ _
        rw [Cells.put_ne _ _ hi]
        exact holds
  | @released trace b' given stale =>
      by_cases hi : b'.buffer = i
      · -- the scope number is larger than any that the buffer has been lent under
        subst hi
        have hpool : c.home b'.buffer = pool := by
          rcases havail.free with hnew | ⟨-, hpool⟩
          · exact absurd given.fresh (Nat.not_lt_of_le hnew)
          · exact hpool
        have hlt := given.lt_next
        rw [hpool] at hlt
        refine .released (given.mono havail.fresh_le ?_ hnext) ?_
        · show c.home.put b'.buffer pool b'.buffer = c.home b'.buffer
          rw [Cells.put_self, hpool]
        · show (st.buffers.put b'.buffer b b'.buffer).scope ≠ b'.scope
          rw [Cells.put_self, hscope]
          exact Nat.ne_of_gt hlt
      · refine .released (given.mono havail.fresh_le (Cells.put_ne _ _ hi) hnext) ?_
        show (st.buffers.put i b b'.buffer).scope ≠ b'.scope
        rw [Cells.put_ne _ _ hi]
        exact stale

/-- A buffer that is lent is in no pool any more. -/
theorem Shelved.lend {i j pool freshBuffer : Nat} {b : RecordBuffer (Entry κ σ)}
    (h : Shelved st c) (havail : Available st c pool i freshBuffer) :
    Shelved
      { st.putBuffer i b with
        pools := st.pools.put pool (st.pools pool).acquire.2.2, freshBuffer := freshBuffer }
      (c.lend i pool j) := by
  have hkept : ∀ q, ∀ x ∈ (st.pools q).idle, x ≠ i →
      x < freshBuffer ∧ (c.lend i pool j).home x = q ∧ (c.lend i pool j).holder x = none := by
    intro q x hx hne
    obtain ⟨hlt, hhome, hnone⟩ := h.idle q x hx
    exact ⟨Nat.lt_of_lt_of_le hlt havail.fresh_le, (Cells.put_ne _ _ hne).trans hhome,
      (Cells.put_ne _ _ hne).trans hnone⟩
  have hrest : (st.pools pool).acquire.2.2.idle.Sublist (st.pools pool).idle :=
    List.drop_sublist 1 _
  constructor
  · apply Cells.put_forall (P := fun q (p : Pool) => ∀ x ∈ p.idle,
      x < freshBuffer ∧ (c.lend i pool j).home x = q ∧ (c.lend i pool j).holder x = none)
    · intro x hx
      exact hkept pool x (hrest.subset hx) fun heq => havail.taken (heq ▸ hx)
    · intro q hq x hx
      exact hkept q x hx fun heq => havail.others q hq (heq ▸ hx)
  · exact Cells.put_forall (P := fun _ (p : Pool) => p.idle.Nodup)
      ((h.nodup pool).sublist hrest) fun q _ => h.nodup q

end LogAdmission
