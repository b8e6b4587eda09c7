import LogAdmission.Proofs.Buffer.Frame
import LogAdmission.Proofs.Scopes.Custody
import LogAdmission.Proofs.Tenancy.Calls

/-!
# Leases

What is true of the leases of a tenancy while the buffers change hands: what a lease knows of its
buffer (`Tenured`), which numbers the scopes have (`Tenancy.Consecutive`), and in which state the
buffers are that nobody holds (`Store.Tidy`). For each of them there is one lemma about a buffer
that is given back and one about a buffer that is lent.
-/

namespace LogAdmission

open RecordBuffer

variable {κ σ : Type}

/-! ## What a lease knows -/

/-- A lease and its buffer: the binding of its context was given out by the pool of its guard, and
the lease holds the buffer just as long as the buffer has its scope. -/
structure Tenured (st : Store κ σ) (c : Custody) (k : Nat) (l : Lease) : Prop where
  bound : l.context.binding = some ⟨l.guard.buffer, l.scope⟩
  given : Given st c ⟨l.guard.buffer, l.scope⟩
  home_eq : c.home l.guard.buffer = l.guard.pool
  holder_iff : c.holder l.guard.buffer = some k ↔ l.held = true
  scope_iff : (st.buffers l.guard.buffer).scope = l.scope ↔ l.held = true

namespace Tenured

variable {st st' : Store κ σ} {c : Custody} {k : Nat} {l : Lease}

/-- Only the scopes of buffers matter. -/
theorem of_scopes (h : Tenured st c k l) (hfresh : st'.freshBuffer = st.freshBuffer)
    (hpools : st'.pools = st.pools)
    (hscopes : ∀ i, (st'.buffers i).scope = (st.buffers i).scope) : Tenured st' c k l where
  bound := h.bound
  given := h.given.mono (Nat.le_of_eq hfresh.symm) rfl fun p => Nat.le_of_eq (by rw [hpools])
  home_eq := h.home_eq
  holder_iff := h.holder_iff
  scope_iff := by rw [hscopes, h.scope_iff]

/-- A lease that is given back. Its buffer is then of no scope. -/
theorem closed (h : Tenured st c k l) {p : Cells Pool}
    (hnext : ∀ q, (st.pools q).nextScope ≤ (p q).nextScope) :
    Tenured { st.putBuffer l.guard.buffer (st.buffers l.guard.buffer).reset with pools := p }
      (c.free l.guard.buffer) k { l with held := false } where
  bound := h.bound
  given := h.given.mono (Nat.le_refl _) rfl hnext
  home_eq := h.home_eq
  holder_iff := by simp [Custody.free]
  scope_iff := by
    have hpos : 0 ≠ l.scope := Nat.ne_of_lt h.given.pos
    show (st.buffers.put l.guard.buffer _ l.guard.buffer).scope = l.scope ↔ false = true
    rw [Cells.put_self, (holds_reset _).scope_eq]
    simp [hpos]

/-- What another lease gives back is not held by this one. -/
theorem free (h : Tenured st c k l) {i j : Nat} {p : Cells Pool} (hholder : c.holder i = some j)
    (hne : k ≠ j) (hnext : ∀ q, (st.pools q).nextScope ≤ (p q).nextScope) :
    Tenured { st.putBuffer i (st.buffers i).reset with pools := p } (c.free i) k l := by
  by_cases hi : l.guard.buffer = i
  · have hended : l.held ≠ true := by
      rw [ne_eq, ← h.holder_iff, hi, hholder]
      exact fun heq => hne (Option.some.inj heq).symm
    subst hi
    obtain ⟨context, guard, held⟩ := l
    obtain rfl : held = false := Bool.eq_false_iff.mpr hended
    exact h.closed hnext
  · refine ⟨h.bound, h.given.mono (Nat.le_refl _) rfl hnext, h.home_eq, ?_, ?_⟩
    · show c.holder.put i none l.guard.buffer = some k ↔ _
      rw [Cells.put_ne _ _ hi, h.holder_iff]
    · show (st.buffers.put i _ l.guard.buffer).scope = l.scope ↔ _
      rw [Cells.put_ne _ _ hi, h.scope_iff]

/-- A buffer that is lent is not held by any lease so far, and its scope number is larger than
theirs. -/
theorem lend (h : Tenured st c k l) {i j pool freshBuffer : Nat} {b : RecordBuffer (Entry κ σ)}
    (havail : Available st c pool i freshBuffer) (hne : k ≠ j)
    (hscope : b.scope = (st.pools pool).nextScope) :
    Tenured
      { st.putBuffer i b with
        pools := st.pools.put pool (st.pools pool).acquire.2.2, freshBuffer := freshBuffer }
      (c.lend i pool j) k l := by
  have hnext := st.nextScope_le_lend pool
  by_cases hi : l.guard.buffer = i
  · subst hi
    obtain ⟨hnone, hpool⟩ : c.holder l.guard.buffer = none ∧ c.home l.guard.buffer = pool := by
      rcases havail.free with hnew | hidle
      · exact absurd h.given.fresh (Nat.not_lt_of_le hnew)
      · exact hidle
    have hended : l.held ≠ true := by
      rw [ne_eq, ← h.holder_iff, hnone]
      exact nofun
    have hhome : (c.lend l.guard.buffer pool j).home l.guard.buffer = c.home l.guard.buffer :=
      (Cells.put_self _ _ _).trans hpool.symm
    have hlt := h.given.lt_next
    refine ⟨h.bound, h.given.mono havail.fresh_le hhome hnext, hhome.trans h.home_eq, ?_, ?_⟩
    · show c.holder.put l.guard.buffer (some j) l.guard.buffer = some k ↔ _
      rw [Cells.put_self, Option.some.injEq]
      exact iff_of_false (Ne.symm hne) hended
    · show (st.buffers.put l.guard.buffer b l.guard.buffer).scope = l.scope ↔ _
      rw [Cells.put_self, hscope, ← hpool]
      exact iff_of_false (Nat.ne_of_gt hlt) hended
  · have hhome : (c.lend i pool j).home l.guard.buffer = c.home l.guard.buffer :=
      Cells.put_ne _ _ hi
    refine ⟨h.bound, h.given.mono havail.fresh_le hhome hnext, hhome.trans h.home_eq, ?_, ?_⟩
    · show c.holder.put i (some j) l.guard.buffer = some k ↔ _
      rw [Cells.put_ne _ _ hi, h.holder_iff]
    · show (st.buffers.put i b l.guard.buffer).scope = l.scope ↔ _
      rw [Cells.put_ne _ _ hi, h.scope_iff]

/-- The lease that the buffer is lent for, under the next scope number of its pool. -/
theorem lent {i j pool freshBuffer : Nat} {b : RecordBuffer (Entry κ σ)}
    (havail : Available st c pool i freshBuffer) (hpos : 0 < (st.pools pool).nextScope)
    (hscope : b.scope = (st.pools pool).nextScope) (trace : Option TraceContext) :
    Tenured
      { st.putBuffer i b with
        pools := st.pools.put pool (st.pools pool).acquire.2.2, freshBuffer := freshBuffer }
      (c.lend i pool j) j ⟨⟨trace, some ⟨i, (st.pools pool).nextScope⟩⟩, ⟨pool, i⟩, true⟩ := by
  have hhome : (c.lend i pool j).home i = pool := Cells.put_self _ _ _
  refine ⟨rfl, ⟨havail.lt_fresh, hpos, ?_⟩, hhome, ?_, ?_⟩
  · show (st.pools pool).nextScope < (st.pools.put pool _ ((c.lend i pool j).home i)).nextScope
    rw [hhome, Cells.put_self]
    exact Nat.lt_succ_self _
  · show c.holder.put i (some j) i = some j ↔ true = true
    simp
  · show (st.buffers.put i b i).scope = (st.pools pool).nextScope ↔ true = true
    rw [Cells.put_self]
    exact iff_of_true hscope rfl

end Tenured

/-! ## Scope numbers -/

namespace Tenancy

/-- Each pool hands out its scope numbers from one on, without a gap. -/
structure Consecutive (s : Tenancy κ σ) : Prop where
  scopes_eq : ∀ p, s.scopesOf p = List.range' 1 (s.scopesOf p).length
  next_eq : ∀ p, (s.store.pools p).nextScope = (s.scopesOf p).length + 1

variable {s : Tenancy κ σ}

/-- Giving back a lease does not change what was handed out. -/
theorem scopesOf_giveBack {st : Store κ σ} {k : Nat} {l : Lease} (hl : s.leases[k]? = some l)
    (p : Nat) : scopesOf ⟨st, s.leases.set k { l with held := false }⟩ p = s.scopesOf p := by
  let key (l : Lease) : Nat × Nat := (l.guard.pool, l.scope)
  have hkeys : ∀ ls : List Lease,
      (ls.filterMap fun l => if l.guard.pool = p then some l.scope else none) =
        (ls.map key).filterMap fun x => if x.1 = p then some x.2 else none := by
    intro ls
    rw [List.filterMap_map]
    rfl
  obtain ⟨hlt, rfl⟩ := List.getElem?_eq_some_iff.mp hl
  have hsame : (s.leases.map key).set k (key s.leases[k]) = s.leases.map key := by
    rw [← List.map_set, List.set_getElem_self]
  rw [scopesOf, scopesOf, hkeys, hkeys, List.map_set]
  exact congrArg _ hsame

/-- Pools may change as long as they go on with the same numbers. -/
theorem Consecutive.giveBack (h : s.Consecutive) {st : Store κ σ} {k : Nat} {l : Lease}
    (hl : s.leases[k]? = some l)
    (hnext : ∀ p, (st.pools p).nextScope = (s.store.pools p).nextScope) :
    Consecutive ⟨st, s.leases.set k { l with held := false }⟩ where
  scopes_eq := by
    intro p
    rw [scopesOf_giveBack hl]
    exact h.scopes_eq p
  next_eq := by
    intro p
    rw [scopesOf_giveBack hl]
    exact (hnext p).trans (h.next_eq p)

/-- The pool that gives out a lease counts one further. -/
theorem Consecutive.giveOut (h : s.Consecutive) {st : Store κ σ} (l : Lease)
    (hscope : l.scope = (s.store.pools l.guard.pool).nextScope)
    (hpools : st.pools =
      s.store.pools.put l.guard.pool (s.store.pools l.guard.pool).acquire.2.2) :
    Consecutive ⟨st, s.leases ++ [l]⟩ := by
  have hscopes : ∀ p, scopesOf ⟨st, s.leases ++ [l]⟩ p =
      s.scopesOf p ++ if l.guard.pool = p then [l.scope] else [] := by
    intro p
    rw [scopesOf, List.filterMap_append, scopesOf]
    by_cases hp : l.guard.pool = p <;> simp [hp]
  constructor
  · intro p
    rw [hscopes]
    by_cases hp : l.guard.pool = p
    · rw [if_pos hp, hscope, hp, h.next_eq, List.length_append, List.length_singleton,
        List.range'_concat, ← h.scopes_eq p, Nat.one_mul, Nat.add_comm 1]
    · rw [if_neg hp, List.append_nil]
      exact h.scopes_eq p
  · intro p
    rw [hscopes, hpools]
    by_cases hp : l.guard.pool = p
    · rw [if_pos hp, List.length_append, hp, Cells.put_self]
      exact congrArg Nat.succ (h.next_eq p)
    · rw [if_neg hp, List.append_nil, Cells.put_ne _ _ (Ne.symm hp)]
      exact h.next_eq p

end Tenancy

/-! ## Buffers that nobody holds -/

theorem Pool.size_release (p : Pool) (i : Nat) : (p.release i).2.size = p.size := by
  unfold Pool.release
  split <;> rfl

/-- A pool that takes back a buffer does not grow over its size. -/
theorem Pool.length_idle_release {p : Pool} (h : p.idle.length ≤ p.size) (i : Nat) :
    (p.release i).2.idle.length ≤ p.size := by
  unfold Pool.release
  split
  · rename_i hroom
    rw [List.length_append, List.length_singleton]
    exact Nat.succ_le_of_lt hroom
  · exact h

/-- A deferred call whose context is not bound to a scope. -/
def Entry.Detached (e : Entry κ σ) : Prop :=
  e.cx.binding = none

namespace Store

/-- No pool is overfull, idle buffers are as good as new, and nothing held back in any buffer
keeps a scope alive. -/
structure Tidy (st : Store κ σ) : Prop where
  idle_le : ∀ p, (st.pools p).idle.length ≤ (st.pools p).size
  clean : ∀ p, ∀ i ∈ (st.pools p).idle, (st.buffers i).Holds 0 false []
  detached : ∀ i < st.freshBuffer, (st.buffers i).All Entry.Detached

variable {st : Store κ σ}

/-- A buffer of a scope is used. Such a buffer is not idle. -/
theorem Tidy.use (h : st.Tidy) {i : Nat} {b : RecordBuffer (Entry κ σ)}
    (hpos : (st.buffers i).scope ≠ 0)
    (hall : (st.buffers i).All Entry.Detached → b.All Entry.Detached) (d : Downstream σ) :
    ({ st.putBuffer i b with downstream := d } : Store κ σ).Tidy where
  idle_le := h.idle_le
  clean := by
    intro p j hj
    have hholds := h.clean p j hj
    have hne : j ≠ i := by
      rintro rfl
      exact hpos hholds.scope_eq
    show (st.buffers.put i b j).Holds 0 false []
    rw [Cells.put_ne _ _ hne]
    exact hholds
  detached := by
    apply Cells.put_forall (P := fun j (x : RecordBuffer (Entry κ σ)) =>
      j < st.freshBuffer → x.All Entry.Detached)
    · exact fun hi => hall (h.detached i hi)
    · exact fun j _ => h.detached j

/-- A buffer is reset before its pool takes it back. -/
theorem Tidy.free (h : st.Tidy) (i pool : Nat) :
    ({ st.putBuffer i (st.buffers i).reset with
        pools := st.pools.put pool ((st.pools pool).release i).2 } : Store κ σ).Tidy := by
  have hclean : ∀ j, (st.buffers j).Holds 0 false [] ∨ j = i →
      (st.buffers.put i (st.buffers i).reset j).Holds 0 false [] := by
    intro j hj
    by_cases hji : j = i
    · rw [hji, Cells.put_self]
      exact holds_reset _
    · rw [Cells.put_ne _ _ hji]
      exact hj.resolve_right hji
  constructor
  · apply Cells.put_forall (P := fun _ (p : Pool) => p.idle.length ≤ p.size)
    · rw [Pool.size_release]
      exact Pool.length_idle_release (h.idle_le pool) i
    · exact fun p _ => h.idle_le p
  · apply Cells.put_forall (P := fun _ (p : Pool) => ∀ j ∈ p.idle,
      (st.buffers.put i (st.buffers i).reset j).Holds 0 false [])
    · intro j hj
      apply hclean
      rcases (st.pools pool).idle_release i with heq | heq
      · rw [heq] at hj
        rcases List.mem_append.mp hj with hj | hj
        · exact .inl (h.clean pool j hj)
        · exact .inr (List.mem_singleton.mp hj)
      · rw [heq] at hj
        exact .inl (h.clean pool j hj)
    · exact fun p _ j hj => hclean j (.inl (h.clean p j hj))
  · apply Cells.put_forall (P := fun j (x : RecordBuffer (Entry κ σ)) =>
      j < st.freshBuffer → x.All Entry.Detached)
    · exact fun _ => ⟨by simp [reset], by simp [reset]⟩
    · exact fun j _ => h.detached j

/-- A buffer that is lent is not idle any more, and is empty. -/
theorem Tidy.lend (h : st.Tidy) {c : Custody} {pool i freshBuffer : Nat}
    (havail : Available st c pool i freshBuffer) (b : RecordBuffer (Entry κ σ)) (scope : Nat) :
    ({ st.putBuffer i (b.arm scope) with
        pools := st.pools.put pool (st.pools pool).acquire.2.2
        freshBuffer := freshBuffer } : Store κ σ).Tidy := by
  have hrest : (st.pools pool).acquire.2.2.idle.Sublist (st.pools pool).idle :=
    List.drop_sublist 1 _
  have hkept : ∀ p, ∀ j ∈ (st.pools p).idle, j ≠ i →
      (st.buffers.put i (b.arm scope) j).Holds 0 false [] := by
    intro p j hj hne
    rw [Cells.put_ne _ _ hne]
    exact h.clean p j hj
  constructor
  · exact Cells.put_forall (P := fun _ (p : Pool) => p.idle.length ≤ p.size)
      (Nat.le_trans hrest.length_le (h.idle_le pool)) fun p _ => h.idle_le p
  · apply Cells.put_forall (P := fun _ (p : Pool) => ∀ j ∈ p.idle,
      (st.buffers.put i (b.arm scope) j).Holds 0 false [])
    · intro j hj
      exact hkept pool j (hrest.subset hj) fun heq => havail.taken (heq ▸ hj)
    · intro p hp j hj
      exact hkept p j hj fun heq => havail.others p hp (heq ▸ hj)
  · apply Cells.put_forall (P := fun j (x : RecordBuffer (Entry κ σ)) =>
      j < freshBuffer → x.All Entry.Detached)
    · exact fun _ => ⟨by simp [arm, reset], by simp [arm, reset]⟩
    · exact fun j hji hj => h.detached j ((havail.only j hj).resolve_right hji)

end Store

end LogAdmission
