import LogAdmission.Handler.Build
import LogAdmission.Handler.Scope
import LogAdmission.Proofs.Buffer.Frame

/-!
# Tables that a chain leaves alone

The counters of a limiter are its own: a chain that counts in other tables handles records
alike whatever these counters are, and does not change them, as long as nothing held back
in the store counts there either.
-/

namespace LogAdmission

variable {κ σ : Type}

namespace Downstream

/-- The downstream with other counters in a table. -/
def withTable (d : Downstream σ) (table : Nat) (counters : CounterTable) : Downstream σ :=
  { d with tables := d.tables.put table counters }

theorem withTable_withTable (d : Downstream σ) (table : Nat) (c c' : CounterTable) :
    (d.withTable table c).withTable table c' = d.withTable table c' := by
  simp only [withTable, Cells.put_put]

/-- Counting in one table does not concern another one. -/
theorem tally_withTable (d : Downstream σ) {t table : Nat} (hne : t ≠ table) (limits : Limits)
    (r : Record) (c : CounterTable) :
    (d.withTable table c).tally t limits r =
      ((d.tally t limits r).1, (d.tally t limits r).2.withTable table c) := by
  simp only [tally, withTable, Cells.put_ne _ _ hne]
  rw [Cells.put_comm _ hne.symm]

end Downstream

namespace Handler

/-- No limiter of the chain counts in the table. -/
def Spares (table : Nat) : Handler κ σ → Prop
  | sink _ => True
  | limited _ t next => t ≠ table ∧ next.Spares table
  | sampled _ next | shared next => next.Spares table

/-- The chain derived by adding attributes and group names in turn. -/
def derive [Sink κ σ] (h : Handler κ σ) (path : List (List Attr ⊕ String)) : Handler κ σ :=
  path.foldl (fun h => Sum.elim h.withAttrs h.withGroup) h

variable [Sink κ σ] {table : Nat}

theorem Spares.withAttrs {h : Handler κ σ} (hs : h.Spares table) (attrs : List Attr) :
    (h.withAttrs attrs).Spares table := by
  induction h with
  | sink k => trivial
  | limited limits t next ih => exact ⟨hs.1, ih hs.2⟩
  | sampled policy next ih => exact ih hs
  | shared next ih => exact ih hs

theorem Spares.withGroup {h : Handler κ σ} (hs : h.Spares table) (name : String) :
    (h.withGroup name).Spares table := by
  induction h with
  | sink k => trivial
  | limited limits t next ih => exact ⟨hs.1, ih hs.2⟩
  | sampled policy next ih => exact ih hs
  | shared next ih => exact ih hs

theorem Spares.derive {h : Handler κ σ} (hs : h.Spares table)
    (path : List (List Attr ⊕ String)) : (h.derive path).Spares table := by
  induction path generalizing h with
  | nil => exact hs
  | cons d path ih =>
      cases d with
      | inl attrs => exact ih (hs.withAttrs attrs)
      | inr name => exact ih (hs.withGroup name)

/-- What is derived from a limiter counts in the same table. -/
theorem derive_limited (limits : Limits) (table : Nat) (next : Handler κ σ)
    (path : List (List Attr ⊕ String)) :
    (limited limits table next).derive path = limited limits table (next.derive path) := by
  induction path generalizing next with
  | nil => rfl
  | cons d path ih =>
      cases d with
      | inl attrs => exact ih (next.withAttrs attrs)
      | inr name => exact ih (next.withGroup name)

theorem deliver_withTable {h : Handler κ σ} (hs : h.Spares table) (view : View) (r : Record)
    (c : CounterTable) (d : Downstream σ) :
    h.deliver view r (d.withTable table c) =
      ((h.deliver view r d).1, (h.deliver view r d).2.withTable table c) := by
  induction h generalizing d with
  | sink k => rfl
  | shared next ih => exact ih hs d
  | sampled policy next ih =>
      have hworld : (d.withTable table c).world = d.world := rfl
      simp only [deliver, hworld]
      split
      · exact ih hs d
      · rfl
  | limited limits t next ih =>
      have htally := d.tally_withTable hs.1 limits r c
      rcases ht : d.tally t limits r with ⟨passed, d'⟩
      rw [ht] at htally
      cases passed with
      | false => simp only [deliver, htally, ht]
      | true => simp only [deliver, htally, ht, ih hs.2 d']

end Handler

/-- So for the chain that a held-back call was meant for. -/
def Entry.Spares (table : Nat) (e : Entry κ σ) : Prop :=
  e.handler.Spares table

namespace Store

/-- The store with other counters in a table. -/
def withTable (st : Store κ σ) (table : Nat) (counters : CounterTable) : Store κ σ :=
  { st with downstream := st.downstream.withTable table counters }

/-- Nothing held back counts in the table. -/
def Spares (table : Nat) (st : Store κ σ) : Prop :=
  ∀ i, (st.buffers i).All (Entry.Spares table)

theorem Spares.onBuffer {β : Type} {st : Store κ σ} {table i : Nat}
    {act : RecordBuffer (Entry κ σ) → Downstream σ → β × RecordBuffer (Entry κ σ) × Downstream σ}
    (h : st.Spares table)
    (hact : (act (st.buffers i) st.downstream).2.1.All (Entry.Spares table)) :
    (st.onBuffer i act).2.Spares table := by
  intro j
  exact Cells.put_forall (P := fun _ b => RecordBuffer.All (Entry.Spares table) b)
    hact (fun j _ => h j) j

theorem onBuffer_withTable {β : Type} {st : Store κ σ} {table i : Nat} {c : CounterTable}
    {act : RecordBuffer (Entry κ σ) → Downstream σ → β × RecordBuffer (Entry κ σ) × Downstream σ}
    (hact : act (st.buffers i) (st.downstream.withTable table c) =
      ((act (st.buffers i) st.downstream).1, (act (st.buffers i) st.downstream).2.1,
        (act (st.buffers i) st.downstream).2.2.withTable table c)) :
    (st.withTable table c).onBuffer i act =
      ((st.onBuffer i act).1, (st.onBuffer i act).2.withTable table c) := by
  show ((act (st.buffers i) (st.downstream.withTable table c)).1, _) = _
  simp only [withTable, onBuffer, hact]

end Store

theorem Entry.emit_blind [Sink κ σ] (table : Nat) (c : CounterTable) :
    Blind Entry.emit (fun d : Downstream σ => d.withTable table c)
      (Entry.Spares table : Entry κ σ → Prop) :=
  fun e hs d => Handler.deliver_withTable hs e.cx.unboundView e.record c d

namespace Handler

variable [Sink κ σ] {table : Nat}

/-- What the store keeps when something happens downstream, and when a call for one of the chains
is held back in the open scope of the context or that scope is drained, it keeps when a record is
handled. -/
theorem handle_preserves {P : Store κ σ → Prop} {Q : Handler κ σ → Prop} {cx : Context}
    {r : Record} (hlimited : ∀ limits t next, Q (limited limits t next) → Q next)
    (hsampled : ∀ policy next, Q (sampled policy next) → Q next)
    (hshared : ∀ next, Q (shared next) → Q next)
    (hdown : ∀ st d, P st → P { st with downstream := d })
    (happend : ∀ st b next, st.liveScope cx = some b → Q next → P st →
      P (st.onBuffer b.buffer (RecordBuffer.appendTo Entry.emit b.scope (.ofCall next cx r))).2)
    (hdrain : ∀ st b, st.liveScope cx = some b → P st →
      P (st.onBuffer b.buffer (RecordBuffer.drainScope Entry.emit b.scope)).2)
    {h : Handler κ σ} (hq : Q h) {st : Store κ σ} (hst : P st) : P (h.handle cx r st).2 := by
  induction h generalizing st with
  | sink k => exact hdown st _ hst
  | shared next ih => exact ih (hshared next hq) hst
  | limited limits t next ih =>
      rcases ht : st.downstream.tally t limits r with ⟨passed, d⟩
      have hcounted := hdown st d hst
      cases passed with
      | false =>
          simp only [handle, ht]
          exact hcounted
      | true =>
          simp only [handle, ht]
          exact ih (hlimited limits t next hq) hcounted
  | sampled policy next ih =>
      have hnext := hsampled policy next hq
      simp only [handle]
      split
      · exact ih hnext hst
      · split
        · rename_i b hlive
          split
          · exact happend st b next hlive hnext hst
          · have hdrained := hdrain st b hlive hst
            rcases hd : st.onBuffer b.buffer (RecordBuffer.drainScope Entry.emit b.scope) with
              ⟨finished, st'⟩
            rw [hd] at hdrained
            cases finished with
            | true => exact ih hnext hdrained
            | false => exact hdrained
        · split
          · exact hst
          · exact ih hnext hst

/-- Nothing that a chain leaves behind counts in a table that the chain spares. -/
theorem Spares.handle {h : Handler κ σ} (hs : h.Spares table) (cx : Context) (r : Record)
    {st : Store κ σ} (hst : st.Spares table) : (h.handle cx r st).2.Spares table := by
  apply handle_preserves (P := Store.Spares table) (Q := Spares table) _ _ _ _ _ _ hs hst
  · exact fun _ _ _ hq => hq.2
  · exact fun _ _ hq => hq
  · exact fun _ hq => hq
  · exact fun _ _ hst => hst
  · intro st b next _ hnext hst
    have hentry : (Entry.ofCall next cx r).Spares table := hnext
    exact hst.onBuffer ((hst b.buffer).appendTo Entry.emit b.scope hentry _)
  · exact fun st b _ hst => hst.onBuffer ((hst b.buffer).drainScope Entry.emit b.scope _)

/-- **Frame.** What is counted in a table makes no difference to a chain that spares it. -/
theorem handle_withTable {h : Handler κ σ} (hs : h.Spares table) (cx : Context) (r : Record)
    (c : CounterTable) {st : Store κ σ} (hst : st.Spares table) :
    h.handle cx r (st.withTable table c) =
      ((h.handle cx r st).1, (h.handle cx r st).2.withTable table c) := by
  induction h generalizing st with
  | sink k => rfl
  | shared next ih => exact ih hs hst
  | limited limits t next ih =>
      -- its own table is another one, so that it counts the same in both stores
      have htally := st.downstream.tally_withTable hs.1 limits r c
      rcases ht : st.downstream.tally t limits r with ⟨passed, d⟩
      rw [ht] at htally
      have hdown : (st.withTable table c).downstream.tally t limits r =
        (passed, d.withTable table c) := htally
      cases passed with
      | false =>
          simp only [handle, hdown, ht]
          rfl
      | true =>
          simp only [handle, hdown, ht]
          exact ih hs.2 (show ({ st with downstream := d } : Store κ σ).Spares table from hst)
  | sampled policy next ih =>
      have hworld : (st.withTable table c).world = st.world := rfl
      have hview : (st.withTable table c).view cx = st.view cx := rfl
      have hlive : (st.withTable table c).liveScope cx = st.liveScope cx := rfl
      simp only [handle, hworld, hview, hlive]
      split
      · exact ih hs hst
      · split
        · rename_i b _
          split
          · exact Store.onBuffer_withTable (RecordBuffer.appendTo_blind
              (Entry.emit_blind table c) b.scope (x := .ofCall next cx r) hs _ _)
          · -- the record follows only if the drain was not aborted
            have hdrain := Store.onBuffer_withTable (RecordBuffer.drainScope_blind
              (Entry.emit_blind table c) b.scope (hst b.buffer) st.downstream)
            have hspared := hst.onBuffer ((hst b.buffer).drainScope Entry.emit b.scope
              st.downstream)
            rcases hd : st.onBuffer b.buffer (RecordBuffer.drainScope Entry.emit b.scope) with
              ⟨finished, st'⟩
            rw [hd] at hdrain hspared
            rw [hdrain]
            cases finished with
            | true => exact ih hs hspared
            | false => rfl
        · split
          · rfl
          · exact ih hs hst

/-- A chain leaves the counters alone in a table that it spares. -/
theorem tables_handle {h : Handler κ σ} (hs : h.Spares table) (cx : Context) (r : Record)
    {st : Store κ σ} (hst : st.Spares table) :
    (h.handle cx r st).2.downstream.tables table = st.downstream.tables table := by
  have hself : st.withTable table (st.downstream.tables table) = st := by
    simp only [Store.withTable, Downstream.withTable, Cells.put_read]
  have hframe := handle_withTable hs cx r (st.downstream.tables table) hst
  rw [hself] at hframe
  rw [hframe]
  exact Cells.put_self _ _ _

end Handler

/-! ## New tables

Tables are given out in turn, so that a new one is spared by everything there is. -/

namespace Store

variable {st : Store κ σ}

/-- The limiters of a chain count in tables that have been given out. -/
def Knows (st : Store κ σ) (h : Handler κ σ) : Prop :=
  ∀ t, st.freshTable ≤ t → h.Spares t

/-- So do those of the chains for which something is held back. -/
def Numbered (st : Store κ σ) : Prop :=
  ∀ t, st.freshTable ≤ t → st.Spares t

/-- As more tables are given out, what is known stays known. -/
theorem Knows.mono {st st' : Store κ σ} {h : Handler κ σ} (hknown : st.Knows h)
    (hle : st.freshTable ≤ st'.freshTable) : st'.Knows h :=
  fun t ht => hknown t (Nat.le_trans hle ht)

theorem numbered_ofWorld (world : σ) : (ofWorld world : Store κ σ).Numbered :=
  fun _ _ _ => ⟨nofun, nofun⟩

theorem Numbered.addLimiter (h : st.Numbered) (limits : Limits) {next : Handler κ σ}
    (hnext : st.Knows next) :
    (st.addLimiter limits next).2.Numbered ∧
      (st.addLimiter limits next).2.Knows (st.addLimiter limits next).1 := by
  constructor
  · intro t ht
    exact h t (Nat.le_of_succ_le ht)
  · intro t ht
    exact ⟨Nat.ne_of_lt ht, hnext t (Nat.le_of_succ_le ht)⟩

theorem Numbered.addSampling (h : st.Numbered) (sampler : Sampler σ) (minimum : Level)
    (pool : Pool) {next : Handler κ σ} (hnext : st.Knows next) :
    (st.addSampling sampler minimum pool next).2.Numbered ∧
      (st.addSampling sampler minimum pool next).2.Knows
        (st.addSampling sampler minimum pool next).1 :=
  ⟨h, hnext⟩

/-- A buffer that is lent or given back is empty. -/
theorem Spares.putEmpty {table i : Nat} {b : RecordBuffer (Entry κ σ)} (h : st.Spares table)
    (hover : b.overflow = []) (hqueue : b.queue = []) :
    ({ st with buffers := st.buffers.put i b } : Store κ σ).Spares table := by
  intro j
  exact Cells.put_forall (P := fun _ b => RecordBuffer.All (Entry.Spares table) b)
    ⟨by simp [hover], by simp [hqueue]⟩ (fun j _ => h j) j

theorem Numbered.openScope {pool : Nat} {cx cx' : Context} {g : Guard} {st' : Store κ σ}
    (h : st.Numbered) (hopen : st.openScope? pool cx = some (cx', g, st')) :
    st'.Numbered ∧ st'.freshTable = st.freshTable := by
  rcases st.openScope?_cases pool cx with ⟨hnone, -⟩ | ⟨i, b, freshBuffer, -, hsome⟩
  · rw [hnone] at hopen
    cases hopen
  · rw [hsome] at hopen
    simp only [Option.some.injEq, Prod.mk.injEq] at hopen
    obtain ⟨-, -, rfl⟩ := hopen
    exact ⟨fun t ht => (h t ht).putEmpty (b := b.arm _) rfl rfl, rfl⟩

theorem Numbered.closeScope (h : st.Numbered) (g : Guard) : (st.closeScope g).2.Numbered :=
  fun t ht => (h t ht).putEmpty (b := (st.buffers g.buffer).reset) rfl rfl

theorem freshTable_handle [Sink κ σ] (h : Handler κ σ) (cx : Context) (r : Record)
    (st : Store κ σ) : (h.handle cx r st).2.freshTable = st.freshTable :=
  Handler.handle_preserves (P := fun st' => st'.freshTable = st.freshTable) (Q := fun _ => True)
    (fun _ _ _ _ => trivial) (fun _ _ _ => trivial) (fun _ _ => trivial) (fun _ _ h => h)
    (fun _ _ _ _ _ h => h) (fun _ _ _ h => h) trivial rfl

theorem Numbered.handle [Sink κ σ] (hst : st.Numbered) {h : Handler κ σ} (hknown : st.Knows h)
    (cx : Context) (r : Record) : (h.handle cx r st).2.Numbered := by
  intro t ht
  rw [freshTable_handle] at ht
  exact (hknown t ht).handle cx r (hst t ht)

end Store

end LogAdmission
