import LogAdmission.Handler.Scope
import Mathlib.Data.List.Forall2

/-!
# Chains that are alike

Two chains of the same links over different sinks, in different outside worlds. If their sinks
answer alike whenever their worlds are alike, then so do the chains, as long as what is held back
for them is alike too. Sharing makes no link: a chain is like what it shares.

The comparison goes upwards: from the emission of entries to the operations of buffers, and from
there to chains and stores.
-/

namespace LogAdmission

variable {α β ρ σ σ' S T : Type}

/-- The same result, and related states afterwards. -/
def Agree (R : S → T → Prop) (x : ρ × S) (y : ρ × T) : Prop :=
  x.1 = y.1 ∧ R x.2 y.2

/-! ## Buffers -/

/-- Emitting entries that are alike has the same outcome, and keeps the outsides alike. -/
def EmitAlike (E : α → β → Prop) (O : σ → σ' → Prop) (emit : α → σ → Outcome × σ)
    (emit' : β → σ' → Outcome × σ') : Prop :=
  ∀ x y, E x y → ∀ s t, O s t → Agree O (emit x s) (emit' y t)

/-- Entries that are alike, held back under one scope. -/
def Tagged.Alike (E : α → β → Prop) (x : Tagged α) (y : Tagged β) : Prop :=
  x.scope = y.scope ∧ E x.entry y.entry

namespace RecordBuffer

/-- Buffers in the same state, whose entries are alike one by one. -/
structure Alike (E : α → β → Prop) (b : RecordBuffer α) (b' : RecordBuffer β) : Prop where
  capacity_eq : b.capacity = b'.capacity
  state_eq : b.state = b'.state
  overflow : List.Forall₂ (Tagged.Alike E) b.overflow b'.overflow
  queue : List.Forall₂ (Tagged.Alike E) b.queue b'.queue

variable {E : α → β → Prop} {O : σ → σ' → Prop} {emit : α → σ → Outcome × σ}
  {emit' : β → σ' → Outcome × σ'} {b : RecordBuffer α} {b' : RecordBuffer β} {s : σ} {t : σ'}

theorem Alike.scope_eq (h : b.Alike E b') : b.scope = b'.scope :=
  congrArg StateWord.scope h.state_eq

theorem Alike.drained_eq (h : b.Alike E b') : b.drained = b'.drained :=
  congrArg StateWord.drained h.state_eq

/-- Buffers that hold nothing back are alike when their capacities and states are the same. -/
theorem Alike.of_empty (hcapacity : b.capacity = b'.capacity) (hstate : b.state = b'.state)
    (h : b.pending = []) (h' : b'.pending = []) : b.Alike E b' := by
  obtain ⟨hover, hqueue⟩ := List.append_eq_nil_iff.mp h
  obtain ⟨hover', hqueue'⟩ := List.append_eq_nil_iff.mp h'
  refine ⟨hcapacity, hstate, ?_, ?_⟩
  · rw [hover, hover']
    exact .nil
  · rw [hqueue, hqueue']
    exact .nil

theorem Alike.reset (h : b.Alike E b') : b.reset.Alike E b'.reset :=
  ⟨h.capacity_eq, rfl, .nil, .nil⟩

theorem Alike.arm (h : b.Alike E b') (scope : Nat) : (b.arm scope).Alike E (b'.arm scope) :=
  ⟨h.capacity_eq, rfl, .nil, .nil⟩

theorem Alike.hold (h : b.Alike E b') {x : Tagged α} {y : Tagged β} (hxy : x.Alike E y) :
    (b.hold x).Alike E (b'.hold y) := by
  have hlast := List.Forall₂.cons hxy .nil
  have hroom : b.queue.length < b.capacity ↔ b'.queue.length < b'.capacity := by
    rw [h.capacity_eq, h.queue.length_eq]
  simp only [RecordBuffer.hold, hroom]
  split
  · exact ⟨h.capacity_eq, h.state_eq, h.overflow, List.rel_append h.queue hlast⟩
  · -- the oldest entry of either queue moves to its overflow
    exact ⟨h.capacity_eq, h.state_eq, List.rel_append h.overflow (List.forall₂_take 1 h.queue),
      List.rel_append (List.forall₂_drop 1 h.queue) hlast⟩

/-- Entries emitted in order, up to a call that is aborted. -/
theorem emitAll_alike (hemit : EmitAlike E O emit emit') (scope : Nat) {xs : List (Tagged α)}
    {ys : List (Tagged β)} (hxs : List.Forall₂ (Tagged.Alike E) xs ys) (hst : O s t) :
    Agree (fun p q => List.Forall₂ (Tagged.Alike E) p.1 q.1 ∧ O p.2 q.2)
      (emitAll emit scope xs s) (emitAll emit' scope ys t) := by
  induction hxs generalizing s t with
  | nil => exact ⟨rfl, .nil, hst⟩
  | @cons x y xs ys hxy hrest ih =>
      simp only [emitAll, hxy.1]
      split
      · obtain ⟨hout, hafter⟩ := hemit x.entry y.entry hxy.2 s t hst
        rcases hx : emit x.entry s with ⟨outcome, s'⟩
        rcases hy : emit' y.entry t with ⟨outcome', t'⟩
        rw [hx, hy] at hout hafter
        obtain rfl : outcome = outcome' := hout
        cases outcome with
        | aborted => exact ⟨rfl, hrest, hafter⟩
        | ok => exact ih hafter
        | failed e => exact ih hafter
      · exact ih hst

theorem flush_alike (hemit : EmitAlike E O emit emit') (scope : Nat) (h : b.Alike E b')
    (hst : O s t) :
    Agree (fun p q => p.1.Alike E q.1 ∧ O p.2 q.2) (flush emit scope b s)
      (flush emit' scope b' t) := by
  have hover := emitAll_alike hemit scope h.overflow hst
  unfold flush
  rcases hx : emitAll emit scope b.overflow s with ⟨finished, rest, s'⟩
  rcases hy : emitAll emit' scope b'.overflow t with ⟨finished', rest', t'⟩
  rw [hx, hy] at hover
  obtain ⟨hfinished, -, hafter⟩ := hover
  obtain rfl : finished = finished' := hfinished
  cases finished with
  | false => exact ⟨rfl, ⟨h.capacity_eq, h.state_eq, .nil, h.queue⟩, hafter⟩
  | true =>
      obtain ⟨hflag, hleft, hend⟩ := emitAll_alike hemit scope h.queue hafter
      exact ⟨hflag, ⟨h.capacity_eq, h.state_eq, .nil, hleft⟩, hend⟩

theorem drainScope_alike (hemit : EmitAlike E O emit emit') (scope : Nat) (h : b.Alike E b')
    (hst : O s t) :
    Agree (fun p q => p.1.Alike E q.1 ∧ O p.2 q.2) (b.drainScope emit scope s)
      (b'.drainScope emit' scope t) := by
  unfold drainScope
  rw [h.state_eq]
  split
  · have hmarked : ({ b with state := b'.state.mark } : RecordBuffer α).Alike E
        { b' with state := b'.state.mark } :=
      ⟨h.capacity_eq, rfl, h.overflow, h.queue⟩
    exact flush_alike hemit scope hmarked hst
  · exact ⟨rfl, h, hst⟩

theorem appendTo_alike (hemit : EmitAlike E O emit emit') (scope : Nat) {x : α} {y : β}
    (hxy : E x y) (h : b.Alike E b') (hst : O s t) :
    Agree (fun p q => p.1.Alike E q.1 ∧ O p.2 q.2) (b.appendTo emit scope x s)
      (b'.appendTo emit' scope y t) := by
  unfold appendTo
  rw [h.scope_eq, h.drained_eq]
  split
  · exact ⟨rfl, h, hst⟩
  · split
    · obtain ⟨hout, hafter⟩ := hemit x y hxy s t hst
      exact ⟨hout, h, hafter⟩
    · exact ⟨rfl, h.hold ⟨rfl, hxy⟩, hst⟩

end RecordBuffer

/-! ## Chains -/

variable {κ κ' : Type}

namespace Handler

/-- The sink at the end. -/
def leaf : Handler κ σ → κ
  | sink k => k
  | limited _ _ next | sampled _ next | shared next => next.leaf

/-- Every sampler of the chain decides the same in two worlds. -/
def SamplersAgree (view : View) (w w' : σ) : Handler κ σ → Prop
  | sink _ => True
  | limited _ _ next | shared next => next.SamplersAgree view w w'
  | sampled policy next =>
    policy.sampler w view = policy.sampler w' view ∧ next.SamplersAgree view w w'

theorem samplersAgree_self (h : Handler κ σ) (view : View) (w : σ) : h.SamplersAgree view w w := by
  induction h with
  | sink k => trivial
  | limited limits table next ih => exact ih
  | sampled policy next ih => exact ⟨rfl, ih⟩
  | shared next ih => exact ih

/-- Chains of the same links, whose samplers decide the same in worlds that are alike and whose
sinks are related. -/
inductive Alike (K : κ → κ' → Prop) (W : σ → σ' → Prop) : Handler κ σ → Handler κ' σ' → Prop where
  | sink {k : κ} {k' : κ'} (hk : K k k') : Alike K W (.sink k) (.sink k')
  | limited (limits : Limits) (table : Nat) {next : Handler κ σ} {next' : Handler κ' σ'}
      (hnext : Alike K W next next') :
      Alike K W (.limited limits table next) (.limited limits table next')
  | sampled {sampler : Sampler σ} {sampler' : Sampler σ'}
      (hsampler : ∀ w w', W w w' → ∀ view, sampler w view = sampler' w' view) (minimum : Level)
      (pool : Nat) {next : Handler κ σ} {next' : Handler κ' σ'} (hnext : Alike K W next next') :
      Alike K W (.sampled ⟨sampler, minimum, pool⟩ next) (.sampled ⟨sampler', minimum, pool⟩ next')
  | sharedLeft {next : Handler κ σ} {h' : Handler κ' σ'} (hnext : Alike K W next h') :
      Alike K W (.shared next) h'
  | sharedRight {h : Handler κ σ} {next' : Handler κ' σ'} (hnext : Alike K W h next') :
      Alike K W h (.shared next')

variable {K : κ → κ' → Prop} {W : σ → σ' → Prop} {h : Handler κ σ} {h' : Handler κ' σ'}

theorem Alike.mono (halike : Alike K W h h') {K' : κ → κ' → Prop}
    (hK : ∀ {k k'}, K k k' → K' k k') : Alike K' W h h' := by
  induction halike with
  | sink hk => exact .sink (hK hk)
  | limited limits table hnext ih => exact .limited limits table ih
  | sampled hsampler minimum pool hnext ih => exact .sampled hsampler minimum pool ih
  | sharedLeft hnext ih => exact .sharedLeft ih
  | sharedRight hnext ih => exact .sharedRight ih

/-- Chains that are alike enable the same if their sinks do. -/
theorem Alike.enabled_eq [Sink κ σ] [Sink κ' σ'] (halike : Alike K W h h')
    (hsinks : ∀ {k k'}, K k k' → ∀ {w w'}, W w w' → ∀ view level,
      Sink.enabled k view level w = Sink.enabled k' view level w')
    (view : View) (level : Level) {w : σ} {w' : σ'} (hw : W w w') :
    h.enabled view level w = h'.enabled view level w' := by
  induction halike with
  | sink hk => exact hsinks hk hw view level
  | limited limits table hnext ih => exact ih
  | sampled hsampler minimum pool hnext ih => simp only [enabled, ih, hsampler w w' hw view]
  | sharedLeft hnext ih => exact ih
  | sharedRight hnext ih => exact ih

end Handler

/-- When sinks and outside worlds of two kinds are alike: handling a record by sinks that are
alike for it has the same outcome, and keeps the worlds alike. -/
structure Likeness (κ κ' : Type) {σ σ' : Type} [Sink κ σ] [Sink κ' σ'] where
  worlds : σ → σ' → Prop
  sinks : Record → κ → κ' → Prop
  handle : ∀ {r k k'}, sinks r k k' → ∀ view {w w'}, worlds w w' →
    Agree worlds (Sink.handle k view r w) (Sink.handle k' view r w')

namespace Likeness

variable [Sink κ σ] [Sink κ' σ'] (L : Likeness κ κ')

/-- Chains that handle a record alike. -/
def Chains (r : Record) : Handler κ σ → Handler κ' σ' → Prop :=
  Handler.Alike (L.sinks r) L.worlds

/-- Deferred calls with the same record and context, by chains that handle the record alike. -/
structure Entries (e : Entry κ σ) (e' : Entry κ' σ') : Prop where
  chains : L.Chains e.record e.handler e'.handler
  cx_eq : e.cx = e'.cx
  record_eq : e.record = e'.record

/-- The same counters, and worlds that are alike. -/
structure Downstreams (d : Downstream σ) (d' : Downstream σ') : Prop where
  worlds : L.worlds d.world d'.world
  tables_eq : d.tables = d'.tables

/-- Stores with the same counters and pools, whose worlds and buffers are alike. -/
structure Stores (st : Store κ σ) (st' : Store κ' σ') : Prop where
  downstream : L.Downstreams st.downstream st'.downstream
  buffers : ∀ i, (st.buffers i).Alike L.Entries (st'.buffers i)
  pools_eq : st.pools = st'.pools
  freshBuffer_eq : st.freshBuffer = st'.freshBuffer

variable {L} {h : Handler κ σ} {h' : Handler κ' σ'} {d : Downstream σ} {d' : Downstream σ'}
  {st : Store κ σ} {st' : Store κ' σ'}

/-! ## Downstream -/

/-- A record is counted the same. -/
theorem Downstreams.tally (hd : L.Downstreams d d') (table : Nat) (limits : Limits) (r : Record) :
    Agree L.Downstreams (d.tally table limits r) (d'.tally table limits r) := by
  unfold Downstream.tally
  rw [hd.tables_eq]
  exact ⟨rfl, hd.worlds, rfl⟩

/-- Where nothing can be held back, chains that are alike deliver a record alike. -/
theorem Chains.deliver {r : Record} (halike : L.Chains r h h') (view : View)
    (hd : L.Downstreams d d') :
    Agree L.Downstreams (h.deliver view r d) (h'.deliver view r d') := by
  induction halike generalizing d d' with
  | sink hk =>
      obtain ⟨hout, hworlds⟩ := L.handle hk view hd.worlds
      exact ⟨hout, hworlds, hd.tables_eq⟩
  | limited limits table hnext ih =>
      simp only [Handler.deliver]
      have htally := hd.tally table limits r
      rcases ht : d.tally table limits r with ⟨passed, d₁⟩
      rcases ht' : d'.tally table limits r with ⟨passed', d₁'⟩
      rw [ht, ht'] at htally
      obtain ⟨rfl, hcounted⟩ : passed = passed' ∧ L.Downstreams d₁ d₁' := htally
      cases passed with
      | true => exact ih hcounted
      | false => exact ⟨rfl, hcounted⟩
  | sampled hsampler minimum pool hnext ih =>
      simp only [Handler.deliver, hsampler _ _ hd.worlds view]
      split
      · exact ih hd
      · exact ⟨rfl, hd⟩
  | sharedLeft hnext ih => exact ih hd
  | sharedRight hnext ih => exact ih hd

theorem emitAlike : EmitAlike L.Entries L.Downstreams Entry.emit Entry.emit := by
  rintro ⟨h, cx, r⟩ ⟨h', cx', r'⟩ ⟨hchains, hcx, hrecord⟩ d d' hd
  obtain rfl : cx = cx' := hcx
  obtain rfl : r = r' := hrecord
  exact hchains.deliver cx.unboundView hd

/-! ## Stores -/

theorem Stores.liveScope_eq (hst : L.Stores st st') (cx : Context) :
    st.liveScope cx = st'.liveScope cx := by
  have hscope : ∀ b : Binding, (st.buffers b.buffer).scope = (st'.buffers b.buffer).scope :=
    fun b => (hst.buffers b.buffer).scope_eq
  simp only [Store.liveScope, hscope]

theorem Stores.view_eq (hst : L.Stores st st') (cx : Context) : st.view cx = st'.view cx := by
  rw [Store.view, Store.view, hst.liveScope_eq]

theorem Stores.withDownstream (hst : L.Stores st st') (hd : L.Downstreams d d') :
    L.Stores { st with downstream := d } { st' with downstream := d' } :=
  ⟨hd, hst.buffers, hst.pools_eq, hst.freshBuffer_eq⟩

/-- Buffers that are alike are put in one place. -/
theorem Stores.putBuffer (hst : L.Stores st st') (i : Nat) {b : RecordBuffer (Entry κ σ)}
    {b' : RecordBuffer (Entry κ' σ')} (hb : b.Alike L.Entries b') :
    L.Stores (st.putBuffer i b) (st'.putBuffer i b') where
  downstream := hst.downstream
  buffers := by
    intro j
    simp only [Store.putBuffer, Cells.put]
    split
    · exact hb
    · exact hst.buffers j
  pools_eq := hst.pools_eq
  freshBuffer_eq := hst.freshBuffer_eq

/-- An operation that treats buffers alike treats stores alike. -/
theorem Stores.onBuffer (hst : L.Stores st st') (i : Nat)
    {act : RecordBuffer (Entry κ σ) → Downstream σ → ρ × RecordBuffer (Entry κ σ) × Downstream σ}
    {act' : RecordBuffer (Entry κ' σ') → Downstream σ' →
      ρ × RecordBuffer (Entry κ' σ') × Downstream σ'}
    (hact : Agree (fun p q => p.1.Alike L.Entries q.1 ∧ L.Downstreams p.2 q.2)
      (act (st.buffers i) st.downstream) (act' (st'.buffers i) st'.downstream)) :
    Agree L.Stores (st.onBuffer i act) (st'.onBuffer i act') := by
  obtain ⟨hresult, hbuffer, hd⟩ := hact
  exact ⟨hresult, (hst.putBuffer i hbuffer).withDownstream hd⟩

/-- **Chains that are alike handle a record alike.** -/
theorem Chains.handle {r : Record} (halike : L.Chains r h h') (cx : Context)
    (hst : L.Stores st st') : Agree L.Stores (h.handle cx r st) (h'.handle cx r st') := by
  induction halike generalizing st st' with
  | sink hk =>
      simp only [Handler.handle, ← hst.view_eq]
      obtain ⟨hout, hworlds⟩ := L.handle hk (st.view cx) hst.downstream.worlds
      exact ⟨hout, hst.withDownstream ⟨hworlds, hst.downstream.tables_eq⟩⟩
  | limited limits table hnext ih =>
      simp only [Handler.handle]
      have htally := hst.downstream.tally table limits r
      rcases ht : st.downstream.tally table limits r with ⟨passed, d⟩
      rcases ht' : st'.downstream.tally table limits r with ⟨passed', d'⟩
      rw [ht, ht'] at htally
      obtain ⟨rfl, hcounted⟩ : passed = passed' ∧ L.Downstreams d d' := htally
      cases passed with
      | true => exact ih (hst.withDownstream hcounted)
      | false => exact ⟨rfl, hst.withDownstream hcounted⟩
  | @sampled sampler sampler' hsampler minimum pool next next' hnext ih =>
      simp only [Handler.handle, ← hst.view_eq, ← hst.liveScope_eq, Store.world,
        hsampler _ _ hst.downstream.worlds (st.view cx)]
      split
      · exact ih hst
      · split
        · rename_i b _
          split
          · -- the calls deferred are for the rest of either chain
            have hentries : L.Entries (.ofCall next cx r) (.ofCall next' cx r) :=
              ⟨hnext, rfl, rfl⟩
            exact hst.onBuffer b.buffer (RecordBuffer.appendTo_alike emitAlike b.scope hentries
              (hst.buffers b.buffer) hst.downstream)
          · have hdrain := hst.onBuffer b.buffer (RecordBuffer.drainScope_alike emitAlike b.scope
              (hst.buffers b.buffer) hst.downstream)
            rcases hd : st.onBuffer b.buffer (RecordBuffer.drainScope Entry.emit b.scope) with
              ⟨finished, st₁⟩
            rcases hd' : st'.onBuffer b.buffer (RecordBuffer.drainScope Entry.emit b.scope) with
              ⟨finished', st₁'⟩
            rw [hd, hd'] at hdrain
            obtain ⟨rfl, hdrained⟩ : finished = finished' ∧ L.Stores st₁ st₁' := hdrain
            cases finished with
            | true => exact ih hdrained
            | false => exact ⟨rfl, hdrained⟩
        · split
          · exact ⟨rfl, hst⟩
          · exact ih hst
  | sharedLeft hnext ih => exact ih hst
  | sharedRight hnext ih => exact ih hst

/-! ## Scopes -/

theorem Stores.withPools (hst : L.Stores st st') (pools : Cells Pool) :
    L.Stores { st with pools := pools } { st' with pools := pools } :=
  ⟨hst.downstream, hst.buffers, rfl, hst.freshBuffer_eq⟩

theorem Stores.addBuffer (hst : L.Stores st st') {b : RecordBuffer (Entry κ σ)}
    {b' : RecordBuffer (Entry κ' σ')} (hb : b.Alike L.Entries b') :
    Agree L.Stores (st.addBuffer b) (st'.addBuffer b') := by
  have hput := hst.putBuffer st.freshBuffer hb
  simp only [Store.addBuffer, ← hst.freshBuffer_eq]
  exact ⟨rfl, hput.downstream, hput.buffers, hst.pools_eq, rfl⟩

/-- A pool finds the same buffer in both stores, or none in either. -/
theorem Stores.lendBuffer? (hst : L.Stores st st') (p : Pool) (idle : Option Nat) :
    Option.Rel (Agree L.Stores) (st.lendBuffer? p idle) (st'.lendBuffer? p idle) := by
  cases idle with
  | some i => exact .some ⟨rfl, hst⟩
  | none =>
      by_cases hfits : 0 < p.bufferCapacity ∧ p.bufferCapacity ≤ RecordBuffer.maxCapacity
      · simp only [Store.lendBuffer?, RecordBuffer.create?, dif_pos hfits]
        exact .some (hst.addBuffer (.of_empty rfl rfl rfl rfl))
      · simp only [Store.lendBuffer?, RecordBuffer.create?, dif_neg hfits]
        exact .none

/-- Opening a scope gives the same context and guard in both stores, or there is none in
either. -/
theorem Stores.openScope? (hst : L.Stores st st') (pool : Nat) (cx : Context) :
    Option.Rel (fun x y => x.1 = y.1 ∧ Agree L.Stores x.2 y.2)
      (st.openScope? pool cx) (st'.openScope? pool cx) := by
  have hlend := hst.lendBuffer? (st.pools pool) (st.pools pool).acquire.1
  simp only [Store.openScope?, ← hst.pools_eq]
  generalize st.lendBuffer? (st.pools pool) (st.pools pool).acquire.1 = x at hlend
  generalize st'.lendBuffer? (st.pools pool) (st.pools pool).acquire.1 = y at hlend
  cases hlend with
  | none => exact .none
  | @some x y hxy =>
      obtain ⟨i, st₁⟩ := x
      obtain ⟨j, st₁'⟩ := y
      obtain ⟨rfl, hst₁⟩ : i = j ∧ L.Stores st₁ st₁' := hxy
      simp only [hst₁.pools_eq]
      exact .some ⟨rfl, rfl, (hst₁.putBuffer i ((hst₁.buffers i).arm _)).withPools _⟩

/-- Closing a scope gives the same notices. -/
theorem Stores.closeScope (hst : L.Stores st st') (g : Guard) :
    Agree L.Stores (st.closeScope g) (st'.closeScope g) := by
  have hreset := hst.putBuffer g.buffer (hst.buffers g.buffer).reset
  simp only [Store.closeScope, hst.pools_eq]
  exact ⟨rfl, hreset.withPools _⟩

end Likeness

end LogAdmission
