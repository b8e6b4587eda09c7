import LogAdmission.Proofs.Buffer.Emission
import LogAdmission.Proofs.Handler.Likeness

/-!
# Watched sinks

Sinks are seen at work through a journal beside the outside world. A watched sink does what the
sink does, and notes the call under a mark that it was given. A chain is watched by watching its
sink, and a store by watching whatever is held back in it. Nobody notices: chains handle records
as before, watched or not (`watching`).
-/

namespace LogAdmission

variable {ι κ σ : Type}

/-- A sink and its mark. -/
structure Watched (ι κ : Type) where
  mark : ι
  sink : κ

/-- A record that a sink was given, and what the sink learned from the context. -/
structure SinkCall (ι κ : Type) where
  mark : ι
  sink : κ
  view : View
  record : Record

/-- An outside world, and the calls of watched sinks in their order. -/
structure Watch (ι κ σ : Type) where
  world : σ
  journal : List (SinkCall ι κ) := []

/-- The call that was noted last was aborted, and has left the world as it is. -/
def Watch.EndsAborted [Sink κ σ] (w : Watch ι κ σ) : Prop :=
  ∃ earlier c before, w.journal = earlier ++ [c] ∧
    Sink.handle c.sink c.view c.record before = (.aborted, w.world)

/-- A watch changes with its world. -/
def Watch.mapWorld (f : σ → σ) (w : Watch ι κ σ) : Watch ι κ σ :=
  { w with world := f w.world }

instance [Sink κ σ] : Sink (Watched ι κ) (Watch ι κ σ) where
  enabled k view level w := Sink.enabled k.sink view level w.world
  handle k view r w :=
    let (outcome, world) := Sink.handle k.sink view r w.world
    (outcome, ⟨world, w.journal ++ [⟨k.mark, k.sink, view, r⟩]⟩)
  withAttrs k attrs := ⟨k.mark, Sink.withAttrs k.sink attrs⟩
  withGroup k name := ⟨k.mark, Sink.withGroup k.sink name⟩

/-! ## Chains -/

namespace Handler

/-- The chain with its sink watched. -/
def watched (mark : ι) : Handler κ σ → Handler (Watched ι κ) (Watch ι κ σ)
  | sink k => sink ⟨mark, k⟩
  | limited limits table next => limited limits table (next.watched mark)
  | sampled policy next =>
    sampled ⟨fun w view => policy.sampler w.world view, policy.minimum, policy.pool⟩
      (next.watched mark)
  | shared next => shared (next.watched mark)

@[simp] theorem leaf_watched (mark : ι) (h : Handler κ σ) :
    (h.watched mark).leaf = ⟨mark, h.leaf⟩ := by
  induction h with
  | sink k => rfl
  | limited limits table next ih => exact ih
  | sampled policy next ih => exact ih
  | shared next ih => exact ih

/-- A watch makes no difference to samplers. -/
theorem SamplersAgree.watched {h : Handler κ σ} {view : View} {w w' : Watch ι κ σ} (mark : ι)
    (hagree : h.SamplersAgree view w.world w'.world) :
    (h.watched mark).SamplersAgree view w w' := by
  induction h with
  | sink k => trivial
  | limited limits table next ih => exact ih hagree
  | sampled policy next ih => exact ⟨hagree.1, ih hagree.2⟩
  | shared next ih => exact ih hagree

theorem alike_watched (mark : ι) (h : Handler κ σ) :
    Alike (fun k k' => k'.sink = k) (fun w w' => w'.world = w) h (h.watched mark) := by
  induction h with
  | sink k => exact .sink rfl
  | limited limits table next ih => exact .limited limits table ih
  | sampled policy next ih =>
      refine .sampled ?_ policy.minimum policy.pool ih
      rintro w w' rfl view
      rfl
  | shared next ih => exact .sharedLeft (.sharedRight ih)

variable {κ' σ' : Type} {K : κ → κ' → Prop} {W : σ → σ' → Prop} {h : Handler κ σ}
  {h' : Handler κ' σ'}

/-- Chains that are alike are also alike when they are watched. -/
theorem Alike.watched (halike : Alike K W h h') (mark : ι)
    {K' : Watched ι κ → Watched ι κ' → Prop} {W' : Watch ι κ σ → Watch ι κ' σ' → Prop}
    (hsink : K h.leaf h'.leaf → K' ⟨mark, h.leaf⟩ ⟨mark, h'.leaf⟩)
    (hworld : ∀ w w', W' w w' → W w.world w'.world) :
    Alike K' W' (h.watched mark) (h'.watched mark) := by
  induction halike with
  | sink hk => exact .sink (hsink hk)
  | limited limits table hnext ih => exact .limited limits table (ih hsink)
  | sampled hsampler minimum pool hnext ih =>
      refine .sampled ?_ minimum pool (ih hsink)
      intro w w' hw view
      exact hsampler _ _ (hworld w w' hw) view
  | sharedLeft hnext ih => exact .sharedLeft (ih hsink)
  | sharedRight hnext ih => exact .sharedRight (ih hsink)

end Handler

/-! ## Stores -/

/-- The buffer with other entries in the same places. -/
def RecordBuffer.map {α β : Type} (f : α → β) (b : RecordBuffer α) : RecordBuffer β where
  capacity := b.capacity
  capacity_pos := b.capacity_pos
  state := b.state
  queue := b.queue.map fun x => ⟨x.scope, f x.entry⟩
  overflow := b.overflow.map fun x => ⟨x.scope, f x.entry⟩

theorem RecordBuffer.alike_map {α β : Type} {E : α → β → Prop} {f : α → β} (hf : ∀ x, E x (f x))
    (b : RecordBuffer α) : b.Alike E (b.map f) := by
  have htagged : ∀ xs : List (Tagged α),
      List.Forall₂ (Tagged.Alike E) xs (xs.map fun x => ⟨x.scope, f x.entry⟩) := by
    intro xs
    rw [List.forall₂_map_right_iff, List.forall₂_same]
    exact fun x _ => ⟨rfl, hf x.entry⟩
  exact ⟨rfl, rfl, htagged b.overflow, htagged b.queue⟩

/-! ## Aborted calls -/

section Aborted

variable [Sink κ σ]

/-- A chain is aborted by its sink only. -/
theorem Handler.deliver_aborted {h : Handler (Watched ι κ) (Watch ι κ σ)} {view : View}
    {r : Record} {d : Downstream (Watch ι κ σ)}
    (haborted : (h.deliver view r d).1 = .aborted) :
    (h.deliver view r d).2.world.EndsAborted := by
  induction h generalizing d with
  | sink k =>
      refine ⟨d.world.journal, ⟨k.mark, k.sink, view, r⟩, d.world.world, rfl, ?_⟩
      exact Prod.ext haborted rfl
  | limited limits table next ih =>
      rcases ht : d.tally table limits r with ⟨passed, d'⟩
      simp only [deliver, ht] at haborted ⊢
      cases passed with
      | false => cases haborted
      | true => exact ih haborted
  | sampled policy next ih =>
      simp only [deliver] at haborted ⊢
      split at haborted
      · rename_i hpasses
        rw [if_pos hpasses]
        exact ih haborted
      · cases haborted
  | shared next ih => exact ih haborted

/-- So if a drain does not finish, the journal ends with the call that was aborted. -/
theorem Store.drainScope_aborted {st st' : Store (Watched ι κ) (Watch ι κ σ)} {i scope : Nat}
    (h : st.onBuffer i (RecordBuffer.drainScope Entry.emit scope) = (false, st')) :
    st'.world.EndsAborted := by
  have haborts : ∀ (e : Entry (Watched ι κ) (Watch ι κ σ)) (d : Downstream (Watch ι κ σ)),
      (e.emit d).1 = .aborted → (e.emit d).2.world.EndsAborted :=
    fun _ _ haborted => Handler.deliver_aborted haborted
  obtain ⟨hfinished, rfl⟩ := Prod.mk.inj h
  exact RecordBuffer.drainScope_aborted (P := fun d => d.world.EndsAborted) haborts hfinished

end Aborted

/-- The deferred call to a chain with its sink watched. -/
def Entry.watched (mark : ι) (e : Entry κ σ) : Entry (Watched ι κ) (Watch ι κ σ) :=
  ⟨e.handler.watched mark, e.cx, e.record⟩

/-- The store with the sinks watched for which something is held back. The journal is empty. -/
def Store.watched (mark : ι) (st : Store κ σ) : Store (Watched ι κ) (Watch ι κ σ) where
  downstream := ⟨⟨st.world, []⟩, st.downstream.tables⟩
  buffers i := (st.buffers i).map (Entry.watched mark)
  pools := st.pools
  freshTable := st.freshTable
  freshBuffer := st.freshBuffer
  freshPool := st.freshPool

variable [Sink κ σ]

/-- A sink is like itself watched, under any mark and whatever is in the journal. -/
def watching (ι κ : Type) {σ : Type} [Sink κ σ] : Likeness κ (Watched ι κ) where
  worlds w w' := w'.world = w
  sinks _ k k' := k'.sink = k
  handle := by
    rintro r k ⟨mark, k⟩ rfl view w w' rfl
    exact ⟨rfl, rfl⟩

theorem watching_chains (mark : ι) (h : Handler κ σ) (r : Record) :
    (watching ι κ).Chains r h (h.watched mark) :=
  h.alike_watched mark

theorem watching_stores (mark : ι) (st : Store κ σ) :
    (watching ι κ).Stores st (st.watched mark) where
  downstream := ⟨rfl, rfl⟩
  buffers i := RecordBuffer.alike_map
    (fun e => ⟨watching_chains mark e.handler e.record, rfl, rfl⟩) (st.buffers i)
  pools_eq := rfl
  freshBuffer_eq := rfl

/-- **A chain does the same when it is watched**, as long as the store is that of a watched
world. -/
theorem handle_watched {st : Store κ σ} {st' : Store (Watched ι κ) (Watch ι κ σ)}
    (hst : (watching ι κ).Stores st st') (mark : ι) (h : Handler κ σ) (cx : Context) (r : Record) :
    Agree (watching ι κ).Stores (h.handle cx r st) ((h.watched mark).handle cx r st') :=
  (watching_chains mark h r).handle cx hst

theorem enabled_watched (mark : ι) (h : Handler κ σ) (view : View) (level : Level)
    (w : Watch ι κ σ) :
    (h.watched mark).enabled view level w = h.enabled view level w.world := by
  refine ((h.alike_watched mark).enabled_eq ?_ view level rfl).symm
  rintro k ⟨mark, k⟩ rfl w w' rfl view level
  rfl

end LogAdmission
