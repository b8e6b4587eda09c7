import LogAdmission.Logger
import LogAdmission.Proofs.Buffer.Emission
import LogAdmission.Proofs.Handler.Watch
import LogAdmission.Sink.Endpoint

/-!
# The gate and the chain behind it

A logger asks its chain what is enabled before it makes a record. That nothing is lost by this is
a matter of two decision trees: what a chain that answers no would do with the record, and, for a
single sampling buffer, what becomes of a record to which it answers yes (`Passage`). That one is
sent or held back, unless a call of the sink is aborted before (`Passage.sent_or_deferred`).
-/

namespace LogAdmission

variable {κ σ : Type}

/-- The store with other counters. -/
def Store.withTables (st : Store κ σ) (tables : Cells CounterTable) : Store κ σ :=
  { st with downstream := { st.downstream with tables := tables } }

variable [Sink κ σ]

/-- The calls that sinks are given when a chain handles a record, those deferred before among
them. -/
def Handler.sinkCalls (h : Handler κ σ) (cx : Context) (r : Record) (st : Store κ σ) :
    List (SinkCall Unit κ) :=
  ((h.watched ()).handle cx r (st.watched ())).2.world.journal

/-- What becomes of a record that one sampling buffer in front of a sink does not drop: the
result of handling it, and the calls that the sink is given. -/
inductive Passage (k : κ) (cx : Context) (r : Record) (st : Store κ σ) :
    Outcome × Store κ σ → List (SinkCall Unit κ) → Prop where
  /-- The record is what the sink is given last, and the sink decides the outcome. -/
  | sent (view : View) (world : σ) (earlier : List (SinkCall Unit κ)) {outcome : Outcome}
      {st' : Store κ σ} (trace_eq : view.trace = cx.trace)
      (result_eq : (outcome, st'.world) = Sink.handle k view r world) :
      Passage k cx r st (outcome, st') (earlier ++ [⟨(), k, view, r⟩])
  /-- The record is held back, behind the others of its scope, until that is drained. -/
  | deferred {b : Binding} {buffer : RecordBuffer (Entry κ σ)} (live : st.liveScope cx = some b)
      (scope_eq : buffer.scope = b.scope) (undrained : buffer.drained = false)
      (pending_eq : buffer.pending =
        (st.buffers b.buffer).pending ++ [⟨b.scope, .ofCall (.sink k) cx r⟩]) :
      Passage k cx r st (.ok, st.putBuffer b.buffer buffer) []
  /-- A record that was held back before was to go first, and the last call that its sink was
  given is one that was aborted. -/
  | interrupted {b : Binding} {st' : Store κ σ} (earlier : List (SinkCall Unit κ))
      (c : SinkCall Unit κ) (world : σ) (live : st.liveScope cx = some b)
      (drain_eq : st.onBuffer b.buffer (RecordBuffer.drainScope Entry.emit b.scope) =
        (false, st'))
      (call_eq : Sink.handle c.sink c.view c.record world = (.aborted, st'.world)) :
      Passage k cx r st (.aborted, st') (earlier ++ [c])

namespace Handler

/-! ## Closed gates -/

/-- In an open scope every chain lets through what its sink does. -/
theorem enabled_of_buffered {h : Handler κ σ} {view : View} {level : Level} {w : σ}
    (hbuffered : view.buffered = true) (hsink : Sink.enabled h.leaf view level w = true) :
    h.enabled view level w = true := by
  induction h with
  | sink k => exact hsink
  | limited limits table next ih => exact ih hsink
  | sampled policy next ih => simp [enabled, ih hsink, hbuffered]
  | shared next ih => exact ih hsink

/-- A sampling buffer that answers no to what its chain would let through drops it. -/
theorem handle_sampled_of_not_enabled {policy : Policy σ} {next : Handler κ σ} {cx : Context}
    {r : Record} {w : σ} {st : Store κ σ}
    (hagree : policy.sampler w (st.view cx) = policy.sampler st.world (st.view cx))
    (hnext : next.enabled (st.view cx) r.level w = true)
    (hclosed : (sampled policy next).enabled (st.view cx) r.level w = false) :
    (sampled policy next).handle cx r st = (.ok, st) := by
  simp only [enabled, hnext, hagree, Bool.true_and, Bool.or_eq_false_iff,
    decide_eq_false_iff_not] at hclosed
  obtain ⟨⟨hunbound, hsampler⟩, hlevel⟩ := hclosed
  have hlive : st.liveScope cx = none := by
    simpa [Store.view] using hunbound
  have hbelow : r.level < policy.minimum := Int.not_le.mp hlevel
  simp [handle, hsampler, hlive, hbelow]

/-- **A chain that answers no does nothing**, except that limiters in front of the stage that
drops the record may count it. -/
theorem handle_of_not_enabled {h : Handler κ σ} {cx : Context} {r : Record} {w : σ}
    {st : Store κ σ} (hagree : h.SamplersAgree (st.view cx) w st.world)
    (hsink : Sink.enabled h.leaf (st.view cx) r.level w = true)
    (hclosed : h.enabled (st.view cx) r.level w = false) :
    ∃ tables, h.handle cx r st = (.ok, st.withTables tables) := by
  induction h generalizing st with
  | sink k =>
      have hboth : true = false := hsink.symm.trans hclosed
      cases hboth
  | shared next ih => exact ih hagree hsink hclosed
  | limited limits table next ih =>
      obtain ⟨passed, tables, ht⟩ : ∃ passed tables, st.downstream.tally table limits r =
          (passed, { st.downstream with tables := tables }) := ⟨_, _, rfl⟩
      simp only [handle, ht]
      cases passed with
      | false => exact ⟨tables, rfl⟩
      | true => exact @ih (st.withTables tables) hagree hsink hclosed
  | sampled policy next ih =>
      -- no scope is open, or else the gate would be open too
      have hunbound : (st.view cx).buffered = false := by
        by_contra hbuffered
        rw [Bool.not_eq_false] at hbuffered
        rw [enabled_of_buffered hbuffered hsink] at hclosed
        cases hclosed
      have hlive : st.liveScope cx = none := by
        simpa [Store.view] using hunbound
      cases hnext : next.enabled (st.view cx) r.level w with
      | false =>
          obtain ⟨tables, hdropped⟩ := ih hagree.2 hsink hnext
          simp only [handle, hlive]
          split
          · exact ⟨tables, hdropped⟩
          · split
            · exact ⟨st.downstream.tables, rfl⟩
            · exact ⟨tables, hdropped⟩
      | true =>
          -- then it is this stage that drops the record
          exact ⟨st.downstream.tables, handle_sampled_of_not_enabled hagree.1 hnext hclosed⟩

/-- Its sink is not called at all. -/
theorem sinkCalls_of_not_enabled {h : Handler κ σ} {cx : Context} {r : Record} {w : σ}
    {st : Store κ σ} (hagree : h.SamplersAgree (st.view cx) w st.world)
    (hsink : Sink.enabled h.leaf (st.view cx) r.level w = true)
    (hclosed : h.enabled (st.view cx) r.level w = false) : h.sinkCalls cx r st = [] := by
  let watch : Watch Unit κ σ := ⟨w, []⟩
  have hagree' : (h.watched ()).SamplersAgree ((st.watched ()).view cx) watch
      (st.watched ()).world := SamplersAgree.watched () hagree
  have hsink' :
      Sink.enabled (h.watched ()).leaf ((st.watched ()).view cx) r.level watch = true := by
    rw [leaf_watched]
    exact hsink
  have hclosed' : (h.watched ()).enabled ((st.watched ()).view cx) r.level watch = false := by
    rw [enabled_watched]
    exact hclosed
  obtain ⟨tables, hnothing⟩ := handle_of_not_enabled hagree' hsink' hclosed'
  rw [sinkCalls, hnothing]
  rfl

/-! ## Open gates -/

variable {k : κ} {cx : Context} {r : Record} {st : Store κ σ}

/-- What a sampling buffer does, as long as its chain is left aside. -/
theorem handle_sampled (policy : Policy σ) (next : Handler κ σ) (cx : Context) (r : Record)
    (st : Store κ σ) :
    (sampled policy next).handle cx r st =
      if policy.sampler st.world (st.view cx) then next.handle cx r st
      else
        match st.liveScope cx with
        | some b =>
          if r.level < policy.minimum then
            st.onBuffer b.buffer (RecordBuffer.appendTo Entry.emit b.scope (.ofCall next cx r))
          else
            match st.onBuffer b.buffer (RecordBuffer.drainScope Entry.emit b.scope) with
            | (true, st) => next.handle cx r st
            | (false, st) => (.aborted, st)
        | none => if r.level < policy.minimum then (.ok, st) else next.handle cx r st :=
  rfl

/-- A record that gets to the sink in a store that the handling has come to. -/
theorem passage_sink {st₁ : Store κ σ} {st₁' : Store (Watched Unit κ) (Watch Unit κ σ)}
    (hst : (watching Unit κ).Stores st₁ st₁') :
    Passage k cx r st ((sink k).handle cx r st₁)
      ((sink ⟨(), k⟩ : Handler (Watched Unit κ) _).handle cx r st₁').2.world.journal := by
  have hview : st₁'.view cx = st₁.view cx := (hst.view_eq cx).symm
  have hcalls : ((sink ⟨(), k⟩ : Handler (Watched Unit κ) _).handle cx r st₁').2.world.journal =
      st₁'.world.journal ++ [⟨(), k, st₁'.view cx, r⟩] := rfl
  rw [hcalls, hview]
  exact .sent (st₁.view cx) st₁.world st₁'.world.journal rfl rfl

/-- In an open scope a record is held back, or follows at once what was. -/
theorem passage_append {b : Binding} (hlive : st.liveScope cx = some b) :
    Passage k cx r st
      (st.onBuffer b.buffer (RecordBuffer.appendTo Entry.emit b.scope (.ofCall (.sink k) cx r)))
      ((st.watched ()).onBuffer b.buffer (RecordBuffer.appendTo Entry.emit b.scope
        (.ofCall (.sink ⟨(), k⟩) cx r))).2.world.journal := by
  have hscope : (st.buffers b.buffer).scope = b.scope :=
    ((st.liveScope_eq_some_iff cx b).mp hlive).2
  have hscope' : ((st.watched ()).buffers b.buffer).scope = b.scope := hscope
  have hdrained' : ((st.watched ()).buffers b.buffer).drained = (st.buffers b.buffer).drained := rfl
  simp only [Store.onBuffer, RecordBuffer.appendTo, hscope, hscope', hdrained', ne_eq,
    not_true_eq_false, if_false]
  cases hdrained : (st.buffers b.buffer).drained with
  | true =>
      exact .sent ⟨cx.trace, false⟩ st.world [] rfl rfl
  | false =>
      exact .deferred hlive ((RecordBuffer.scope_hold _ _).trans hscope)
        ((RecordBuffer.drained_hold _ _).trans hdrained) (RecordBuffer.pending_hold _ _)

/-- If a drain does not finish, the record does not get to the sink. -/
theorem passage_interrupted {b : Binding} {st₁ : Store κ σ}
    {st₁' : Store (Watched Unit κ) (Watch Unit κ σ)} (hlive : st.liveScope cx = some b)
    (hst : (watching Unit κ).Stores st₁ st₁')
    (hdrain : st.onBuffer b.buffer (RecordBuffer.drainScope Entry.emit b.scope) = (false, st₁))
    (hdrain' : (st.watched ()).onBuffer b.buffer
      (RecordBuffer.drainScope Entry.emit b.scope) = (false, st₁')) :
    Passage k cx r st (.aborted, st₁) st₁'.world.journal := by
  obtain ⟨earlier, c, world, hcalls, hcall⟩ := Store.drainScope_aborted hdrain'
  have hworld : st₁'.world.world = st₁.world := hst.downstream.worlds
  rw [hworld] at hcall
  rw [hcalls]
  exact .interrupted earlier c world hlive hdrain hcall

/-- **A sampling buffer that answers yes sends the record or holds it back.** -/
theorem passage_of_enabled (policy : Policy σ) {w : σ}
    (hagree : policy.sampler w (st.view cx) = policy.sampler st.world (st.view cx))
    (hopen : (sampled policy (sink k)).enabled (st.view cx) r.level w = true) :
    Passage k cx r st ((sampled policy (sink k)).handle cx r st)
      ((sampled policy (sink k)).sinkCalls cx r st) := by
  have hst := watching_stores () st
  have hgate : (st.view cx).buffered = true ∨ policy.sampler st.world (st.view cx) = true ∨
      policy.minimum ≤ r.level := by
    simp only [enabled, hagree, Bool.and_eq_true, Bool.or_eq_true, decide_eq_true_eq] at hopen
    tauto
  have hworld : (st.watched ()).world.world = st.world := rfl
  have hview : (st.watched ()).view cx = st.view cx := rfl
  have hliveScope : (st.watched ()).liveScope cx = st.liveScope cx := rfl
  simp only [sinkCalls, watched, handle_sampled, hworld, hview, hliveScope]
  by_cases hsampler : policy.sampler st.world (st.view cx) = true
  · simp only [hsampler, if_true]
    exact passage_sink hst
  · simp only [hsampler]
    cases hlive : st.liveScope cx with
    | none =>
        have hunbound : (st.view cx).buffered ≠ true := by
          simp [Store.view, hlive]
        have hlevel : ¬ r.level < policy.minimum :=
          Int.not_lt.mpr ((hgate.resolve_left hunbound).resolve_left hsampler)
        simp only [hlevel, if_false]
        exact passage_sink hst
    | some b =>
        by_cases hlevel : r.level < policy.minimum
        · simp only [hlevel, if_true]
          exact passage_append hlive
        · simp only [hlevel, if_false]
          have hdrain := hst.onBuffer b.buffer (RecordBuffer.drainScope_alike Likeness.emitAlike
            b.scope (hst.buffers b.buffer) hst.downstream)
          rcases hd : st.onBuffer b.buffer (RecordBuffer.drainScope Entry.emit b.scope) with
            ⟨finished, st₁⟩
          rcases hd' : (st.watched ()).onBuffer b.buffer
            (RecordBuffer.drainScope Entry.emit b.scope) with ⟨finished', st₁'⟩
          rw [hd, hd'] at hdrain
          obtain ⟨rfl, hdrained⟩ :
            finished = finished' ∧ (watching Unit κ).Stores st₁ st₁' := hdrain
          cases finished with
          | true => exact passage_sink hdrained
          | false => exact passage_interrupted hlive hdrained hd hd'

end Handler

/-- Where all calls of the sink return, the record is sent, or else it is held back. -/
theorem Passage.sent_or_deferred {k : κ} {cx : Context} {r : Record} {st : Store κ σ}
    {result : Outcome × Store κ σ} {calls : List (SinkCall Unit κ)}
    (h : Passage k cx r st result calls)
    (hreturns : ∀ c ∈ calls, ∀ w, (Sink.handle c.sink c.view c.record w).1 ≠ .aborted) :
    (∃ view world earlier, calls = earlier ++ [⟨(), k, view, r⟩] ∧ view.trace = cx.trace ∧
      (result.1, result.2.world) = Sink.handle k view r world) ∨
    ∃ b, st.liveScope cx = some b ∧ calls = [] ∧ result.1 = .ok ∧
      (result.2.buffers b.buffer).pending =
        (st.buffers b.buffer).pending ++ [⟨b.scope, .ofCall (.sink k) cx r⟩] := by
  cases h with
  | sent view world earlier trace_eq result_eq =>
      exact .inl ⟨view, world, earlier, rfl, trace_eq, result_eq⟩
  | @deferred b buffer live scope_eq undrained pending_eq =>
      have hput : (st.putBuffer b.buffer buffer).buffers b.buffer = buffer :=
        Cells.put_self _ _ _
      exact .inr ⟨b, live, rfl, rfl, (congrArg RecordBuffer.pending hput).trans pending_eq⟩
  | interrupted earlier c world live drain_eq call_eq =>
      -- the last call is none that returns
      have hlast := hreturns c (List.mem_append_right _ List.mem_cons_self) world
      rw [call_eq] at hlast
      exact absurd rfl hlast

/-- **The gate agrees with the chain behind it**, in any store and any context, when samplers
decide the same for both and the sink lets the level through. Where the gate is closed, the chain
would have done nothing with the record but count it. So a logger, which then does not call the
chain, has the same outcome and leaves the same behind. And a single sampling buffer in front of
a sink does not drop what its gate lets through, so that a logger in front of it does exactly
what it does. -/
theorem gate_agrees (h : Handler κ σ) (cx : Context) (r : Record) (st : Store κ σ) (w : σ)
    (hagree : h.SamplersAgree (st.view cx) w st.world)
    (hsink : Sink.enabled h.leaf (st.view cx) r.level w = true) :
    let logged := (⟨h⟩ : Logger κ σ).log r.time cx r.level r.message r.attrs st
    let handled := h.handle cx r st
    (h.enabled (st.view cx) r.level w = false →
      (∃ tables, handled = (.ok, st.withTables tables)) ∧ h.sinkCalls cx r st = []) ∧
    (Sink.enabled h.leaf (st.view cx) r.level st.world = true →
      ∃ tables, logged = (handled.1, handled.2.withTables tables)) ∧
    ∀ policy k, h = .sampled policy (.sink k) →
      (h.enabled (st.view cx) r.level w = true → Passage k cx r st handled (h.sinkCalls cx r st)) ∧
      (Sink.enabled k (st.view cx) r.level st.world = true → logged = handled) := by
  intro logged handled
  have hlogged : logged =
      if h.enabled (st.view cx) r.level st.world then handled else (.ok, st) := rfl
  refine ⟨?_, ?_, ?_⟩
  · intro hclosed
    exact ⟨Handler.handle_of_not_enabled hagree hsink hclosed,
      Handler.sinkCalls_of_not_enabled hagree hsink hclosed⟩
  · intro hnow
    rw [hlogged]
    split
    · exact ⟨handled.2.downstream.tables, rfl⟩
    · rename_i hclosed
      rw [Bool.not_eq_true] at hclosed
      obtain ⟨tables, hnothing⟩ :=
        Handler.handle_of_not_enabled (h.samplersAgree_self _ _) hnow hclosed
      refine ⟨st.downstream.tables, ?_⟩
      rw [show handled = _ from hnothing]
      rfl
  · rintro policy k rfl
    refine ⟨Handler.passage_of_enabled policy hagree.1, ?_⟩
    intro hnow
    rw [hlogged]
    split
    · rfl
    · rename_i hclosed
      rw [Bool.not_eq_true] at hclosed
      have hnext : (Handler.sink k).enabled (st.view cx) r.level st.world = true := hnow
      exact (Handler.handle_sampled_of_not_enabled rfl hnext hclosed).symm

/-- A record that an outer stage would forward and an inner one drops, outside any scope; and one
that is held back in an open scope. -/
theorem gate_agrees_nested :
    let sink : Handler Endpoint World := .sink (.recorder { name := "r" })
    let inner : Handler Endpoint World := .sampled ⟨.never, .error, 0⟩ sink
    let outer : Handler Endpoint World :=
      .limited ⟨1, 1, ⟨1⟩⟩ 0 (.sampled ⟨.always, .error, 1⟩ (.shared inner))
    let st : Store Endpoint World := .ofWorld {}
    let r : Record := ⟨.info, "m", ⟨0⟩, []⟩
    let opened := ((st.openScope? 0 {}).map (·.2.2)).getD st
    let cx : Context := { binding := some ⟨0, 1⟩ }
    (outer.enabled (st.view {}) r.level st.world = false ∧
      (∃ tables, outer.handle {} r st = (.ok, st.withTables tables)) ∧
      outer.sinkCalls {} r st = []) ∧
    (inner.enabled (opened.view cx) r.level opened.world = true ∧
      Passage (.recorder { name := "r" }) cx r opened (inner.handle cx r opened)
        (inner.sinkCalls cx r opened) ∧
      (⟨inner⟩ : Logger Endpoint World).log r.time cx r.level r.message r.attrs opened =
        inner.handle cx r opened) := by
  intro sink inner outer st r opened cx
  have hclosed : outer.enabled (st.view {}) r.level st.world = false := by decide +kernel
  have hopen : inner.enabled (opened.view cx) r.level opened.world = true := by decide +kernel
  have houter := gate_agrees outer {} r st st.world ⟨rfl, rfl, trivial⟩ (by decide)
  have hinner := gate_agrees inner cx r opened opened.world ⟨rfl, trivial⟩ (by decide +kernel)
  obtain ⟨hpassage, hlogged⟩ := hinner.2.2 _ _ rfl
  exact ⟨⟨hclosed, houter.1 hclosed⟩, hopen, hpassage hopen, hlogged (by decide +kernel)⟩

end LogAdmission
