import LogAdmission.Proofs.Scopes.Log
import LogAdmission.Proofs.Scopes.Refinement
import LogAdmission.Sink.Endpoint

/-!
# Whole runs over pooled buffers

From the first call on a store in which no scope has been opened, a run over the pooled
buffers and a run without buffers have the same outcomes and do the same downstream.
-/

namespace LogAdmission

open RecordBuffer

variable {κ σ : Type}

/-- A store in which no scope has been opened yet. -/
structure Store.Unopened (st : Store κ σ) : Prop where
  freshBuffer_eq : st.freshBuffer = 0
  idle_eq : ∀ p, (st.pools p).idle = []
  nextScope_eq : ∀ p, (st.pools p).nextScope = 1

theorem Store.unopened_ofWorld (world : σ) : (Store.ofWorld world : Store κ σ).Unopened :=
  ⟨rfl, fun _ => rfl, fun _ => rfl⟩

/-- Building sampling buffers opens nothing. -/
theorem Store.Unopened.addSampling {st : Store κ σ} (h : st.Unopened) (sampler : Sampler σ)
    (minimum : Level) {pool : Pool} (next : Handler κ σ) (hidle : pool.idle = [])
    (hscope : pool.nextScope = 1) :
    (st.addSampling sampler minimum pool next).2.Unopened where
  freshBuffer_eq := h.freshBuffer_eq
  idle_eq p := (Cells.put_keeps st.pools Pool.idle (hidle.trans (h.idle_eq _).symm) p).trans
    (h.idle_eq p)
  nextScope_eq p :=
    (Cells.put_keeps st.pools Pool.nextScope (hscope.trans (h.nextScope_eq _).symm) p).trans
      (h.nextScope_eq p)

theorem Refines.start {st : Store κ σ} (h : st.Unopened) :
    Refines (fun p => maxCapacity < (st.pools p).bufferCapacity) ⟨st, []⟩
      { downstream := st.downstream } ⟨fun _ => 0, fun _ => none⟩ where
  downstream_eq := rfl
  length_eq := rfl
  linked := nofun
  shelved := {
    idle := fun p i hi => by simp [h.idle_eq] at hi
    nodup := fun p => by simp [h.idle_eq] }
  next_pos p := by simp [h.nextScope_eq]
  next_le p := by simp [h.nextScope_eq]
  refused_iff _ := Iff.rfl
  home_able i hi := by simp [h.freshBuffer_eq] at hi

/-- **Pooled buffers refine separate scopes.** Whatever is called on sampling buffers in front
of plain chains, the outcomes are those of the machine that has no buffers, and the same
happens downstream: it is what the machine's log makes of it, and a journal has the calls of
that log. Contexts are of open scopes for both alike. Scopes whose buffers would be too
large are opened by neither. -/
theorem sessions_refine_scopes [Sink κ σ] (st : Store κ σ) (hst : st.Unopened)
    (calls : List (ScopeCall κ σ)) (hplain : ∀ call ∈ calls, call.Plain)
    (hfew : calls.countP ScopeCall.opens < StateWord.scopeBound) :
    let real := performAll Session.perform calls ⟨st, []⟩
    let ideal :=
      performAll (ScopeMachine.perform fun p => maxCapacity < (st.pools p).bufferCapacity) calls
        { downstream := st.downstream }
    real.1 = ideal.1 ∧
      real.2.store.downstream = ideal.2.log.foldl Happening.apply st.downstream ∧
      (∀ (ω : Type) (seen : Downstream σ → List ω) (note : Handler κ σ → View → Record → ω),
        Journal calls seen note →
          seen real.2.store.downstream =
            seen st.downstream ++ ideal.2.log.filterMap (Happening.noted note)) ∧
      (.aborted ∉ real.1 → ∀ cx, real.2.store.view (real.2.context cx) = ideal.2.view cx) := by
  intro real ideal
  let refused : Nat → Prop := fun p => maxCapacity < (st.pools p).bufferCapacity
  -- besides the relation: what is still to be called fits into the scope numbers left
  let R : List (ScopeCall κ σ) → Session κ σ → ScopeMachine κ σ → Prop := fun rest s m =>
    (∃ c, Refines refused s m c) ∧ (∀ call ∈ rest, call.Plain) ∧
      m.scopes.length + rest.countP ScopeCall.opens < StateWord.scopeBound
  have hstart : R calls ⟨st, []⟩ { downstream := st.downstream } :=
    ⟨⟨_, .start hst⟩, hplain, by simpa using hfew⟩
  have hstep : ∀ {call rest s m}, R (call :: rest) s m →
      (Session.perform call s).1 = (ScopeMachine.perform refused call m).1 ∧
        (Session.perform call s).2.store.downstream =
          (ScopeMachine.perform refused call m).2.downstream ∧
        ((Session.perform call s).1 ≠ .aborted →
          R rest (Session.perform call s).2 (ScopeMachine.perform refused call m).2) := by
    rintro call rest s m ⟨⟨c, hrefines⟩, hp, hbudget⟩
    rw [List.countP_cons] at hbudget
    have hlen := ScopeMachine.length_perform refused call m
    obtain ⟨hout, hdown, hkept⟩ :=
      hrefines.perform call (hp call List.mem_cons_self) (by omega)
    refine ⟨hout, hdown, fun hne => ⟨hkept hne, ?_, by omega⟩⟩
    intro call' hmem
    exact hp call' (List.mem_cons_of_mem _ hmem)
  obtain ⟨hout, hdown, hrel⟩ := performAll_simulates
    (V := fun (s : Session κ σ) (m : ScopeMachine κ σ) => s.store.downstream = m.downstream)
    (fun h => h.1.elim fun _ hrefines => hrefines.downstream_eq) hstep calls hstart
  have hlogged : Logged calls st.downstream ideal.2 :=
    performAll_preserves (P := Logged calls st.downstream)
      (fun call hmem m h => h.perform refused hmem) ⟨rfl, nofun, nofun⟩
  have hlog := hdown.trans hlogged.downstream_eq
  refine ⟨hout, hlog, ?_, ?_⟩
  · intro ω seen note hjournal
    rw [hlog]
    exact Happening.seen_foldl hjournal _ hlogged.log _
  · intro hno cx
    obtain ⟨c, hrefines⟩ := (hrel hno).1
    exact hrefines.view_eq cx

/-- The records received by recorders, each with whether its context was buffered. -/
def recorded (d : Downstream World) : List (Bool × String) :=
  d.world.received.reverse.filterMap fun
    | (_, .record _ _ view r) => some (view.buffered, r.message)
    | (_, .piece _) => none

/-- One place for idle buffers and one in each buffer. A buffer is lent again after its
release, while the context of its first scope is still used, and a sampling buffer with
another pool defers into the second scope. -/
theorem sessions_refine_scopes_recycled :
    let next : Handler Endpoint World := .sink (.recorder { name := "r" })
    let pool : Pool := { size := 1, bufferCapacity := 1, bufferCapacity_pos := Nat.one_pos }
    let st := ((Store.ofWorld {}).addSampling .never .error pool next).2
    let here : Policy World := ⟨.never, .error, 0⟩
    let elsewhere : Policy World := ⟨.never, .error, 1⟩
    let say (policy : Policy World) (opening : Nat) (level : Level) (message : String) :=
      ScopeCall.handle policy next { opening := some opening } ⟨level, message, ⟨0⟩, []⟩
    let calls : List (ScopeCall Endpoint World) :=
      [.openScope 0 {}, say here 0 .info "a", say here 0 .info "b", .release 0,
        .openScope 0 {}, say here 1 .info "c", say here 0 .info "stale",
        say here 0 .error "late", say elsewhere 1 .info "d", say here 1 .error "e",
        say elsewhere 1 .info "f", .release 1]
    st.Unopened ∧ (∀ call ∈ calls, call.Plain) ∧
      calls.countP ScopeCall.opens < StateWord.scopeBound ∧
      recorded (performAll Session.perform calls ⟨st, []⟩).2.store.downstream =
        [(false, "late"), (false, "c"), (false, "d"), (true, "e"), (false, "f")] := by
  intro next pool st here elsewhere say calls
  have hst : st.Unopened := (Store.unopened_ofWorld {}).addSampling .never .error next rfl rfl
  have hplain : ∀ call ∈ calls, call.Plain := by
    simp [calls, say, ScopeCall.Plain, next, Handler.Plain]
  have hfew : calls.countP ScopeCall.opens < StateWord.scopeBound := by
    have hcount : calls.countP ScopeCall.opens = 2 := rfl
    rw [hcount]
    decide
  obtain ⟨-, -, hjournal, -⟩ := sessions_refine_scopes st hst calls hplain hfew
  refine ⟨hst, hplain, hfew, ?_⟩
  refine (hjournal _ recorded (fun _ view r => (view.buffered, r.message)) ?_).trans
    (by decide +kernel)
  constructor
  · intro policy h cx r hmem view r' d
    have hnext : h = next := by
      simp only [calls, say, List.mem_cons, List.not_mem_nil] at hmem
      grind
    rw [hnext]
    simp [recorded, next, Handler.deliver, Sink.handle, Recorder.handle, World.receive]
  · intro f hmem
    simp [calls, say] at hmem

end LogAdmission
