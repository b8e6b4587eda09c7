import LogAdmission.Proofs.Scopes.Machine

/-!
# What the log tells

The machine without buffers logs what happens downstream. Its downstream is always what the
log makes of the first one (`Logged`), and who keeps a journal downstream finds the calls of
the log in it, in their order (`Happening.seen_foldl`).
-/

namespace LogAdmission

/-- A reading of the downstream that shows every call made there by the handlers of a run. -/
structure Journal {κ σ ω : Type} [Sink κ σ] (calls : List (ScopeCall κ σ))
    (seen : Downstream σ → List ω) (note : Handler κ σ → View → Record → ω) : Prop where
  call : ∀ {policy next cx r}, .handle policy next cx r ∈ calls →
    ∀ view r' d, seen (next.deliver view r' d).2 = seen d ++ [note next view r']
  change : ∀ {f}, .outside f ∈ calls → ∀ d, seen { d with world := f d.world } = seen d

namespace Happening

variable {κ σ ω : Type}

/-- What a journal has of it. -/
def noted (note : Handler κ σ → View → Record → ω) : Happening κ σ → Option ω
  | call next view r => some (note next view r)
  | change _ => none

/-- Whether it can come of the calls of a run. -/
def Stems (calls : List (ScopeCall κ σ)) : Happening κ σ → Prop
  | call next _ _ => ∃ policy cx r, .handle policy next cx r ∈ calls
  | change f => .outside f ∈ calls

theorem seen_foldl [Sink κ σ] {calls : List (ScopeCall κ σ)} {seen : Downstream σ → List ω}
    {note : Handler κ σ → View → Record → ω} (hjournal : Journal calls seen note)
    (log : List (Happening κ σ)) (hlog : ∀ e ∈ log, e.Stems calls) (d : Downstream σ) :
    seen (log.foldl apply d) = seen d ++ log.filterMap (noted note) := by
  induction log generalizing d with
  | nil => simp
  | cons e rest ih =>
      rw [List.foldl_cons, ih fun e' he' => hlog e' (List.mem_cons_of_mem _ he')]
      have hstems := hlog e List.mem_cons_self
      cases e with
      | call next view r =>
          obtain ⟨policy, cx, r', hmem⟩ := hstems
          simp [apply, noted, hjournal.call hmem]
      | change f =>
          rw [List.filterMap_cons_none rfl]
          exact congrArg (· ++ _) (hjournal.change hstems d)

end Happening

/-- The downstream is what the log makes of it, and all that is logged or deferred comes of
the calls of the run. -/
structure Logged {κ σ : Type} [Sink κ σ] (calls : List (ScopeCall κ σ)) (start : Downstream σ)
    (m : ScopeMachine κ σ) : Prop where
  downstream_eq : m.downstream = m.log.foldl Happening.apply start
  log : ∀ e ∈ m.log, e.Stems calls
  pending : ∀ d, some d ∈ m.scopes → ∀ e ∈ d.pending, (Happening.ofEntry e).Stems calls

namespace Logged

variable {κ σ : Type} [Sink κ σ] {calls : List (ScopeCall κ σ)} {start : Downstream σ}
  {m : ScopeMachine κ σ}

theorem happens (h : Logged calls start m) {e : Happening κ σ} (he : e.Stems calls) :
    Logged calls start { m with downstream := e.apply m.downstream, log := m.log ++ [e] } where
  downstream_eq := by
    rw [List.foldl_append, ← h.downstream_eq]
    rfl
  log := by
    intro e' he'
    rcases List.mem_append.mp he' with hold | hnew
    · exact h.log e' hold
    · rw [List.mem_singleton.mp hnew]
      exact he
  pending := h.pending

/-- A scope may defer more calls of the run. -/
theorem setScope (h : Logged calls start m) {k : Nat} {x : Option (Deferred κ σ)}
    (hx : ∀ d, x = some d → ∀ e ∈ d.pending, (Happening.ofEntry e).Stems calls) :
    Logged calls start (m.setScope k x) where
  downstream_eq := h.downstream_eq
  log := h.log
  pending := by
    intro d hd
    rcases List.mem_or_eq_of_mem_set hd with hold | hnew
    · exact h.pending d hold
    · exact hx d hnew.symm

theorem emitPending (h : Logged calls start m) {k : Nat} {d : Deferred κ σ}
    (hd : ∀ e ∈ d.pending, (Happening.ofEntry e).Stems calls) :
    Logged calls start (m.emitPending k d).2 where
  downstream_eq := by
    show (emission Entry.emit d.pending m.downstream).outside = _
    rw [Emission.outside_eq_replay]
    show _ = (m.log ++ _).foldl Happening.apply start
    rw [List.foldl_append, ← h.downstream_eq, List.foldl_map]
    rfl
  log := by
    intro e he
    rcases List.mem_append.mp he with hold | hnew
    · exact h.log e hold
    · obtain ⟨x, hx, rfl⟩ := List.mem_map.mp hnew
      exact hd x (Emission.mem_of_mem_made hx)
  pending := (h.setScope (k := k) (x := some ⟨[], true⟩) (by simp)).pending

theorem of_live (h : Logged calls start m) {cx : ScopedContext} {k : Nat} {d : Deferred κ σ}
    (hlive : m.live cx = some (k, d)) : ∀ e ∈ d.pending, (Happening.ofEntry e).Stems calls := by
  apply h.pending d
  simp only [ScopeMachine.live, Option.bind_eq_some_iff, Option.map_eq_some_iff,
    Prod.mk.injEq] at hlive
  obtain ⟨j, -, d', hjoin, -, rfl⟩ := hlive
  exact List.mem_of_getElem? (Option.join_eq_some_iff.mp hjoin)

/-- Each call of the run keeps this. -/
theorem perform (refused : Nat → Prop) [DecidablePred refused] (h : Logged calls start m)
    {call : ScopeCall κ σ} (hmem : call ∈ calls) :
    Logged calls start (ScopeMachine.perform refused call m).2 := by
  cases call with
  | openScope pool cx =>
      simp only [ScopeMachine.perform]
      split
      · exact h
      · refine ⟨h.downstream_eq, h.log, ?_⟩
        intro d hd
        rcases List.mem_append.mp hd with hold | hnew
        · exact h.pending d hold
        · rw [List.mem_singleton, Option.some.injEq] at hnew
          simp [hnew]
  | release k => exact h.setScope (by simp)
  | outside change => exact h.happens (e := .change change) hmem
  | handle policy next cx r =>
      have hstems : ∀ view r', (Happening.call next view r').Stems calls := fun _ _ =>
        ⟨policy, cx, r, hmem⟩
      apply ScopeMachine.handle_preserves h
      · exact fun m' view h' => h'.happens (hstems view r)
      · intro k d hlive
        apply h.setScope
        intro d' hd' e he
        obtain rfl := Option.some.inj hd'
        rcases List.mem_append.mp he with hold | hnew
        · exact h.of_live hlive e hold
        · rw [List.mem_singleton.mp hnew]
          exact hstems _ r
      · exact fun k d hlive => h.emitPending (h.of_live hlive)

end Logged

end LogAdmission
