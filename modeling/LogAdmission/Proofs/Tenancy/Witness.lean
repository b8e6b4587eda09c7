import LogAdmission.Proofs.Handler.Watch
import LogAdmission.Proofs.Tenancy.Calls

/-!
# Witnesses of tenancies

Tenancies over two kinds of sinks in which the same is called, of chains that are alike, give the
same answers. So a run may be witnessed: each of its calls is made of watched chains, under the
number of the call, and what reaches the sinks meanwhile is put down beside its answer. By the
mark it is known which call a record comes from, also of records that were held back.
-/

namespace LogAdmission

variable {κ κ' σ σ' : Type}

/-! ## Calls that are alike -/

theorem Handler.Alike.pools_eq {K : κ → κ' → Prop} {W : σ → σ' → Prop} {h : Handler κ σ}
    {h' : Handler κ' σ'} (halike : Alike K W h h') : h.pools = h'.pools := by
  induction halike with
  | sink hk => rfl
  | limited limits table hnext ih => exact ih
  | sampled hsampler minimum pool hnext ih => exact congrArg (pool :: ·) ih
  | sharedLeft hnext ih => exact ih
  | sharedRight hnext ih => exact ih

namespace Likeness

variable [Sink κ σ] [Sink κ' σ'] (L : Likeness κ κ')

/-- The same call, of chains that answer it alike. -/
inductive Calls : ChainCall κ σ → ChainCall κ' σ' → Prop where
  | openScope {h : Handler κ σ} {h' : Handler κ' σ'} (hpools : h.pools = h'.pools) (stage : Nat)
      (cx : ScopedContext) : Calls (.openScope h stage cx) (.openScope h' stage cx)
  | handle {h : Handler κ σ} {h' : Handler κ' σ'} {r : Record} (hchains : L.Chains r h h')
      (cx : ScopedContext) : Calls (.handle h cx r) (.handle h' cx r)
  | enabled {h : Handler κ σ} {h' : Handler κ' σ'} {level : Level}
      (hgates : ∀ {w w'}, L.worlds w w' → ∀ view, h.enabled view level w = h'.enabled view level w')
      (cx : ScopedContext) : Calls (.enabled h cx level) (.enabled h' cx level)
  | release (lease : Nat) : Calls (.release lease) (.release lease)
  | outside {f : σ → σ} {f' : σ' → σ'}
      (hchange : ∀ {w w'}, L.worlds w w' → L.worlds (f w) (f' w')) :
      Calls (.outside f) (.outside f')

/-- Stores that are alike, and the same leases. -/
structure Tenancies (s : Tenancy κ σ) (s' : Tenancy κ' σ') : Prop where
  stores : L.Stores s.store s'.store
  leases_eq : s.leases = s'.leases

variable {L} {s : Tenancy κ σ} {s' : Tenancy κ' σ'}

theorem Tenancies.context_eq (h : L.Tenancies s s') (cx : ScopedContext) :
    s.context cx = s'.context cx := by
  rw [Tenancy.context, Tenancy.context, h.leases_eq]

theorem Tenancies.mapWorld (h : L.Tenancies s s') {f : σ → σ} {f' : σ' → σ'}
    (hchange : ∀ {w w'}, L.worlds w w' → L.worlds (f w) (f' w')) :
    L.Tenancies { s with store := s.store.mapWorld f } { s' with store := s'.store.mapWorld f' } :=
  ⟨h.stores.withDownstream ⟨hchange h.stores.downstream.worlds, h.stores.downstream.tables_eq⟩,
    h.leases_eq⟩

/-- **Calls that are alike have the same answer** and keep tenancies alike. -/
theorem Tenancies.perform (h : L.Tenancies s s') {call : ChainCall κ σ} {call' : ChainCall κ' σ'}
    (hcall : L.Calls call call') :
    Agree L.Tenancies (Tenancy.perform call s) (Tenancy.perform call' s') := by
  cases hcall with
  | handle hchains cx =>
      simp only [Tenancy.perform, h.context_eq cx]
      obtain ⟨hout, hstores⟩ := hchains.handle (s'.context cx) h.stores
      exact ⟨congrArg Answer.ended hout, hstores, h.leases_eq⟩
  | enabled hgates cx =>
      simp only [Tenancy.perform, h.context_eq cx, h.stores.view_eq]
      exact ⟨congrArg Answer.enabled (hgates h.stores.downstream.worlds _), h⟩
  | outside hchange => exact ⟨rfl, h.mapWorld hchange⟩
  | release k =>
      simp only [Tenancy.perform, h.leases_eq]
      split
      · rename_i context guard _
        exact ⟨rfl, (h.stores.closeScope guard).2, rfl⟩
      · exact ⟨rfl, h⟩
  | openScope hpools stage cx =>
      simp only [Tenancy.perform, hpools, h.context_eq cx]
      split
      · exact ⟨rfl, h⟩
      · rename_i pool _
        have hopen := h.stores.openScope? pool (s'.context cx)
        generalize s.store.openScope? pool (s'.context cx) = x at hopen
        generalize s'.store.openScope? pool (s'.context cx) = y at hopen
        cases hopen with
        | none => exact ⟨rfl, h⟩
        | @some x y hxy =>
            obtain ⟨context, guard, store⟩ := x
            obtain ⟨context', guard', store'⟩ := y
            obtain ⟨rfl, rfl, hstores⟩ :
              context = context' ∧ guard = guard' ∧ L.Stores store store' := hxy
            exact ⟨rfl, hstores, congrArg (· ++ [⟨context, guard, true⟩]) h.leases_eq⟩

end Likeness

/-! ## Calls of watched chains -/

/-- The call of a watched chain. -/
def ChainCall.watched {ι : Type} (mark : ι) :
    ChainCall κ σ → ChainCall (Watched ι κ) (Watch ι κ σ)
  | openScope h stage cx => openScope (h.watched mark) stage cx
  | handle h cx r => handle (h.watched mark) cx r
  | enabled h cx level => enabled (h.watched mark) cx level
  | release lease => release lease
  | outside change => outside (Watch.mapWorld change)

/-- A watch with an empty journal. -/
def Watch.cleared {ι : Type} (w : Watch ι κ σ) : Watch ι κ σ :=
  { w with journal := [] }

namespace Tenancy

variable [Sink κ σ] [Sink κ' σ']

/-- Performs calls of watched chains, the first one under the given number. -/
def seen : Nat → List (ChainCall κ σ) → Tenancy (Watched Nat κ) (Watch Nat κ σ) →
    List (Answer × List (SinkCall Nat κ))
  | _, [], _ => []
  | k, call :: rest, s =>
    let (answer, s') := perform (call.watched k) { s with store := s.store.mapWorld Watch.cleared }
    (answer, s'.store.world.journal) :: seen (k + 1) rest s'

/-- What is seen of a run that starts without leases: of each call its answer, and which records
the sinks were given meanwhile, each marked with the number of the call that it comes from. -/
def witness (calls : List (ChainCall κ σ)) (st : Store κ σ) :
    List (Answer × List (SinkCall Nat κ)) :=
  seen 0 calls ⟨st.watched 0, []⟩

theorem calls_watched {ι : Type} (mark : ι) (call : ChainCall κ σ) :
    (watching ι κ).Calls call (call.watched mark) := by
  cases call with
  | openScope h stage cx => exact .openScope (h.alike_watched mark).pools_eq stage cx
  | handle h cx r => exact .handle (watching_chains mark h r) cx
  | release lease => exact .release lease
  | enabled h cx level =>
      refine .enabled ?_ cx
      rintro w w' rfl view
      exact (enabled_watched mark h view level w').symm
  | outside change =>
      refine .outside ?_
      rintro w w' rfl
      rfl

theorem seen_answers (calls : List (ChainCall κ σ)) (k : Nat) {s : Tenancy κ σ}
    {s' : Tenancy (Watched Nat κ) (Watch Nat κ σ)} (h : (watching Nat κ).Tenancies s s') :
    (seen k calls s').map Prod.fst = (run calls s).1 := by
  induction calls generalizing k s s' with
  | nil => rfl
  | cons call rest ih =>
      have hcleared : (watching Nat κ).Tenancies s
          { s' with store := s'.store.mapWorld Watch.cleared } :=
        h.mapWorld (f := id) fun hw => hw
      obtain ⟨hanswer, hafter⟩ := hcleared.perform (calls_watched k call)
      simp only [seen, run, List.map_cons]
      rw [← hanswer, ih (k + 1) hafter]

/-- A run gives the answers that are seen of it. -/
theorem witness_answers (calls : List (ChainCall κ σ)) (st : Store κ σ) :
    (witness calls st).map Prod.fst = (run calls ⟨st, []⟩).1 :=
  seen_answers calls 0 ⟨watching_stores 0 st, rfl⟩

/-- **Two runs in which the same is called**, of chains that are alike under the number of the
call. They give the same answers, and what the sinks are given is alike if that can be told from
the worlds. -/
theorem seen_alike {γ : Type} {L : Likeness (Watched Nat κ) (Watched Nat κ')}
    {J : List (SinkCall Nat κ) → List (SinkCall Nat κ') → Prop}
    (hjournal : ∀ {w w'}, L.worlds w w' → J w.journal w'.journal)
    (hcleared : ∀ {w w'}, L.worlds w w' → L.worlds w.cleared w'.cleared)
    {f : γ → ChainCall κ σ} {g : γ → ChainCall κ' σ'} (calls : List γ) (k : Nat)
    (hcalls : ∀ i call, calls[i]? = some call →
      L.Calls ((f call).watched (k + i)) ((g call).watched (k + i)))
    {s : Tenancy (Watched Nat κ) (Watch Nat κ σ)} {s' : Tenancy (Watched Nat κ') (Watch Nat κ' σ')}
    (h : L.Tenancies s s') :
    List.Forall₂ (fun x y => x.1 = y.1 ∧ J x.2 y.2) (seen k (calls.map f) s)
      (seen k (calls.map g) s') := by
  induction calls generalizing k s s' with
  | nil => exact .nil
  | cons call rest ih =>
      obtain ⟨hanswer, hafter⟩ := (h.mapWorld hcleared).perform (hcalls 0 call rfl)
      refine .cons ⟨hanswer, hjournal hafter.stores.downstream.worlds⟩ (ih (k + 1) ?_ hafter)
      intro i call' hi
      rw [Nat.add_assoc, Nat.add_comm 1 i]
      exact hcalls (i + 1) call' hi

end Tenancy

end LogAdmission
