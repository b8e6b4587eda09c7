import LogAdmission.Proofs.Handler.Frame
import LogAdmission.Proofs.Runs

/-!
# Programs

A program makes sinks, builds limiters and sampling buffers in front of the chains that it has,
copies and derives chains, opens and closes scopes, and handles records. Whatever it does, its
chains and all calls that are held back count in tables that have been given out (`Sound`): one
call preserves that (`Sound.perform`), and so does a run (`sound_after`). Hence a limiter has
its counters to itself (`counters_apart`).
-/

namespace LogAdmission

variable {κ σ : Type}

/-- A call of a program. Chains are named by their numbers, in the order in which they came. -/
inductive ProgramCall (κ σ : Type) where
  | sink (k : κ)
  /-- Wraps a chain so that it can be shared. -/
  | share (chain : Nat)
  | derive (chain : Nat) (path : List (List Attr ⊕ String))
  | buildLimiter (next : Option Nat) (o : LimiterOptions)
  | buildSampling (next : Option Nat) (sampler : Option (Sampler σ)) (o : SamplingOptions)
  | openScope (pool : Nat) (cx : Context)
  | closeScope (g : Guard)
  | handle (chain : Nat) (cx : Context) (r : Record)
  | outside (change : σ → σ)

/-- A store and the chains that there are. -/
structure Program (κ σ : Type) where
  store : Store κ σ
  chains : List (Handler κ σ) := []

namespace Program

/-- The program at its start. -/
def ofWorld (world : σ) : Program κ σ :=
  { store := .ofWorld world }

/-- The program with one more chain, if there is one. -/
def add (p : Program κ σ) (h : Option (Handler κ σ)) : Program κ σ :=
  { p with chains := p.chains ++ h.toList }

/-- Takes over what was built. -/
def finishBuild (p : Program κ σ) (result : Except BuildError (Construction κ σ)) :
    Program κ σ :=
  match result with
  | .error _ => p
  | .ok built => ({ p with store := built.store } : Program κ σ).add built.handler

variable [Sink κ σ]

/-- Performs a call. One that names a chain that is not there does nothing. -/
def perform (p : Program κ σ) : ProgramCall κ σ → Program κ σ
  | .sink k => p.add (some (.sink k))
  | .share chain => p.add (p.chains[chain]?.map .shared)
  | .derive chain path => p.add (p.chains[chain]?.map (·.derive path))
  | .buildLimiter next o => p.finishBuild (p.store.buildLimiter (next.bind (p.chains[·]?)) o)
  | .buildSampling next sampler o =>
    p.finishBuild (p.store.buildSampling (next.bind (p.chains[·]?)) sampler o)
  | .openScope pool cx =>
    match p.store.openScope? pool cx with
    | some (_, _, store) => { p with store := store }
    | none => p
  | .closeScope g => { p with store := (p.store.closeScope g).2 }
  | .handle chain cx r =>
    match p.chains[chain]? with
    | some h => { p with store := (h.handle cx r p.store).2 }
    | none => p
  | .outside change => { p with store := p.store.mapWorld change }

/-- The program after calls in turn. -/
def after (p : Program κ σ) (calls : List (ProgramCall κ σ)) : Program κ σ :=
  calls.foldl perform p

omit [Sink κ σ]

/-- What is held back, and the chains, count only in tables that have been given out. -/
structure Sound (p : Program κ σ) : Prop where
  numbered : p.store.Numbered
  known : ∀ h ∈ p.chains, p.store.Knows h

namespace Sound

variable {p : Program κ σ}

theorem ofWorld (world : σ) : (Program.ofWorld world : Program κ σ).Sound where
  numbered := Store.numbered_ofWorld world
  known := fun _ hmem => absurd hmem List.not_mem_nil

/-- The store changes, but no table is taken back. -/
theorem withStore (h : p.Sound) {store : Store κ σ} (hnumbered : store.Numbered)
    (hle : p.store.freshTable ≤ store.freshTable) :
    ({ p with store := store } : Program κ σ).Sound where
  numbered := hnumbered
  known := fun c hmem => (h.known c hmem).mono hle

theorem add (h : p.Sound) {new : Option (Handler κ σ)}
    (hnew : ∀ c, new = some c → p.store.Knows c) : (p.add new).Sound where
  numbered := h.numbered
  known := by
    intro c hmem
    rcases List.mem_append.mp hmem with hold | hnow
    · exact h.known c hold
    · exact hnew c (Option.mem_toList.mp hnow)

/-- The chain of a number is known, if there is one. -/
theorem knows (h : p.Sound) {chain : Nat} {c : Handler κ σ} (hc : p.chains[chain]? = some c) :
    p.store.Knows c :=
  h.known c (List.mem_of_getElem? hc)

theorem buildLimiter (h : p.Sound) (next : Option Nat) (o : LimiterOptions) :
    (p.finishBuild (p.store.buildLimiter (next.bind (p.chains[·]?)) o)).Sound := by
  cases hnext : next.bind (p.chains[·]?) with
  | none => exact h
  | some c =>
      obtain ⟨chain, -, hchain⟩ := Option.bind_eq_some_iff.mp hnext
      obtain ⟨hnumbered, hknown⟩ := h.numbered.addLimiter o.limits.1 (h.knows hchain)
      refine (h.withStore hnumbered (Nat.le_succ _)).add fun new hnew => ?_
      obtain rfl := Option.some.inj hnew
      exact hknown

theorem buildSampling (h : p.Sound) (next : Option Nat) (sampler : Option (Sampler σ))
    (o : SamplingOptions) :
    (p.finishBuild (p.store.buildSampling (next.bind (p.chains[·]?)) sampler o)).Sound := by
  cases hnext : next.bind (p.chains[·]?) with
  | none => exact h
  | some c =>
      cases sampler with
      | none => exact h
      | some sampler =>
          obtain ⟨chain, -, hchain⟩ := Option.bind_eq_some_iff.mp hnext
          obtain ⟨hnumbered, hknown⟩ :=
            h.numbered.addSampling sampler o.minimum o.pool.1 (h.knows hchain)
          by_cases hsize : o.pool.1.size ≤ Pool.maxSize
          · simp only [Store.buildSampling, hsize, if_true]
            refine (h.withStore hnumbered (Nat.le_refl _)).add fun new hnew => ?_
            obtain rfl := Option.some.inj hnew
            exact hknown
          · simp only [Store.buildSampling, hsize, if_false]
            exact h.add fun new hnew => by cases hnew

variable [Sink κ σ]

/-- **One call.** -/
theorem perform (h : p.Sound) (call : ProgramCall κ σ) : (p.perform call).Sound := by
  cases call with
  | sink k =>
      refine h.add fun c hc => ?_
      obtain rfl := Option.some.inj hc
      exact fun t _ => trivial
  | share chain =>
      refine h.add fun c hc => ?_
      obtain ⟨old, hold, rfl⟩ := Option.map_eq_some_iff.mp hc
      exact fun t ht => h.knows hold t ht
  | derive chain path =>
      refine h.add fun c hc => ?_
      obtain ⟨old, hold, rfl⟩ := Option.map_eq_some_iff.mp hc
      exact fun t ht => (h.knows hold t ht).derive path
  | buildLimiter next o => exact h.buildLimiter next o
  | buildSampling next sampler o => exact h.buildSampling next sampler o
  | openScope pool cx =>
      simp only [Program.perform]
      cases hopen : p.store.openScope? pool cx with
      | none => exact h
      | some opened =>
          obtain ⟨hnumbered, hfresh⟩ := h.numbered.openScope hopen
          exact h.withStore hnumbered (Nat.le_of_eq hfresh.symm)
  | closeScope g => exact h.withStore (h.numbered.closeScope g) (Nat.le_refl _)
  | handle chain cx r =>
      simp only [Program.perform]
      cases hchain : p.chains[chain]? with
      | none => exact h
      | some c =>
          refine h.withStore (h.numbered.handle (h.knows hchain) cx r) ?_
          exact Nat.le_of_eq (Store.freshTable_handle c cx r p.store).symm
  | outside change => exact h.withStore h.numbered (Nat.le_refl _)

/-- **A run.** -/
theorem after (h : p.Sound) (calls : List (ProgramCall κ σ)) : (p.after calls).Sound := by
  induction calls generalizing p with
  | nil => exact h
  | cons call rest ih => exact ih (h.perform call)

end Sound

variable [Sink κ σ]

/-- Whatever a program has done, its store knows its chains and all that is held back. -/
theorem sound_after (world : σ) (calls : List (ProgramCall κ σ)) :
    ((ofWorld world).after calls).Sound :=
  (Sound.ofWorld world).after calls

/-- **Counters apart.** A limiter that a program builds, at any time and in front of any
chain, begins with fresh counters. They stay as they are whatever records the chains that
were there before handle, in any contexts, with all that they bring out of buffers. -/
theorem counters_apart (world : σ) (calls : List (ProgramCall κ σ)) (limits : Limits)
    (next : Handler κ σ) (uses : List (Handler κ σ × Context × Record)) :
    let p := (ofWorld world).after calls
    let built := p.store.addLimiter limits next
    (∀ use ∈ uses, use.1 ∈ p.chains) →
      (performEach (fun use st => use.1.handle use.2.1 use.2.2 st) uses
          built.2).2.downstream.tables p.store.freshTable = .fresh := by
  intro p built huses
  have hsound := sound_after world calls
  let R : List (Handler κ σ × Context × Record) → Store κ σ → Prop := fun rest st =>
    (∀ use ∈ rest, use.1.Spares p.store.freshTable) ∧ st.Spares p.store.freshTable ∧
      st.downstream.tables p.store.freshTable = .fresh
  have hstart : R uses built.2 := by
    refine ⟨fun use huse => hsound.known _ (huses use huse) _ (Nat.le_refl _),
      hsound.numbered _ (Nat.le_refl _), ?_⟩
    exact Cells.put_self _ _ _
  have hstep : ∀ {use rest st}, R (use :: rest) st →
      R rest (use.1.handle use.2.1 use.2.2 st).2 := by
    rintro ⟨h, cx, r⟩ rest st ⟨hspared, hst, hfresh⟩
    obtain ⟨hh, hrest⟩ := List.forall_mem_cons.mp hspared
    exact ⟨hrest, hh.handle cx r hst, (h.tables_handle hh cx r hst).trans hfresh⟩
  exact (performEach_keeps hstep uses hstart).2.2

end Program

end LogAdmission
