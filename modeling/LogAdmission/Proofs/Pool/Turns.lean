import LogAdmission.Buffer.PoolSteps
import LogAdmission.Proofs.Buffer.Transitions

/-!
# What a move on a pool can do

All moves of the callers of a pool in one list: a call that begins, the steps of opening a
scope, a step of a call on a buffer, and the ways in which calls end. Proofs about pools go
through this list, and from moves to runs by `run_keeps`.
-/

namespace LogAdmission

deriving instance DecidableEq for Tagged, Effect

variable {α : Type}

namespace PoolCrew

/-- A move of caller `i`: the state it leads to. -/
inductive Turn (c : PoolCrew α) (i : Nat) : Move α → PoolCrew α → Prop where
  | openScope (hi : c.callers[i]? = some .free) :
      Turn c i (.start i .openScope) { c with callers := c.callers.set i .acquiring }
  | append (target : Binding) (x : α) (hi : c.callers[i]? = some .free)
      (hopened : target ∈ c.opened) :
      Turn c i (.start i (.append target x))
        { c with callers :=
          c.callers.set i (.calling target.buffer (.checking target.scope x) .rest) }
  | drain (target : Binding) (hi : c.callers[i]? = some .free) (hopened : target ∈ c.opened) :
      Turn c i (.start i (.drain target))
        { c with callers :=
          c.callers.set i (.calling target.buffer (.switching target.scope) .rest) }
  | release (target : Binding) (hi : c.callers[i]? = some .free)
      (hguarded : target ∈ c.guarded) :
      Turn c i (.start i (.release target))
        { c with
          guarded := c.guarded.erase target
          callers := c.callers.set i (.calling target.buffer (.clearing none) .putBack) }
  | reuse (b : Nat) (rest : List Nat) (hi : c.callers[i]? = some .acquiring)
      (hidle : c.idle = b :: rest) :
      Turn c i (.step i)
        { c with idle := rest, callers := c.callers.set i (.numbering b) }
  | create (hi : c.callers[i]? = some .acquiring) (hidle : c.idle = []) :
      Turn c i (.step i)
        { c with
          buffers := c.buffers ++ [{ buffer := .ofCapacity c.capacity c.capacity_pos }]
          callers := c.callers.set i (.numbering c.buffers.length) }
  | number (b : Nat) (hi : c.callers[i]? = some (.numbering b)) :
      Turn c i (.step i)
        { c with
          nextScope := c.nextScope + 1
          callers := c.callers.set i
            (.calling b (.clearing (some c.nextScope)) (.handOut c.nextScope)) }
  | endCall (b : Nat) (hi : c.callers[i]? = some (.calling b .finished .rest)) :
      Turn c i (.step i) { c with callers := c.callers.set i .free }
  | handOut (b scope : Nat) (hi : c.callers[i]? = some (.calling b .finished (.handOut scope))) :
      Turn c i (.step i)
        { c with
          opened := ⟨b, scope⟩ :: c.opened
          guarded := ⟨b, scope⟩ :: c.guarded
          callers := c.callers.set i .free }
  | endReset (b : Nat) (hi : c.callers[i]? = some (.calling b .finished .putBack)) :
      Turn c i (.step i) { c with callers := c.callers.set i (.returning b) }
  | call (b : Nat) (p p' : Phase α) (sequel : Sequel) (s s' : SharedBuffer α)
      (effects : List (Effect α)) (hi : c.callers[i]? = some (.calling b p sequel))
      (hb : c.buffers[b]? = some s) (hstep : s.Transition i p s' p' effects) :
      Turn c i (.step i)
        { c with
          buffers := c.buffers.set b s'
          history := c.history ++ effects
          callers := c.callers.set i (.calling b p' sequel) }
  | putBack (b : Nat) (hi : c.callers[i]? = some (.returning b))
      (hroom : c.idle.length < c.size) :
      Turn c i (.step i)
        { c with idle := c.idle ++ [b], callers := c.callers.set i .free }
  /-- The pool is full. -/
  | letGo (b : Nat) (hi : c.callers[i]? = some (.returning b)) (hfull : c.size ≤ c.idle.length) :
      Turn c i (.step i) { c with callers := c.callers.set i .free }

variable {c c' : PoolCrew α} {i : Nat}

theorem turn_of_start {request : Request α} (hi : c.callers[i]? = some .free)
    (h : c.start i request = some c') : c.Turn i (.start i request) c' := by
  cases request with
  | openScope =>
      obtain rfl := Option.some.inj h
      exact .openScope hi
  | append target x =>
      rw [start] at h
      split at h
      · rename_i hopened
        obtain rfl := Option.some.inj h
        exact .append target x hi hopened
      · exact absurd h nofun
  | drain target =>
      rw [start] at h
      split at h
      · rename_i hopened
        obtain rfl := Option.some.inj h
        exact .drain target hi hopened
      · exact absurd h nofun
  | release target =>
      rw [start] at h
      split at h
      · rename_i hguarded
        obtain rfl := Option.some.inj h
        exact .release target hi hguarded
      · exact absurd h nofun

/-- A step inside a call is a step on its buffer. -/
theorem turn_of_call {b : Nat} {p : Phase α} {sequel : Sequel} (hp : p ≠ .finished)
    (hi : c.callers[i]? = some (.calling b p sequel))
    (h : c.advance i (.calling b p sequel) = some c') : c.Turn i (.step i) c' := by
  rw [advance] at h
  · cases hb : c.buffers[b]? with
    | none =>
        rw [hb] at h
        exact absurd h nofun
    | some s =>
        simp only [hb] at h
        cases hs : s.step i p with
        | none =>
            rw [hs] at h
            exact absurd h nofun
        | some result =>
            obtain ⟨s', p', effects⟩ := result
            rw [hs] at h
            obtain rfl := Option.some.inj h
            exact .call b p p' sequel s s' effects hi hb (SharedBuffer.transition_of_step hs)
  · exact hp

theorem turn_of_advance {phase : PoolPhase α} (hi : c.callers[i]? = some phase)
    (h : c.advance i phase = some c') : c.Turn i (.step i) c' := by
  cases phase with
  | free => exact absurd h nofun
  | acquiring =>
      rw [advance] at h
      split at h
      · rename_i b rest hidle
        obtain rfl := Option.some.inj h
        exact .reuse b rest hi hidle
      · rename_i hidle
        obtain rfl := Option.some.inj h
        exact .create hi hidle
  | numbering b =>
      obtain rfl := Option.some.inj h
      exact .number b hi
  | returning b =>
      rw [advance] at h
      split at h
      · rename_i hroom
        obtain rfl := Option.some.inj h
        exact .putBack b hi hroom
      · rename_i hfull
        obtain rfl := Option.some.inj h
        exact .letGo b hi (Nat.le_of_not_lt hfull)
  | calling b p sequel =>
      by_cases hp : p = .finished
      · subst hp
        obtain rfl := Option.some.inj h
        cases sequel with
        | rest => exact .endCall b hi
        | handOut scope => exact .handOut b scope hi
        | putBack => exact .endReset b hi
      · exact turn_of_call hp hi h

/-- Every move is in the list. -/
theorem turn_of_move {m : Move α} (h : c.move? m = some c') : ∃ i, c.Turn i m c' := by
  cases m with
  | start i request =>
      rw [move?] at h
      split at h
      · rename_i hi
        exact ⟨i, turn_of_start hi h⟩
      · exact absurd h nofun
  | step i =>
      rw [move?] at h
      split at h
      · rename_i phase hi
        exact ⟨i, turn_of_advance hi h⟩
      · exact absurd h nofun

end PoolCrew

/-! ## Runs -/

/-- The entry that a move begins to append, under its scope. -/
def Move.appended : Move α → List (Tagged α)
  | .start _ (.append target x) => [⟨target.scope, x⟩]
  | _ => []

namespace PoolCrew

/-- A new pool, and callers that are free. -/
def fresh (size capacity : Nat) (hpos : 0 < capacity) (callers : Nat) : PoolCrew α :=
  { size := size, capacity := capacity, capacity_pos := hpos
    callers := List.replicate callers .free }

/-- The entries whose appends begin in a run, each under its scope. -/
def appended : PoolCrew α → List (Move α) → List (Tagged α)
  | _, [] => []
  | c, m :: rest =>
    match c.move? m with
    | some c' => m.appended ++ c'.appended rest
    | none => c.appended rest

/-- The moves of a caller that makes a call on its own. -/
def alone (i : Nat) (request : Request α) (steps : Nat) : List (Move α) :=
  .start i request :: List.replicate steps (.step i)

variable {c c' : PoolCrew α} {i : Nat}

theorem run_cons (c : PoolCrew α) (m : Move α) (rest : List (Move α)) :
    c.run (m :: rest) = ((c.move? m).getD c).run rest := rfl

/-- What every move keeps, a run keeps. The property may speak of the entries appended so
far. -/
theorem run_keeps {P : PoolCrew α → List (Tagged α) → Prop}
    (hturn : ∀ {c c' : PoolCrew α} {i : Nat} {m : Move α} {all : List (Tagged α)},
      P c all → c.Turn i m c' → P c' (all ++ m.appended))
    (moves : List (Move α)) {c : PoolCrew α} {all : List (Tagged α)} (h : P c all) :
    P (c.run moves) (all ++ c.appended moves) := by
  induction moves generalizing c all with
  | nil => simpa [run, appended] using h
  | cons m rest ih =>
      rw [run_cons, appended]
      cases hm : c.move? m with
      | none => exact ih h
      | some c' =>
          obtain ⟨i, ht⟩ := turn_of_move hm
          have hrest := ih (hturn h ht)
          rw [List.append_assoc] at hrest
          exact hrest

/-! ## What only grows -/

theorem Turn.nextScope_le {m : Move α} (h : c.Turn i m c') : c.nextScope ≤ c'.nextScope := by
  cases h with
  | number b hi => exact Nat.le_succ _
  | _ => exact Nat.le_refl _

/-- Numbers that fit at the end of a run fit all along it. -/
theorem nextScope_le_run (c : PoolCrew α) (moves : List (Move α)) :
    c.nextScope ≤ (c.run moves).nextScope := by
  induction moves generalizing c with
  | nil => exact Nat.le_refl _
  | cons m rest ih =>
      rw [run_cons]
      cases hm : c.move? m with
      | none => exact ih c
      | some c' =>
          obtain ⟨i, ht⟩ := turn_of_move hm
          exact Nat.le_trans ht.nextScope_le (ih c')

theorem Turn.opened_subset {m : Move α} (h : c.Turn i m c') : c.opened ⊆ c'.opened := by
  cases h with
  | handOut b scope hi => exact List.subset_cons_self _ _
  | _ => exact List.Subset.refl _

end PoolCrew

end LogAdmission
