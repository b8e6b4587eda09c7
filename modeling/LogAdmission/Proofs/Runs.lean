import LogAdmission.Outcome

/-!
# Runs

Calls made one after the other, up to one that is aborted or all of them, and how two systems
are compared over whole runs: it is enough to compare them call by call.
-/

namespace LogAdmission

variable {ι S T : Type}

/-- Performs calls in turn, up to one that is aborted: their outcomes, and the state
afterwards. -/
def performAll (perform : ι → S → Outcome × S) : List ι → S → List Outcome × S
  | [], s => ([], s)
  | call :: rest, s =>
    match perform call s with
    | (.aborted, s) => ([.aborted], s)
    | (outcome, s) =>
      let (outcomes, s) := performAll perform rest s
      (outcome :: outcomes, s)

theorem performAll_cons_aborted {perform : ι → S → Outcome × S} {call : ι} {s : S}
    (rest : List ι) (h : (perform call s).1 = .aborted) :
    performAll perform (call :: rest) s = ([.aborted], (perform call s).2) := by
  rcases hc : perform call s with ⟨outcome, s'⟩
  rw [hc] at h
  subst h
  simp [performAll, hc]

theorem performAll_cons_of_ne {perform : ι → S → Outcome × S} {call : ι} {s : S}
    (rest : List ι) (h : (perform call s).1 ≠ .aborted) :
    performAll perform (call :: rest) s =
      ((perform call s).1 :: (performAll perform rest (perform call s).2).1,
        (performAll perform rest (perform call s).2).2) := by
  rcases hc : perform call s with ⟨outcome, s'⟩
  rw [hc] at h
  cases outcome with
  | aborted => exact absurd rfl h
  | ok => simp [performAll, hc]
  | failed e => simp [performAll, hc]

/-- What each of its calls preserves, a run preserves. -/
theorem performAll_preserves {f : ι → S → Outcome × S} {P : S → Prop} {calls : List ι}
    (step : ∀ call ∈ calls, ∀ s, P s → P (f call s).2) {s : S} (h : P s) :
    P (performAll f calls s).2 := by
  induction calls generalizing s with
  | nil => exact h
  | cons call rest ih =>
      have hnext := step call List.mem_cons_self s h
      by_cases ha : (f call s).1 = .aborted
      · rw [performAll_cons_aborted rest ha]
        exact hnext
      · rw [performAll_cons_of_ne rest ha]
        exact ih (fun call' hmem => step call' (List.mem_cons_of_mem _ hmem)) hnext

/-- **Simulation.** `R` relates two states and the calls still to be made. If related states
give equal outcomes, show the same to the outside (`V`), and are related again unless
the call is aborted, then so it is over whole runs. -/
theorem performAll_simulates {f : ι → S → Outcome × S} {g : ι → T → Outcome × T}
    {R : List ι → S → T → Prop} {V : S → T → Prop}
    (visible : ∀ {rest s t}, R rest s t → V s t)
    (step : ∀ {call rest s t}, R (call :: rest) s t →
      (f call s).1 = (g call t).1 ∧ V (f call s).2 (g call t).2 ∧
        ((f call s).1 ≠ .aborted → R rest (f call s).2 (g call t).2))
    (calls : List ι) {s : S} {t : T} (h : R calls s t) :
    (performAll f calls s).1 = (performAll g calls t).1 ∧
      V (performAll f calls s).2 (performAll g calls t).2 ∧
      (.aborted ∉ (performAll f calls s).1 →
        R [] (performAll f calls s).2 (performAll g calls t).2) := by
  induction calls generalizing s t with
  | nil => exact ⟨rfl, visible h, fun _ => h⟩
  | cons call rest ih =>
      obtain ⟨hout, hvis, hrel⟩ := step h
      -- equal outcomes: either both runs end here, or both go on
      by_cases ha : (f call s).1 = .aborted
      · rw [performAll_cons_aborted rest ha, performAll_cons_aborted rest (hout ▸ ha)]
        exact ⟨rfl, hvis, fun hno => absurd List.mem_cons_self hno⟩
      · rw [performAll_cons_of_ne rest ha, performAll_cons_of_ne rest (hout ▸ ha)]
        obtain ⟨iout, ivis, irel⟩ := ih (hrel ha)
        refine ⟨by rw [hout, iout], ivis, ?_⟩
        intro hno
        exact irel (fun hmem => hno (List.mem_cons_of_mem _ hmem))

/-! ## Runs that go on -/

/-- Performs calls in turn, and goes on behind one that is aborted: their outcomes, and the
state afterwards. -/
def performEach (perform : ι → S → Outcome × S) : List ι → S → List Outcome × S
  | [], s => ([], s)
  | call :: rest, s =>
    ((perform call s).1 :: (performEach perform rest (perform call s).2).1,
      (performEach perform rest (perform call s).2).2)

/-- A relation between what is still to be called and the state, restored by each call, holds
when all calls have been made. -/
theorem performEach_keeps {f : ι → S → Outcome × S} {R : List ι → S → Prop}
    (step : ∀ {call rest s}, R (call :: rest) s → R rest (f call s).2)
    (calls : List ι) {s : S} (h : R calls s) : R [] (performEach f calls s).2 := by
  induction calls generalizing s with
  | nil => exact h
  | cons call rest ih => exact ih (step h)

/-- If a part of the state goes its own way in each call, so it does in a run. -/
theorem performEach_part {f : ι → S → Outcome × S} {g : ι → T → Outcome × T} {part : T → S}
    (step : ∀ call t, f call (part t) = ((g call t).1, part (g call t).2))
    (calls : List ι) (t : T) :
    performEach f calls (part t) =
      ((performEach g calls t).1, part (performEach g calls t).2) := by
  induction calls generalizing t with
  | nil => rfl
  | cons call rest ih => simp only [performEach, step, ih]

end LogAdmission
