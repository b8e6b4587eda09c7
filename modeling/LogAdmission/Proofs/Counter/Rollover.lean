import LogAdmission.Proofs.Counter.Contest
import Mathlib.Data.List.Chain

/-!
# Windows opened one after the other

Calls on a fresh counter, step by step, at any times. Between the read of the end of a window
and the attempt to replace it a call can be overtaken by any number of others, and stores one
as the count of a window that it knows nothing of. Still a window is opened only by a call
whose read is up to date (`winners`), and so not before the end of the window before it
(`Spaced`); all others get numbers from two on.
-/

namespace LogAdmission

namespace Race

open CountPhase

/-- Whether the next step of the call at position `i` replaces the end of the window: the call
is about to do so, and the end that it has read still stands. -/
def exchanges (r : Race) (i : Nat) : Bool :=
  match r.calls[i]? with
  | some ⟨_, .claiming seen⟩ => r.counter.resetAt = seen
  | _ => false

/-- The calls that replace the end of the window in a run, in order. -/
def winners (interval : Nat) : Race → List Nat → List Nat
  | _, [] => []
  | r, i :: rest =>
    if r.exchanges i then i :: winners interval (r.step interval i) rest
    else winners interval (r.step interval i) rest

variable {r : Race} {i now interval : Nat} {phase phase' : CountPhase} {counter : Counter}

/-- The openers of windows are those that replace an end. -/
theorem openers_step (interval : Nat) (r : Race) (i : Nat) :
    (r.step interval i).openers = if r.exchanges i then i :: r.openers else r.openers := by
  unfold step exchanges
  cases hi : r.calls[i]? with
  | none => rfl
  | some call =>
      obtain ⟨now, phase⟩ := call
      cases phase with
      | reading =>
          by_cases hlt : now < r.counter.resetAt
          · simp [CountPhase.step, hlt]
          · simp [CountPhase.step, hlt]
      | claiming seen =>
          by_cases hseen : r.counter.resetAt = seen
          · simp [CountPhase.step, hseen]
          · simp [CountPhase.step, hseen]
      | _ => simp [CountPhase.step]

theorem openers_run (interval : Nat) (schedule : List Nat) (r : Race) :
    (r.run interval schedule).openers = (winners interval r schedule).reverse ++ r.openers := by
  induction schedule generalizing r with
  | nil => rfl
  | cons i rest ih =>
      have hrest := ih (r.step interval i)
      rw [openers_step] at hrest
      rw [winners]
      by_cases hex : r.exchanges i = true
      · rw [if_pos hex] at hrest ⊢
        simpa [run] using hrest
      · rw [if_neg hex] at hrest ⊢
        exact hrest

/-- The call at `j` does not come before the end of a window that the one at `i` opens. -/
def Follows (times : List Nat) (interval i j : Nat) : Prop :=
  ∃ s t, times[i]? = some s ∧ times[j]? = some t ∧ min (s + interval) lastTick ≤ t

/-- What holds while calls at `times` open windows one after the other. -/
structure Spaced (times : List Nat) (interval : Nat) (r : Race) : Prop where
  length_calls : r.calls.length = times.length
  time_eq : ∀ (j : Nat) (call : CountCall), r.calls[j]? = some call → times[j]? = some call.now
  /-- A read may be old, but its window was over for the call, and no end was later than
  the one that stands. -/
  seen_le : ∀ call ∈ r.calls, ∀ seen,
    call.phase = .restarting seen ∨ call.phase = .claiming seen →
      seen ≤ call.now ∧ seen ≤ r.counter.resetAt
  opener_iff : ∀ j call, r.calls[j]? = some call → (call.phase = .opened ↔ j ∈ r.openers)
  opener_lt : ∀ j ∈ r.openers, j < r.calls.length
  /-- Until a call opens a window, nobody joins one. -/
  before : r.openers = [] → r.counter.resetAt = 0 ∧ ∀ call ∈ r.calls, call.phase.joins = false
  /-- The end that stands is that of the window opened last. -/
  latest : ∀ j rest, r.openers = j :: rest →
    ∃ t, times[j]? = some t ∧ r.counter.resetAt = Counter.windowEnd t interval
  apart : r.openers.IsChain fun later earlier => Follows times interval earlier later

variable {times : List Nat}

theorem spaced_start (times : List Nat) (interval : Nat) :
    (Race.start {} times).Spaced times interval := by
  have hreading : ∀ call ∈ (Race.start {} times).calls, call.phase = .reading := by
    intro call hmem
    obtain ⟨now, -, rfl⟩ := List.mem_map.mp hmem
    rfl
  refine ⟨by simp [Race.start], ?_, ?_, ?_, by simp [Race.start], fun _ => ⟨rfl, ?_⟩,
    by simp [Race.start], .nil⟩
  · intro j call hj
    rw [Race.start, List.getElem?_map, Option.map_eq_some_iff] at hj
    obtain ⟨now, hnow, rfl⟩ := hj
    exact hnow
  · intro call hmem seen h
    rw [hreading call hmem] at h
    rcases h with h | h
    · cases h
    · cases h
  · intro j call hj
    rw [hreading call (List.mem_of_getElem? hj)]
    simp [Race.start]
  · intro call hmem
    rw [hreading call hmem]
    rfl

/-- The clock does not go beyond its last tick. -/
theorem Spaced.resetAt_le_lastTick (h : r.Spaced times interval) :
    r.counter.resetAt ≤ lastTick := by
  cases hopeners : r.openers with
  | nil =>
      rw [(h.before hopeners).1]
      exact Nat.zero_le _
  | cons j rest =>
      obtain ⟨t, -, hat⟩ := h.latest j rest hopeners
      rw [hat]
      exact Nat.min_le_right _ _

/-- Where one window is over, a new one ends no earlier. -/
theorem Spaced.resetAt_le_windowEnd (h : r.Spaced times interval)
    (hpassed : r.counter.resetAt ≤ now) (width : Nat) :
    r.counter.resetAt ≤ Counter.windowEnd now width :=
  Nat.le_min.mpr ⟨Nat.le_trans hpassed (Nat.le_add_right now width), h.resetAt_le_lastTick⟩

theorem Spaced.getElem?_opener (h : r.Spaced times interval) {j : Nat} (hj : j ∈ r.openers) :
    ∃ now, r.calls[j]? = some ⟨now, .opened⟩ := by
  have hlt := h.opener_lt j hj
  have hget : r.calls[j]? = some r.calls[j] := List.getElem?_eq_getElem hlt
  have hphase : r.calls[j].phase = .opened := (h.opener_iff j _ hget).mpr hj
  exact ⟨r.calls[j].now, by rw [hget, ← hphase]⟩

theorem Spaced.opened_of_joins (h : r.Spaced times interval)
    (hi : r.calls[i]? = some ⟨now, phase⟩) (hphase : phase.joins = true) : r.openers ≠ [] := by
  intro hnone
  have hno := (h.before hnone).2 _ (List.mem_of_getElem? hi)
  rw [hphase] at hno
  cases hno

/-- Whoever opens a window has stored one before, and nobody joins before that. -/
theorem Spaced.restarts_pos (h : r.Spaced times interval)
    (hi : r.calls[i]? = some ⟨now, phase⟩) (hphase : phase.joins = true) : 0 < r.restarts := by
  obtain ⟨j, hj⟩ := List.exists_mem_of_ne_nil _ (h.opened_of_joins hi hphase)
  obtain ⟨now, hopened⟩ := h.getElem?_opener hj
  exact List.countP_pos_iff.mpr ⟨_, List.mem_of_getElem? hopened, rfl⟩

/-- A step that opens no window. -/
theorem Spaced.move (h : r.Spaced times interval) (hi : r.calls[i]? = some ⟨now, phase⟩)
    (hphase : phase ≠ .opened) (hphase' : phase' ≠ .opened)
    (hreset : counter.resetAt = r.counter.resetAt)
    (hseen : ∀ seen, phase' = .restarting seen ∨ phase' = .claiming seen →
      seen ≤ now ∧ seen ≤ r.counter.resetAt)
    (hjoins : r.openers = [] → phase'.joins = false) :
    (r.moved i ⟨now, phase'⟩ counter).Spaced times interval := by
  have hopeners : (r.moved i ⟨now, phase'⟩ counter).openers = r.openers := if_neg hphase'
  have hreset' : (r.moved i ⟨now, phase'⟩ counter).counter.resetAt = r.counter.resetAt := hreset
  have htime : times[i]? = some now := h.time_eq i _ hi
  refine ⟨by simp [moved, h.length_calls], ?_, ?_, opener_iff_moved h.opener_iff hi hphase, ?_,
    ?_, ?_, ?_⟩
  · intro j call hj
    rcases mem_replaced hj with ⟨rfl, rfl⟩ | ⟨-, hj⟩
    · exact htime
    · exact h.time_eq j call hj
  · intro call hcall seen hp
    rw [hreset']
    rcases List.mem_or_eq_of_mem_set hcall with hcall | rfl
    · exact h.seen_le call hcall seen hp
    · exact hseen seen hp
  · intro j hj
    rw [hopeners] at hj
    simpa [moved] using h.opener_lt j hj
  · intro hnone
    rw [hopeners] at hnone
    refine ⟨hreset'.trans (h.before hnone).1, ?_⟩
    intro call hcall
    rcases List.mem_or_eq_of_mem_set hcall with hcall | rfl
    · exact (h.before hnone).2 call hcall
    · exact hjoins hnone
  · rw [hopeners, hreset']
    exact h.latest
  · rw [hopeners]
    exact h.apart

/-- A call that replaces the end opens a window, not before the end of the one before. -/
theorem Spaced.open (h : r.Spaced times interval)
    (hi : r.calls[i]? = some ⟨now, .claiming r.counter.resetAt⟩) :
    (r.moved i ⟨now, .opened⟩
      { r.counter with resetAt := Counter.windowEnd now interval }).Spaced times interval := by
  have hmem := List.mem_of_getElem? hi
  have htime : times[i]? = some now := h.time_eq i _ hi
  have hpassed : r.counter.resetAt ≤ now := (h.seen_le _ hmem _ (.inr rfl)).1
  have hgrows := h.resetAt_le_windowEnd hpassed interval
  have hopeners : ∀ c, (r.moved i ⟨now, .opened⟩ c).openers = i :: r.openers := fun _ => rfl
  refine ⟨by simp [moved, h.length_calls], ?_, ?_, opener_iff_moved h.opener_iff hi (by simp), ?_,
    ?_, ?_, ?_⟩
  · intro j call hj
    rcases mem_replaced hj with ⟨rfl, rfl⟩ | ⟨-, hj⟩
    · exact htime
    · exact h.time_eq j call hj
  · intro call hcall seen hp
    rcases List.mem_or_eq_of_mem_set hcall with hcall | rfl
    · obtain ⟨hnow, hreset⟩ := h.seen_le call hcall seen hp
      exact ⟨hnow, Nat.le_trans hreset hgrows⟩
    · rcases hp with hp | hp
      · cases hp
      · cases hp
  · intro j hj
    rw [hopeners] at hj
    rcases List.mem_cons.mp hj with rfl | hj
    · simpa [moved] using (List.getElem?_eq_some_iff.mp hi).1
    · simpa [moved] using h.opener_lt j hj
  · intro hnone
    cases hnone
  · intro j rest heq
    rw [hopeners] at heq
    obtain ⟨rfl, -⟩ := List.cons.inj heq
    exact ⟨now, htime, rfl⟩
  · rw [hopeners]
    cases hbefore : r.openers with
    | nil => exact .singleton i
    | cons j rest =>
        obtain ⟨t, ht, hat⟩ := h.latest j rest hbefore
        have hfollows : Follows times interval j i := by
          rw [hat] at hpassed
          exact ⟨t, now, ht, htime, hpassed⟩
        have hapart := h.apart
        rw [hbefore] at hapart
        exact List.isChain_cons_cons.mpr ⟨hfollows, hapart⟩

/-- A step keeps windows apart, and the end of the window never goes back. -/
theorem Spaced.step (h : r.Spaced times interval) (i : Nat) :
    (r.step interval i).Spaced times interval ∧
      r.counter.resetAt ≤ (r.step interval i).counter.resetAt := by
  rcases r.step_cases interval i with heq | ⟨now, phase, hi, hnot, heq⟩
  · rw [heq]
    exact ⟨h, Nat.le_refl _⟩
  · rw [heq]
    have hmem := List.mem_of_getElem? hi
    cases phase with
    | reading =>
        by_cases hearly : now < r.counter.resetAt
        · simp only [CountPhase.step, if_pos hearly]
          refine ⟨h.move hi (by simp) (by simp) rfl (by simp) ?_, Nat.le_refl _⟩
          intro hnone
          have hzero := (h.before hnone).1
          omega
        · simp only [CountPhase.step, if_neg hearly]
          refine ⟨h.move hi (by simp) (by simp) rfl ?_ (fun _ => rfl), Nat.le_refl _⟩
          intro seen hp
          rcases hp with hp | hp
          · injection hp with hp
            exact ⟨by omega, by omega⟩
          · cases hp
    | restarting seen =>
        have hseen := h.seen_le _ hmem seen (.inl rfl)
        simp only [CountPhase.step]
        refine ⟨h.move hi (by simp) (by simp) rfl ?_ (fun _ => rfl), Nat.le_refl _⟩
        intro seen' hp
        rcases hp with hp | hp
        · cases hp
        · injection hp with hp
          exact hp ▸ hseen
    | claiming seen =>
        obtain ⟨hpassed, hreset⟩ := h.seen_le _ hmem seen (.inr rfl)
        by_cases hwon : r.counter.resetAt = seen
        · simp only [CountPhase.step, if_pos hwon]
          exact ⟨h.open (hwon ▸ hi), h.resetAt_le_windowEnd (hwon ▸ hpassed) interval⟩
        · simp only [CountPhase.step, if_neg hwon]
          refine ⟨h.move hi (by simp) (by simp) rfl (by simp) ?_, Nat.le_refl _⟩
          -- nothing lies below the first end, so nobody can fail to replace it
          intro hnone
          have hzero := (h.before hnone).1
          omega
    | joining late =>
        simp only [CountPhase.step]
        refine ⟨h.move hi (by simp) (by simp) rfl (by simp) ?_, Nat.le_refl _⟩
        exact fun hnone => absurd hnone (h.opened_of_joins hi rfl)
    | opened => cases hnot
    | joined n late => cases hnot

theorem Spaced.run (h : r.Spaced times interval) (ht : r.Tallied) (schedule : List Nat) :
    (r.run interval schedule).Spaced times interval ∧ (r.run interval schedule).Tallied ∧
      r.counter.resetAt ≤ (r.run interval schedule).counter.resetAt := by
  induction schedule generalizing r with
  | nil => exact ⟨h, ht, Nat.le_refl _⟩
  | cons i rest ih =>
      obtain ⟨hstep, hle⟩ := h.step i
      have htstep := ht.step interval i fun hi hphase => h.restarts_pos hi hphase
      obtain ⟨hrest, htrest, hle'⟩ := ih hstep htstep
      exact ⟨hrest, htrest, Nat.le_trans hle hle'⟩

/-- The call at `j` comes at least a whole interval after the one at `i`. -/
def Clears (times : List Nat) (interval i j : Nat) : Prop :=
  ∃ s t, times[i]? = some s ∧ times[j]? = some t ∧ s + interval ≤ t

theorem Clears.trans {i j k : Nat} (h : Clears times interval i j)
    (h' : Clears times interval j k) : Clears times interval i k := by
  obtain ⟨s, t, hs, ht, hle⟩ := h
  obtain ⟨t', u, ht', hu, hle'⟩ := h'
  obtain rfl : t = t' := Option.some.inj (ht.symm.trans ht')
  exact ⟨s, u, hs, hu, by omega⟩

/-- Below the last tick the end of a window is a whole interval after its opening. -/
theorem Follows.clears (hclock : ∀ t ∈ times, t < lastTick) {i j : Nat}
    (h : Follows times interval i j) : Clears times interval i j := by
  obtain ⟨s, t, hs, ht, hle⟩ := h
  have hlast := hclock t (List.mem_of_getElem? ht)
  exact ⟨s, t, hs, ht, by omega⟩

/-- Of two calls that open windows, one comes a whole interval after the other. -/
theorem Spaced.clears (h : r.Spaced times interval) (hclock : ∀ t ∈ times, t < lastTick)
    {i j : Nat} (hne : i ≠ j) (hi : i ∈ r.openers) (hj : j ∈ r.openers) :
    Clears times interval i j ∨ Clears times interval j i := by
  have : Trans (fun later earlier => Clears times interval earlier later)
      (fun later earlier => Clears times interval earlier later)
      (fun later earlier => Clears times interval earlier later) :=
    ⟨fun h h' => h'.trans h⟩
  have hpairs : r.openers.Pairwise fun i j =>
      Clears times interval i j ∨ Clears times interval j i :=
    (h.apart.imp fun _ _ => Follows.clears hclock).pairwise.imp .inr
  have : Std.Symm fun i j => Clears times interval i j ∨ Clears times interval j i :=
    ⟨fun _ _ => Or.symm⟩
  exact hpairs.forall hi hj hne

/-- The number that the call at position `i` was given, if it is done. -/
def numberOf? (r : Race) (i : Nat) : Option Nat :=
  r.calls[i]?.bind (·.phase.number?)

/-- A call is given one if it has opened a window, and otherwise a number from two up to that
of all calls. -/
theorem Spaced.number_cases (h : r.Spaced times interval) (ht : r.Tallied) {i n : Nat}
    (hn : r.numberOf? i = some n) :
    (i ∈ r.openers ∧ n = 1 ∨ i ∉ r.openers ∧ 2 ≤ n) ∧ n ≤ times.length := by
  obtain ⟨⟨now, phase⟩, hi, hphase⟩ := Option.bind_eq_some_iff.mp hn
  have hlt := (List.getElem?_eq_some_iff.mp hi).1
  rw [h.length_calls] at hlt
  by_cases hopened : phase = .opened
  · subst hopened
    obtain rfl : 1 = n := Option.some.inj hphase
    exact ⟨.inl ⟨(h.opener_iff i _ hi).mp rfl, rfl⟩, by omega⟩
  · obtain ⟨late, rfl⟩ := isJoined_of_number? hphase hopened
    obtain ⟨htwo, hle⟩ := ht.number_bounds _ (List.mem_of_getElem? hi) n late rfl
    have hother : i ∉ r.openers := fun hin => hopened ((h.opener_iff i _ hi).mpr hin)
    refine ⟨.inr ⟨hother, htwo⟩, ?_⟩
    -- all those that have joined are less than all calls, for one has opened a window
    obtain ⟨j, hj⟩ := List.exists_mem_of_ne_nil _ (h.opened_of_joins hi rfl)
    obtain ⟨_, hopener⟩ := h.getElem?_opener hj
    have hrest : 0 < r.calls.countP fun call => !call.phase.isJoined :=
      List.countP_pos_iff.mpr ⟨_, List.mem_of_getElem? hopener, rfl⟩
    have hall := List.length_eq_countP_add_countP (l := r.calls) fun call => call.phase.isJoined
    simp only [Bool.not_eq_true, Bool.decide_eq_false] at hall
    have hjoined : r.having isJoined = r.calls.countP fun call => call.phase.isJoined := rfl
    rw [← h.length_calls]
    omega

/-- **Windows open apart.** Calls on a fresh counter at any times, some of them late, and any
interleaving of their steps, whatever they have read and however long ago. The end of the
window never goes back. The calls that are given one are those that replace the end they have
read, and each of them comes no earlier than the end of the window that the one before it
opened. No number exceeds that of the calls. While the clock does not stand at its last tick,
two calls that are given one are at least an interval apart. -/
theorem windows_open_apart (interval : Nat) (times schedule : List Nat) :
    (∀ later, ((Race.start {} times).run interval schedule).counter.resetAt ≤
        (((Race.start {} times).run interval schedule).run interval later).counter.resetAt) ∧
      let r := (Race.start {} times).run interval schedule
      let won := winners interval (Race.start {} times) schedule
      (∀ i, r.numberOf? i = some 1 ↔ i ∈ won) ∧
      won.IsChain (Follows times interval) ∧
      (∀ i n, r.numberOf? i = some n → 1 ≤ n ∧ n ≤ times.length) ∧
      ((∀ t ∈ times, t < lastTick) → ∀ i j, i ≠ j → r.numberOf? i = some 1 →
        r.numberOf? j = some 1 → Clears times interval i j ∨ Clears times interval j i) := by
  obtain ⟨h, ht, -⟩ := (spaced_start times interval).run (tallied_start {} times) schedule
  refine ⟨fun later => (h.run ht later).2.2, ?_⟩
  intro r won
  have hopeners : r.openers = won.reverse := by
    have hrun := openers_run interval schedule (Race.start {} times)
    exact hrun.trans (List.append_nil _)
  have hone : ∀ i, r.numberOf? i = some 1 ↔ i ∈ r.openers := by
    intro i
    constructor
    · intro hn
      rcases (h.number_cases ht hn).1 with ⟨hin, -⟩ | ⟨-, htwo⟩
      · exact hin
      · omega
    · intro hin
      obtain ⟨now, hi⟩ := h.getElem?_opener hin
      rw [numberOf?, hi]
      rfl
  refine ⟨?_, ?_, ?_, ?_⟩
  · intro i
    rw [hone, hopeners, List.mem_reverse]
  · have hapart := h.apart
    rw [hopeners] at hapart
    exact List.isChain_reverse.mp hapart
  · intro i n hn
    obtain ⟨hcases, hle⟩ := h.number_cases ht hn
    exact ⟨by omega, hle⟩
  · intro hclock i j hne hi hj
    exact h.clears hclock hne ((hone i).mp hi) ((hone j).mp hj)

/-- The second call reads the end of the first window, which has not begun, and goes on only
after two other windows have been opened. -/
def staleRead : List Nat := [1, 0, 0, 0, 2, 2, 2, 1, 1, 1]

/-- The call with the old read joins the window that is open by then; the two windows are
further apart than an interval. -/
theorem windows_open_apart_stale_read :
    (∀ t ∈ [100, 100, 160], t < lastTick) ∧
      ((Race.start {} [100, 100, 160]).run 50 staleRead).numberOf? 0 = some 1 ∧
      ((Race.start {} [100, 100, 160]).run 50 staleRead).numberOf? 1 = some 2 ∧
      ((Race.start {} [100, 100, 160]).run 50 staleRead).numberOf? 2 = some 1 ∧
      winners 50 (Race.start {} [100, 100, 160]) staleRead = [0, 2] ∧
      (Clears [100, 100, 160] 50 0 2 ∨ Clears [100, 100, 160] 50 2 0) := by
  have hclock : ∀ t ∈ [100, 100, 160], t < lastTick := by decide +kernel
  have hfirst : ((Race.start {} [100, 100, 160]).run 50 staleRead).numberOf? 0 = some 1 := by
    decide +kernel
  have hlast : ((Race.start {} [100, 100, 160]).run 50 staleRead).numberOf? 2 = some 1 := by
    decide +kernel
  have hall := windows_open_apart 50 [100, 100, 160] staleRead
  exact ⟨hclock, hfirst, by decide +kernel, hlast, by decide +kernel,
    hall.2.2.2.2 hclock 0 2 (by decide) hfirst hlast⟩

end Race

end LogAdmission
