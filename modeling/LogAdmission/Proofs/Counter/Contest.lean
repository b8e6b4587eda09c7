import LogAdmission.Counter.Race
import LogAdmission.RateLimit
import LogAdmission.Proofs.Replaced

/-!
# A window opened by many calls at once

Calls on one counter, step by step, when its window is over and the times of all calls lie
in one window. Only one of them opens that window (`Contested`), although each of those that
find the old window over stores one as the count. Between two such stores the numbers go up
by one from two on (`Tallied`), so small numbers are given out at least as often as without
a race, and at most once more for each further store.
-/

namespace LogAdmission

namespace CountPhase

/-- The call has stored one as the count. -/
def restarted : CountPhase → Bool
  | claiming _ | opened | joining true | joined _ true => true
  | _ => false

/-- The call has opened a window. -/
def isOpened : CountPhase → Bool
  | opened => true
  | _ => false

/-- The call is about to join a window, or has joined it. -/
def joins : CountPhase → Bool
  | joining _ | joined _ _ => true
  | _ => false

/-- The call has joined a window. -/
def isJoined : CountPhase → Bool
  | joined _ _ => true
  | _ => false

/-- The call has joined a window with a number up to `bound`. -/
def joinedWithin (bound : Nat) : CountPhase → Bool
  | joined n _ => n ≤ bound
  | _ => false

theorem restarted_of_isOpened {p : CountPhase} (h : p.isOpened = true) : p.restarted = true := by
  cases p with
  | opened => rfl
  | _ => exact absurd h nofun

theorem isOpened_of_ne {p : CountPhase} (h : p ≠ .opened) : p.isOpened = false := by
  cases p with
  | opened => exact absurd rfl h
  | _ => rfl

theorem isJoined_of_joinedWithin {bound : Nat} {p : CountPhase}
    (h : p.joinedWithin bound = true) : p.isJoined = true := by
  cases p with
  | joined n late => rfl
  | _ => exact absurd h nofun

theorem joinedWithin_of_not_isJoined {p : CountPhase} (h : p.isJoined = false) (bound : Nat) :
    p.joinedWithin bound = false := by
  rw [Bool.eq_false_iff] at h ⊢
  exact mt isJoined_of_joinedWithin h

end CountPhase

namespace Race

open CountPhase

/-- The number of calls in a phase of a kind. -/
def having (r : Race) (kind : CountPhase → Bool) : Nat :=
  r.calls.countP fun call => kind call.phase

/-- The number of calls that found the window over and stored one as the count. -/
def restarts (r : Race) : Nat :=
  r.having restarted

/-- The race after the call at position `i` has moved on. -/
def moved (r : Race) (i : Nat) (call : CountCall) (counter : Counter) : Race :=
  { counter := counter
    calls := r.calls.set i call
    openers := if call.phase = .opened then i :: r.openers else r.openers }

/-- A step of a race: none, or a step of a call that is not done. -/
theorem step_cases (interval : Nat) (r : Race) (i : Nat) :
    r.step interval i = r ∨
    ∃ now phase, r.calls[i]? = some ⟨now, phase⟩ ∧ phase.number? = none ∧
      r.step interval i =
        r.moved i ⟨now, (phase.step now interval r.counter).1⟩
          (phase.step now interval r.counter).2 := by
  unfold step
  cases hi : r.calls[i]? with
  | none => exact .inl rfl
  | some call =>
      obtain ⟨now, phase⟩ := call
      obtain ⟨hlt, hget⟩ := List.getElem?_eq_some_iff.mp hi
      have hself : r.calls.set i ⟨now, phase⟩ = r.calls := by
        rw [← hget]
        exact List.set_getElem_self hlt
      cases phase with
      | opened => exact .inl (by simp [CountPhase.step, hself])
      | joined n late => exact .inl (by simp [CountPhase.step, hself])
      | reading => exact .inr ⟨now, _, rfl, rfl, by simp [moved]⟩
      | restarting seen => exact .inr ⟨now, _, rfl, rfl, by simp [moved]⟩
      | claiming seen => exact .inr ⟨now, _, rfl, rfl, by simp [moved]⟩
      | joining late => exact .inr ⟨now, _, rfl, rfl, by simp [moved]⟩

variable {r : Race} {i now : Nat} {phase phase' : CountPhase} {counter : Counter}

/-- One call more or less of a kind, when one of them moves on. -/
theorem having_moved (kind : CountPhase → Bool) (phase' : CountPhase) (counter : Counter)
    (hi : r.calls[i]? = some ⟨now, phase⟩) :
    (r.moved i ⟨now, phase'⟩ counter).having kind + (kind phase).toNat =
      r.having kind + (kind phase').toNat := by
  have hset := countP_replaced (fun call : CountCall => kind call.phase) hi ⟨now, phase'⟩
  have hone : ∀ b : Bool, (if b then 1 else 0) = b.toNat := by decide
  simp only [hone] at hset
  exact hset

theorem having_le_having {kind kind' : CountPhase → Bool}
    (h : ∀ p, kind p = true → kind' p = true) (r : Race) : r.having kind ≤ r.having kind' :=
  List.countP_mono_left fun call _ => h call.phase

/-- The calls noted as openers are those that have opened a window, also after a step. -/
theorem opener_iff_moved
    (h : ∀ j call, r.calls[j]? = some call → (call.phase = .opened ↔ j ∈ r.openers))
    (hi : r.calls[i]? = some ⟨now, phase⟩) (hphase : phase ≠ .opened) :
    ∀ j call, (r.moved i ⟨now, phase'⟩ counter).calls[j]? = some call →
      (call.phase = .opened ↔ j ∈ (r.moved i ⟨now, phase'⟩ counter).openers) := by
  have hold : i ∉ r.openers := fun hin => hphase ((h i _ hi).mpr hin)
  intro j call hj
  by_cases hopen : phase' = .opened
  · have hopeners : (r.moved i ⟨now, phase'⟩ counter).openers = i :: r.openers := if_pos hopen
    rw [hopeners, List.mem_cons]
    rcases mem_replaced hj with ⟨rfl, rfl⟩ | ⟨hji, hj⟩
    · exact ⟨fun _ => .inl rfl, fun _ => hopen⟩
    · rw [h j call hj]
      exact ⟨.inr, fun hin => hin.resolve_left hji⟩
  · have hopeners : (r.moved i ⟨now, phase'⟩ counter).openers = r.openers := if_neg hopen
    rw [hopeners]
    rcases mem_replaced hj with ⟨rfl, rfl⟩ | ⟨-, hj⟩
    · exact ⟨fun hp => absurd hp hopen, fun hin => absurd hin hold⟩
    · exact h j call hj

/-! ## Who opens the window -/

/-- What holds while calls at `times` contend for the window after the end `start`. -/
structure Contested (times : List Nat) (interval start : Nat) (r : Race) : Prop where
  length_calls : r.calls.length = times.length
  now_mem : ∀ call ∈ r.calls, call.now ∈ times
  seen_eq : ∀ call ∈ r.calls, ∀ seen,
    call.phase = .restarting seen ∨ call.phase = .claiming seen → seen = start
  opener_iff : ∀ j call, r.calls[j]? = some call → (call.phase = .opened ↔ j ∈ r.openers)
  having_opened : r.having isOpened = r.openers.length
  /-- Until a call opens the window, nobody joins it. -/
  before : r.openers = [] → r.counter.resetAt = start ∧ r.having joins = 0
  /-- The window is opened once. -/
  after : r.openers ≠ [] →
    r.openers.length = 1 ∧ ∃ t ∈ times, r.counter.resetAt = Counter.windowEnd t interval

variable {times : List Nat} {interval start : Nat}

theorem contested_start (c : Counter) (times : List Nat) (interval : Nat) :
    (Race.start c times).Contested times interval c.resetAt := by
  have hreading : ∀ call ∈ (Race.start c times).calls, call.phase = .reading := by
    intro call hmem
    obtain ⟨now, -, rfl⟩ := List.mem_map.mp hmem
    rfl
  have hnone : ∀ kind : CountPhase → Bool, kind .reading = false →
      (Race.start c times).having kind = 0 := by
    intro kind hk
    rw [having, List.countP_eq_zero]
    intro call hmem
    rw [hreading call hmem, hk]
    exact Bool.false_ne_true
  refine ⟨by simp [Race.start], ?_, ?_, ?_, hnone _ rfl, fun _ => ⟨rfl, hnone _ rfl⟩, ?_⟩
  · intro call hmem
    obtain ⟨now, hnow, rfl⟩ := List.mem_map.mp hmem
    exact hnow
  · intro call hmem seen h
    rw [hreading call hmem] at h
    rcases h with h | h
    · exact absurd h nofun
    · exact absurd h nofun
  · intro j call hj
    rw [hreading call (List.mem_of_getElem? hj)]
    exact ⟨nofun, nofun⟩
  · intro hne
    exact absurd rfl hne

/-- Whoever joins the window finds it opened. -/
theorem Contested.opened_of_joins (h : r.Contested times interval start)
    (hi : r.calls[i]? = some ⟨now, phase⟩) (hphase : phase.joins = true) : r.openers ≠ [] := by
  intro hnone
  have hzero := (h.before hnone).2
  rw [having, List.countP_eq_zero] at hzero
  exact hzero _ (List.mem_of_getElem? hi) hphase

/-- A window that has been opened has been started with a count of one. -/
theorem Contested.restarts_pos (h : r.Contested times interval start) (hne : r.openers ≠ []) :
    0 < r.restarts := by
  have hopened : r.having isOpened ≤ r.restarts :=
    having_le_having (fun _ => restarted_of_isOpened) r
  have hlen := (h.after hne).1
  rw [h.having_opened] at hopened
  omega

/-- A step that opens no window keeps what holds of the contest. -/
theorem Contested.move (h : r.Contested times interval start)
    (hi : r.calls[i]? = some ⟨now, phase⟩) (hphase : phase ≠ .opened) (hphase' : phase' ≠ .opened)
    (hreset : counter.resetAt = r.counter.resetAt)
    (hseen : ∀ seen, phase' = .restarting seen ∨ phase' = .claiming seen → seen = start)
    (hjoins : r.openers = [] → phase'.joins = false) :
    (r.moved i ⟨now, phase'⟩ counter).Contested times interval start := by
  have hmem := List.mem_of_getElem? hi
  have hopeners : (r.moved i ⟨now, phase'⟩ counter).openers = r.openers := if_neg hphase'
  have hnow : now ∈ times := h.now_mem _ hmem
  have hcount := having_moved isOpened phase' counter hi
  rw [isOpened_of_ne hphase, isOpened_of_ne hphase', Nat.add_right_cancel_iff] at hcount
  refine ⟨by simp [moved, h.length_calls], ?_, ?_, opener_iff_moved h.opener_iff hi hphase,
    ?_, ?_, ?_⟩
  · intro call hcall
    rcases List.mem_or_eq_of_mem_set hcall with hcall | rfl
    · exact h.now_mem call hcall
    · exact hnow
  · intro call hcall
    rcases List.mem_or_eq_of_mem_set hcall with hcall | rfl
    · exact h.seen_eq call hcall
    · exact hseen
  · rw [hopeners, hcount, h.having_opened]
  · intro hnone
    rw [hopeners] at hnone
    obtain ⟨hat, hzero⟩ := h.before hnone
    have hjoin := having_moved joins phase' counter hi
    rw [hjoins hnone, hzero] at hjoin
    refine ⟨hreset.trans hat, ?_⟩
    simp only [Bool.toNat_false] at hjoin
    omega
  · intro hne
    rw [hopeners] at hne ⊢
    obtain ⟨hone, t, ht, hat⟩ := h.after hne
    exact ⟨hone, t, ht, hreset.trans hat⟩

/-- The first call that replaces the end of the window opens the next one. -/
theorem Contested.open (h : r.Contested times interval start)
    (hi : r.calls[i]? = some ⟨now, phase⟩) (hphase : phase ≠ .opened) (hnone : r.openers = []) :
    (r.moved i ⟨now, .opened⟩
      { r.counter with resetAt := Counter.windowEnd now interval }).Contested
        times interval start := by
  have hmem := List.mem_of_getElem? hi
  have hnow : now ∈ times := h.now_mem _ hmem
  have hcount := having_moved isOpened .opened
    { r.counter with resetAt := Counter.windowEnd now interval } hi
  rw [isOpened_of_ne hphase, h.having_opened, hnone] at hcount
  have hopeners : ∀ c, (r.moved i ⟨now, .opened⟩ c).openers = [i] := by
    intro c
    simp [moved, hnone]
  refine ⟨by simp [moved, h.length_calls], ?_, ?_, opener_iff_moved h.opener_iff hi hphase,
    ?_, ?_, ?_⟩
  · intro call hcall
    rcases List.mem_or_eq_of_mem_set hcall with hcall | rfl
    · exact h.now_mem call hcall
    · exact hnow
  · intro call hcall seen hp
    rcases List.mem_or_eq_of_mem_set hcall with hcall | rfl
    · exact h.seen_eq call hcall seen hp
    · rcases hp with hp | hp
      · exact absurd hp nofun
      · exact absurd hp nofun
  · rw [hopeners]
    simpa [isOpened] using hcount
  · intro hno
    rw [hopeners] at hno
    exact absurd hno nofun
  · intro _
    rw [hopeners]
    exact ⟨rfl, now, hnow, rfl⟩

/-! ## Which numbers are given out -/

/-- What holds of the count and of the numbers given out so far. -/
structure Tallied (r : Race) : Prop where
  unstarted : r.restarts = 0 → r.having isJoined = 0
  count_pos : 0 < r.restarts → 1 ≤ r.counter.count
  count_le : 0 < r.restarts → r.counter.count ≤ r.having isJoined + 1
  number_bounds : ∀ call ∈ r.calls, ∀ n late, call.phase = .joined n late →
    2 ≤ n ∧ n ≤ r.having isJoined + 1
  /-- Since the last store the numbers from two up to the count were given out. -/
  recent_le : 0 < r.restarts → ∀ g,
    min r.counter.count (g + 1) ≤ r.having (joinedWithin (g + 1)) + 1
  within_ge : ∀ g, min (r.having isJoined) g ≤ r.having (joinedWithin (g + 1))
  /-- Each store lets small numbers be given out once more. -/
  within_le : 0 < r.restarts → ∀ g,
    r.having (joinedWithin (g + 1)) + g ≤ r.restarts * g + (min r.counter.count (g + 1) - 1)

theorem tallied_start (c : Counter) (times : List Nat) : (Race.start c times).Tallied := by
  have hnone : ∀ kind : CountPhase → Bool, kind .reading = false →
      (Race.start c times).having kind = 0 := by
    intro kind hk
    simp [having, Race.start, List.countP_map, Function.comp_def, hk]
  have hzero : (Race.start c times).restarts = 0 := hnone _ rfl
  refine ⟨fun _ => hnone _ rfl, ?_, ?_, ?_, ?_, ?_, ?_⟩
  · intro hpos
    omega
  · intro hpos
    omega
  · intro call hmem n late hp
    obtain ⟨now, -, rfl⟩ := List.mem_map.mp hmem
    exact absurd hp nofun
  · intro hpos
    omega
  · intro g
    rw [hnone isJoined rfl]
    omega
  · intro hpos
    omega

theorem having_within_le (g : Nat) (r : Race) : r.having (joinedWithin g) ≤ r.having isJoined :=
  having_le_having (fun _ => isJoined_of_joinedWithin) r

/-- A step that neither stores nor adds to the count. -/
theorem Tallied.keep (h : r.Tallied) (hi : r.calls[i]? = some ⟨now, phase⟩)
    (hcount : counter.count = r.counter.count) (hrestarted : phase'.restarted = phase.restarted)
    (hjoined : phase.isJoined = false) (hjoined' : phase'.isJoined = false) :
    (r.moved i ⟨now, phase'⟩ counter).Tallied := by
  have hR := having_moved restarted phase' counter hi
  have hJ := having_moved isJoined phase' counter hi
  have hL : ∀ g, (r.moved i ⟨now, phase'⟩ counter).having (joinedWithin g) =
      r.having (joinedWithin g) := by
    intro g
    have hg := having_moved (joinedWithin g) phase' counter hi
    rw [joinedWithin_of_not_isJoined hjoined, joinedWithin_of_not_isJoined hjoined',
      Nat.add_right_cancel_iff] at hg
    exact hg
  rw [hrestarted, Nat.add_right_cancel_iff] at hR
  rw [hjoined, hjoined', Nat.add_right_cancel_iff] at hJ
  have hR' : (r.moved i ⟨now, phase'⟩ counter).restarts = r.restarts := hR
  have hC : (r.moved i ⟨now, phase'⟩ counter).counter.count = r.counter.count := hcount
  refine ⟨?_, ?_, ?_, ?_, ?_, ?_, ?_⟩
  · rw [hR', hJ]
    exact h.unstarted
  · rw [hR', hC]
    exact h.count_pos
  · rw [hR', hC, hJ]
    exact h.count_le
  · intro call hcall n late hp
    rw [hJ]
    rcases List.mem_or_eq_of_mem_set hcall with hcall | rfl
    · exact h.number_bounds call hcall n late hp
    · subst hp
      exact absurd hjoined' nofun
  · simp only [hR', hC, hL]
    exact h.recent_le
  · simp only [hJ, hL]
    exact h.within_ge
  · simp only [hR', hC, hL]
    exact h.within_le

/-- A store of one begins anew with two, and adds to what small numbers may be given out. -/
theorem Tallied.store (h : r.Tallied) {seen : Nat}
    (hi : r.calls[i]? = some ⟨now, .restarting seen⟩) :
    (r.moved i ⟨now, .claiming seen⟩ { r.counter with count := 1 }).Tallied := by
  have hR := having_moved restarted (.claiming seen) { r.counter with count := 1 } hi
  have hJ := having_moved isJoined (.claiming seen) { r.counter with count := 1 } hi
  have hL : ∀ g, (r.moved i ⟨now, .claiming seen⟩ { r.counter with count := 1 }).having
      (joinedWithin g) = r.having (joinedWithin g) := fun g =>
    having_moved (joinedWithin g) (.claiming seen) { r.counter with count := 1 } hi
  have hR' : (r.moved i ⟨now, .claiming seen⟩ { r.counter with count := 1 }).restarts =
      r.restarts + 1 := hR
  have hJ' : (r.moved i ⟨now, .claiming seen⟩ { r.counter with count := 1 }).having isJoined =
      r.having isJoined := hJ
  have hC : (r.moved i ⟨now, .claiming seen⟩ { r.counter with count := 1 }).counter.count = 1 :=
    rfl
  refine ⟨?_, ?_, ?_, ?_, ?_, ?_, ?_⟩
  · rw [hR']
    omega
  · rw [hC]
    omega
  · rw [hC]
    omega
  · intro call hcall n late hp
    rw [hJ']
    rcases List.mem_or_eq_of_mem_set hcall with hcall | rfl
    · exact h.number_bounds call hcall n late hp
    · exact absurd hp nofun
  · intro _ g
    rw [hC]
    omega
  · simp only [hJ', hL]
    exact h.within_ge
  · intro _ g
    rw [hR', hC, hL, Nat.add_mul, Nat.one_mul]
    rcases Nat.eq_zero_or_pos r.restarts with hzero | hpos
    · have hle := having_within_le (g + 1) r
      have hjoined := h.unstarted hzero
      omega
    · have hle := h.within_le hpos g
      omega

/-- A call that joins takes the number after the count. -/
theorem Tallied.join (h : r.Tallied) {late : Bool} (hi : r.calls[i]? = some ⟨now, .joining late⟩)
    (hpos : 0 < r.restarts) :
    (r.moved i ⟨now, .joined (r.counter.count + 1) late⟩
      { r.counter with count := r.counter.count + 1 }).Tallied := by
  generalize hr' : r.moved i ⟨now, .joined (r.counter.count + 1) late⟩
    { r.counter with count := r.counter.count + 1 } = r'
  have hR : r'.restarts = r.restarts := by
    have hmoved := having_moved restarted (.joined (r.counter.count + 1) late)
      { r.counter with count := r.counter.count + 1 } hi
    rw [hr'] at hmoved
    have hsame : restarted (.joined (r.counter.count + 1) late) = restarted (.joining late) := by
      cases late <;> rfl
    rw [hsame, Nat.add_right_cancel_iff] at hmoved
    exact hmoved
  have hJ : r'.having isJoined = r.having isJoined + 1 := by
    have hmoved := having_moved isJoined (.joined (r.counter.count + 1) late)
      { r.counter with count := r.counter.count + 1 } hi
    rw [hr'] at hmoved
    exact hmoved
  have hL : ∀ g, r'.having (joinedWithin (g + 1)) =
      r.having (joinedWithin (g + 1)) + if r.counter.count ≤ g then 1 else 0 := by
    intro g
    have hmoved := having_moved (joinedWithin (g + 1)) (.joined (r.counter.count + 1) late)
      { r.counter with count := r.counter.count + 1 } hi
    rw [hr'] at hmoved
    by_cases hle : r.counter.count ≤ g
    · simpa [joinedWithin, hle] using hmoved
    · simpa [joinedWithin, hle] using hmoved
  have hC : r'.counter.count = r.counter.count + 1 := by
    rw [← hr']
    rfl
  have hone := h.count_pos hpos
  have hcount := h.count_le hpos
  refine ⟨?_, ?_, ?_, ?_, ?_, ?_, ?_⟩
  · rw [hR]
    omega
  · rw [hC]
    omega
  · rw [hC, hJ]
    omega
  · intro call hcall n late' hp
    rw [hJ]
    rw [← hr'] at hcall
    rcases List.mem_or_eq_of_mem_set hcall with hcall | rfl
    · have hbounds := h.number_bounds call hcall n late' hp
      omega
    · obtain ⟨rfl, -⟩ : r.counter.count + 1 = n ∧ late = late' := by simpa using hp
      omega
  · intro _ g
    have hrecent := h.recent_le hpos g
    rw [hC, hL]
    split <;> omega
  · intro g
    have hrecent := h.recent_le hpos g
    have hall := h.within_ge g
    rw [hJ, hL]
    split <;> omega
  · intro _ g
    have hwithin := h.within_le hpos g
    rw [hR, hC, hL]
    split <;> omega

/-- A step keeps what holds of the numbers, if nobody joins before a store of one. -/
theorem Tallied.step (h : r.Tallied) (interval i : Nat)
    (hjoin : ∀ {now phase}, r.calls[i]? = some ⟨now, phase⟩ → phase.joins = true →
      0 < r.restarts) :
    (r.step interval i).Tallied := by
  rcases r.step_cases interval i with heq | ⟨now, phase, hi, hnot, heq⟩
  · rw [heq]
    exact h
  · rw [heq]
    cases phase with
    | reading =>
        by_cases hearly : now < r.counter.resetAt
        · simp only [CountPhase.step, if_pos hearly]
          exact h.keep hi rfl rfl rfl rfl
        · simp only [CountPhase.step, if_neg hearly]
          exact h.keep hi rfl rfl rfl rfl
    | restarting seen => exact h.store hi
    | claiming seen =>
        by_cases hwon : r.counter.resetAt = seen
        · simp only [CountPhase.step, if_pos hwon]
          exact h.keep hi rfl rfl rfl rfl
        · simp only [CountPhase.step, if_neg hwon]
          exact h.keep hi rfl rfl rfl rfl
    | joining late => exact h.join hi (hjoin hi rfl)
    | opened => exact absurd hnot nofun
    | joined n late => exact absurd hnot nofun

/-! ## From the first step to the last -/

/-- A step of a race in one window keeps what holds of its opening. -/
theorem Contested.step (hover : ∀ t ∈ times, start ≤ t)
    (hwindow : ∀ s ∈ times, ∀ t ∈ times, s < Counter.windowEnd t interval)
    (hc : r.Contested times interval start) (i : Nat) :
    (r.step interval i).Contested times interval start := by
  rcases r.step_cases interval i with heq | ⟨now, phase, hi, hnot, heq⟩
  · rw [heq]
    exact hc
  · rw [heq]
    have hmem := List.mem_of_getElem? hi
    have hnow : now ∈ times := hc.now_mem _ hmem
    cases phase with
    | reading =>
        by_cases hearly : now < r.counter.resetAt
        · -- the window has been opened, for its end is later than before
          simp only [CountPhase.step, if_pos hearly]
          have hopen : r.openers ≠ [] := by
            intro hnone
            have hat := (hc.before hnone).1
            have hle := hover now hnow
            omega
          exact hc.move hi nofun nofun rfl nofun (fun hnone => absurd hnone hopen)
        · simp only [CountPhase.step, if_neg hearly]
          have hnone : r.openers = [] := by
            apply Classical.byContradiction
            intro hne
            obtain ⟨-, t, htime, hat⟩ := hc.after hne
            have hlt := hwindow now hnow t htime
            omega
          have hseen := (hc.before hnone).1
          refine hc.move hi nofun nofun rfl ?_ (fun _ => rfl)
          intro seen hp
          rcases hp with hp | hp
          · injection hp with hp
            exact hp ▸ hseen
          · exact absurd hp nofun
    | restarting seen =>
        have hseen : seen = start := hc.seen_eq _ hmem seen (.inl rfl)
        refine hc.move hi nofun nofun rfl ?_ (fun _ => rfl)
        intro seen' hp
        rcases hp with hp | hp
        · exact absurd hp nofun
        · injection hp with hp
          exact hp ▸ hseen
    | claiming seen =>
        have hseen : seen = start := hc.seen_eq _ hmem seen (.inr rfl)
        by_cases hwon : r.counter.resetAt = seen
        · simp only [CountPhase.step, if_pos hwon]
          -- the end of an opened window is later than all times, that of the old one is not
          have hnone : r.openers = [] := by
            apply Classical.byContradiction
            intro hne
            obtain ⟨-, t, htime, hat⟩ := hc.after hne
            have hlt := hwindow t htime t htime
            have hle := hover t htime
            omega
          exact hc.open hi nofun hnone
        · simp only [CountPhase.step, if_neg hwon]
          have hopen : r.openers ≠ [] := by
            intro hnone
            exact hwon ((hc.before hnone).1.trans hseen.symm)
          exact hc.move hi nofun nofun rfl nofun (fun hnone => absurd hnone hopen)
    | joining late =>
        have hopen := hc.opened_of_joins hi rfl
        exact hc.move hi nofun nofun rfl nofun (fun hnone => absurd hnone hopen)
    | opened => exact absurd hnot nofun
    | joined n late => exact absurd hnot nofun

theorem run_keeps (hover : ∀ t ∈ times, start ≤ t)
    (hwindow : ∀ s ∈ times, ∀ t ∈ times, s < Counter.windowEnd t interval)
    (hc : r.Contested times interval start) (ht : r.Tallied) (schedule : List Nat) :
    (r.run interval schedule).Contested times interval start ∧
      (r.run interval schedule).Tallied := by
  induction schedule generalizing r with
  | nil => exact ⟨hc, ht⟩
  | cons i rest ih =>
      have htstep := ht.step interval i fun hi hphase =>
        hc.restarts_pos (hc.opened_of_joins hi hphase)
      exact ih (hc.step hover hwindow i) htstep

/-- What is counted together, when whatever satisfies `s` satisfies either `p` or `q`. -/
theorem countP_eq_add {β : Type} {s p q : β → Bool}
    (h : ∀ a, (s a).toNat = (p a).toNat + (q a).toNat) (l : List β) :
    l.countP s = l.countP p + l.countP q := by
  induction l with
  | nil => rfl
  | cons a rest ih =>
      have ha := h a
      simp only [List.countP_cons, ih]
      cases hs : s a <;> cases hp : p a <;> cases hq : q a <;>
        simp only [hs, hp, hq, Bool.toNat_true, Bool.toNat_false] at ha <;> simp <;> omega

/-- The numbers given out up to a bound: that of the call that opened the window, and those
of calls that joined it. -/
theorem countP_numbers {bound : Nat} (hbound : 1 ≤ bound) (r : Race) :
    r.numbers.countP (· ≤ bound) = r.having isOpened + r.having (joinedWithin bound) := by
  rw [numbers, List.countP_filterMap]
  apply countP_eq_add
  rintro ⟨now, phase⟩
  cases phase with
  | opened => simp [number?, isOpened, joinedWithin, hbound]
  | joined n late => simp [number?, isOpened, joinedWithin]
  | _ => rfl

/-- A call that is done has opened the window or joined it. -/
theorem isJoined_of_number? {p : CountPhase} {n : Nat} (h : p.number? = some n)
    (hne : p ≠ .opened) : ∃ late, p = .joined n late := by
  cases p with
  | opened => exact absurd rfl hne
  | joined m late =>
      obtain rfl : m = n := by simpa [number?] using h
      exact ⟨late, rfl⟩
  | _ => exact absurd h nofun

theorem number?_of_finished (hdone : r.finished = true) {j : Nat} {call : CountCall}
    (hj : r.calls[j]? = some call) : ∃ n, call.phase.number? = some n :=
  Option.isSome_iff_exists.mp (List.all_eq_true.mp hdone call (List.mem_of_getElem? hj))

/-- When all calls are done the window has been opened. -/
theorem Contested.opened_of_finished (h : r.Contested times interval start) (hsome : times ≠ [])
    (hdone : r.finished = true) : ∃ i, r.openers = [i] := by
  have hne : r.openers ≠ [] := by
    intro hnone
    have hlen : 0 < r.calls.length := by
      rw [h.length_calls]
      exact List.length_pos_iff.mpr hsome
    have hfirst : r.calls[0]? = some r.calls[0] := List.getElem?_eq_getElem hlen
    obtain ⟨n, hn⟩ := number?_of_finished hdone hfirst
    have hunopened : r.calls[0].phase ≠ .opened := by
      intro hp
      rw [h.opener_iff 0 _ hfirst, hnone] at hp
      exact absurd hp nofun
    obtain ⟨late, hp⟩ := isJoined_of_number? hn hunopened
    have hjoins : r.calls[0].phase.joins = true := by
      rw [hp]
      rfl
    exact h.opened_of_joins hfirst hjoins hnone
  exact List.length_eq_one_iff.mp (h.after hne).1

/-- When all calls are done all but one have joined the window. -/
theorem Contested.having_joined (h : r.Contested times interval start) (hsome : times ≠ [])
    (hdone : r.finished = true) : r.having isJoined + 1 = times.length := by
  obtain ⟨i, hi⟩ := h.opened_of_finished hsome hdone
  have hopened := h.having_opened
  rw [hi, having] at hopened
  have hrest : r.calls.countP (fun call => call.phase.isOpened) =
      r.calls.countP fun call => !call.phase.isJoined := by
    apply List.countP_congr
    intro call hmem
    obtain ⟨n, hn⟩ := Option.isSome_iff_exists.mp (List.all_eq_true.mp hdone call hmem)
    cases hp : call.phase with
    | opened => simp [isOpened, isJoined]
    | joined m late => simp [isOpened, isJoined]
    | _ => exact absurd (hp ▸ hn) nofun
  have hall := List.length_eq_countP_add_countP (l := r.calls) fun call => call.phase.isJoined
  simp only [Bool.not_eq_true, Bool.decide_eq_false, ← hrest, hopened] at hall
  rw [← h.length_calls, hall]
  rfl

/-- **One call opens the window, and repeated numbers are bounded.** The window of the counter
is over for every call, and the times of all calls lie in one window. However the steps of
the calls interleave: when all are done exactly one of them has number one, every other has
a number from two up to the number of calls, and at least as many calls have a number up to
a bound as in turn, but at most one and, for each call that stored one, as many as lie
between. A limit of one record thus lets exactly one pass. -/
theorem contested_window_numbers (c : Counter) (interval : Nat) (times : List Nat)
    (hsome : times ≠ []) (hover : ∀ t ∈ times, c.resetAt ≤ t)
    (hwindow : ∀ s ∈ times, ∀ t ∈ times, s < Counter.windowEnd t interval)
    (schedule : List Nat)
    (hdone : ((Race.start c times).run interval schedule).finished = true) :
    let r := (Race.start c times).run interval schedule
    r.calls.length = times.length ∧
      (∃ i : Nat, (∃ call, r.calls[i]? = some call ∧ call.phase.number? = some 1) ∧
        ∀ (j : Nat) (call : CountCall), j ≠ i → r.calls[j]? = some call →
          ∃ n, call.phase.number? = some n ∧ 2 ≤ n ∧ n ≤ times.length) ∧
      (∀ bound, 1 ≤ bound →
        min times.length bound ≤ r.numbers.countP (· ≤ bound) ∧
          r.numbers.countP (· ≤ bound) ≤ 1 + r.restarts * (bound - 1)) ∧
      ∀ limits : Limits, limits.first = 1 → limits.every = 0 →
        r.numbers.countP limits.passes = 1 := by
  intro r
  obtain ⟨hc, ht⟩ : r.Contested times interval c.resetAt ∧ r.Tallied :=
    run_keeps hover hwindow (contested_start c times interval) (tallied_start c times) schedule
  obtain ⟨i, hi⟩ := hc.opened_of_finished hsome hdone
  have hjoined := hc.having_joined hsome hdone
  have hopened : r.having isOpened = 1 := by
    rw [hc.having_opened, hi]
    rfl
  have hpos : 0 < r.restarts := hc.restarts_pos (by rw [hi]; exact nofun)
  have hbounds : ∀ bound, 1 ≤ bound →
      min times.length bound ≤ r.numbers.countP (· ≤ bound) ∧
        r.numbers.countP (· ≤ bound) ≤ 1 + r.restarts * (bound - 1) := by
    intro bound hbound
    obtain ⟨g, rfl⟩ : ∃ g, bound = g + 1 := ⟨bound - 1, by omega⟩
    have hge := ht.within_ge g
    have hle := ht.within_le hpos g
    rw [countP_numbers hbound, hopened, Nat.add_sub_cancel]
    omega
  refine ⟨hc.length_calls, ⟨i, ?_, ?_⟩, hbounds, ?_⟩
  · -- the position of the opener is that of a call
    have hmem : ∃ call ∈ r.calls, call.phase.isOpened = true :=
      List.countP_pos_iff.mp (show 0 < r.having isOpened by omega)
    obtain ⟨call, hcall, hp⟩ := hmem
    obtain ⟨j, hj⟩ := List.mem_iff_getElem?.mp hcall
    have hphase : call.phase = .opened := by
      apply Classical.byContradiction
      intro hne
      rw [isOpened_of_ne hne] at hp
      exact absurd hp nofun
    have hji : j ∈ r.openers := (hc.opener_iff j call hj).mp hphase
    rw [hi, List.mem_singleton] at hji
    exact ⟨call, hji ▸ hj, by rw [hphase]; rfl⟩
  · intro j call hne hj
    obtain ⟨n, hn⟩ := number?_of_finished hdone hj
    have hunopened : call.phase ≠ .opened := by
      intro hp
      rw [hc.opener_iff j call hj, hi, List.mem_singleton] at hp
      exact hne hp
    obtain ⟨late, hp⟩ := isJoined_of_number? hn hunopened
    have hnumber := ht.number_bounds call (List.mem_of_getElem? hj) n late hp
    exact ⟨n, hn, by omega, by omega⟩
  · intro limits hfirst hevery
    have hpasses : limits.passes = fun n => decide (n ≤ 1) := by
      funext n
      simp [Limits.passes, hfirst, hevery]
    have hone := hbounds 1 (Nat.le_refl 1)
    have hlen : 0 < times.length := List.length_pos_iff.mpr hsome
    rw [hpasses]
    omega

/-- The second call finds the window over as well, and stores one after the third has
joined: both get number two. -/
def lateStore : List Nat := [0, 1, 0, 0, 2, 2, 1, 1, 1]

/-- Three calls, of which two store one: a number is given out twice, as far as two stores
allow it. -/
theorem contested_window_numbers_late_store :
    [100, 105, 103] ≠ [] ∧ (∀ t ∈ [100, 105, 103], 100 ≤ t) ∧
      (∀ s ∈ [100, 105, 103], ∀ t ∈ [100, 105, 103], s < Counter.windowEnd t 50) ∧
      ((Race.start ⟨100, 7⟩ [100, 105, 103]).run 50 lateStore).finished = true ∧
      ((Race.start ⟨100, 7⟩ [100, 105, 103]).run 50 lateStore).numbers = [1, 2, 2] ∧
      ((Race.start ⟨100, 7⟩ [100, 105, 103]).run 50 lateStore).restarts = 2 ∧
      min 3 2 ≤ ((Race.start ⟨100, 7⟩ [100, 105, 103]).run 50 lateStore).numbers.countP (· ≤ 2) ∧
      ((Race.start ⟨100, 7⟩ [100, 105, 103]).run 50 lateStore).numbers.countP (· ≤ 2) ≤
        1 + ((Race.start ⟨100, 7⟩ [100, 105, 103]).run 50 lateStore).restarts * (2 - 1) := by
  have hsome : [100, 105, 103] ≠ [] := by decide
  have hover : ∀ t ∈ [100, 105, 103], 100 ≤ t := by decide
  have hwindow : ∀ s ∈ [100, 105, 103], ∀ t ∈ [100, 105, 103], s < Counter.windowEnd t 50 := by
    decide +kernel
  have hdone : ((Race.start ⟨100, 7⟩ [100, 105, 103]).run 50 lateStore).finished = true := by
    decide +kernel
  have hall := contested_window_numbers ⟨100, 7⟩ 50 [100, 105, 103] hsome hover hwindow lateStore
    hdone
  exact ⟨hsome, hover, hwindow, hdone, by decide +kernel, by decide +kernel,
    hall.2.2.1 2 (by decide)⟩

end Race

end LogAdmission
