import LogAdmission.Proofs.RateLimit.Journal

/-!
# Windows and the time of records

When a record opens a window is told by exact times in `places`. The clock of a limiter is
bounded: it reads zero for all times before the epoch, and stands still at its last tick. Up to
that tick the limiter numbers records by exact times, if those before the epoch are taken for the
epoch (`windows_keep_time`). Without these two provisos it does not (`clock_loses_time`).
-/

namespace LogAdmission

/-! ## Windows by exact times -/

/-- The numbers of records at the given times behind the one numbered `n` of a window that was
opened at `start`. A record that comes at least the interval after that opens the next window. -/
def placesFrom (interval : Nat) (start : Int) (n : Nat) : List Int → List Nat
  | [] => []
  | t :: later =>
    if start + interval ≤ t then 1 :: placesFrom interval t 1 later
    else (n + 1) :: placesFrom interval start (n + 1) later

/-- The numbers of records at the given times in their windows. The first one opens a window. -/
def places (interval : Nat) : List Int → List Nat
  | [] => []
  | t :: later => 1 :: placesFrom interval t 1 later

namespace Record

/-- The time of a record, or the epoch if that is later. -/
def timeSinceEpoch (r : Record) : Int :=
  max 0 r.time.nanos

/-- Whether the record comes before the last tick of the clock. -/
def beforeLastTick (r : Record) : Bool :=
  decide (r.time.nanos < 2 ^ 63 - 1)

theorem clock_eq_timeSinceEpoch {r : Record} (hbefore : r.beforeLastTick = true) :
    (r.clock : Int) = r.timeSinceEpoch := by
  have hlt : r.time.nanos < 2 ^ 63 - 1 := of_decide_eq_true hbefore
  unfold clock timeSinceEpoch
  omega

/-- The bounded clock tells rightly whether a record comes before the end of a window. -/
theorem clock_lt_endAfter_iff {r : Record} (hbefore : r.beforeLastTick = true)
    (limits : Limits) (start : Nat) :
    r.clock < endAfter limits.width start ↔
      ¬ (start : Int) + limits.interval.nanos ≤ r.timeSinceEpoch := by
  have hlt : r.time.nanos < 2 ^ 63 - 1 := of_decide_eq_true hbefore
  unfold clock endAfter Limits.width timeSinceEpoch
  omega

end Record

namespace Limits

variable {limits : Limits} {r : Record} {later : List Record}

/-- The numbers that a counter gives to records before the last tick. -/
def earlyNumbers (limits : Limits) (c : Counter) (records : List Record) : List Nat :=
  ((limits.notes c records).filter fun e => e.record.beforeLastTick).map Noted.number

theorem earlyNumbers_cons {number : Nat} {c c' : Counter} (hbefore : r.beforeLastTick = true)
    (hcounted : c.increment r.clock limits.width = (number, c')) :
    limits.earlyNumbers c (r :: later) = number :: limits.earlyNumbers c' later := by
  simp [earlyNumbers, notes, hcounted, hbefore]

/-- Once the last tick is reached, no record comes before it. -/
theorem beforeLastTick_of_lastTick
    (hsorted : (r :: later).Pairwise fun r r' => r.time.nanos ≤ r'.time.nanos)
    (hlast : r.beforeLastTick = false) : ∀ r' ∈ r :: later, r'.beforeLastTick = false := by
  have hnot := of_decide_eq_false hlast
  intro r' hmem
  rcases List.mem_cons.mp hmem with rfl | hlater
  · exact hlast
  · have hle := (List.pairwise_cons.mp hsorted).1 r' hlater
    exact decide_eq_false fun hlt => hnot (Int.lt_of_le_of_lt hle hlt)

theorem earlyNumbers_eq_nil {c : Counter} {records : List Record}
    (hlast : ∀ r ∈ records, r.beforeLastTick = false) : limits.earlyNumbers c records = [] := by
  rw [earlyNumbers, List.map_eq_nil_iff, List.filter_eq_nil_iff]
  intro e he
  rw [hlast _ (record_mem_of_mem_notes he)]
  exact Bool.false_ne_true

theorem filter_beforeLastTick_eq_nil {records : List Record}
    (hlast : ∀ r ∈ records, r.beforeLastTick = false) :
    records.filter Record.beforeLastTick = [] := by
  rw [List.filter_eq_nil_iff]
  intro r hmem
  rw [hlast r hmem]
  exact Bool.false_ne_true

/-- In a window that was opened before the last tick, the counter goes on as exact times have
it. -/
theorem earlyNumbers_of_opened {records : List Record} (start n : Nat)
    (hsorted : records.Pairwise fun r r' => r.time.nanos ≤ r'.time.nanos) :
    limits.earlyNumbers ⟨endAfter limits.width start, n⟩ records =
      placesFrom limits.interval.nanos start n
        ((records.filter Record.beforeLastTick).map Record.timeSinceEpoch) := by
  induction records generalizing start n with
  | nil => rfl
  | cons r later ih =>
      have hrest := (List.pairwise_cons.mp hsorted).2
      cases hbefore : r.beforeLastTick with
      | false =>
          have hlast := beforeLastTick_of_lastTick hsorted hbefore
          rw [earlyNumbers_eq_nil hlast, filter_beforeLastTick_eq_nil hlast]
          rfl
      | true =>
          have hiff := Record.clock_lt_endAfter_iff hbefore limits start
          rw [List.filter_cons_of_pos hbefore, List.map_cons, placesFrom]
          by_cases hjoins : r.clock < endAfter limits.width start
          · rw [if_neg (hiff.mp hjoins), ← ih start (n + 1) hrest]
            exact earlyNumbers_cons hbefore (if_pos hjoins)
          · have hopens : (start : Int) + limits.interval.nanos ≤ r.timeSinceEpoch :=
              Decidable.not_not.mp fun hnot => hjoins (hiff.mpr hnot)
            rw [if_pos hopens, ← Record.clock_eq_timeSinceEpoch hbefore, ← ih r.clock 1 hrest]
            exact earlyNumbers_cons hbefore (if_neg hjoins)

/-- A new counter numbers the records before the last tick by exact times. -/
theorem earlyNumbers_of_new {records : List Record}
    (hsorted : records.Pairwise fun r r' => r.time.nanos ≤ r'.time.nanos) :
    limits.earlyNumbers {} records =
      places limits.interval.nanos
        ((records.filter Record.beforeLastTick).map Record.timeSinceEpoch) := by
  cases records with
  | nil => rfl
  | cons r later =>
      cases hbefore : r.beforeLastTick with
      | false =>
          have hlast := beforeLastTick_of_lastTick hsorted hbefore
          rw [earlyNumbers_eq_nil hlast, filter_beforeLastTick_eq_nil hlast]
          rfl
      | true =>
          rw [List.filter_cons_of_pos hbefore, List.map_cons, places,
            ← Record.clock_eq_timeSinceEpoch hbefore,
            ← earlyNumbers_of_opened r.clock 1 (List.pairwise_cons.mp hsorted).2]
          exact earlyNumbers_cons hbefore (if_neg (Nat.not_lt_zero _))

end Limits

variable {κ σ : Type} [Sink κ σ]

/-- **Windows keep the time of records.** When a new limiter handles records of one level and
message that do not go back in time, each one that comes before the last tick of the clock has
the number that exact times give it, where times before the epoch are taken for the epoch. It is
the number that tells whether a record is passed on. -/
theorem windows_keep_time (st : Store κ σ) (limits : Limits) (next : Handler κ σ)
    (hst : st.Numbered) (hnext : st.Knows next) (calls : List LimiterCall) (level : Level)
    (message : String)
    (hsame : ∀ call ∈ calls, call.record.level = level ∧ call.record.message = message)
    (hsorted : (calls.map LimiterCall.record).Pairwise
      fun r r' => r.time.nanos ≤ r'.time.nanos) :
    let built := st.addLimiter limits next
    let noted := performEach (LimiterCall.note limits st.freshTable next) calls (built.2, [])
    let records := calls.map LimiterCall.record
    performEach (LimiterCall.perform built.1) calls built.2 = (noted.1, noted.2.1) ∧
      noted.2.2.map Noted.record = records ∧
      (noted.2.2.filter fun e => e.record.beforeLastTick).map Noted.number =
        places limits.interval.nanos
          ((records.filter Record.beforeLastTick).map Record.timeSinceEpoch) ∧
      ∀ e ∈ noted.2.2, e.passed = decide (Admits limits.first limits.every e.number) := by
  intro built noted records
  have hshard : ∀ call ∈ calls,
      call.record.shard = (⟨level, message, ⟨0⟩, []⟩ : Record).shard := by
    intro call hcall
    obtain ⟨hlevel, hmessage⟩ := hsame call hcall
    simp only [Record.shard, hlevel, hmessage]
  have hjournal : noted.2.2 = limits.notes {} records := Store.journal_eq hst hnext limits hshard
  refine ⟨st.performEach_note limits next calls, ?_, ?_, ?_⟩
  · rw [hjournal, limits.records_notes]
  · rw [hjournal]
    exact Limits.earlyNumbers_of_new hsorted
  · intro e he
    rw [hjournal] at he
    exact Limits.passed_of_mem_notes he

/-- A record before the epoch, three windows behind it, and one record behind the last tick. -/
theorem windows_keep_time_near_ends :
    let next : Handler Endpoint World := .sink (.recorder { name := "r" })
    let st : Store Endpoint World := .ofWorld {}
    let limits : Limits := ⟨1, 0, ⟨10⟩⟩
    let calls := [-7, 4, 10, 2 ^ 63 - 2, 2 ^ 63 + 5].map fun t : Int =>
      ({ record := ⟨.info, "a", ⟨t⟩, []⟩ } : LimiterCall)
    let records := calls.map LimiterCall.record
    let noted := performEach (LimiterCall.note limits st.freshTable next) calls
      ((st.addLimiter limits next).2, [])
    st.Numbered ∧ st.Knows next ∧
      (∀ call ∈ calls, call.record.level = .info ∧ call.record.message = "a") ∧
      records.Pairwise (fun r r' => r.time.nanos ≤ r'.time.nanos) ∧
      (noted.2.2.filter fun e => e.record.beforeLastTick).map Noted.number = [1, 2, 1, 1] := by
  intro next st limits calls records noted
  have hst : st.Numbered := Store.numbered_ofWorld {}
  have hnext : st.Knows next := fun _ _ => trivial
  have hsame : ∀ call ∈ calls, call.record.level = .info ∧ call.record.message = "a" := by
    decide +kernel
  have hsorted : records.Pairwise fun r r' => r.time.nanos ≤ r'.time.nanos := by decide +kernel
  obtain ⟨-, -, hnumbers, -⟩ :=
    windows_keep_time st limits next hst hnext calls .info "a" hsame hsorted
  have hplaces : places 10
      ((records.filter Record.beforeLastTick).map Record.timeSinceEpoch) = [1, 2, 1, 1] := by
    decide +kernel
  exact ⟨hst, hnext, hsame, hsorted, hnumbers.trans hplaces⟩

/-- Two records that are an interval apart share a window if both come before the epoch, and two
that are a nanosecond apart open a window each once the last tick is reached. -/
theorem clock_loses_time :
    let next : Handler Endpoint World := .sink (.recorder { name := "r" })
    let st : Store Endpoint World := .ofWorld {}
    let limits : Limits := ⟨1, 0, ⟨1000000000⟩⟩
    let counted (times : List Int) :=
      (st.journal limits next
        (times.map fun t => { record := ⟨.info, "a", ⟨t⟩, []⟩ })).map fun e =>
          (e.number, e.passed)
    counted [-2000000000, -1000000000] = [(1, true), (2, false)] ∧
      places 1000000000 [-2000000000, -1000000000] = [1, 1] ∧
      counted [2 ^ 63 - 1, 2 ^ 63] = [(1, true), (1, true)] ∧
      places 1000000000 [2 ^ 63 - 1, 2 ^ 63] = [1, 2] := by
  decide +kernel

end LogAdmission
