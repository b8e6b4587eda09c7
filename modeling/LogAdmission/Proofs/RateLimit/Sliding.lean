import LogAdmission.Proofs.RateLimit.Journal

/-!
# Spans that slide over the windows

A limiter counts in windows that it opens itself, but what it lets through is bounded in every
span of the length of its interval, however the span lies. Of records that do not go back in
time, those in the span take numbers that go on from where the counter stands, and then at most
once begin again at one (`quota_of_span`). How many of the first numbers pass is `quota`, and the
bound is arithmetic on it.
-/

namespace LogAdmission

/-! ## How many numbers pass -/

/-- How many of the numbers from one to `n` pass. -/
def quota (first every n : Nat) : Nat :=
  min n first + (n - first) / every

theorem quota_zero (first every : Nat) : quota first every 0 = 0 := by
  simp [quota]

theorem quota_succ (first every n : Nat) :
    quota first every (n + 1) =
      quota first every n + if Admits first every (n + 1) then 1 else 0 := by
  by_cases hfirst : n + 1 ≤ first
  · have hadmits : Admits first every (n + 1) := .inl hfirst
    have hnone : n + 1 - first = 0 ∧ n - first = 0 := by omega
    rw [if_pos hadmits, quota, quota, hnone.1, hnone.2]
    omega
  · -- behind the first numbers, those pass that are a multiple of `every` beyond them
    have hnext : n + 1 - first = (n - first) + 1 := by omega
    have hiff : Admits first every (n + 1) ↔ every ∣ n - first + 1 := by
      rw [Admits, hnext, Nat.dvd_iff_mod_eq_zero]
      constructor
      · rintro (hle | ⟨-, hmod⟩)
        · exact absurd hle hfirst
        · exact hmod
      · intro hmod
        refine .inr ⟨?_, hmod⟩
        rintro rfl
        rw [Nat.mod_zero] at hmod
        exact Nat.succ_ne_zero _ hmod
    have hmin : min (n + 1) first = min n first := by omega
    rw [quota, quota, hnext, Nat.succ_div, hmin, Nat.add_assoc]
    simp only [hiff]

theorem quota_every_zero (first n : Nat) : quota first 0 n = min n first := by
  rw [quota, Nat.div_zero, Nat.add_zero]

/-- Of the first `n` numbers no more pass than the first ones and every so many. -/
theorem quota_le (first every n : Nat) : quota first every n ≤ first + n / every :=
  Nat.add_le_add (Nat.min_le_right n first) (Nat.div_le_div_right (Nat.sub_le n first))

/-- Among any `p` numbers in a row there may be one more, as the row need not begin behind a
number that passes. -/
theorem quota_add_le (first : Nat) {every : Nat} (hevery : every ≠ 0) (a p : Nat) :
    quota first every (a + p) ≤ quota first every a + (first + p / every + 1) := by
  have hbeyond : (a + p - first) / every ≤ (a - first) / every + p / every + 1 := by
    calc (a + p - first) / every
        ≤ ((a - first) + p) / every := Nat.div_le_div_right (by omega)
      _ ≤ (a - first) / every + p / every + 1 := by
          rw [Nat.add_div (Nat.pos_of_ne_zero hevery)]
          split
          · exact Nat.le_refl _
          · exact Nat.le_succ _
  have hfirst : min (a + p) first ≤ min a first + first := by omega
  unfold quota
  omega

/-! ## Records in a span -/

/-- Whether a record lies in the span of a length from `start` on. -/
def Record.within (start : Int) (length : Nat) (r : Record) : Bool :=
  decide (start ≤ r.time.nanos ∧ r.time.nanos < start + length)

/-- Whether the record lies in the span and was passed on. -/
def Noted.passedWithin (start : Int) (length : Nat) (e : Noted) : Bool :=
  e.passed && e.record.within start length

namespace Limits

variable (limits : Limits) {c : Counter} {records : List Record} {start : Int}

theorem countP_passedWithin_eq_zero {length : Nat}
    (hout : ∀ r ∈ records, r.within start length = false) :
    (limits.notes c records).countP (Noted.passedWithin start length) = 0 := by
  rw [List.countP_eq_zero]
  intro e he
  rw [Noted.passedWithin, hout _ (Limits.record_mem_of_mem_notes he), Bool.and_false]
  exact Bool.false_ne_true

theorem countP_cons_within {length number : Nat} {r : Record} {c' : Counter}
    (later : List Record) (hin : r.within start length = true)
    (hcounted : c.increment r.clock limits.width = (number, c')) :
    (limits.notes c (r :: later)).countP (Noted.passedWithin start length) =
      (limits.notes c' later).countP (Noted.passedWithin start length) +
        if Admits limits.first limits.every number then 1 else 0 := by
  simp only [notes, hcounted, List.countP_cons, Noted.passedWithin, hin, Bool.and_true,
    decide_eq_true_iff]

theorem countP_cons_not_within {length : Nat} {r : Record} (later : List Record)
    (hout : r.within start length = false) :
    (limits.notes c (r :: later)).countP (Noted.passedWithin start length) =
      (limits.notes (c.increment r.clock limits.width).2 later).countP
        (Noted.passedWithin start length) := by
  simp only [notes, List.countP_cons, Noted.passedWithin, hout, Bool.and_false,
    Bool.false_eq_true, if_false, Nat.add_zero]

/-- Records behind one that lies beyond the span lie beyond it too. -/
theorem not_within_of_beyond {length : Nat} {r : Record} {later : List Record}
    (hsorted : (r :: later).Pairwise fun r r' => r.time.nanos ≤ r'.time.nanos)
    (hfrom : start ≤ r.time.nanos) (hout : r.within start length = false) :
    ∀ r' ∈ r :: later, r'.within start length = false := by
  intro r' hmem
  rcases List.mem_cons.mp hmem with rfl | hlater
  · exact hout
  · have hle := (List.pairwise_cons.mp hsorted).1 r' hlater
    simp only [Record.within, decide_eq_false_iff_not] at hout ⊢
    omega

/-- As long as the records of the span join the window that is open, their numbers go on from
those counted so far. -/
theorem quota_of_joined {length : Nat}
    (hsorted : records.Pairwise fun r r' => r.time.nanos ≤ r'.time.nanos)
    (hfrom : ∀ r ∈ records, start ≤ r.time.nanos)
    (hjoin : ∀ r ∈ records, r.within start length = true → r.clock < c.resetAt) :
    quota limits.first limits.every c.count +
        (limits.notes c records).countP (Noted.passedWithin start length) =
      quota limits.first limits.every
        (c.count + records.countP (Record.within start length)) := by
  induction records generalizing c with
  | nil => rfl
  | cons r later ih =>
      cases hin : r.within start length with
      | false =>
          have hout := not_within_of_beyond hsorted (hfrom r List.mem_cons_self) hin
          rw [limits.countP_passedWithin_eq_zero hout,
            List.countP_eq_zero.mpr fun r' hmem => by simp [hout r' hmem]]
          rfl
      | true =>
          have hnext : c.increment r.clock limits.width =
              (c.count + 1, { c with count := c.count + 1 }) :=
            if_pos (hjoin r List.mem_cons_self hin)
          have hlater := ih (c := { c with count := c.count + 1 })
            (List.pairwise_cons.mp hsorted).2
            (fun r' h => hfrom r' (List.mem_cons_of_mem _ h))
            (fun r' h => hjoin r' (List.mem_cons_of_mem _ h))
          have hplace : c.count + (later.countP (Record.within start length) + 1) =
            c.count + 1 + later.countP (Record.within start length) := by omega
          rw [limits.countP_cons_within later hin hnext, List.countP_cons_of_pos hin, hplace,
            ← hlater, quota_succ]
          omega

/-- The window that a record in the span opens ends behind the span, unless the clock does. -/
theorem joined_of_opened {r r' : Record} (hin : r.within start limits.interval.nanos = true)
    (hin' : r'.within start limits.interval.nanos = true)
    (hclock : r'.time.nanos ≤ 2 ^ 63 - 2) :
    r'.clock < Counter.windowEnd r.clock limits.width := by
  simp only [Record.within, decide_eq_true_iff] at hin hin'
  show (max 0 (min r'.time.nanos (2 ^ 63 - 1))).toNat <
    min ((max 0 (min r.time.nanos (2 ^ 63 - 1))).toNat + min limits.interval.nanos (2 ^ 63 - 1))
      (2 ^ 63 - 1)
  omega

/-- From the beginning of the span on, the numbers go on from those counted so far, and then
those of a second window follow. There is no third one. -/
theorem quota_of_span_begun
    (hsorted : records.Pairwise fun r r' => r.time.nanos ≤ r'.time.nanos)
    (hfrom : ∀ r ∈ records, start ≤ r.time.nanos)
    (hclock : ∀ r ∈ records, r.time.nanos ≤ 2 ^ 63 - 2) :
    ∃ p q, p + q = records.countP (Record.within start limits.interval.nanos) ∧
      quota limits.first limits.every c.count +
          (limits.notes c records).countP (Noted.passedWithin start limits.interval.nanos) =
        quota limits.first limits.every (c.count + p) + quota limits.first limits.every q := by
  induction records generalizing c with
  | nil => exact ⟨0, 0, rfl, by rw [quota_zero]; rfl⟩
  | cons r later ih =>
      have hrest := List.pairwise_cons.mp hsorted
      have hfrom' := fun r' h => hfrom r' (List.mem_cons_of_mem r h)
      have hclock' := fun r' h => hclock r' (List.mem_cons_of_mem r h)
      cases hin : r.within start limits.interval.nanos with
      | false =>
          have hout := not_within_of_beyond hsorted (hfrom r List.mem_cons_self) hin
          refine ⟨0, 0, ?_, ?_⟩
          · exact (List.countP_eq_zero.mpr fun r' hmem => by simp [hout r' hmem]).symm
          · rw [limits.countP_passedWithin_eq_zero hout, quota_zero]
            rfl
      | true =>
          rw [List.countP_cons_of_pos hin]
          by_cases hjoins : r.clock < c.resetAt
          · have hnext : c.increment r.clock limits.width =
                (c.count + 1, { c with count := c.count + 1 }) := if_pos hjoins
            obtain ⟨p, q, hpq, hquota⟩ :=
              ih (c := { c with count := c.count + 1 }) hrest.2 hfrom' hclock'
            refine ⟨p + 1, q, by omega, ?_⟩
            have hplace : c.count + (p + 1) = c.count + 1 + p := by omega
            rw [limits.countP_cons_within later hin hnext, hplace, ← hquota, quota_succ]
            omega
          · -- the second window: every later record of the span joins it
            have hnext : c.increment r.clock limits.width =
                (1, ⟨Counter.windowEnd r.clock limits.width, 1⟩) := if_neg hjoins
            have hjoined := limits.quota_of_joined
              (c := ⟨Counter.windowEnd r.clock limits.width, 1⟩) hrest.2 hfrom'
              fun r' h hin' => limits.joined_of_opened hin hin' (hclock' r' h)
            have hone := quota_succ limits.first limits.every 0
            rw [quota_zero, Nat.zero_add] at hone
            refine ⟨0, _, Nat.zero_add _, ?_⟩
            rw [limits.countP_cons_within later hin hnext, Nat.add_zero,
              Nat.add_comm (later.countP _) 1, ← hjoined, hone]
            omega

/-- **At most two windows.** The records of a span take numbers of the window that is open when
it begins, and those of one more window. -/
theorem quota_of_span
    (hsorted : records.Pairwise fun r r' => r.time.nanos ≤ r'.time.nanos)
    (hclock : ∀ r ∈ records, r.time.nanos ≤ 2 ^ 63 - 2) (c : Counter) (start : Int) :
    ∃ a p q, p + q = records.countP (Record.within start limits.interval.nanos) ∧
      quota limits.first limits.every a +
          (limits.notes c records).countP (Noted.passedWithin start limits.interval.nanos) =
        quota limits.first limits.every (a + p) + quota limits.first limits.every q := by
  induction records generalizing c with
  | nil => exact ⟨0, 0, 0, rfl, by rw [quota_zero]; rfl⟩
  | cons r later ih =>
      have hrest := List.pairwise_cons.mp hsorted
      by_cases hbefore : r.time.nanos < start
      · have hout : r.within start limits.interval.nanos = false := by
          simp only [Record.within, decide_eq_false_iff_not]
          omega
        rw [limits.countP_cons_not_within later hout,
          List.countP_cons_of_neg (by simp [hout])]
        exact ih hrest.2 (fun r' h => hclock r' (List.mem_cons_of_mem r h)) _
      · have hfrom : ∀ r' ∈ r :: later, start ≤ r'.time.nanos := by
          intro r' hmem
          rcases List.mem_cons.mp hmem with rfl | hlater
          · omega
          · have hle := hrest.1 r' hlater
            omega
        exact ⟨c.count, limits.quota_of_span_begun hsorted hfrom hclock⟩

end Limits

variable {κ σ : Type} [Sink κ σ]

/-- **Every span is bounded.** When a new limiter handles records of one shard that do not go
back in time, before the clock stands still, then of the records in any half-open span of the
length of the interval it passes on at most twice the first ones, and behind these no more than
every so many of the records in the span and one. The numbers that it gives do not exceed the
number of records. -/
theorem any_span_bounded (st : Store κ σ) (limits : Limits) (next : Handler κ σ)
    (hst : st.Numbered) (hnext : st.Knows next) (calls : List LimiterCall) (shard : Int × Nat)
    (hshard : ∀ call ∈ calls, call.record.shard = shard)
    (hsorted : (calls.map LimiterCall.record).Pairwise fun r r' => r.time.nanos ≤ r'.time.nanos)
    (hclock : ∀ call ∈ calls, call.record.time.nanos ≤ 2 ^ 63 - 2) (start : Int) :
    let built := st.addLimiter limits next
    let noted := performEach (LimiterCall.note limits st.freshTable next) calls (built.2, [])
    let records := calls.map LimiterCall.record
    let k := records.countP (Record.within start limits.interval.nanos)
    let passed := noted.2.2.countP (Noted.passedWithin start limits.interval.nanos)
    performEach (LimiterCall.perform built.1) calls built.2 = (noted.1, noted.2.1) ∧
      noted.2.2.map Noted.record = records ∧
      (∀ e ∈ noted.2.2, e.number ≤ calls.length) ∧
      (limits.every = 0 → passed ≤ 2 * limits.first) ∧
      (limits.every ≠ 0 → passed ≤ 2 * limits.first + k / limits.every + 1) := by
  intro built noted records k passed
  have hjournal : noted.2.2 = limits.notes {} records := Store.journal_eq hst hnext limits hshard
  obtain ⟨a, p, q, hpq, hquota⟩ := limits.quota_of_span hsorted
    (fun r hmem => by
      obtain ⟨call, hcall, rfl⟩ := List.mem_map.mp hmem
      exact hclock call hcall) {} start
  rw [← hjournal] at hquota
  have hk : k = p + q := hpq.symm
  have hpassed : quota limits.first limits.every a + passed =
    quota limits.first limits.every (a + p) + quota limits.first limits.every q := hquota
  refine ⟨st.performEach_note limits next calls, ?_, ?_, ?_, ?_⟩
  · rw [hjournal, limits.records_notes]
  · intro e he
    rw [hjournal] at he
    have hle := Limits.number_le_of_mem_notes he
    rw [List.length_map] at hle
    exact Nat.le_trans hle (Nat.le_of_eq (Nat.zero_add _))
  · intro hevery
    rw [hevery] at hpassed
    simp only [quota_every_zero] at hpassed
    omega
  · intro hevery
    have htail := quota_add_le limits.first hevery a p
    have hhead := quota_le limits.first limits.every q
    have hboth : p / limits.every + q / limits.every ≤ k / limits.every := by
      rw [hk]
      exact Nat.div_add_div_le_add_div
    omega

/-- Windows from 0 and from 10 on, and the span between 5 and 15 that meets both. Three of its
five records pass. -/
theorem any_span_bounded_two_windows :
    let next : Handler Endpoint World := .sink (.recorder { name := "r" })
    let st : Store Endpoint World := .ofWorld {}
    let limits : Limits := ⟨1, 2, ⟨10⟩⟩
    let calls := [0, 7, 9, 10, 12, 13, 15].map fun t : Int =>
      ({ record := ⟨.info, "a", ⟨t⟩, []⟩ } : LimiterCall)
    let records := calls.map LimiterCall.record
    let noted := performEach (LimiterCall.note limits st.freshTable next) calls
      ((st.addLimiter limits next).2, [])
    st.Numbered ∧ st.Knows next ∧
      (∀ call ∈ calls, call.record.shard = (⟨.info, "a", ⟨0⟩, []⟩ : Record).shard) ∧
      records.Pairwise (fun r r' => r.time.nanos ≤ r'.time.nanos) ∧
      (∀ call ∈ calls, call.record.time.nanos ≤ 2 ^ 63 - 2) ∧
      records.countP (Record.within 5 10) = 5 ∧
      (noted.2.2.filter (Noted.passedWithin 5 10)).map (fun e => e.record.time.nanos) =
        [9, 10, 13] ∧
      noted.2.2.countP (Noted.passedWithin 5 10) ≤ 2 * 1 + 5 / 2 + 1 := by
  intro next st limits calls records noted
  have hst : st.Numbered := Store.numbered_ofWorld {}
  have hnext : st.Knows next := fun _ _ => trivial
  have hshard : ∀ call ∈ calls, call.record.shard = (⟨.info, "a", ⟨0⟩, []⟩ : Record).shard := by
    decide +kernel
  have hsorted : records.Pairwise fun r r' => r.time.nanos ≤ r'.time.nanos := by decide +kernel
  have hclock : ∀ call ∈ calls, call.record.time.nanos ≤ 2 ^ 63 - 2 := by decide +kernel
  have hfive : records.countP (Record.within 5 10) = 5 := by decide +kernel
  obtain ⟨-, -, -, -, hbound⟩ :=
    any_span_bounded st limits next hst hnext calls _ hshard hsorted hclock 5
  have hle : noted.2.2.countP (Noted.passedWithin 5 10) ≤
    2 * 1 + records.countP (Record.within 5 10) / 2 + 1 := hbound (by decide)
  rw [hfive] at hle
  exact ⟨hst, hnext, hshard, hsorted, hclock, hfive, by decide +kernel, hle⟩

end LogAdmission
