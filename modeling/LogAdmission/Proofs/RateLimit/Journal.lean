import LogAdmission.Proofs.Handler.Frame
import LogAdmission.Proofs.RateLimit.Admission

/-!
# The journal of a limiter

A limiter at work with a journal beside the store: each record is noted with the number that it
has been given in its window, and whether it has been passed on. The journal makes no difference
(`performEach_note`). When all records are of one shard it holds what a single counter makes of
them (`journal_eq`), whatever the chain behind the limiter does.
-/

namespace LogAdmission

/-- A record that a limiter has counted. -/
structure Noted where
  record : Record
  /-- The number of the record in its window. -/
  number : Nat
  /-- Whether the record was passed on. -/
  passed : Bool
  deriving DecidableEq

/-- What one counter makes of records in turn. -/
def Limits.notes (limits : Limits) (c : Counter) : List Record → List Noted
  | [] => []
  | r :: later =>
    let counted := c.increment r.clock limits.width
    ⟨r, counted.1, decide (Admits limits.first limits.every counted.1)⟩ ::
      limits.notes counted.2 later

theorem Limits.records_notes (limits : Limits) (c : Counter) (records : List Record) :
    (limits.notes c records).map Noted.record = records := by
  induction records generalizing c with
  | nil => rfl
  | cons r later ih => simp only [notes, List.map_cons, ih]

theorem Limits.record_mem_of_mem_notes {limits : Limits} {c : Counter} {records : List Record}
    {e : Noted} (he : e ∈ limits.notes c records) : e.record ∈ records := by
  rw [← limits.records_notes c records]
  exact List.mem_map_of_mem he

/-- No record has a number beyond those counted so far and the records. -/
theorem Limits.number_le_of_mem_notes {limits : Limits} {c : Counter} {records : List Record}
    {e : Noted} (he : e ∈ limits.notes c records) : e.number ≤ c.count + records.length := by
  induction records generalizing c with
  | nil => cases he
  | cons r later ih =>
      have hcounted : (c.increment r.clock limits.width).1 ≤ c.count + 1 ∧
          (c.increment r.clock limits.width).2.count ≤ c.count + 1 := by
        unfold Counter.increment
        split
        · exact ⟨Nat.le_refl _, Nat.le_refl _⟩
        · exact ⟨Nat.le_add_left 1 c.count, Nat.le_add_left 1 c.count⟩
      rw [List.length_cons]
      rcases List.mem_cons.mp he with rfl | hlater
      · exact Nat.le_trans hcounted.1 (by omega)
      · have hle := ih hlater
        omega

/-- What is passed on is told by the number. -/
theorem Limits.passed_of_mem_notes {limits : Limits} {c : Counter} {records : List Record}
    {e : Noted} (he : e ∈ limits.notes c records) :
    e.passed = decide (Admits limits.first limits.every e.number) := by
  induction records generalizing c with
  | nil => cases he
  | cons r later ih =>
      rcases List.mem_cons.mp he with rfl | hlater
      · rfl
      · exact ih hlater

variable {κ σ : Type} [Sink κ σ]

namespace LimiterCall

/-- Handles the record by a limiter in front of `next` that counts in the given table, and notes
what becomes of it. -/
def note (limits : Limits) (table : Nat) (next : Handler κ σ) (call : LimiterCall) :
    Store κ σ × List Noted → Outcome × (Store κ σ × List Noted)
  | (st, journal) =>
    let counter := st.downstream.tables table call.record.counterIndex
    let number := (counter.increment call.record.clock limits.width).1
    match st.downstream.tally table limits call.record with
    | (true, d) =>
      let (outcome, st) :=
        (next.derive call.path).handle call.cx call.record { st with downstream := d }
      (outcome, st, journal ++ [⟨call.record, number, true⟩])
    | (false, d) => (.ok, { st with downstream := d }, journal ++ [⟨call.record, number, false⟩])

/-- The journal makes no difference. -/
theorem perform_of_note (limits : Limits) (table : Nat) (next : Handler κ σ) (call : LimiterCall)
    (s : Store κ σ × List Noted) :
    call.perform (.limited limits table next) s.1 =
      ((call.note limits table next s).1, (call.note limits table next s).2.1) := by
  obtain ⟨st, journal⟩ := s
  simp only [perform, note, Handler.derive_limited, Handler.handle]
  rcases st.downstream.tally table limits call.record with ⟨_ | _, d⟩
  · rfl
  · rfl

/-- What a call does to the counters and to the journal: the counter of the record counts once
more, and its number and what follows from it are noted. Nothing else counts in the table. -/
theorem note_counts (limits : Limits) {table : Nat} {next : Handler κ σ}
    (hnext : next.Spares table) {st : Store κ σ} (hst : st.Spares table) (journal : List Noted)
    (call : LimiterCall) :
    let counted := (st.downstream.tables table call.record.counterIndex).increment
      call.record.clock limits.width
    let after := (call.note limits table next (st, journal)).2
    after.1.Spares table ∧
      after.1.downstream.tables table =
        (st.downstream.tables table).put call.record.counterIndex counted.2 ∧
      after.2 = journal ++
        [⟨call.record, counted.1, decide (Admits limits.first limits.every counted.1)⟩] := by
  intro counted after
  have htally : st.downstream.tally table limits call.record =
      (decide (Admits limits.first limits.every counted.1),
        st.downstream.withTable table
          ((st.downstream.tables table).put call.record.counterIndex counted.2)) := by
    simp only [Downstream.tally, Limits.tally, limits.passes_eq, counted, Record.clock_eq_tick]
    rfl
  have hafter : after = (call.note limits table next (st, journal)).2 := rfl
  rw [note, htally] at hafter
  by_cases hadmits : Admits limits.first limits.every counted.1
  · rw [decide_eq_true hadmits] at hafter ⊢
    have hcounted : (st.withTable table
        ((st.downstream.tables table).put call.record.counterIndex counted.2)).Spares table := hst
    have hspared := (hnext.derive call.path).handle call.cx call.record hcounted
    have htables :=
      Handler.tables_handle (hnext.derive call.path) call.cx call.record hcounted
    rw [hafter]
    exact ⟨hspared, htables.trans (Cells.put_self _ _ _), rfl⟩
  · rw [decide_eq_false hadmits] at hafter ⊢
    rw [hafter]
    exact ⟨hst, Cells.put_self _ _ _, rfl⟩

end LimiterCall

/-- A limiter that was built in front of a chain, with its journal, over a run of calls. -/
def Store.journal (st : Store κ σ) (limits : Limits) (next : Handler κ σ)
    (calls : List LimiterCall) : List Noted :=
  (performEach (LimiterCall.note limits st.freshTable next) calls
    ((st.addLimiter limits next).2, [])).2.2

/-- The run that the journal is about is the run of the limiter. -/
theorem Store.performEach_note (st : Store κ σ) (limits : Limits) (next : Handler κ σ)
    (calls : List LimiterCall) :
    let built := st.addLimiter limits next
    let noted := performEach (LimiterCall.note limits st.freshTable next) calls (built.2, [])
    performEach (LimiterCall.perform built.1) calls built.2 = (noted.1, noted.2.1) :=
  performEach_part (LimiterCall.perform_of_note limits st.freshTable next) calls
    ((st.addLimiter limits next).2, [])

/-- **One counter for one shard.** Over records of one shard, the journal of a new limiter is
what a new counter makes of them. -/
theorem Store.journal_eq {st : Store κ σ} (hst : st.Numbered) {next : Handler κ σ}
    (hnext : st.Knows next) (limits : Limits) {calls : List LimiterCall} {shard : Int × Nat}
    (hshard : ∀ call ∈ calls, call.record.shard = shard) :
    st.journal limits next calls = limits.notes {} (calls.map LimiterCall.record) := by
  have hspared : next.Spares st.freshTable := hnext _ (Nat.le_refl _)
  -- what is in the journal, and what the counter will make of the records still to come
  let R : List LimiterCall → Store κ σ × List Noted → Prop := fun rest s =>
    s.1.Spares st.freshTable ∧ (∀ call ∈ rest, call.record.shard = shard) ∧
      ∃ c : Counter,
        (∀ call ∈ rest, s.1.downstream.tables st.freshTable call.record.counterIndex = c) ∧
        s.2 ++ limits.notes c (rest.map LimiterCall.record) =
          limits.notes {} (calls.map LimiterCall.record)
  have hstart : R calls ((st.addLimiter limits next).2, []) := by
    refine ⟨hst _ (Nat.le_refl _), hshard, {}, ?_, rfl⟩
    intro call _
    exact congrFun (Cells.put_self st.downstream.tables st.freshTable .fresh) _
  have hstep : ∀ {call rest s}, R (call :: rest) s →
      R rest (call.note limits st.freshTable next s).2 := by
    rintro call rest ⟨s, journal⟩ ⟨hs, hone, c, hcounter, hjournal⟩
    obtain ⟨hafter, htable, hnoted⟩ :=
      LimiterCall.note_counts limits hspared hs journal call
    rw [hcounter call List.mem_cons_self] at htable hnoted
    refine ⟨hafter, fun call' h => hone call' (List.mem_cons_of_mem _ h),
      (c.increment call.record.clock limits.width).2, ?_, ?_⟩
    · intro call' h
      have hsame : call'.record.counterIndex = call.record.counterIndex := by
        rw [counterIndex_eq_iff, hone call' (List.mem_cons_of_mem _ h),
          hone call List.mem_cons_self]
      rw [htable, hsame, Cells.put_self]
    · rw [hnoted, List.append_assoc]
      exact hjournal
  obtain ⟨-, -, c, -, hjournal⟩ := performEach_keeps hstep calls hstart
  rw [← hjournal]
  exact (List.append_nil _).symm

end LogAdmission
