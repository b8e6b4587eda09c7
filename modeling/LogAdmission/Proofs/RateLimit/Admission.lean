import LogAdmission.Proofs.Handler.Frame
import LogAdmission.Proofs.RateLimit.Law
import LogAdmission.Proofs.Runs
import LogAdmission.Sink.Endpoint

/-!
# What a limiter lets through

A limiter, its copies and the chains derived from it share one table of counters, which
nothing else counts in. Behind any records, the table has seen exactly these, so that the
window law tells which record passes next.
-/

namespace LogAdmission

variable {κ σ : Type} [Sink κ σ]

/-- A record handled by a limiter or by a chain derived from it. -/
structure LimiterCall where
  path : List (List Attr ⊕ String) := []
  cx : Context := {}
  record : Record

namespace LimiterCall

/-- Handles the record by a chain derived from the given one. -/
def perform (h : Handler κ σ) (call : LimiterCall) (st : Store κ σ) : Outcome × Store κ σ :=
  (h.derive call.path).handle call.cx call.record st

/-- What the window law says of the call, behind the records handled before it: the record is
passed on as it is if its place admits it, and otherwise nothing is done. -/
def passOn (limits : Limits) (next : Handler κ σ) (call : LimiterCall) :
    Store κ σ × List Record → Outcome × (Store κ σ × List Record)
  | (st, earlier) =>
    if Admits limits.first limits.every (limits.ordinal earlier call.record) then
      let (outcome, st) := (next.derive call.path).handle call.cx call.record st
      (outcome, st, earlier ++ [call.record])
    else (.ok, st, earlier ++ [call.record])

variable {table : Nat} {next : Handler κ σ} {st : Store κ σ}

/-- Over a table that has seen the earlier records a limiter does what the law says, and the
table then has seen one more. -/
theorem perform_limited (limits : Limits) (hnext : next.Spares table) (hst : st.Spares table)
    (earlier : List Record) (call : LimiterCall) :
    call.perform (.limited limits table next)
        (st.withTable table (limits.countersAfter earlier)) =
      ((call.passOn limits next (st, earlier)).1,
        (call.passOn limits next (st, earlier)).2.1.withTable table
          (limits.countersAfter (call.passOn limits next (st, earlier)).2.2)) := by
  have htally : (st.withTable table (limits.countersAfter earlier)).downstream.tally table limits
      call.record =
        (decide (Admits limits.first limits.every (limits.ordinal earlier call.record)),
          st.downstream.withTable table (limits.countersAfter (earlier ++ [call.record]))) := by
    simp only [Downstream.tally, Store.withTable, Downstream.withTable, Cells.put_self,
      limits.tally_countersAfter, Cells.put_put]
  simp only [perform, Handler.derive_limited, Handler.handle, htally, passOn]
  by_cases hadmits : Admits limits.first limits.every (limits.ordinal earlier call.record)
  · rw [decide_eq_true hadmits, if_pos hadmits]
    exact Handler.handle_withTable (hnext.derive call.path) call.cx call.record _ hst
  · rw [decide_eq_false hadmits, if_neg hadmits]
    rfl

theorem passOn_spares (limits : Limits) (hnext : next.Spares table) (hst : st.Spares table)
    (earlier : List Record) (call : LimiterCall) :
    (call.passOn limits next (st, earlier)).2.1.Spares table := by
  simp only [passOn]
  split
  · exact (hnext.derive call.path).handle call.cx call.record hst
  · exact hst

/-- Calls are handled in turn, up to one that is aborted. -/
theorem earlier_performAll (limits : Limits) (next : Handler κ σ) (calls : List LimiterCall)
    (t : Store κ σ × List Record) :
    (performAll (passOn limits next) calls t).2.2 <+: t.2 ++ calls.map record := by
  induction calls generalizing t with
  | nil => exact List.prefix_append t.2 []
  | cons call rest ih =>
      have hone : (call.passOn limits next t).2.2 = t.2 ++ [call.record] := by
        simp only [passOn]
        split
        · rfl
        · rfl
      have hall : t.2 ++ (call :: rest).map record =
          (call.passOn limits next t).2.2 ++ rest.map record := by
        rw [hone, List.append_assoc]
        rfl
      rw [hall]
      by_cases ha : (call.passOn limits next t).1 = .aborted
      · rw [performAll_cons_aborted rest ha]
        exact List.prefix_append _ _
      · rw [performAll_cons_of_ne rest ha]
        exact ih _

end LimiterCall

/-- **A limiter lets through what the window law admits.** Whatever records are handled by a
limiter that was built in front of a chain, by its copies and by chains derived from it, those
that the law admits are passed on as they are and in their order, with the outcomes of the
chain, and the others are dropped without an error. The counters of the limiter are those
that have seen the records, and everything else in the store is as the passed records leave
it. No count exceeds the number of records, and every record has its counter in the table. -/
theorem limiter_follows_window_law (st : Store κ σ) (limits : Limits) (next : Handler κ σ)
    (hst : st.Numbered) (hnext : st.Knows next) (calls : List LimiterCall) :
    let built := st.addLimiter limits next
    let real := performAll (LimiterCall.perform built.1) calls built.2
    let law := performAll (LimiterCall.passOn limits next) calls (built.2, [])
    real.1 = law.1 ∧ law.2.2 <+: calls.map LimiterCall.record ∧
      real.2 = law.2.1.withTable st.freshTable (limits.countersAfter law.2.2) ∧
      (∀ i, (limits.countersAfter law.2.2 i).count ≤ calls.length) ∧
      ∀ r : Record, r.counterIndex < levelBuckets * shardsPerLevel := by
  intro built real law
  have hspared : next.Spares st.freshTable := hnext _ (Nat.le_refl _)
  -- the two stores differ in the table of the limiter only, which has seen all records so far
  let R : List LimiterCall → Store κ σ → Store κ σ × List Record → Prop := fun _ s t =>
    t.1.Spares st.freshTable ∧ s = t.1.withTable st.freshTable (limits.countersAfter t.2)
  have hstart : R calls built.2 (built.2, []) := by
    refine ⟨hst _ (Nat.le_refl _), ?_⟩
    show _ = ({ st.withTable st.freshTable .fresh with freshTable := _ } : Store κ σ).withTable
      st.freshTable .fresh
    simp only [Store.withTable, Downstream.withTable_withTable]
    rfl
  have hstep : ∀ {call rest s t}, R (call :: rest) s t →
      (call.perform built.1 s).1 = (call.passOn limits next t).1 ∧
        (call.perform built.1 s).2 = (call.passOn limits next t).2.1.withTable st.freshTable
          (limits.countersAfter (call.passOn limits next t).2.2) ∧
        ((call.perform built.1 s).1 ≠ .aborted →
          R rest (call.perform built.1 s).2 (call.passOn limits next t).2) := by
    rintro call rest s ⟨s', earlier⟩ ⟨hsp, rfl⟩
    have heq := LimiterCall.perform_limited limits hspared hsp earlier call
    have hbuilt : built.1 = .limited limits st.freshTable next := rfl
    rw [hbuilt, heq]
    exact ⟨rfl, rfl, fun _ => ⟨LimiterCall.passOn_spares limits hspared hsp earlier call, rfl⟩⟩
  obtain ⟨hout, hstore, -⟩ := performAll_simulates
    (V := fun (s : Store κ σ) (t : Store κ σ × List Record) =>
      s = t.1.withTable st.freshTable (limits.countersAfter t.2))
    (fun h => h.2) hstep calls hstart
  have hearlier := LimiterCall.earlier_performAll limits next calls (built.2, [])
  refine ⟨hout, hearlier, hstore, ?_, counterIndex_lt⟩
  intro i
  have hle := hearlier.length_le
  rw [List.nil_append, List.length_map] at hle
  exact Nat.le_trans (limits.count_countersAfter_le law.2.2 i) hle

/-- One record of each window and after it every second one, by a limiter in front of another
limiter. Two shards are counted apart; the clock runs backwards once, and one record goes
through a derived chain. -/
theorem limiter_follows_window_law_two_shards :
    let inner := (Store.ofWorld {}).addLimiter ⟨100, 0, ⟨1⟩⟩
      (.sink (.recorder { name := "r" }) : Handler Endpoint World)
    let limits : Limits := ⟨1, 2, ⟨10⟩⟩
    let built := inner.2.addLimiter limits inner.1
    let say (level : Level) (time : Int) (path : List (List Attr ⊕ String)) : LimiterCall :=
      { path := path, record := ⟨level, "a", ⟨time⟩, []⟩ }
    let calls : List LimiterCall :=
      [say .info (-7) [], say .error 1 [], say .info 1 [], say .info 2 [.inr "g"],
        say .info 12 [], say .info 3 [], say .error 4 []]
    inner.2.Numbered ∧ inner.2.Knows inner.1 ∧
      (performAll (LimiterCall.perform built.1) calls built.2).2.world.received.reverse.filterMap
          (fun
            | (_, .record _ _ _ r) => some r.time.nanos
            | (_, .piece _) => none) =
        [-7, 1, 2, 12] := by
  intro inner limits built say calls
  have hknown : (Store.ofWorld {}).Knows (.sink (.recorder { name := "r" }) :
      Handler Endpoint World) := fun _ _ => trivial
  obtain ⟨hnumbered, hinner⟩ :=
    (Store.numbered_ofWorld {}).addLimiter ⟨100, 0, ⟨1⟩⟩ hknown
  obtain ⟨-, -, hstore, -⟩ :=
    limiter_follows_window_law inner.2 limits inner.1 hnumbered hinner calls
  refine ⟨hnumbered, hinner, ?_⟩
  rw [hstore]
  decide +kernel

end LogAdmission
