import Mathlib
import LogAdmission.RateLimit

/-!
# The window law

Which records a limiter lets through, told without counters: the records of a shard fall
into windows (`windows`), each record has its place in its window (`ordinal`), and the place
decides (`Admits`). A table of counters that has seen some records holds for each shard the
end and the length of the last of its windows (`countersAfter`), and counting one more record
gives its place (`tally_countersAfter`).
-/

namespace LogAdmission

/-! ## Shards -/

/-- The 32-bit hash FNV-1a, in numbers. -/
def fnv1a (bytes : List UInt8) : Nat :=
  bytes.foldl (fun hash b => (hash ^^^ b.toNat) * 16777619 % 2 ^ 32) 2166136261

namespace Record

/-- The shard of a record: the bucket of its level, and the place of its message there. -/
def shard (r : Record) : Int × Nat :=
  ((max (-8) (min r.level.severity.toInt 8) + 8) / 4, fnv1a (Text.bytes r.message) % 4096)

/-- The number of the counter of a record. -/
def counterIndex (r : Record) : Nat :=
  shardOf r.level r.message

/-- The time of a record on a clock that does not leave the range of 63 bits. -/
def clock (r : Record) : Nat :=
  (max 0 (min r.time.nanos (2 ^ 63 - 1))).toNat

theorem clock_eq_tick (r : Record) : r.clock = r.time.tick := by
  show (max 0 (min r.time.nanos (2 ^ 63 - 1))).toNat = min r.time.nanos.toNat (2 ^ 63 - 1)
  omega

end Record

/-- Arithmetic of 32-bit words is arithmetic of numbers up to `2 ^ 32`. -/
theorem toNat_hash32 (bytes : List UInt8) : (hash32 bytes).toNat = fnv1a bytes := by
  have hfold : ∀ (bytes : List UInt8) (hash : UInt32),
      (bytes.foldl (fun hash b => (hash ^^^ b.toUInt32) * 16777619) hash).toNat =
        bytes.foldl (fun hash b => (hash ^^^ b.toNat) * 16777619 % 2 ^ 32) hash.toNat := by
    intro bytes
    induction bytes with
    | nil => exact fun _ => rfl
    | cons b rest ih =>
        intro hash
        rw [List.foldl_cons, List.foldl_cons, ih]
        simp [UInt32.toNat_mul]
  exact hfold bytes 2166136261

theorem toInt_clamp (l : Level) :
    l.clamp.severity.toInt = max (-8) (min l.severity.toInt 8) := by
  have htrace : Level.trace.severity.toInt = -8 := by decide
  have herror : Level.error.severity.toInt = 8 := by decide
  unfold Level.clamp
  split
  · rename_i hlow
    have hlow : l.severity.toInt < Level.trace.severity.toInt := hlow
    omega
  · rename_i hlow
    have hlow : ¬ l.severity.toInt < Level.trace.severity.toInt := hlow
    split
    · rename_i hhigh
      have hhigh : Level.error.severity.toInt < l.severity.toInt := hhigh
      omega
    · rename_i hhigh
      have hhigh : ¬ Level.error.severity.toInt < l.severity.toInt := hhigh
      omega

theorem levelBucket_eq (l : Level) :
    (levelBucket l : Int) = (max (-8) (min l.severity.toInt 8) + 8) / 4 := by
  have htrace : Level.trace.severity.toInt = -8 := by decide
  have hgap : Level.gap.toInt = 4 := by decide
  rw [levelBucket, toInt_clamp, htrace, hgap]
  omega

theorem levelBucket_lt (l : Level) : levelBucket l < levelBuckets := by
  have h := levelBucket_eq l
  rw [levelBuckets_eq]
  omega

/-- Every record has its counter in the table. -/
theorem counterIndex_lt (r : Record) : r.counterIndex < levelBuckets * shardsPerLevel := by
  have hbucket := levelBucket_lt r.level
  have hplace : (hash32 (Text.bytes r.message)).toNat % shardsPerLevel < shardsPerLevel :=
    Nat.mod_lt _ (by decide)
  unfold Record.counterIndex shardOf
  rw [levelBuckets_eq] at *
  unfold shardsPerLevel at *
  omega

/-- Records share a counter if and only if they are of one shard. -/
theorem counterIndex_eq_iff (r r' : Record) :
    r.counterIndex = r'.counterIndex ↔ r.shard = r'.shard := by
  have hbucket := levelBucket_eq r.level
  have hbucket' := levelBucket_eq r'.level
  simp only [Record.counterIndex, shardOf, Record.shard, Prod.mk.injEq, toNat_hash32,
    shardsPerLevel, ← hbucket, ← hbucket']
  omega

/-! ## Windows -/

/-- When a window ends that a record opens at `start`. -/
def endAfter (interval start : Nat) : Nat :=
  min (start + interval) (2 ^ 63 - 1)

/-- The windows of the records at the given times, when one is open already: the time of the
record that opened it, and of those that joined it. -/
def windowsFrom (interval start : Nat) (joined : List Nat) : List Nat → List (List Nat)
  | [] => [start :: joined]
  | t :: later =>
    if t < endAfter interval start then windowsFrom interval start (joined ++ [t]) later
    else (start :: joined) :: windowsFrom interval t [] later

/-- The windows of the records at the given times: the first record opens one, and after it
every record that does not come before the end of the window open then. -/
def windows (interval : Nat) : List Nat → List (List Nat)
  | [] => []
  | t :: later => windowsFrom interval t [] later

/-- Every record is in one window, and the order is kept. -/
theorem flatten_windows (interval : Nat) (times : List Nat) :
    (windows interval times).flatten = times := by
  have hfrom : ∀ later start joined,
      (windowsFrom interval start joined later).flatten = start :: joined ++ later := by
    intro later
    induction later with
    | nil => simp [windowsFrom]
    | cons t later ih =>
        intro start joined
        unfold windowsFrom
        split
        · rw [ih]
          simp
        · rw [List.flatten_cons, ih]
          simp
  cases times with
  | nil => rfl
  | cons t later => exact hfrom later t []

theorem windowsFrom_snoc (interval : Nat) (later : List Nat) (start : Nat) (joined : List Nat) :
    ∃ before start' joined',
      windowsFrom interval start joined later = before ++ [start' :: joined'] ∧
      ∀ t, windowsFrom interval start joined (later ++ [t]) =
        if t < endAfter interval start' then before ++ [start' :: (joined' ++ [t])]
        else before ++ [start' :: joined', [t]] := by
  -- which window is the last one depends on the records between: induction over them
  induction later generalizing start joined with
  | nil =>
      refine ⟨[], start, joined, rfl, ?_⟩
      intro t
      rw [List.nil_append, windowsFrom]
      split
      · rfl
      · rfl
  | cons u later ih =>
      rw [windowsFrom]
      by_cases hu : u < endAfter interval start
      · obtain ⟨before, start', joined', heq, hsnoc⟩ := ih start (joined ++ [u])
        refine ⟨before, start', joined', ?_, ?_⟩
        · rw [if_pos hu, heq]
        · intro t
          rw [List.cons_append, windowsFrom, if_pos hu, hsnoc]
      · obtain ⟨before, start', joined', heq, hsnoc⟩ := ih u []
        refine ⟨(start :: joined) :: before, start', joined', ?_, ?_⟩
        · rw [if_neg hu, heq, List.cons_append]
        · intro t
          rw [List.cons_append, windowsFrom, if_neg hu, hsnoc]
          split
          · rfl
          · rfl

/-- One more record joins the last window or opens a new one. -/
theorem windows_snoc (interval : Nat) {times : List Nat} (hne : times ≠ []) :
    ∃ before start joined,
      windows interval times = before ++ [start :: joined] ∧
      ∀ t, windows interval (times ++ [t]) =
        if t < endAfter interval start then before ++ [start :: (joined ++ [t])]
        else before ++ [start :: joined, [t]] := by
  cases times with
  | nil => exact absurd rfl hne
  | cons first later => exact windowsFrom_snoc interval later first []

/-- The place of the last record in its window. -/
def lastPlace (interval : Nat) (times : List Nat) : Nat :=
  ((windows interval times).getLast?.getD []).length

/-- The counter that has seen the records at the given times. -/
def counterAfter (interval : Nat) (times : List Nat) : Counter :=
  match (windows interval times).getLast? with
  | some (start :: joined) => ⟨endAfter interval start, joined.length + 1⟩
  | _ => {}

/-- Counting one more record gives its place. -/
theorem increment_counterAfter (interval : Nat) (times : List Nat) (t : Nat) :
    (counterAfter interval times).increment t interval =
      (lastPlace interval (times ++ [t]), counterAfter interval (times ++ [t])) := by
  by_cases hne : times = []
  · subst hne
    rfl
  · obtain ⟨before, start, joined, heq, hsnoc⟩ := windows_snoc interval hne
    have hlast : ∀ (ws : List (List Nat)) w, (ws ++ [w]).getLast? = some w := fun _ _ =>
      List.getLast?_concat
    -- the counter holds the end and the length of the last window, and looks at nothing else
    by_cases ht : t < endAfter interval start
    · simp only [lastPlace, counterAfter, heq, hsnoc, if_pos ht, hlast, Counter.increment,
        Option.getD_some, List.length_cons, List.length_append, List.length_nil, Nat.zero_add]
    · have happend : before ++ [start :: joined, [t]] = (before ++ [start :: joined]) ++ [[t]] := by
        rw [List.append_assoc]
        rfl
      simp only [lastPlace, counterAfter, heq, hsnoc, if_neg ht, happend, hlast,
        Counter.increment, Option.getD_some]
      rfl

/-- A counter never counts more than it has seen. -/
theorem count_counterAfter_le (interval : Nat) (times : List Nat) :
    (counterAfter interval times).count ≤ times.length := by
  unfold counterAfter
  split
  · rename_i start joined hlast
    have hmem : start :: joined ∈ windows interval times := List.mem_of_getLast? hlast
    have hle := (List.sublist_flatten_of_mem hmem).length_le
    rw [flatten_windows] at hle
    exact hle
  · exact Nat.zero_le _

/-! ## What a limiter counts -/

/-- Whether a record passes by its place: among the first of its window, and every so many
after them. -/
def Admits (first every n : Nat) : Prop :=
  n ≤ first ∨ every ≠ 0 ∧ (n - first) % every = 0

instance (first every n : Nat) : Decidable (Admits first every n) :=
  inferInstanceAs (Decidable (_ ∨ _))

namespace Limits

/-- The length of a window. -/
def width (l : Limits) : Nat :=
  min l.interval.nanos (2 ^ 63 - 1)

/-- The place of a record in its window, behind the records handled before it. Only those
of its shard matter. -/
def ordinal (l : Limits) (earlier : List Record) (r : Record) : Nat :=
  lastPlace l.width (((earlier ++ [r]).filter fun e => e.shard = r.shard).map Record.clock)

/-- The counters that have seen the records. -/
def countersAfter (l : Limits) (earlier : List Record) : CounterTable := fun i =>
  counterAfter l.width ((earlier.filter fun e => e.counterIndex = i).map Record.clock)

theorem count_countersAfter_le (l : Limits) (earlier : List Record) (i : Nat) :
    (l.countersAfter earlier i).count ≤ earlier.length := by
  have hle := count_counterAfter_le l.width
    ((earlier.filter fun e => e.counterIndex = i).map Record.clock)
  rw [List.length_map] at hle
  exact Nat.le_trans hle (List.length_filter_le _ _)

theorem passes_eq (l : Limits) (n : Nat) : l.passes n = decide (Admits l.first l.every n) := by
  rw [Bool.eq_iff_iff, decide_eq_true_iff]
  simp [passes, Admits]

/-- **The window law.** The limiter counts a record of a shard as the next one of that shard,
and lets it through if its place admits it. -/
theorem tally_countersAfter (l : Limits) (earlier : List Record) (r : Record) :
    l.tally r (l.countersAfter earlier) =
      (decide (Admits l.first l.every (l.ordinal earlier r)),
        l.countersAfter (earlier ++ [r])) := by
  have hshard : (fun e : Record => decide (e.counterIndex = r.counterIndex)) =
      fun e => decide (e.shard = r.shard) := by
    funext e
    rw [decide_eq_decide]
    exact counterIndex_eq_iff e r
  have hown : ((earlier.filter fun e => e.shard = r.shard).map Record.clock) ++ [r.time.tick] =
      ((earlier ++ [r]).filter fun e => e.shard = r.shard).map Record.clock := by
    have hself : [r].filter (fun e => e.shard = r.shard) = [r] := by simp
    rw [List.filter_append, List.map_append, hself, ← r.clock_eq_tick]
    rfl
  have hcount : (l.countersAfter earlier r.counterIndex).increment r.time.tick l.width =
      (l.ordinal earlier r, l.countersAfter (earlier ++ [r]) r.counterIndex) := by
    unfold countersAfter ordinal
    rw [increment_counterAfter, hshard, hown]
  have hput : (l.countersAfter earlier).put r.counterIndex
      (l.countersAfter (earlier ++ [r]) r.counterIndex) = l.countersAfter (earlier ++ [r]) := by
    funext i
    by_cases hi : i = r.counterIndex
    · rw [hi, Cells.put_self]
    · -- a record of another shard leaves this counter as it was
      rw [Cells.put_ne _ _ hi]
      have hother : [r].filter (fun e => e.counterIndex = i) = [] := by simp [Ne.symm hi]
      unfold countersAfter
      rw [List.filter_append, hother, List.append_nil]
  have hindex : shardOf r.level r.message = r.counterIndex := rfl
  have hwidth : l.interval.ticks = l.width := rfl
  simp only [tally, hindex, hwidth, hcount, hput, passes_eq]

end Limits

end LogAdmission
